import AviNet.Bridge.SessionStreams
import AviNet.Lib.Machine
import Mathlib.Data.Finset.Insert

/-!
# Bridge.Isolation — what one device can do to the others

The uplink task beside a mesh that answers its calls in any way, except that
`request_stream` never grants the same id twice. Devices tell the ids they
use, so the table of a session is all that keeps the streams of two devices
apart.

* `Isolated`: what holds of the packet that is handled or has just been handled,
  and of the streams stored;
* `isolated`: it holds in every state of every run.
-/

namespace AviNet

/-- A packet, its sender, and the bridge when it came. -/
structure Handling (Addr : Type) [LinearOrder Addr] where
  addr : Addr
  msg : UplinkMessage
  before : Bridge Addr

/-- The uplink task with its bridge, and what has been granted. -/
structure UplinkTask (Addr : Type) [LinearOrder Addr] where
  bridge : Bridge Addr
  task : Caller (Bridge Addr) Command Reply
  /-- the packet that came last -/
  last : Option (Handling Addr)
  /-- the ids that `request_stream` has returned -/
  returned : Finset UInt64
  /-- the ids returned to the `StreamStart`s of a device since its last `Hello` -/
  opened : Addr → Finset UInt64

namespace UplinkTask

variable {Addr : Type} [LinearOrder Addr]

/-! ## Model layer -/

inductive Label (Addr : Type) where
  /-- a packet, handled up to the first call -/
  | packet (now : UInt64) (addr : Addr) (msg : UplinkMessage)
  /-- the mesh answers, and the handler goes on to the next call -/
  | answer (r : Reply)

/-- The id an answer grants. -/
def granted (s : UplinkTask Addr) (r : Reply) : Option StreamId :=
  match s.task, r with
  | .waiting (.requestStream _ _) _, .stream (.ok id) => some id
  | _, _ => none

/-- A `Hello` starts a new session, for which no stream has been opened. -/
def renew (opened : Addr → Finset UInt64) (addr : Addr) : UplinkMessage → Addr → Finset UInt64
  | .hello _ => Function.update opened addr ∅
  | _ => opened

def step (toVec : Value → Bytes) (s : UplinkTask Addr) : Label Addr → Option (UplinkTask Addr)
  | .packet now addr msg =>
    match s.task with
    | .idle =>
      let p := s.bridge.handleUplinkPacket toVec now addr msg
      some { s with
        bridge := p.state
        task := p.stop
        last := some ⟨addr, msg, s.bridge⟩
        opened := renew s.opened addr msg }
    | _ => none
  | .answer r =>
    match s.task, s.last with
    | .waiting _ k, some packet =>
      some { s with
        bridge := (k r).state
        task := (k r).stop
        returned := match s.granted r with
          | some id => insert id.id s.returned
          | none => s.returned
        opened := match s.granted r with
          | some id => Function.update s.opened packet.addr (insert id.id (s.opened packet.addr))
          | none => s.opened }
    | _, _ => none

/-- A bridge that has just started. -/
def Init (s : UplinkTask Addr) : Prop :=
  s.bridge = .start ∧ s.task = .idle ∧ s.last = none ∧ s.returned = ∅ ∧ ∀ addr, s.opened addr = ∅

end UplinkTask

open UplinkTask in
/-- The machine of the uplink task. -/
def uplinkTask (Addr : Type) [LinearOrder Addr] (toVec : Value → Bytes) :
    Machine (UplinkTask Addr) (UplinkTask.Label Addr) where
  Init := Init
  step := step toVec

namespace UplinkTask

variable {Addr : Type} [LinearOrder Addr] {toVec : Value → Bytes}

/-- `request_stream` grants an id that it has not granted before. -/
def NewId (s : UplinkTask Addr) : Label Addr → Prop
  | .answer r =>
    match s.granted r with
    | some id => id.id ∉ s.returned
    | none => True
  | .packet _ _ _ => True

instance (s : UplinkTask Addr) : ∀ l, Decidable (s.NewId l)
  | .answer r =>
    match h : s.granted r with
    | some id => decidable_of_iff (id.id ∉ s.returned) (by simp only [NewId, h])
    | none => isTrue (by simp only [NewId, h])
  | .packet _ _ _ => isTrue True.intro

/-- The devices are isolated from each other. -/
structure Isolated (s : UplinkTask Addr) : Prop where
  /-- a packet changes no other session -/
  others : ∀ packet, s.last = some packet → ∀ addr, addr ≠ packet.addr →
    s.bridge.sessions.get? addr = packet.before.sessions.get? addr
  /-- it is answered to its sender only -/
  datagrams : ∀ packet, s.last = some packet →
    ∃ out, s.bridge.sent = packet.before.sent ++ out ∧ ∀ d ∈ out, d.1 = packet.addr
  /-- without a session there is no change, no call and no datagram -/
  stranger : ∀ packet, s.last = some packet → packet.before.sessions.get? packet.addr = none →
    ¬ Bridge.IsHello packet.msg → s.bridge = packet.before ∧ s.task = .idle
  /-- no mesh stream is stored twice -/
  distinct : ∀ addr i addr' i' id, s.bridge.stored addr i = some id →
    s.bridge.stored addr' i' = some id → addr = addr' ∧ i = i'
  /-- a call about a stream is about one that the sender has opened since its `Hello` -/
  own : ∀ packet cmd k id, s.last = some packet → s.task = .waiting cmd k →
    Bridge.meshStream cmd = some id → id.id ∈ s.opened packet.addr

/-! ## The invariant -/

/-- What is left of a packet from `addr`: calls about streams in `opened` that
change no map, or one request whose stream will be stored. -/
inductive Rest (v : Addr → UInt8 → Option StreamId) (addr : Addr) (opened : Finset UInt64) :
    Caller (Bridge Addr) Command Reply → Prop
  | idle : Rest v addr opened .idle
  | quiet {cmd : Command} {k : Reply → Bridge.Code Addr}
      (hopen : ∀ peerId reason, cmd ≠ .requestStream peerId reason)
      (hcmd : ∀ id, Bridge.meshStream cmd = some id → id.id ∈ opened)
      (h : ∀ r, (k r).Stays (fun b => b.stored = v) (Bridge.Quiet (v addr))) :
      Rest v addr opened (.waiting cmd k)
  | asked {peerId : PeerId} {reason : String} {i : UInt8} {k : Reply → Bridge.Code Addr}
      (h : ∀ r, ∃ b, k r = .done b ∧ b.stored = match r with
        | .stream (.ok id) => Bridge.assign v addr i (some id)
        | _ => v) :
      Rest v addr opened (.waiting (.requestStream peerId reason) k)

/-- The streams stored are among those opened, and no id has been granted twice. -/
structure Streams (v : Addr → UInt8 → Option StreamId) (opened : Addr → Finset UInt64)
    (returned : Finset UInt64) : Prop where
  stored : ∀ addr i id, v addr i = some id → id.id ∈ opened addr
  once : ∀ addr i j id, v addr i = some id → v addr j = some id → i = j
  returned : ∀ addr, opened addr ⊆ returned
  apart : ∀ addr addr' id, id ∈ opened addr → id ∈ opened addr' → addr = addr'

/-- So far the packet has changed the session of its sender only, and so it goes on. -/
structure Framed (packet : Handling Addr) (bridge : Bridge Addr)
    (task : Caller (Bridge Addr) Command Reply) : Prop where
  now : Bridge.Local packet.before packet.addr bridge
  later : ∀ cmd k, task = .waiting cmd k → ∀ r,
    (k r).Stays (Bridge.Local packet.before packet.addr) fun _ => True
  stranger : packet.before.sessions.get? packet.addr = none → ¬ Bridge.IsHello packet.msg →
    bridge = packet.before ∧ task = .idle

/-- What every run keeps. -/
structure Inv (s : UplinkTask Addr) : Prop where
  streams : Streams s.bridge.stored s.opened s.returned
  rest : ∀ packet, s.last = some packet →
    Rest s.bridge.stored packet.addr (s.opened packet.addr) s.task
  framed : ∀ packet, s.last = some packet → Framed packet s.bridge s.task

theorem Inv.verdict {s : UplinkTask Addr} (h : s.Inv) : s.Isolated := by
  refine ⟨?_, ?_, ?_, ?_, ?_⟩
  · intro packet hlast
    exact (h.framed packet hlast).now.1
  · intro packet hlast
    exact (h.framed packet hlast).now.2
  · intro packet hlast
    exact (h.framed packet hlast).stranger
  · intro addr i addr' i' id hi hi'
    have haddr : addr = addr' :=
      h.streams.apart addr addr' id.id (h.streams.stored addr i id hi)
        (h.streams.stored addr' i' id hi')
    subst haddr
    exact ⟨rfl, h.streams.once addr i i' id hi hi'⟩
  · intro packet cmd k id hlast htask hcmd
    have hrest := h.rest packet hlast
    rw [htask] at hrest
    cases hrest with
    | quiet hopen hown _ => exact hown id hcmd
    | asked _ => cases hcmd

theorem init_inv {s : UplinkTask Addr} (h : (uplinkTask Addr toVec).Init s) : s.Inv := by
  rcases h with ⟨hbridge, htask, hlast, -, hopened⟩
  have hstored : ∀ addr i, s.bridge.stored addr i = none := by
    intro addr i
    rw [hbridge]
    rfl
  refine ⟨⟨?_, ?_, ?_, ?_⟩, ?_, ?_⟩
  · -- no session has a stream
    intro addr i id hi
    rw [hstored] at hi
    cases hi
  · intro addr i j id hi
    rw [hstored] at hi
    cases hi
  · -- and none was opened
    intro addr
    rw [hopened]
    exact Finset.empty_subset _
  · intro addr addr' id hid
    rw [hopened] at hid
    exact absurd hid (Finset.notMem_empty id)
  · intro packet hp
    rw [hlast] at hp
    cases hp
  · intro packet hp
    rw [hlast] at hp
    cases hp

/-! ## Streams stored and forgotten -/

section Streams

variable {v : Addr → UInt8 → Option StreamId} {opened : Addr → Finset UInt64}
  {returned : Finset UInt64} {addr : Addr} {i : UInt8}

omit [LinearOrder Addr] in
/-- Fewer streams stored. -/
theorem Streams.forget {v' : Addr → UInt8 → Option StreamId} (h : Streams v opened returned)
    (hsub : ∀ a j id, v' a j = some id → v a j = some id) : Streams v' opened returned := by
  refine ⟨?_, ?_, h.returned, h.apart⟩
  · intro a j id hj
    exact h.stored a j id (hsub a j id hj)
  · intro a j j' id hj hj'
    exact h.once a j j' id (hsub a j id hj) (hsub a j' id hj')

/-- A new session. -/
theorem Streams.hello (h : Streams v opened returned) (addr : Addr) :
    Streams (Function.update v addr fun _ => none) (Function.update opened addr ∅) returned := by
  -- what was opened since the last Hello has become less
  have hsub : ∀ a, Function.update opened addr ∅ a ⊆ opened a := by
    intro a
    by_cases ha : a = addr
    · rw [ha, Function.update_self]
      exact Finset.empty_subset _
    · rw [Function.update_of_ne ha]
  have hstored : ∀ a j id, Function.update v addr (fun _ => none) a j = some id →
      a ≠ addr ∧ v a j = some id := by
    intro a j id hj
    by_cases ha : a = addr
    · rw [ha, Function.update_self] at hj
      cases hj
    · rw [Function.update_of_ne ha] at hj
      exact ⟨ha, hj⟩
  refine ⟨?_, ?_, ?_, ?_⟩
  · -- only the other sessions have streams left
    intro a j id hj
    rcases hstored a j id hj with ⟨ha, hv⟩
    rw [Function.update_of_ne ha]
    exact h.stored a j id hv
  · intro a j j' id hj hj'
    exact h.once a j j' id (hstored a j id hj).2 (hstored a j' id hj').2
  · intro a
    exact (hsub a).trans (h.returned a)
  · intro a a' id ha ha'
    exact h.apart a a' id (hsub a ha) (hsub a' ha')

/-- A stream that is granted and stored. -/
theorem Streams.store (h : Streams v opened returned) {id : StreamId} (hnew : id.id ∉ returned) :
    Streams (Bridge.assign v addr i (some id))
      (Function.update opened addr (insert id.id (opened addr))) (insert id.id returned) := by
  -- the new id counts as opened here
  have hmem : ∀ a x, x ∈ Function.update opened addr (insert id.id (opened addr)) a ↔
      (a = addr ∧ x = id.id) ∨ x ∈ opened a := by
    intro a x
    by_cases ha : a = addr
    · subst ha
      rw [Function.update_self, Finset.mem_insert]
      simp
    · rw [Function.update_of_ne ha]
      simp [ha]
  -- no session had it
  have hold : ∀ a j id', v a j = some id' → id' ≠ id := by
    rintro a j id' hj rfl
    exact hnew (h.returned a (h.stored a j id' hj))
  refine ⟨?_, ?_, ?_, ?_⟩
  · -- the new entry, or an old one
    intro a j id' hj
    rw [hmem]
    rcases Bridge.assign_eq_some hj with ⟨ha, -, hid⟩ | ⟨-, hj⟩
    · cases hid
      exact Or.inl ⟨ha, rfl⟩
    · exact Or.inr (h.stored a j id' hj)
  · -- the new id stands under one name only
    intro a j j' id' hj hj'
    rcases Bridge.assign_eq_some hj with ⟨-, hji, hid⟩ | ⟨-, hj⟩ <;>
      rcases Bridge.assign_eq_some hj' with ⟨-, hji', hid'⟩ | ⟨-, hj'⟩
    · rw [hji, hji']
    · exact absurd (Option.some.inj hid).symm (hold a j' id' hj')
    · exact absurd (Option.some.inj hid').symm (hold a j id' hj)
    · exact h.once a j j' id' hj hj'
  · intro a x hx
    rcases (hmem a x).mp hx with ⟨-, hx⟩ | hx
    · rw [hx]
      exact Finset.mem_insert_self _ _
    · exact Finset.mem_insert_of_mem (h.returned a hx)
  · -- nobody else has the new id
    intro a a' x hx hx'
    rcases (hmem a x).mp hx with ⟨ha, hxid⟩ | hx <;>
      rcases (hmem a' x).mp hx' with ⟨ha', hxid'⟩ | hx'
    · rw [ha, ha']
    · exact absurd (h.returned a' (hxid ▸ hx')) hnew
    · exact absurd (h.returned a (hxid' ▸ hx)) hnew
    · exact h.apart a a' x hx hx'

end Streams

/-! ## Steps -/

/-- **Inversion**: a packet is handled up to its first call, or a call is answered. -/
theorem step_cases {s t : UplinkTask Addr} {l : Label Addr}
    (h : (uplinkTask Addr toVec).step s l = some t) :
    (∃ now addr msg, l = .packet now addr msg ∧ s.task = .idle ∧ t = { s with
      bridge := (s.bridge.handleUplinkPacket toVec now addr msg).state
      task := (s.bridge.handleUplinkPacket toVec now addr msg).stop
      last := some ⟨addr, msg, s.bridge⟩
      opened := renew s.opened addr msg }) ∨
    ∃ r cmd k packet, l = .answer r ∧ s.task = .waiting cmd k ∧ s.last = some packet ∧
      t = { s with
        bridge := (k r).state
        task := (k r).stop
        returned := match s.granted r with
          | some id => insert id.id s.returned
          | none => s.returned
        opened := match s.granted r with
          | some id => Function.update s.opened packet.addr (insert id.id (s.opened packet.addr))
          | none => s.opened } := by
  cases l with
  | packet now addr msg =>
    simp only [uplinkTask, step] at h
    split at h
    · rename_i hidle
      cases h
      exact Or.inl ⟨now, addr, msg, rfl, hidle, rfl⟩
    · cases h
  | answer r =>
    simp only [uplinkTask, step] at h
    split at h
    · rename_i cmd k packet htask hlast
      cases h
      exact Or.inr ⟨r, cmd, k, packet, rfl, htask, hlast, rfl⟩
    · cases h

/-- A quiet program goes on quietly. -/
theorem rest_of_stays {v : Addr → UInt8 → Option StreamId} {addr : Addr} {opened : Finset UInt64}
    {p : Bridge.Code Addr} (h : p.Stays (fun b => b.stored = v) (Bridge.Quiet (v addr)))
    (hv : ∀ i id, v addr i = some id → id.id ∈ opened) : Rest v addr opened p.stop := by
  cases p with
  | done b => exact .idle
  | call b cmd k =>
    rcases h with ⟨-, hcmd, hk⟩
    refine .quiet ?_ ?_ hk
    · rintro peerId reason rfl
      exact hcmd
    · intro id hid
      cases cmd with
      | sendStreamData id' data =>
        cases hid
        obtain ⟨i, hi⟩ := hcmd
        exact hv i id hi
      | closeStream id' => exact hcmd.elim
      | _ => cases hid

/-- Whatever is left of a framed program is framed. -/
theorem framed_of_stays {packet : Handling Addr} {p : Bridge.Code Addr}
    (h : p.Stays (Bridge.Local packet.before packet.addr) fun _ => True)
    (hstranger : packet.before.sessions.get? packet.addr = none → ¬ Bridge.IsHello packet.msg →
      p.state = packet.before ∧ p.stop = .idle) : Framed packet p.state p.stop := by
  refine ⟨h.state, ?_, hstranger⟩
  intro cmd k hstop
  cases p with
  | done b => cases hstop
  | call b cmd' k' =>
    cases hstop
    exact h.2.2

/-- A packet is handled up to its first call. -/
theorem packet_inv {s : UplinkTask Addr} (h : s.Inv) (now : UInt64) (addr : Addr)
    (msg : UplinkMessage) : Inv { s with
      bridge := (s.bridge.handleUplinkPacket toVec now addr msg).state
      task := (s.bridge.handleUplinkPacket toVec now addr msg).stop
      last := some ⟨addr, msg, s.bridge⟩
      opened := renew s.opened addr msg } := by
  -- the packet frames what follows, whatever the handler does
  have hframed : Framed ⟨addr, msg, s.bridge⟩
      (s.bridge.handleUplinkPacket toVec now addr msg).state
      (s.bridge.handleUplinkPacket toVec now addr msg).stop := by
    apply framed_of_stays
    · exact Bridge.handleUplinkPacket_frame toVec now addr s.bridge msg
    · intro hnone hmsg
      rw [Bridge.handleUplinkPacket_stranger toVec now hnone hmsg]
      exact ⟨rfl, rfl⟩
  have hshape := Bridge.handleUplinkPacket_shape toVec now addr s.bridge msg
  generalize s.bridge.handleUplinkPacket toVec now addr msg = p at hframed hshape ⊢
  suffices hstreams : Streams p.state.stored (renew s.opened addr msg) s.returned ∧
      Rest p.state.stored addr (renew s.opened addr msg addr) p.stop by
    refine ⟨hstreams.1, ?_, ?_⟩
    · rintro packet hpacket
      cases hpacket
      exact hstreams.2
    · rintro packet hpacket
      cases hpacket
      exact hframed
  cases hshape with
  | quiet hmsg hstays =>
    -- no stream is opened or closed
    have hopened : renew s.opened addr msg = s.opened := by
      cases msg with
      | hello deviceId => exact absurd True.intro hmsg
      | _ => rfl
    have hstored : p.state.stored = s.bridge.stored := hstays.state
    rw [hopened, hstored]
    exact ⟨h.streams, rest_of_stays hstays fun i id hi => h.streams.stored addr i id hi⟩
  | @hello deviceId b' hstored =>
    -- the session starts anew
    refine ⟨?_, .idle⟩
    show Streams b'.stored _ _
    rw [hstored]
    exact h.streams.hello addr
  -- the stream that is asked for is not here yet
  | streamStart htarget hk => exact ⟨h.streams, .asked hk⟩
  | @streamClose i id b' k hget hstored hk =>
    -- an entry less
    constructor
    · refine h.streams.forget ?_
      intro a j id' hj
      change b'.stored a j = some id' at hj
      rw [hstored] at hj
      rcases Bridge.assign_eq_some hj with ⟨-, -, hnone⟩ | ⟨-, hj⟩
      · cases hnone
      · exact hj
    · -- the id that is closed was opened in this session
      refine .quiet ?_ ?_ ?_
      · intro peerId reason heq
        cases heq
      · intro id' hid
        cases hid
        exact h.streams.stored addr i id hget
      · intro r
        rw [hk]
        exact rfl

/-- An id is granted by the answer to a request only. -/
theorem granted_cases (s : UplinkTask Addr) (r : Reply) :
    (∃ peerId reason k id, s.task = .waiting (.requestStream peerId reason) k ∧
      r = .stream (.ok id) ∧ s.granted r = some id) ∨
    (s.granted r = none ∧ ∀ peerId reason k id,
      s.task = .waiting (.requestStream peerId reason) k → r ≠ .stream (.ok id)) := by
  unfold granted
  split
  · rename_i peerId reason k id htask
    exact Or.inl ⟨peerId, reason, k, id, htask, rfl, rfl⟩
  · rename_i hno
    refine Or.inr ⟨rfl, ?_⟩
    rintro peerId reason k id htask rfl
    exact hno peerId reason k id htask rfl

/-- A call is answered. -/
theorem answer_inv {s t : UplinkTask Addr} (h : s.Inv) {r : Reply} (hnew : s.NewId (.answer r))
    (hstep : (uplinkTask Addr toVec).step s (.answer r) = some t) : t.Inv := by
  rcases step_cases hstep with ⟨now, addr, msg, hl, -⟩ |
    ⟨r', cmd, k, packet, hl, htask, hlast, rfl⟩
  · cases hl
  · cases hl
    have hframed : Framed packet (k r).state (k r).stop := by
      apply framed_of_stays
      · exact (h.framed packet hlast).later cmd k htask r
      · intro hnone hmsg
        have hidle := ((h.framed packet hlast).stranger hnone hmsg).2
        rw [htask] at hidle
        cases hidle
    have hrest := h.rest packet hlast
    rw [htask] at hrest
    -- it is enough to look at the streams
    have hinv : ∀ {returned opened}, Streams (k r).state.stored opened returned →
        Rest (k r).state.stored packet.addr (opened packet.addr) (k r).stop →
          Inv ⟨(k r).state, (k r).stop, s.last, returned, opened⟩ := by
      intro returned opened hstreams hleft
      refine ⟨hstreams, ?_, ?_⟩
      · intro packet' hpacket
        rw [show s.last = some packet' from hpacket] at hlast
        cases hlast
        exact hleft
      · intro packet' hpacket
        rw [show s.last = some packet' from hpacket] at hlast
        cases hlast
        exact hframed
    cases hrest with
    | quiet hopen hcmd hk =>
      -- the call was no request, so it grants nothing
      rcases granted_cases s r with ⟨peerId, reason, k', id, hask, -⟩ | ⟨hnone, -⟩
      · rw [htask] at hask
        cases hask
        exact absurd rfl (hopen peerId reason)
      · have hstored : (k r).state.stored = s.bridge.stored := (hk r).state
        rw [hnone]
        apply hinv
        · rw [hstored]
          exact h.streams
        · rw [hstored]
          exact rest_of_stays (hk r) fun i id hi => h.streams.stored packet.addr i id hi
    | @asked peerId reason i k hk =>
      obtain ⟨b, hdone, hstored⟩ := hk r
      rcases granted_cases s r with ⟨peerId', reason', k', id, -, rfl, hsome⟩ | ⟨hnone, hno⟩
      · -- a new id is stored
        simp only [NewId, hsome] at hnew
        simp only [hsome]
        apply hinv
        · rw [hdone, show (Program.done b).state.stored = _ from hstored]
          exact h.streams.store hnew
        · rw [hdone]
          exact .idle
      · -- the request is refused
        have hsame : b.stored = s.bridge.stored := by
          rw [hstored]
          split
          · exact absurd rfl (hno peerId reason k _ htask)
          · rfl
        rw [hnone]
        apply hinv
        · rw [hdone, show (Program.done b).state.stored = _ from hsame]
          exact h.streams
        · rw [hdone]
          exact .idle

/-- Every step with a fresh id keeps the invariant. -/
theorem step_inv (s : UplinkTask Addr) (l : Label Addr) (t : UplinkTask Addr)
    (hstep : (uplinkTask Addr toVec).step s l = some t) (hnew : s.NewId l) (h : s.Inv) :
    t.Inv := by
  cases l with
  | packet now addr msg =>
    rcases step_cases hstep with ⟨now', addr', msg', hl, -, rfl⟩ | ⟨r, cmd, k, packet, hl, -⟩
    · exact packet_inv h now' addr' msg'
    · cases hl
  | answer r => exact answer_inv h hnew hstep

/-! ## Runs -/

/-- **Isolation**: in every run of the uplink task, with packets from any addresses
and any answers of the mesh among which `request_stream` grants no id twice,
the devices are isolated in every state. -/
theorem isolated (toVec : Value → Bytes) (s : UplinkTask Addr)
    (h₀ : (uplinkTask Addr toVec).Init s) (ls : List (Label Addr))
    (hnew : (uplinkTask Addr toVec).AllSteps NewId s ls) :
    (uplinkTask Addr toVec).AllStates Isolated s ls := by
  have hinv : (uplinkTask Addr toVec).AllStates Inv s ls :=
    (uplinkTask Addr toVec).allStates_of_allSteps step_inv (init_inv h₀) hnew
  exact Machine.AllStates.mono _ (fun _ h => h.verdict) hinv

/-- A bridge that has just started. -/
def booted : UplinkTask ℕ := ⟨.start, .idle, none, ∅, fun _ => ∅⟩

/-- Two devices open a stream each under the same id, and one sends on it and
closes it. -/
def twoStreams : List (Label ℕ) :=
  [.packet 0 1 (.hello 7), .packet 0 2 (.hello 8),
    .packet 0 1 (.streamStart 5 "peer" "chat"), .answer (.stream (.ok ⟨1⟩)),
    .packet 0 2 (.streamStart 5 "peer" "chat"), .answer (.stream (.ok ⟨2⟩)),
    .packet 0 1 (.streamData 5 [1]), .answer (.done (.ok ())),
    .packet 0 1 (.streamClose 5)]

theorem isolated_twoStreams : (uplinkTask ℕ fun _ => []).AllStates Isolated booted twoStreams :=
  isolated (fun _ => []) booted ⟨rfl, rfl, rfl, rfl, fun _ => rfl⟩ twoStreams (by decide +kernel)

end UplinkTask

end AviNet
