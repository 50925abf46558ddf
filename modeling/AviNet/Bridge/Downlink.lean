import AviNet.Bridge.Gateway
import AviNet.Lib.Broadcast

/-!
# Bridge.Downlink — the task that passes messages on to the devices

`AviP2p::start` broadcasts every event on a channel made by `channel(1000)`, which
keeps the last 1024. The downlink task reads it and sends each message to the
devices that subscribe to its topic, for which it needs the table of sessions: it
waits as long as the uplink task handles a packet.

* `handleDownlinkEvent`: what one event sends;
* `running_iff`: while the sender exists the loop keeps running and passes every
  event on, in order, exactly if no read comes more than 1024 events late;
* `loop_ends`: 1025 events, and the loop has ended.
-/

namespace AviNet

/-- `handle_downlink_event`; `order` is the order in which the table is iterated. -/
def Bridge.handleDownlinkEvent {Addr : Type} [LinearOrder Addr]
    (order : List (Addr × DeviceSession) → List (Addr × DeviceSession)) (self : Bridge Addr) :
    AviEvent → Bridge Addr
  | .message _ topic data =>
    (order self.sessions.entries).foldl (fun self e =>
      if topic ∈ e.2.subscriptions then self.sendTo e.1 maxPacketSize (.message topic data)
      else self) self
  | _ => self

/-- The capacity of the channel of events: `channel(1000)` makes room for the next
power of two. -/
def eventCapacity : ℕ := 1024

example : IsLeast {c | 1000 ≤ c ∧ ∃ k, c = 2 ^ k} eventCapacity := by
  refine ⟨⟨by decide, 10, rfl⟩, ?_⟩
  rintro c ⟨hc, k, rfl⟩
  have hk : 10 ≤ k := by
    by_contra hlt
    have hle : 2 ^ k ≤ 2 ^ 9 := Nat.pow_le_pow_right (by omega) (by omega)
    omega
  show 2 ^ 10 ≤ 2 ^ k
  exact Nat.pow_le_pow_right (by omega) hk

/-- Where the downlink task stands. -/
inductive DownlinkLoop where
  | receiving
  /-- in `handle_downlink_event` -/
  | handling (event : AviEvent)
  | ended

/-- A gateway with the channel of events and the task that reads it. -/
structure Downlink (Peer Addr : Type) [LinearOrder Peer] [LinearOrder Addr] where
  gw : Gateway Peer Addr
  channel : Broadcast AviEvent eventCapacity
  /-- the position of the task in the channel -/
  next : ℕ
  /-- the sender exists -/
  sender : Bool
  loop : DownlinkLoop
  /-- all events broadcast so far -/
  sent : List AviEvent
  /-- how many of them came before the task -/
  start : ℕ
  /-- the events given to `handle_downlink_event` -/
  passed : List AviEvent

namespace Downlink

variable {Peer Addr : Type} [LinearOrder Peer] [LinearOrder Addr]

/-! ## Model layer -/

inductive Label (Peer Addr : Type) where
  /-- a step of the uplink task or of the runtime -/
  | gateway (l : Gateway.Label Peer Addr)
  /-- the forwarding task of the node broadcasts an event -/
  | broadcast (event : AviEvent)
  /-- the task reads the channel -/
  | recv
  /-- the task handles what it has read -/
  | handle (env : Env Peer)
  /-- the last handle of the node goes -/
  | dropSender

def step (lib : External Peer) (toVec : Value → Bytes) (s : Downlink Peer Addr) :
    Label Peer Addr → Option (Downlink Peer Addr)
  | .gateway l => (s.gw.step lib toVec l).map fun gw => { s with gw := gw }
  | .broadcast event =>
    if s.sender then some { s with channel := s.channel.send event, sent := s.sent ++ [event] }
    else none
  | .recv =>
    match s.loop with
    | .receiving =>
      match s.channel.recv s.next with
      | (.value event, next) =>
        some { s with next := next, loop := .handling event, passed := s.passed ++ [event] }
      | (.lagged _, next) => some { s with next := next, loop := .ended }
      | (.empty, _) => if s.sender then none else some { s with loop := .ended }
    | _ => none
  | .handle env =>
    match s.loop with
    | .handling (.message source topic data) =>
      match s.gw.task with
      | .idle =>
        let bridge := s.gw.bridge.handleDownlinkEvent env.order (.message source topic data)
        some { s with gw := { s.gw with bridge := bridge }, loop := .receiving }
      | _ => none
    | .handling _ => some { s with loop := .receiving }
    | _ => none
  | .dropSender => some { s with sender := false }

/-- The task has just subscribed. -/
def Init (s : Downlink Peer Addr) : Prop :=
  s.gw.bridge = .start ∧ s.gw.task = .idle ∧ s.channel.Represents s.sent ∧
    s.next = s.sent.length ∧ s.start = s.sent.length ∧ s.sender = true ∧ s.loop = .receiving ∧
    s.passed = []

end Downlink

open Downlink in
/-- The machine of a gateway with both tasks of its bridge. -/
def downlink {Peer : Type} (Addr : Type) [LinearOrder Peer] [LinearOrder Addr]
    (lib : External Peer) (toVec : Value → Bytes) :
    Machine (Downlink Peer Addr) (Downlink.Label Peer Addr) where
  Init := Init
  step := step lib toVec

namespace Downlink

variable {Peer Addr : Type} [LinearOrder Peer] [LinearOrder Addr] {lib : External Peer}
  {toVec : Value → Bytes}

/-- As long as the sender exists the loop runs, and it has passed on all events up
to its position. -/
def Running (s : Downlink Peer Addr) : Prop :=
  s.sender = true → s.loop ≠ .ended ∧ s.passed = (s.sent.take s.next).drop s.start

/-- The task reads before it is more than the capacity behind. -/
def InTime (s : Downlink Peer Addr) : Label Peer Addr → Prop
  | .recv => s.sender = true → s.channel.total - s.next ≤ eventCapacity
  | _ => True

/-! ## Steps -/

/-- What every run keeps. -/
structure Inv (s : Downlink Peer Addr) : Prop where
  channel : s.channel.Represents s.sent
  start : s.start ≤ s.next
  next : s.next ≤ s.sent.length

theorem init_inv {s : Downlink Peer Addr} (h : (downlink Addr lib toVec).Init s) :
    s.Inv ∧ s.Running := by
  rcases h with ⟨-, -, hchannel, hnext, hstart, -, hloop, hpassed⟩
  refine ⟨⟨hchannel, by rw [hstart, hnext], hnext.le⟩, ?_⟩
  intro _
  constructor
  · rw [hloop]
    exact nofun
  · rw [hpassed, hnext, hstart, List.take_length, List.drop_length]

/-- **Inversion** of a read. -/
theorem step_recv {s t : Downlink Peer Addr} (hinv : s.Inv)
    (h : (downlink Addr lib toVec).step s .recv = some t) : s.loop = .receiving ∧
    ((eventCapacity < s.sent.length - s.next ∧
        t = { s with next := s.sent.length - eventCapacity, loop := .ended }) ∨
      (s.sent.length - s.next ≤ eventCapacity ∧
        ∃ event, s.sent[s.next]? = some event ∧ t = { s with
          next := s.next + 1, loop := .handling event, passed := s.passed ++ [event] }) ∨
      (s.sender = false ∧ t = { s with loop := .ended })) := by
  simp only [downlink, step] at h
  cases hloop : s.loop with
  | handling event =>
    rw [hloop] at h
    cases h
  | ended =>
    rw [hloop] at h
    cases h
  | receiving =>
    refine ⟨rfl, ?_⟩
    simp only [hloop] at h
    rw [Broadcast.recv_eq hinv.channel hinv.next] at h
    by_cases hlag : eventCapacity < s.sent.length - s.next
    · -- `recv` answers `Lagged`
      rw [if_pos hlag] at h
      cases h
      exact Or.inl ⟨hlag, rfl⟩
    · rw [if_neg hlag] at h
      cases hget : s.sent[s.next]? with
      | some event =>
        rw [hget] at h
        cases h
        exact Or.inr (Or.inl ⟨Nat.le_of_not_lt hlag, event, rfl, rfl⟩)
      | none =>
        -- nothing to read: `recv` waits, unless the sender is gone
        rw [hget] at h
        dsimp only at h
        split_ifs at h with hsender
        cases h
        exact Or.inr (Or.inr ⟨Bool.eq_false_iff.mpr hsender, rfl⟩)

/-- A step that is no read and no broadcast leaves the channel and the position
alone, and the loop keeps running. -/
theorem step_other {s t : Downlink Peer Addr} {l : Label Peer Addr}
    (h : (downlink Addr lib toVec).step s l = some t) :
    l = .recv ∨ (∃ event, l = .broadcast event ∧ s.sender = true ∧
      t = { s with channel := s.channel.send event, sent := s.sent ++ [event] }) ∨
    ∃ gw sender loop, t = { s with gw := gw, sender := sender, loop := loop } ∧
      (sender = true → s.sender = true) ∧ (s.loop ≠ .ended → loop ≠ .ended) ∧ l ≠ .recv := by
  cases l with
  | recv => exact Or.inl rfl
  | broadcast event =>
    -- the runtime emits: the ring grows with the record
    simp only [downlink, step] at h
    split_ifs at h with hsender
    cases h
    exact Or.inr (Or.inl ⟨event, rfl, hsender, rfl⟩)
  | gateway l =>
    -- the gateway leaves the loop alone
    obtain ⟨gw, -, rfl⟩ := Option.map_eq_some_iff.mp h
    exact Or.inr (Or.inr ⟨gw, s.sender, s.loop, rfl, id, id, nofun⟩)
  | handle env =>
    -- a handled event sets the loop free again
    refine Or.inr (Or.inr ?_)
    simp only [downlink, step] at h
    split at h
    · split at h
      · cases h
        exact ⟨_, s.sender, .receiving, rfl, id, fun _ => nofun, nofun⟩
      · cases h
    · cases h
      exact ⟨s.gw, s.sender, .receiving, rfl, id, fun _ => nofun, nofun⟩
    · cases h
  | dropSender =>
    cases h
    exact Or.inr (Or.inr ⟨s.gw, false, s.loop, rfl, nofun, id, nofun⟩)

/-- Every step keeps the ring in line with the events. -/
theorem step_inv (s : Downlink Peer Addr) (l : Label Peer Addr) (t : Downlink Peer Addr)
    (hstep : (downlink Addr lib toVec).step s l = some t) (h : s.Inv) : t.Inv := by
  rcases h with ⟨hchannel, hstart, hnext⟩
  rcases step_other hstep with rfl | ⟨event, rfl, -, rfl⟩ | ⟨gw, sender, loop, rfl, -⟩
  · obtain ⟨-, ⟨hlag, rfl⟩ | ⟨-, event, hget, rfl⟩ | ⟨-, rfl⟩⟩ :=
      step_recv ⟨hchannel, hstart, hnext⟩ hstep
    · refine ⟨hchannel, ?_, Nat.sub_le _ _⟩
      dsimp only
      omega
    · obtain ⟨hlt, -⟩ := List.getElem?_eq_some_iff.mp hget
      exact ⟨hchannel, Nat.le_succ_of_le hstart, hlt⟩
    · exact ⟨hchannel, hstart, hnext⟩
  · refine ⟨hchannel.send event, hstart, ?_⟩
    rw [List.length_append]
    exact Nat.le_add_right_of_le hnext
  · exact ⟨hchannel, hstart, hnext⟩

/-- A step leaves the loop running exactly if it is in time. -/
theorem step_running_iff (s : Downlink Peer Addr) (l : Label Peer Addr) (t : Downlink Peer Addr)
    (hstep : (downlink Addr lib toVec).step s l = some t) (hinv : s.Inv) (h : s.Running) :
    t.Running ↔ s.InTime l := by
  rcases step_other hstep with rfl | ⟨event, rfl, hsender, rfl⟩ |
    ⟨gw, sender, loop, rfl, halive, hloop, hl⟩
  · have htotal : s.channel.total = s.sent.length := hinv.channel.total
    obtain ⟨-, ⟨hlag, rfl⟩ | ⟨hle, event, hget, rfl⟩ | ⟨hsender, rfl⟩⟩ := step_recv hinv hstep
    · -- too late: the loop ends
      unfold Running InTime
      rw [htotal]
      constructor
      · intro hrun hsender
        exact absurd rfl (hrun hsender).1
      · intro hok hsender
        exact absurd (hok hsender) (Nat.not_le_of_lt hlag)
    · -- in time: the event at the position is passed on
      unfold InTime
      rw [htotal]
      refine iff_of_true ?_ fun _ => hle
      intro hsender
      refine ⟨nofun, ?_⟩
      obtain ⟨hlt, hevent⟩ := List.getElem?_eq_some_iff.mp hget
      have hlen : s.start ≤ (s.sent.take s.next).length := by
        rw [List.length_take_of_le hinv.next]
        exact hinv.start
      dsimp only
      rw [(h hsender).2, List.take_succ_eq_append_getElem hlt, List.drop_append_of_le_length hlen,
        hevent]
    · -- the sender is gone, so nothing is promised
      refine iff_of_true ?_ ?_
      · intro halive
        rw [show s.sender = true from halive] at hsender
        cases hsender
      · intro halive
        rw [hsender] at halive
        cases halive
  · -- a broadcast comes after all that has been read
    refine iff_of_true ?_ True.intro
    intro _
    rcases h hsender with ⟨hloop, hpassed⟩
    refine ⟨hloop, ?_⟩
    dsimp only
    rw [List.take_append_of_le_length hinv.next]
    exact hpassed
  · refine iff_of_true ?_ ?_
    · intro hsender
      rcases h (halive hsender) with ⟨hrunning, hpassed⟩
      exact ⟨hloop hrunning, hpassed⟩
    · cases l with
      | recv => exact absurd rfl hl
      | _ => exact True.intro

/-! ## Runs -/

/-- **The downlink**: in every run of a gateway, however events, packets, turns of
the runtime and the downlink task interleave, the loop runs in every state in
which the sender exists and has passed on all events up to its position
exactly if at each of its reads at most 1024 events are unread. -/
theorem running_iff (lib : External Peer) (toVec : Value → Bytes) (s t : Downlink Peer Addr)
    (h₀ : (downlink Addr lib toVec).Init s) (ls : List (Label Peer Addr))
    (hrun : (downlink Addr lib toVec).run s ls = some t) :
    (downlink Addr lib toVec).AllStates Running s ls ↔
      (downlink Addr lib toVec).AllSteps InTime s ls := by
  obtain ⟨hinv, hrunning⟩ := init_inv h₀
  exact (downlink Addr lib toVec).allStates_iff_of_invariant step_inv step_running_iff hrun
    hinv hrunning

/-! ## 1025 events -/

/-- A gateway whose bridge has just started. -/
def booted : Downlink String ℕ :=
  ⟨⟨.new External.plain "gateway" 0, .start, .idle⟩, .empty, 0, true, .receiving, [], 0, []⟩

/-- A message on some topic. -/
def tick : AviEvent := .message ⟨"peer"⟩ "tick" [1]

theorem booted_init : (downlink ℕ External.plain fun _ => []).Init booted :=
  ⟨rfl, rfl, Broadcast.represents_empty, rfl, rfl, rfl, rfl, rfl⟩

/-- A device says hello, and a message is broadcast, read and handled. -/
def oneMessage : List (Label String ℕ) :=
  [.gateway (.packet 0 1 (.hello 7)), .broadcast tick, .gateway .resume, .recv,
    .handle (.calm String)]

theorem running_iff_oneMessage :
    (downlink ℕ External.plain fun _ => []).AllStates Running booted oneMessage ↔
      (downlink ℕ External.plain fun _ => []).AllSteps InTime booted oneMessage := by
  have hrun : ((downlink ℕ External.plain fun _ => []).run booted oneMessage).isSome = true := by
    decide +kernel
  obtain ⟨t, ht⟩ := Option.isSome_iff_exists.mp hrun
  exact running_iff _ _ booted t booted_init _ ht

/-- Broadcasts while the task does not read. -/
theorem run_broadcast (s : Downlink Peer Addr) (hsender : s.sender = true) (es : List AviEvent) :
    ∃ channel, (downlink Addr lib toVec).run s (es.map .broadcast) =
      some { s with channel := channel, sent := s.sent ++ es } := by
  induction es generalizing s with
  | nil =>
    refine ⟨s.channel, ?_⟩
    rw [List.append_nil]
    rfl
  | cons e es ih =>
    have hstep : (downlink Addr lib toVec).step s (.broadcast e) =
        some { s with channel := s.channel.send e, sent := s.sent ++ [e] } := if_pos hsender
    obtain ⟨channel, htail⟩ :=
      ih { s with channel := s.channel.send e, sent := s.sent ++ [e] } hsender
    refine ⟨channel, ?_⟩
    rw [List.map_cons, Machine.run_cons, hstep, Option.bind_some, htail]
    simp only [List.append_assoc, List.singleton_append]

/-- A read that comes too late ends the loop. -/
theorem recv_late {s : Downlink Peer Addr} (hinv : s.Inv) (hloop : s.loop = .receiving)
    (hlag : eventCapacity < s.sent.length - s.next) :
    ∃ t, (downlink Addr lib toVec).step s .recv = some t ∧ t.loop = .ended ∧
      t.sender = s.sender := by
  simp only [downlink, step, hloop]
  rw [Broadcast.recv_eq hinv.channel hinv.next, if_pos hlag]
  exact ⟨_, rfl, rfl, rfl⟩

/-- 1025 messages while the task is not reading, and the loop is gone. -/
theorem loop_ends : ¬ ∀ (s : Downlink String ℕ) ls,
    (downlink ℕ External.plain fun _ => []).Init s →
      (downlink ℕ External.plain fun _ => []).AllStates Running s ls := by
  intro h
  let M := downlink ℕ External.plain fun _ => []
  obtain ⟨channel, hsend⟩ : ∃ channel, M.run booted _ = some _ :=
    run_broadcast booted rfl (List.replicate 1025 tick)
  have hinv := M.run_invariant step_inv hsend (init_inv booted_init).1
  have hlag : eventCapacity < ([] ++ List.replicate 1025 tick).length - 0 := by
    rw [List.nil_append, List.length_replicate]
    decide
  obtain ⟨t, hread, hended, hsender⟩ : ∃ t, M.step _ .recv = some t ∧ _ :=
    recv_late hinv rfl hlag
  have hrun : M.run booted ((List.replicate 1025 tick).map .broadcast ++ [.recv]) = some t :=
    M.run_append_eq_some.mpr ⟨_, hsend, M.run_cons_eq_some.mpr ⟨t, hread, rfl⟩⟩
  have hall := h booted ((List.replicate 1025 tick).map .broadcast ++ [.recv] ++ []) booted_init
  exact (Machine.AllStates.at_cut M hall hrun hsender).1 hended

end Downlink

end AviNet
