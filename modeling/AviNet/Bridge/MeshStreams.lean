import AviNet.Bridge.Downlink
import AviNet.Bridge.SessionStreams
import AviNet.Runtime.StreamTurn

/-!
# Bridge.MeshStreams — the sessions' streams and the runtime's table

The bridge opens mesh streams for its devices and closes them when they say so.
A mesh stream that ends in any other way is reported by an event that the
bridge does not look at, and a session or an id that is used again drops the
streams stored there.

* `Exact`: whenever nothing is left to handle, the streams of the bridge in the
  runtime's table are the streams stored in the sessions, each stored once;
* `exact_of_tidy`: that holds all along a run in which no stored stream ends
  behind the bridge's back and none is overwritten;
* `stale_stream`: a peer closes a stream, and the session keeps it.
-/

namespace AviNet

/-- A gateway, the events its downlink task has still to handle, and the ids that
`request_stream` has returned to the bridge. -/
structure MeshStreams (Peer Addr : Type) [LinearOrder Peer] [LinearOrder Addr] where
  gw : Gateway Peer Addr
  pending : List AviEvent
  opened : Finset UInt64

namespace MeshStreams

variable {Peer Addr : Type} [LinearOrder Peer] [LinearOrder Addr]

/-! ## Model layer -/

inductive Label (Peer Addr : Type) where
  /-- a step of the uplink task or of the runtime -/
  | gateway (l : Gateway.Label Peer Addr)
  /-- the downlink task handles the oldest event -/
  | handle (env : Env Peer)

/-- The effects of the runtime's turn in a step, if there is one. -/
def effectsOf (lib : External Peer) (gw : Gateway Peer Addr) :
    Gateway.Label Peer Addr → List (Effect Peer)
  | .serve env =>
    match gw.task with
    | .waiting cmd _ => (gw.rt.turn lib env (.command cmd)).2
    | _ => []
  | .turn env l => (gw.rt.turn lib env l).2
  | .packet _ _ _ | .resume => []

/-- The id that `request_stream` returns to the bridge in a step. -/
def granted (lib : External Peer) (gw : Gateway Peer Addr) :
    Gateway.Label Peer Addr → Option UInt64
  | .serve env =>
    match Runtime.replyOf (effectsOf lib gw (.serve env)) with
    | some (.stream (.ok id)) => some id.id
    | _ => none
  | _ => none

def step (lib : External Peer) (toVec : Value → Bytes) (s : MeshStreams Peer Addr) :
    Label Peer Addr → Option (MeshStreams Peer Addr)
  | .gateway l =>
    (s.gw.step lib toVec l).map fun gw => {
      gw := gw
      pending := s.pending ++ Runtime.eventsOf (effectsOf lib s.gw l)
      opened := (granted lib s.gw l).elim s.opened fun id => insert id s.opened }
  | .handle env =>
    match s.pending, s.gw.task with
    | .message source topic data :: pending, .idle =>
      let bridge := s.gw.bridge.handleDownlinkEvent env.order (.message source topic data)
      some { s with gw := { s.gw with bridge := bridge }, pending := pending }
    -- the uplink task has the table of sessions
    | .message _ _ _ :: _, _ => none
    | _ :: pending, _ => some { s with pending := pending }
    | [], _ => none

/-- A gateway that has just started. -/
def Init (lib : External Peer) (s : MeshStreams Peer Addr) : Prop :=
  (∃ localPeerId now, s.gw.rt = .new lib localPeerId now) ∧ s.gw.bridge = .start ∧
    s.gw.task = .idle ∧ s.pending = [] ∧ s.opened = ∅

end MeshStreams

open MeshStreams in
/-- The machine of a gateway whose streams are watched. -/
def meshStreams {Peer : Type} (Addr : Type) [LinearOrder Peer] [LinearOrder Addr]
    (lib : External Peer) (toVec : Value → Bytes) :
    Machine (MeshStreams Peer Addr) (MeshStreams.Label Peer Addr) where
  Init := Init lib
  step := step lib toVec

namespace MeshStreams

variable {Peer Addr : Type} [LinearOrder Peer] [LinearOrder Addr]

/-- The id is in the runtime's table. -/
def InTable (s : MeshStreams Peer Addr) (id : UInt64) : Prop :=
  (s.gw.rt.streams.get? id).isSome = true

/-- When no packet and no event is left to handle, the streams that the bridge has
opened and that are still in the runtime's table are exactly those stored in
the sessions, each stored once. -/
def Exact (s : MeshStreams Peer Addr) : Prop :=
  s.pending = [] → s.gw.task = .idle →
    (∀ id, (id ∈ s.opened ∧ s.InTable id) ↔
      ∃ addr i, s.gw.bridge.stored addr i = some ⟨id⟩) ∧
    ∀ addr i addr' i' id, s.gw.bridge.stored addr i = some id →
      s.gw.bridge.stored addr' i' = some id → addr = addr' ∧ i = i'

/-! ## The condition -/

/-- What the uplink task has still to run. -/
def code (s : MeshStreams Peer Addr) : Option (Bridge.Code Addr) :=
  match s.gw.task with
  | .idle => none
  | .ready p => some p
  | .waiting cmd k => some (.call s.gw.bridge cmd k)

/-- The streams of the sessions once the task has run up to its next call. -/
def planned (s : MeshStreams Peer Addr) : Addr → UInt8 → Option StreamId :=
  match s.code with
  | some p => p.state.stored
  | none => s.gw.bridge.stored

/-- Some session has the stream, or is about to get it. -/
def Kept (s : MeshStreams Peer Addr) (id : UInt64) : Prop :=
  ∃ addr i, s.planned addr i = some ⟨id⟩

/-- The task is about to close the stream. -/
def Closing (s : MeshStreams Peer Addr) (id : UInt64) : Prop :=
  ∃ b k, s.code = some (.call b (.closeStream ⟨id⟩) k)

/-- No stream of a session is lost, and none comes back. -/
def Tidy (lib : External Peer) (s : MeshStreams Peer Addr) : Label Peer Addr → Prop
  -- no stream is overwritten
  | .gateway (.packet _ addr (.hello _)) => ∀ i, s.gw.bridge.stored addr i = none
  | .gateway (.packet _ addr (.streamStart i target _)) =>
    target.isEmpty = false → (lib.fromStr target).isSome = true →
      s.gw.bridge.stored addr i = none
  | .gateway (.packet _ _ _) | .gateway .resume | .handle _ => True
  -- the counter has not come round to a stream of a session
  | .gateway (.serve _) => ∀ peerId reason k,
    s.gw.task = .waiting (.requestStream peerId reason) k →
      (lib.fromStr peerId.id).isSome = true → ¬ s.Kept s.gw.rt.nextStreamId
  -- no stream ends but by a `StreamClose`, and no id is used again
  | .gateway (.turn _ l) => ∀ id, (s.Kept id → ¬ Runtime.Ends s.gw.rt id l) ∧
    (id ∈ s.opened → Runtime.Makes lib s.gw.rt id l → s.InTable id ∨ s.Closing id)

section Plan

variable {s : MeshStreams Peer Addr}

/-- An idle gateway has no code left to run. -/
theorem code_eq_none (h : s.gw.task = .idle) : s.code = none := by
  unfold code
  rw [h]

/-- So what it plans is what its sessions have, -/
theorem planned_of_idle (h : s.gw.task = .idle) : s.planned = s.gw.bridge.stored := by
  unfold planned
  rw [code_eq_none h]

/-- and it is about to close nothing. -/
theorem not_closing_of_idle (h : s.gw.task = .idle) (id : UInt64) : ¬ s.Closing id := by
  rintro ⟨b, k, hclosing⟩
  rw [code_eq_none h] at hclosing
  cases hclosing

/-- A gateway that waits has its call ahead. -/
theorem code_of_waiting {cmd : Command} {k : Reply → Bridge.Code Addr}
    (h : s.gw.task = .waiting cmd k) : s.code = some (.call s.gw.bridge cmd k) := by
  unfold code
  rw [h]

/-- A gateway that runs plans the streams its code has written so far. -/
theorem planned_of_code {p : Bridge.Code Addr} (h : s.code = some p) :
    s.planned = p.state.stored := by
  unfold planned
  rw [h]

/-- A stream is about to be closed if this is the next call. -/
theorem closing_iff {b : Bridge Addr} {cmd : Command} {k : Reply → Bridge.Code Addr}
    (h : s.code = some (.call b cmd k)) {id : UInt64} :
    s.Closing id ↔ cmd = .closeStream ⟨id⟩ := by
  unfold Closing
  rw [h]
  constructor
  · rintro ⟨b', k', heq⟩
    cases heq
    rfl
  · rintro rfl
    exact ⟨b, k, rfl⟩

end Plan

/-! ## The invariant -/

/-- A command that neither makes nor ends an entry of the runtime's table. -/
def Harmless : Command → Prop
  | .requestStream _ _ | .rejectStream _ _ | .closeStream _ => False
  | _ => True

/-- What is left of a packet when the sessions have the streams `w`. -/
inductive Left (lib : External Peer) (w : Addr → UInt8 → Option StreamId) :
    Bridge.Code Addr → Prop
  | quiet {p : Bridge.Code Addr} (h : p.Stays (fun b => b.stored = w) Harmless) : Left lib w p
  /-- a stream is requested for a free id -/
  | asking {b : Bridge Addr} {target reason : String} {k : Reply → Bridge.Code Addr} {addr : Addr}
      {i : UInt8} (hfree : (lib.fromStr target).isSome = true → w addr i = none)
      (h : ∀ r, ∃ b', k r = .done b' ∧ b'.stored = match r with
        | .stream (.ok id) => Bridge.assign w addr i (some id)
        | _ => w) :
      Left lib w (.call b (.requestStream ⟨target⟩ reason) k)
  /-- a stream that is stored no more is closed -/
  | closing {b : Bridge Addr} {id : StreamId} {k : Reply → Bridge.Code Addr}
      (hnone : ∀ addr i, w addr i ≠ some id) (hk : ∀ r, ∃ b', k r = .done b' ∧ b'.stored = w) :
      Left lib w (.call b (.closeStream id) k)

/-- What every tidy run keeps. -/
structure Inv (lib : External Peer) (s : MeshStreams Peer Addr) : Prop where
  live : ∀ addr i id, s.planned addr i = some id → id.id ∈ s.opened ∧ s.InTable id.id
  held : ∀ id, id ∈ s.opened → s.InTable id → s.Kept id ∨ s.Closing id
  once : ∀ addr i addr' i' id, s.planned addr i = some id → s.planned addr' i' = some id →
    addr = addr' ∧ i = i'
  left : ∀ p, s.code = some p → Left lib s.planned p

/-- The invariant gives the claim's property. -/
theorem Inv.exact {lib : External Peer} {s : MeshStreams Peer Addr} (h : s.Inv lib) : s.Exact := by
  intro _ hidle
  rw [← planned_of_idle hidle]
  refine ⟨?_, h.once⟩
  intro id
  constructor
  · rintro ⟨hopened, htable⟩
    rcases h.held id hopened htable with hkept | hclosing
    · exact hkept
    · exact absurd hclosing (not_closing_of_idle hidle id)
  · rintro ⟨addr, i, hi⟩
    exact h.live addr i ⟨id⟩ hi

/-- A gateway that has just started satisfies it. -/
theorem init_inv {lib : External Peer} {toVec : Value → Bytes} {s : MeshStreams Peer Addr}
    (h : (meshStreams Addr lib toVec).Init s) : s.Inv lib := by
  rcases h with ⟨-, hbridge, htask, -, hopened⟩
  have hplanned : ∀ addr i, s.planned addr i = none := by
    intro addr i
    rw [planned_of_idle htask, hbridge]
    rfl
  refine ⟨?_, ?_, ?_, ?_⟩
  · intro addr i id hi
    rw [hplanned] at hi
    cases hi
  · intro id hid
    rw [hopened] at hid
    exact absurd hid (Finset.notMem_empty id)
  · intro addr i addr' i' id hi
    rw [hplanned] at hi
    cases hi
  · intro p hp
    rw [code_eq_none htask] at hp
    cases hp

/-! ## Steps of the uplink task -/

section Steps

variable {lib : External Peer} {toVec : Value → Bytes} {s : MeshStreams Peer Addr}

/-- What a packet handler calls besides its streams is harmless to the runtime's table. -/
theorem harmless_of_quiet {v : UInt8 → Option StreamId} (cmd : Command) (h : Bridge.Quiet v cmd) :
    Harmless cmd := by
  cases cmd <;> first | exact h.elim | exact True.intro

/-- The invariant only looks at the table, the ids opened, the plan and the code. -/
theorem Inv.congr {t : MeshStreams Peer Addr} (h : s.Inv lib)
    (htable : ∀ id, t.InTable id ↔ s.InTable id) (hopened : t.opened = s.opened)
    (hplanned : t.planned = s.planned) (hcode : ∀ p, t.code = some p → Left lib s.planned p)
    (hclosing : ∀ id, s.Closing id → t.Closing id) : t.Inv lib := by
  refine ⟨?_, ?_, ?_, ?_⟩
  · intro addr i id hi
    rw [hplanned] at hi
    rw [hopened, htable]
    exact h.live addr i id hi
  · intro id hid htab
    rw [hopened] at hid
    rw [htable] at htab
    rcases h.held id hid htab with hkept | hclose
    · unfold Kept
      rw [hplanned]
      exact Or.inl hkept
    · exact Or.inr (hclosing id hclose)
  · rw [hplanned]
    exact h.once
  · rw [hplanned]
    exact hcode

omit [LinearOrder Peer] in
/-- The end of a program: nothing is left, and the sessions are as planned. -/
theorem left_done {b : Bridge Addr} : Left lib b.stored (.done b) := .quiet rfl

/-- A `StreamClose` comes: the stream moves from its slot to the call that closes it. -/
theorem close_inv (h : s.Inv lib) (hidle : s.gw.task = .idle) {addr : Addr} {i : UInt8}
    {id : StreamId} {b' : Bridge Addr} {k : Reply → Bridge.Code Addr}
    (hget : s.planned addr i = some id)
    (hstored : b'.stored = Bridge.assign s.planned addr i none) (hk : ∀ r, k r = .done b')
    {pending : List AviEvent} :
    Inv lib ⟨{ s.gw with task := .ready (.call b' (.closeStream id) k) }, pending, s.opened⟩ := by
  -- the entries that remain are those of other slots
  have hslot : ∀ {a j id'}, b'.stored a j = some id' →
      ¬ (a = addr ∧ j = i) ∧ s.planned a j = some id' := by
    intro a j id' hj
    rw [hstored] at hj
    rcases Bridge.assign_eq_some hj with ⟨-, -, hnone⟩ | hother
    · cases hnone
    · exact hother
  refine ⟨?_, ?_, ?_, ?_⟩
  · -- the streams of the sessions are in the table
    intro a j id' hj
    exact h.live a j id' (hslot hj).2
  · -- what is in the table is kept, or about to be closed
    intro id' hid htable
    rcases h.held id' hid htable with ⟨a, j, hj⟩ | hclosing
    · by_cases haj : a = addr ∧ j = i
      · -- it was in this slot
        rcases haj with ⟨rfl, rfl⟩
        rw [hget] at hj
        cases hj
        exact Or.inr ⟨b', k, rfl⟩
      · refine Or.inl ⟨a, j, ?_⟩
        show b'.stored a j = some ⟨id'⟩
        rw [hstored, Bridge.assign_of_ne haj]
        exact hj
    · exact absurd hclosing (not_closing_of_idle hidle id')
  · -- no two sessions share a stream
    intro a j a' j' id' hj hj'
    exact h.once a j a' j' id' (hslot hj).2 (hslot hj').2
  · -- the call that is left closes it
    intro p' hp'
    cases hp'
    refine .closing ?_ fun r => ⟨b', hk r, rfl⟩
    intro a j hj
    obtain ⟨hne, hj⟩ := hslot hj
    exact hne (h.once a j addr i id hj hget)

/-- A packet comes, and its code is to be run. -/
theorem packet_inv (h : s.Inv lib) (hidle : s.gw.task = .idle) (now : UInt64) (addr : Addr)
    (msg : UplinkMessage) (hok : s.Tidy lib (.gateway (.packet now addr msg)))
    {pending : List AviEvent} :
    Inv lib ⟨{ s.gw with task := .ready (s.gw.bridge.handleUplinkPacket toVec now addr msg) },
      pending, s.opened⟩ := by
  have hplanned := planned_of_idle hidle
  have hshape := Bridge.handleUplinkPacket_shape toVec now addr s.gw.bridge msg
  generalize s.gw.bridge.handleUplinkPacket toVec now addr msg = p at hshape ⊢
  -- a program that changes no plan
  have hsame : p.state.stored = s.planned → Left lib s.planned p →
      Inv lib ⟨{ s.gw with task := .ready p }, pending, s.opened⟩ := by
    intro hstored hleft
    refine h.congr (fun _ => Iff.rfl) rfl hstored ?_ ?_
    · intro p' hp'
      cases hp'
      exact hleft
    · intro id hid
      exact absurd hid (not_closing_of_idle hidle id)
  cases hshape with
  | quiet hmsg hstays =>
    apply hsame
    · rw [hplanned]
      exact hstays.state
    · rw [hplanned]
      exact .quiet (hstays.mono harmless_of_quiet)
  | @hello deviceId b' hstored =>
    -- the session that is replaced had no streams
    have heq : b'.stored = s.planned := by
      rw [hstored, hplanned]
      funext a i
      by_cases ha : a = addr
      · rw [ha, Function.update_self]
        exact (hok i).symm
      · rw [Function.update_of_ne ha]
    exact hsame heq (heq ▸ left_done)
  | @streamStart i target reason k htarget hk =>
    rw [← hplanned] at hk
    apply hsame hplanned.symm
    refine .asking ?_ hk
    intro hpeer
    rw [hplanned]
    exact hok htarget hpeer
  | @streamClose i id b' k hget hstored hk =>
    rw [← hplanned] at hget hstored
    exact close_inv h hidle hget hstored hk

/-- The task runs up to its next call. -/
theorem resume_inv (h : s.Inv lib) {p : Bridge.Code Addr} (htask : s.gw.task = .ready p)
    {pending : List AviEvent} :
    Inv lib ⟨{ s.gw with bridge := p.state, task := p.stop }, pending, s.opened⟩ := by
  have hcode : s.code = some p := by
    unfold code
    rw [htask]
  have hplanned := planned_of_code hcode
  cases p with
  | done b =>
    refine h.congr (fun _ => Iff.rfl) rfl hplanned.symm ?_ ?_
    · intro p hp
      cases hp
    · rintro id ⟨b', k, hclosing⟩
      rw [hcode] at hclosing
      cases hclosing
  | call b cmd k =>
    refine h.congr (fun _ => Iff.rfl) rfl hplanned.symm ?_ ?_
    · intro p hp
      cases hp
      exact h.left _ hcode
    · intro id hclosing
      rw [closing_iff hcode] at hclosing
      subst hclosing
      exact ⟨b, k, rfl⟩

/-- A turn of the runtime that grants the bridge nothing, after which the task has
the code `p` to run. -/
theorem turn_inv (h : s.Inv lib) {env : Env Peer} {l : Runtime.Label Peer}
    {t : MeshStreams Peer Addr} (hrt : t.gw.rt = (s.gw.rt.turn lib env l).1)
    (hopened : t.opened = s.opened) (hplanned : t.planned = s.planned)
    (hcode : ∀ p, t.code = some p → Left lib s.planned p)
    (hends : ∀ id, s.Kept id → ¬ Runtime.Ends s.gw.rt id l)
    (hmakes : ∀ id, id ∈ s.opened → Runtime.Makes lib s.gw.rt id l → s.InTable id ∨ s.Closing id)
    (hclosing : ∀ id, s.Closing id → t.Closing id ∨
      (Runtime.Ends s.gw.rt id l ∧ ¬ Runtime.Makes lib s.gw.rt id l)) : t.Inv lib := by
  -- the table after the turn
  have htable : ∀ id, t.InTable id ↔
      Runtime.Makes lib s.gw.rt id l ∨ (s.InTable id ∧ ¬ Runtime.Ends s.gw.rt id l) := by
    intro id
    unfold InTable
    rw [hrt]
    exact Runtime.isSome_turn lib s.gw.rt id env l
  refine ⟨?_, ?_, ?_, ?_⟩
  · -- a stream of a session was not ended
    intro addr i id hi
    rw [hplanned] at hi
    rw [hopened, htable]
    have hlive := h.live addr i id hi
    exact ⟨hlive.1, Or.inr ⟨hlive.2, hends id.id ⟨addr, i, hi⟩⟩⟩
  · -- an entry that is there was there before, or was made for one that was
    intro id hid htab
    rw [hopened] at hid
    have hbefore : s.InTable id ∨ s.Closing id := by
      rcases (htable id).mp htab with hmade | ⟨hin, -⟩
      · exact hmakes id hid hmade
      · exact Or.inl hin
    have hholds : s.Kept id ∨ s.Closing id := by
      rcases hbefore with hin | hclose
      · exact h.held id hid hin
      · exact Or.inr hclose
    rcases hholds with hkept | hclose
    · unfold Kept
      rw [hplanned]
      exact Or.inl hkept
    · rcases hclosing id hclose with hstill | ⟨hended, hnot⟩
      · exact Or.inr hstill
      · -- it is closed now
        rcases (htable id).mp htab with hmade | ⟨-, hnotEnded⟩
        · exact absurd hmade hnot
        · exact absurd hended hnotEnded
  · rw [hplanned]
    exact h.once
  · rw [hplanned]
    exact hcode

/-- The runtime handles a request of the task and grants the stream. -/
theorem grant_inv (h : s.Inv lib) {env : Env Peer} {peerId : PeerId} {reason : String}
    {k : Reply → Bridge.Code Addr}
    (htask : s.gw.task = .waiting (.requestStream peerId reason) k)
    (hpeer : (lib.fromStr peerId.id).isSome = true)
    (hnew : ¬ s.Kept s.gw.rt.nextStreamId) {pending : List AviEvent} :
    Inv lib ⟨{ s.gw with
      rt := (s.gw.rt.turn lib env (.command (.requestStream peerId reason))).1
      task := .ready (k (.stream (.ok ⟨s.gw.rt.nextStreamId⟩))) }, pending,
        insert s.gw.rt.nextStreamId s.opened⟩ := by
  have hcode := code_of_waiting htask
  have hnoClosing : ∀ id, ¬ s.Closing id := by
    intro id hclosing
    cases (closing_iff hcode).mp hclosing
  -- the table has the new id in addition
  have htable : ∀ id, (((s.gw.rt.turn lib env
      (.command (.requestStream peerId reason))).1.streams.get? id).isSome = true) ↔
        id = s.gw.rt.nextStreamId ∨ s.InTable id := by
    intro id
    rw [Runtime.isSome_turn lib s.gw.rt id env]
    simp only [Runtime.Makes, Runtime.Ends, hpeer, and_true, not_false_eq_true]
    exact Iff.rfl
  -- the slot that waits for the stream is free
  obtain ⟨addr, i, hfree, b, hdone, hstored⟩ : ∃ addr i, s.planned addr i = none ∧
      ∃ b, k (.stream (.ok ⟨s.gw.rt.nextStreamId⟩)) = .done b ∧
        b.stored = Bridge.assign s.planned addr i (some ⟨s.gw.rt.nextStreamId⟩) := by
    cases h.left _ hcode with
    | quiet hstays => exact hstays.2.1.elim
    | asking hfree hk => exact ⟨_, _, hfree hpeer, hk _⟩
  rw [hdone]
  -- so have the sessions, in that slot
  have hslot : ∀ {a j id}, b.stored a j = some id →
      (a = addr ∧ j = i ∧ id = ⟨s.gw.rt.nextStreamId⟩) ∨ s.planned a j = some id := by
    intro a j id hj
    rw [hstored] at hj
    rcases Bridge.assign_eq_some hj with ⟨ha, hji, hid⟩ | ⟨-, hj⟩
    · exact Or.inl ⟨ha, hji, (Option.some.inj hid).symm⟩
    · exact Or.inr hj
  refine ⟨?_, ?_, ?_, ?_⟩
  · -- the streams of the sessions are in the table
    intro a j id hj
    rcases hslot hj with ⟨-, -, rfl⟩ | hj
    · exact ⟨Finset.mem_insert_self _ _, (htable _).mpr (Or.inl rfl)⟩
    · have hlive := h.live a j id hj
      exact ⟨Finset.mem_insert_of_mem hlive.1, (htable _).mpr (Or.inr hlive.2)⟩
  · -- what is in the table is kept
    intro id hid htab
    left
    by_cases hnext : id = s.gw.rt.nextStreamId
    · -- the new stream is in its slot
      refine ⟨addr, i, ?_⟩
      show b.stored addr i = some ⟨id⟩
      rw [hstored, Bridge.assign_self, hnext]
    · have hold : id ∈ s.opened := (Finset.mem_insert.mp hid).resolve_left hnext
      have hin : s.InTable id := ((htable id).mp htab).resolve_left hnext
      rcases h.held id hold hin with ⟨a, j, hj⟩ | hclosing
      · refine ⟨a, j, ?_⟩
        show b.stored a j = some ⟨id⟩
        rw [hstored, Bridge.assign_of_ne]
        · exact hj
        · rintro ⟨rfl, rfl⟩
          rw [hfree] at hj
          cases hj
      · exact absurd hclosing (hnoClosing id)
  · intro a j a' j' id hj hj'
    rcases hslot hj with ⟨ha, hji, rfl⟩ | hj <;> rcases hslot hj' with ⟨ha', hji', hid⟩ | hj'
    · exact ⟨ha.trans ha'.symm, hji.trans hji'.symm⟩
    · exact absurd ⟨a', j', hj'⟩ hnew
    · exact absurd ⟨a, j, hid ▸ hj⟩ hnew
    · exact h.once a j a' j' id hj hj'
  · intro p hp
    cases hp
    exact left_done

/-- A command that makes no entry is granted no id. -/
theorem granted_eq_none {env : Env Peer} {cmd : Command} {k : Reply → Bridge.Code Addr}
    (htask : s.gw.task = .waiting cmd k)
    (hcmd : ∀ id, ¬ Runtime.Makes lib s.gw.rt id (.command cmd)) :
    granted lib s.gw (.serve env) = none := by
  unfold granted effectsOf
  simp only [htask]
  split
  · rename_i id hreply
    obtain ⟨peerId, reason, rfl⟩ := Runtime.opens_of_replyOf hreply
    simp only [Runtime.turn] at hreply
    rw [Runtime.replyOf_open] at hreply
    split_ifs at hreply with hpeer
    · exact absurd ⟨rfl, hpeer⟩ (hcmd s.gw.rt.nextStreamId)
    · cases hreply
  · rfl

/-- The runtime handles a command of the task that makes no entry. -/
theorem plain_inv (h : s.Inv lib) {env : Env Peer} {cmd : Command} {k : Reply → Bridge.Code Addr}
    {r : Reply} (htask : s.gw.task = .waiting cmd k)
    (hmakes : ∀ id, ¬ Runtime.Makes lib s.gw.rt id (.command cmd))
    (hplanned : (k r).state.stored = s.planned) (hleft : Left lib s.planned (k r))
    (hends : ∀ id, s.Kept id → ¬ Runtime.Ends s.gw.rt id (.command cmd))
    (hclosing : ∀ id, s.Closing id → Runtime.Ends s.gw.rt id (.command cmd))
    {pending : List AviEvent} :
    Inv lib ⟨{ s.gw with rt := (s.gw.rt.turn lib env (.command cmd)).1, task := .ready (k r) },
      pending, (granted lib s.gw (.serve env)).elim s.opened fun id => insert id s.opened⟩ := by
  rw [granted_eq_none htask hmakes]
  refine turn_inv h rfl rfl hplanned ?_ hends ?_ ?_
  · intro p hp
    cases hp
    exact hleft
  · intro id _ hmade
    exact absurd hmade (hmakes id)
  · intro id hclose
    exact Or.inr ⟨hclosing id hclose, hmakes id⟩

/-- The runtime handles the command of the task. -/
theorem serve_inv (h : s.Inv lib) {env : Env Peer} {cmd : Command} {k : Reply → Bridge.Code Addr}
    {r : Reply} (htask : s.gw.task = .waiting cmd k)
    (hr : Runtime.replyOf (s.gw.rt.turn lib env (.command cmd)).2 = some r)
    (hok : s.Tidy lib (.gateway (.serve env))) {pending : List AviEvent} :
    Inv lib ⟨{ s.gw with rt := (s.gw.rt.turn lib env (.command cmd)).1, task := .ready (k r) },
      pending, (granted lib s.gw (.serve env)).elim s.opened fun id => insert id s.opened⟩ := by
  have hcode := code_of_waiting htask
  cases h.left _ hcode with
  | quiet hstays =>
    -- the table has the same streams
    rcases hstays with ⟨-, hcmd, hk⟩
    apply plain_inv h htask
    · intro id hmakes
      cases cmd <;> first | exact hcmd.elim | exact hmakes.elim
    · exact (hk r).state
    · exact .quiet (hk r)
    · intro id _ hends
      cases cmd <;> first | exact hcmd.elim | exact hends.elim
    · intro id hclosing
      rw [(closing_iff hcode).mp hclosing] at hcmd
      exact hcmd.elim
  | @asking b target reason k addr i hfree hk =>
    by_cases hpeer : (lib.fromStr target).isSome = true
    · -- the stream is granted under the next id
      have hnew := hok _ _ _ htask hpeer
      have hreply : r = .stream (.ok ⟨s.gw.rt.nextStreamId⟩) := by
        simp only [Runtime.turn] at hr
        rw [Runtime.replyOf_open, if_pos hpeer] at hr
        exact (Option.some.inj hr).symm
      have hgranted : granted lib s.gw (.serve env) = some s.gw.rt.nextStreamId := by
        unfold granted effectsOf
        simp only [htask, hr, hreply]
      rw [hgranted, hreply]
      exact grant_inv h htask hpeer hnew
    · -- the peer id does not parse: the runtime refuses
      have hreply : ∃ e, r = .stream (.error e) := by
        simp only [Runtime.turn] at hr
        rw [Runtime.replyOf_open, if_neg hpeer] at hr
        exact ⟨_, (Option.some.inj hr).symm⟩
      obtain ⟨e, rfl⟩ := hreply
      obtain ⟨b', hdone, hstored⟩ := hk (.stream (.error e))
      have hsame : b'.stored = s.planned := hstored
      apply plain_inv h htask
      · rintro id ⟨-, hsome⟩
        exact hpeer hsome
      · rw [hdone]
        exact hsame
      · rw [hdone]
        exact hsame ▸ left_done
      · exact fun _ _ hends => hends
      · intro id hclosing
        cases (closing_iff hcode).mp hclosing
  | @closing b id k hnone hk =>
    -- the stream leaves the table, and no session has it
    obtain ⟨b', hdone, hstored⟩ := hk r
    apply plain_inv h htask
    · exact fun _ hmakes => hmakes
    · rw [hdone]
      exact hstored
    · rw [hdone]
      exact hstored ▸ left_done
    · rintro id' ⟨addr, i, hi⟩ hends
      cases id with
      | mk n =>
        cases hends
        exact hnone addr i hi
    · intro id' hclosing
      cases (closing_iff hcode).mp hclosing
      exact rfl

/-- Passing messages on leaves the sessions alone. -/
theorem sessions_handleDownlinkEvent
    (order : List (Addr × DeviceSession) → List (Addr × DeviceSession)) (b : Bridge Addr)
    (event : AviEvent) : (b.handleDownlinkEvent order event).sessions = b.sessions := by
  have hone : ∀ (b : Bridge Addr) addr size msg,
      (b.sendTo addr size msg).sessions = b.sessions := by
    intro b addr size msg
    unfold Bridge.sendTo
    cases msg.toSlice size <;> rfl
  cases event with
  | message source topic data =>
    unfold Bridge.handleDownlinkEvent
    dsimp only
    generalize order b.sessions.entries = entries
    induction entries generalizing b with
    | nil => rfl
    | cons e entries ih =>
      rw [List.foldl_cons, ih]
      split_ifs
      · exact hone b _ _ _
      · rfl
  | _ => rfl

/-- The downlink task handles an event. -/
theorem handle_inv (h : s.Inv lib) {env : Env Peer} {t : MeshStreams Peer Addr}
    (hstep : (meshStreams Addr lib toVec).step s (.handle env) = some t) : t.Inv lib := by
  simp only [meshStreams, step] at hstep
  split at hstep
  · rename_i source topic data pending hpending hidle
    cases hstep
    have hstored : (s.gw.bridge.handleDownlinkEvent env.order
        (.message source topic data)).stored = s.gw.bridge.stored := by
      unfold Bridge.stored
      rw [sessions_handleDownlinkEvent]
    refine h.congr (fun _ => Iff.rfl) rfl ?_ ?_ ?_
    · rw [planned_of_idle hidle, ← hstored]
      exact planned_of_idle hidle
    · intro p hp
      have hnone := hp.symm.trans (code_eq_none hidle)
      cases hnone
    · intro id hclosing
      exact absurd hclosing (not_closing_of_idle hidle id)
  · cases hstep
  · cases hstep
    exact h.congr (fun _ => Iff.rfl) rfl rfl h.left fun _ hclosing => hclosing
  · cases hstep

/-- Every step in which no stream is lost keeps the invariant. -/
theorem step_inv (s : MeshStreams Peer Addr) (l : Label Peer Addr) (t : MeshStreams Peer Addr)
    (hstep : (meshStreams Addr lib toVec).step s l = some t) (hok : s.Tidy lib l)
    (h : s.Inv lib) : t.Inv lib := by
  cases l with
  | handle env => exact handle_inv h hstep
  | gateway l =>
    obtain ⟨gw, hgw, rfl⟩ := Option.map_eq_some_iff.mp hstep
    rcases Gateway.step_cases hgw with ⟨now, addr, msg, rfl, hidle, rfl⟩ | ⟨p, rfl, hp, rfl⟩ |
      ⟨env, cmd, k, r, rfl, hk, hr, rfl⟩ | ⟨env, l', rfl, rfl⟩
    · exact packet_inv h hidle now addr msg hok
    · exact resume_inv h hp
    · exact serve_inv h hk hr hok
    · exact turn_inv h rfl rfl rfl h.left (fun id => (hok id).1) (fun id => (hok id).2)
        fun id hclosing => Or.inl hclosing

end Steps

/-! ## Runs -/

/-- **Streams of the bridge**: in every run in which a device that says hello again
has no streams, a `StreamStart` that is granted is for a free id, and the
runtime ends no stream of a session and revives none that the bridge had
opened, whenever no packet and no event is left to handle, the streams opened
by the bridge that are in the runtime's table are those of the sessions, each
stored once. -/
theorem exact_of_tidy (lib : External Peer) (toVec : Value → Bytes) (s : MeshStreams Peer Addr)
    (h₀ : (meshStreams Addr lib toVec).Init s) (ls : List (Label Peer Addr))
    (hok : (meshStreams Addr lib toVec).AllSteps (Tidy lib) s ls) :
    (meshStreams Addr lib toVec).AllStates Exact s ls := by
  have hinv : (meshStreams Addr lib toVec).AllStates (Inv lib) s ls :=
    (meshStreams Addr lib toVec).allStates_of_allSteps step_inv (init_inv h₀) hok
  exact Machine.AllStates.mono _ (fun _ h => h.exact) hinv

/-! ## A stream that the peer closes -/

/-- A gateway that has just started. -/
def booted : MeshStreams String ℕ := ⟨⟨.new External.plain "gateway" 0, .start, .idle⟩, [], ∅⟩

/-- A started gateway without sessions is an initial state. -/
theorem booted_init : (meshStreams ℕ External.plain fun _ => []).Init booted :=
  ⟨⟨"gateway", 0, rfl⟩, rfl, rfl, rfl, rfl⟩

/-- A device says hello and opens a stream. -/
def opensStream : List (Label String ℕ) :=
  [.gateway (.packet 0 1 (.hello 7)), .gateway .resume,
    .gateway (.packet 0 1 (.streamStart 5 "peer" "chat")), .gateway .resume,
    .gateway (.serve (.calm String)), .gateway .resume]

theorem exact_of_tidy_opensStream :
    (meshStreams ℕ External.plain fun _ => []).AllStates Exact booted opensStream := by
  apply exact_of_tidy _ _ _ booted_init
  refine ⟨fun _ => rfl, ?_⟩
  rintro t ⟨⟩
  refine ⟨True.intro, ?_⟩
  rintro t ⟨⟩
  refine ⟨fun _ _ => rfl, ?_⟩
  rintro t ⟨⟩
  refine ⟨True.intro, ?_⟩
  rintro t ⟨⟩
  constructor
  · -- the session has no stream yet
    rintro _ _ _ - - ⟨addr, i, hi⟩
    change (((SortedMap.empty : SortedMap ℕ DeviceSession).insert 1 ⟨7, .empty, ∅⟩).get? addr).bind
      (fun session => session.activeStreams.get? i) = _ at hi
    rw [SortedMap.get?_insert] at hi
    split_ifs at hi
    · cases hi
    · cases hi
  · rintro t ⟨⟩
    refine ⟨True.intro, ?_⟩
    rintro t ⟨⟩
    exact True.intro

/-- The peer closes the stream, and the event is handled. -/
def peerCloses : List (Label String ℕ) :=
  opensStream ++ [.gateway (.turn (.calm String) (.swarm (.request "peer" (.closeStream 1)))),
    .handle (.calm String)]

/-- The session keeps a stream that the runtime has forgotten. -/
theorem stale_stream : ¬ ∀ (s : MeshStreams String ℕ) ls,
    (meshStreams ℕ External.plain fun _ => []).Init s →
      (meshStreams ℕ External.plain fun _ => []).AllStates Exact s ls := by
  intro h
  have hall := h booted (peerCloses ++ []) booted_init
  have hrun : ((meshStreams ℕ External.plain fun _ => []).run booted peerCloses).map
      (fun t => (t.pending.isEmpty, t.gw.task.isIdle, t.gw.bridge.stored 1 5,
        (t.gw.rt.streams.get? 1).isSome)) = some (true, true, some ⟨1⟩, false) := by
    decide +kernel
  obtain ⟨t, ht, hview⟩ := Option.map_eq_some_iff.mp hrun
  simp only [Prod.mk.injEq] at hview
  rcases hview with ⟨hpending, hidle, hstored, htable⟩
  have hexact : t.Exact := Machine.AllStates.at_cut _ hall ht
  have hquiet := hexact (List.isEmpty_iff.mp hpending) (Caller.eq_idle hidle)
  have hin : t.InTable 1 := ((hquiet.1 1).mpr ⟨1, 5, hstored⟩).2
  exact Bool.false_ne_true (htable.symm.trans hin)

end MeshStreams

end AviNet
