import AviNet.Runtime.StreamTurn

/-!
# Runtime.StreamProtocol — the events of a stream between two requests

The table keeps a status for each stream which no handler looks at, so what the
application hears of a stream depends on the messages its peers send.

* `Phase`: where a stream stands for somebody who sees the requests, the
  answers of the commands and the events; `broken` once they make no sense;
* `Agrees`: the phase and the table say the same, as long as nothing is broken;
* `protocol_iff`: nothing ever breaks in a run exactly if each `AcceptStream`,
  `StreamData` and `CloseStream` finds an entry in the right state;
* `closed_after_close`: both ends close a stream, and its end is reported to the one.
-/

namespace AviNet

/-- What is seen of one stream. -/
inductive Observation where
  /-- a request, of this node (`outbound`) or of a peer (`inbound`) -/
  | requested (direction : StreamDirection)
  /-- `AcceptStream` has been answered `Ok` -/
  | acceptedHere
  /-- `RejectStream` or `CloseStream` has been answered `Ok` -/
  | endedHere
  /-- the event `StreamAccepted` -/
  | accepted
  /-- the event `StreamData` -/
  | data
  /-- the event `StreamRejected` or `StreamClosed` -/
  | ended
  deriving DecidableEq

/-- Where a stream stands. -/
inductive Phase where
  | unrequested
  /-- requested; `answered` after `StreamAccepted`, `accepted` after that or after a
  successful `AcceptStream` -/
  | live (direction : StreamDirection) (answered accepted : Bool)
  | finished
  /-- an event that must not come has come -/
  | broken
  deriving DecidableEq

/-- `StreamAccepted` comes once and only for a stream requested here, `StreamData`
once the stream is accepted, nothing after its end and nothing before a request. -/
def Phase.next : Phase → Observation → Phase
  | .broken, _ => .broken
  | _, .requested direction => .live direction false false
  | .live direction answered _, .acceptedHere => .live direction answered true
  | .live _ _ _, .endedHere => .finished
  | .live .outbound false _, .accepted => .live .outbound true true
  | .live direction answered true, .data => .live direction answered true
  | .live _ _ _, .ended => .finished
  | _, _ => .broken

namespace Runtime

variable {Peer : Type}

/-- How an event is seen. -/
def eventObservation : AviEvent → Option Observation
  | .streamRequested _ _ _ => some (.requested .inbound)
  | .streamAccepted _ _ => some .accepted
  | .streamData _ _ _ => some .data
  | .streamRejected _ _ _ | .streamClosed _ _ _ => some .ended
  | _ => none

/-- How a command and its answer are seen from the stream `id`. -/
def commandObservation (id : UInt64) (l : Label Peer) (reply : Option Reply) : List Observation :=
  match l, reply with
  | .command (.requestStream _ _), some (.stream (.ok sid)) =>
    if sid.id = id then [.requested .outbound] else []
  | .command (.acceptStream sid), some (.done (.ok ())) =>
    if sid.id = id then [.acceptedHere] else []
  | .command (.rejectStream sid _), some (.done (.ok ()))
  | .command (.closeStream sid), some (.done (.ok ())) =>
    if sid.id = id then [.endedHere] else []
  | _, _ => []

/-- What is seen of the stream `id` in one turn. -/
def observe [LinearOrder Peer] (id : UInt64) (l : Label Peer) (effects : List (Effect Peer)) :
    List Observation :=
  commandObservation id l (replyOf effects) ++
    (eventsAbout id effects).filterMap eventObservation

end Runtime

/-- The runtime, and what has been seen of each stream. -/
structure StreamProtocol (Peer : Type) [LinearOrder Peer] where
  rt : Runtime Peer
  /-- the ids that have got an `AcceptStream` message since their last request -/
  answered : Finset UInt64
  phase : UInt64 → Phase

namespace StreamProtocol

variable {Peer : Type} [LinearOrder Peer]

/-! ## Model layer -/

/-- Keep the record of `AcceptStream` messages. -/
def note (answered : Finset UInt64) (l : Runtime.Label Peer) (reply : Option Reply) :
    Finset UInt64 :=
  match l, reply with
  | .command (.requestStream _ _), some (.stream (.ok sid)) => answered.erase sid.id
  | .swarm (.request _ (.requestStream id _)), _ => answered.erase id
  | .swarm (.request _ (.acceptStream id)), _ => insert id answered
  | _, _ => answered

def step (lib : External Peer) (s : StreamProtocol Peer) :
    Env Peer × Runtime.Label Peer → Option (StreamProtocol Peer)
  | (env, l) =>
    let r := s.rt.turn lib env l
    some {
      rt := r.1
      answered := note s.answered l (Runtime.replyOf r.2)
      phase := fun id => (Runtime.observe id l r.2).foldl Phase.next (s.phase id) }

/-- A node that has just started. -/
def Init (lib : External Peer) (s : StreamProtocol Peer) : Prop :=
  (∃ localPeerId now, s.rt = .new lib localPeerId now) ∧ s.answered = ∅ ∧
    s.phase = fun _ => .unrequested

end StreamProtocol

open StreamProtocol in
/-- The machine of a runtime that is watched. -/
def streamProtocol {Peer : Type} [LinearOrder Peer] (lib : External Peer) :
    Machine (StreamProtocol Peer) (Env Peer × Runtime.Label Peer) where
  Init := Init lib
  step := step lib

namespace StreamProtocol

variable {Peer : Type} [LinearOrder Peer]

/-- No stream has got an event it must not get. -/
def Lawful (s : StreamProtocol Peer) : Prop := ∀ id, s.phase id ≠ .broken

/-- A message that the entry it names expects. -/
def MessageOk (entry : Option (StreamState Peer)) (answered : Prop) : StreamMessage → Prop
  | .acceptStream _ => ∀ state, entry = some state → state.direction = .outbound ∧ ¬ answered
  | .streamData _ _ => ∀ state, entry = some state → state.status ≠ .requested
  | .closeStream _ => entry ≠ none
  | .requestStream _ _ | .rejectStream _ _ | .syncContext _ => True

/-- The condition on a step, seen from the stream `id`. -/
def OrderlyAt (s : StreamProtocol Peer) (id : UInt64) : Runtime.Label Peer → Prop
  | .swarm (.request _ msg) => Runtime.namedStream msg = some id →
      MessageOk (s.rt.streams.get? id) (id ∈ s.answered) msg
  | _ => True

/-- Every message finds an entry that expects it. -/
def Orderly (s : StreamProtocol Peer) (l : Env Peer × Runtime.Label Peer) : Prop :=
  ∀ id, s.OrderlyAt id l.2

/-! ## The invariant -/

/-- The phase of a stream and the table say the same. -/
def Agrees : Phase → Option (StreamState Peer) → Prop → Prop
  | .broken, _, _ => True
  | .live direction answered accepted, some state, b => state.direction = direction ∧
      (answered = true ↔ b) ∧ (accepted = true ↔ state.status ≠ .requested)
  | .live _ _ _, none, _ | .unrequested, some _, _ | .finished, some _, _ => False
  | .unrequested, none, _ | .finished, none, _ => True

/-- What every run keeps. -/
def Inv (s : StreamProtocol Peer) : Prop :=
  ∀ id, Agrees (s.phase id) (s.rt.streams.get? id) (id ∈ s.answered)

/-! ## What a turn shows of one stream -/

section Turn

variable {lib : External Peer} {env : Env Peer} {rt : Runtime Peer} {id : UInt64}

open AviNet.Runtime

/-- What is seen of a stream command that finds its stream. -/
def commandSeen : Command → List Observation
  | .acceptStream _ => [.acceptedHere]
  | .rejectStream _ _ | .closeStream _ => [.endedHere]
  | _ => []

theorem commandObservation_named {cmd : Command} {i : UInt64} (h : commandStream cmd = some i) :
    commandObservation id (.command cmd : Label Peer)
        (replyOf (rt.turn lib env (.command cmd)).2) =
      if i = id ∧ (rt.streams.get? i).isSome then commandSeen cmd else [] := by
  simp only [turn]
  rw [replyOf_named lib env rt h]
  by_cases hsome : (rt.streams.get? i).isSome = true
  · rw [if_pos hsome]
    cases cmd <;> cases h <;> simp [commandObservation, commandSeen, hsome]
  · rw [if_neg hsome]
    cases cmd <;> cases h <;> simp [commandObservation, hsome]

/-- A turn that does not act on a stream shows nothing of it. -/
theorem commandObservation_untouched {l : Label Peer} (h : ¬ Touches lib rt id l) :
    commandObservation id l (replyOf (rt.turn lib env l).2) = [] := by
  rcases l with cmd | event | _
  · cases hcmd : commandStream cmd with
    | some i =>
      rw [commandObservation_named hcmd]
      refine if_neg ?_
      rintro ⟨rfl, hsome⟩
      apply h
      cases cmd <;> first | exact ⟨hcmd, hsome⟩ | cases hcmd
    | none =>
      cases cmd with
      | requestStream peerId reason =>
        simp only [turn]
        rw [replyOf_open]
        split_ifs with hpeer
        · exact if_neg fun hid => h ⟨hid.symm, hpeer⟩
        · rfl
      | acceptStream sid | rejectStream sid reason | closeStream sid => cases hcmd
      | _ => rfl
  · rfl
  · rfl

/-- Nor does it change the record of `AcceptStream` messages. -/
theorem mem_note_untouched {l : Label Peer} (h : ¬ Touches lib rt id l) (answered : Finset UInt64) :
    id ∈ note answered l (replyOf (rt.turn lib env l).2) ↔ id ∈ answered := by
  rcases l with cmd | event | _
  · cases cmd with
    | requestStream peerId reason =>
      simp only [turn]
      rw [replyOf_open]
      split_ifs with hpeer
      · have hid : id ≠ rt.nextStreamId := fun hid => h ⟨hid, hpeer⟩
        simp [note, hid]
      · rfl
    | _ => rfl
  · cases event with
    | request peer msg =>
      cases msg with
      | requestStream i reason =>
        have hid : id ≠ i := fun hid => h (congrArg some hid.symm)
        simp [note, hid]
      | acceptStream i =>
        have hid : id ≠ i := fun hid => h (congrArg some hid.symm)
        simp [note, hid]
      | _ => rfl
    | _ => rfl
  · rfl

end Turn

/-! ## One step -/

/-- A broken protocol stays broken. -/
theorem foldl_broken (seen : List Observation) : seen.foldl Phase.next .broken = .broken := by
  induction seen with
  | nil => rfl
  | cons o seen ih => exact ih

omit [LinearOrder Peer] in
/-- The three ways to agree. -/
theorem Agrees.cases {phase : Phase} {entry : Option (StreamState Peer)} {b : Prop}
    (h : Agrees phase entry b) :
    phase = .broken ∨ ((phase = .unrequested ∨ phase = .finished) ∧ entry = none) ∨
      ∃ answered accepted state, phase = .live state.direction answered accepted ∧
        entry = some state ∧ (answered = true ↔ b) ∧
          (accepted = true ↔ state.status ≠ .requested) := by
  rcases phase with _ | ⟨direction, answered, accepted⟩ | _ | _
  · cases entry with
    | none => exact Or.inr (Or.inl ⟨Or.inl rfl, rfl⟩)
    | some state => exact h.elim
  · cases entry with
    | none => exact h.elim
    | some state =>
      rcases h with ⟨rfl, hanswered, haccepted⟩
      exact Or.inr (Or.inr ⟨answered, accepted, state, rfl, rfl, hanswered, haccepted⟩)
  · cases entry with
    | none => exact Or.inr (Or.inl ⟨Or.inr rfl, rfl⟩)
    | some state => exact h.elim
  · exact Or.inl rfl

/-- How a message for the stream `id` changes the record of `AcceptStream` messages. -/
def noteMessage (b : Prop) : StreamMessage → Prop
  | .requestStream _ _ => False
  | .acceptStream _ => True
  | _ => b

omit [LinearOrder Peer] in
/-- A message for a stream: phase and table still agree, and nothing breaks
exactly if the message is expected. -/
theorem message_agrees (lib : External Peer) (peer : Peer) {msg : StreamMessage} {id : UInt64}
    (hmsg : Runtime.namedStream msg = some id) {phase : Phase}
    {entry : Option (StreamState Peer)} {b : Prop} (h : Agrees phase entry b)
    (hphase : phase ≠ .broken) :
    Agrees (((Runtime.messageEntry lib peer msg entry).2.filterMap
        Runtime.eventObservation).foldl Phase.next phase)
      (Runtime.messageEntry lib peer msg entry).1 (noteMessage b msg) ∧
    (((Runtime.messageEntry lib peer msg entry).2.filterMap
        Runtime.eventObservation).foldl Phase.next phase ≠ .broken ↔ MessageOk entry b msg) := by
  rcases h.cases with hbroken | ⟨hphase, rfl⟩ |
    ⟨answered, accepted, state, rfl, rfl, hanswered, haccepted⟩
  · exact absurd hbroken hphase
  · -- no such stream: only a request and a close are heard of
    rcases hphase with rfl | rfl <;> cases msg <;>
      simp [Runtime.messageEntry, Runtime.eventObservation, Phase.next, Agrees, noteMessage,
        MessageOk]
  · cases msg with
    | acceptStream i =>
      -- expected once, by the side that has asked
      rcases state with ⟨target, reason, status, direction⟩
      cases direction <;> cases answered <;>
        simp_all [Runtime.messageEntry, Runtime.eventObservation, Phase.next, Agrees, noteMessage,
          MessageOk]
    | streamData i data =>
      cases accepted <;>
        simp_all [Runtime.messageEntry, Runtime.eventObservation, Phase.next, Agrees, noteMessage,
          MessageOk]
    | syncContext incoming => cases hmsg
    | _ =>
      simp [Runtime.messageEntry, Runtime.eventObservation, Phase.next, Agrees, noteMessage,
        MessageOk]

omit [LinearOrder Peer] in
/-- A stream command for an existing stream keeps phase and table in agreement. -/
theorem command_agrees {cmd : Command} {id : UInt64} (hcmd : Runtime.commandStream cmd = some id)
    {phase : Phase} {state : StreamState Peer} {b : Prop} (h : Agrees phase (some state) b)
    (hphase : phase ≠ .broken) :
    Agrees ((commandSeen cmd).foldl Phase.next phase) (Runtime.commandEntry cmd state).1 b ∧
      (commandSeen cmd).foldl Phase.next phase ≠ .broken := by
  rcases h.cases with hbroken | ⟨-, hnone⟩ | ⟨answered, accepted, state', rfl, hget, hb, hstatus⟩
  · exact absurd hbroken hphase
  · cases hnone
  · cases hget
    cases cmd <;> cases hcmd <;>
      simp_all [commandSeen, Runtime.commandEntry, Phase.next, Agrees]

/-- Seen from one stream: as long as nothing is broken a step keeps phase and
table in agreement, and it breaks nothing exactly if it is orderly. -/
theorem step_at (lib : External Peer) (env : Env Peer) (s : StreamProtocol Peer)
    (l : Runtime.Label Peer) (id : UInt64)
    (h : Agrees (s.phase id) (s.rt.streams.get? id) (id ∈ s.answered))
    (hphase : s.phase id ≠ .broken) :
    let r := s.rt.turn lib env l
    Agrees ((Runtime.observe id l r.2).foldl Phase.next (s.phase id)) (r.1.streams.get? id)
        (id ∈ note s.answered l (Runtime.replyOf r.2)) ∧
      ((Runtime.observe id l r.2).foldl Phase.next (s.phase id) ≠ .broken ↔ s.OrderlyAt id l) := by
  intro r
  have hmove : Runtime.Move lib s.rt id l (r.1.streams.get? id) (Runtime.eventsAbout id r.2) :=
    Runtime.move l
  unfold Runtime.observe
  generalize r.1.streams.get? id = entry at hmove ⊢
  generalize Runtime.eventsAbout id r.2 = events at hmove ⊢
  cases hmove with
  | @opened peerId reason target hid hpeer =>
    -- whatever was there before, the phase starts again
    have hsome : (lib.fromStr peerId.id).isSome = true := by
      rw [hpeer]
      rfl
    have hreply : Runtime.replyOf r.2 = some (.stream (.ok ⟨id⟩)) := by
      simp only [r, Runtime.turn]
      rw [Runtime.replyOf_open, if_pos hsome, hid]
    rw [hreply]
    have hnext : Phase.next (s.phase id) (.requested .outbound) = .live .outbound false false := by
      cases hp : s.phase id with
      | broken => exact absurd hp hphase
      | _ => rfl
    simp [Runtime.commandObservation, note, hnext, Agrees, OrderlyAt]
  | @command cmd state hcmd hget =>
    -- a command of the application is always in order
    have hseen : Runtime.commandObservation id (.command cmd : Runtime.Label Peer)
        (Runtime.replyOf r.2) = commandSeen cmd := by
      simp only [r]
      rw [commandObservation_named hcmd, if_pos ⟨rfl, by rw [hget]; rfl⟩]
    have hnote : note s.answered (.command cmd : Runtime.Label Peer) (Runtime.replyOf r.2) =
        s.answered := by
      cases cmd <;> first | rfl | cases hcmd
    rw [hget] at h
    rw [hseen, hnote]
    rcases command_agrees hcmd h hphase with ⟨hagrees, hlive⟩
    rw [List.filterMap_nil, List.append_nil]
    exact ⟨hagrees, iff_of_true hlive True.intro⟩
  | @message peer msg hmsg =>
    -- a message is in order or not, as the phase says
    have hnote : (id ∈ note s.answered (.swarm (.request peer msg)) (Runtime.replyOf r.2)) =
        noteMessage (id ∈ s.answered) msg := by
      cases msg <;> cases hmsg <;> simp [note, noteMessage]
    rw [hnote]
    rcases message_agrees lib peer hmsg h hphase with ⟨hagrees, hok⟩
    refine ⟨hagrees, ?_⟩
    show _ ↔ (Runtime.namedStream msg = some id → _)
    rw [forall_prop_of_true hmsg]
    exact hok
  | @disconnected peer state hget hpeer =>
    -- the entry was there, so its one end is in order
    rw [hget] at h
    rcases h.cases with hbroken | ⟨-, hnone⟩ | ⟨answered, accepted, state', hlive, -, -⟩
    · exact absurd hbroken hphase
    · cases hnone
    · rw [hlive]
      simp [Runtime.commandObservation, Runtime.eventObservation, Phase.next, Agrees, OrderlyAt]
  | untouched hnot =>
    -- nothing is observed
    rw [commandObservation_untouched hnot, mem_note_untouched hnot]
    refine ⟨h, iff_of_true hphase ?_⟩
    rcases l with cmd | event | _
    · exact True.intro
    · cases event with
      | request peer msg => exact fun hmsg => absurd hmsg hnot
      | _ => exact True.intro
    · exact True.intro

/-! ## Runs -/

variable {lib : External Peer}

/-- Every step keeps the phase in line with the table. -/
theorem step_inv (s : StreamProtocol Peer) (l : Env Peer × Runtime.Label Peer)
    (t : StreamProtocol Peer) (hstep : (streamProtocol lib).step s l = some t) (h : s.Inv) :
    t.Inv := by
  rcases l with ⟨env, l⟩
  cases hstep
  intro id
  by_cases hphase : s.phase id = .broken
  · dsimp only
    rw [hphase, foldl_broken]
    exact True.intro
  · exact (step_at lib env s l id (h id) hphase).1

/-- A step stays lawful exactly if it is orderly. -/
theorem step_lawful_iff (s : StreamProtocol Peer) (l : Env Peer × Runtime.Label Peer)
    (t : StreamProtocol Peer) (hstep : (streamProtocol lib).step s l = some t) (h : s.Inv)
    (hs : s.Lawful) : t.Lawful ↔ s.Orderly l := by
  rcases l with ⟨env, l⟩
  cases hstep
  exact forall_congr' fun id => (step_at lib env s l id (h id) (hs id)).2

theorem init_inv {s : StreamProtocol Peer} (h : (streamProtocol lib).Init s) : s.Inv := by
  rcases h with ⟨⟨localPeerId, now, hrt⟩, -, hphase⟩
  intro id
  rw [hrt, hphase]
  exact True.intro

theorem init_lawful {s : StreamProtocol Peer} (h : (streamProtocol lib).Init s) : s.Lawful := by
  rcases h with ⟨-, -, hphase⟩
  intro id
  rw [hphase]
  exact nofun

variable (lib) in
/-- Every turn is always possible. -/
theorem run_isSome (s : StreamProtocol Peer) (ls : List (Env Peer × Runtime.Label Peer)) :
    ∃ t, (streamProtocol lib).run s ls = some t := by
  induction ls generalizing s with
  | nil => exact ⟨s, rfl⟩
  | cons l ls ih => exact ih _

/-- **The protocol of a stream**: in every run of a node that has just started,
with any commands, messages and disconnections, the events of every stream
follow the protocol exactly if every `AcceptStream` message for a known stream
is the first one and for a stream requested here, every `StreamData` message for
a known stream finds it accepted, and every `CloseStream` message names a known
stream. -/
theorem protocol_iff (lib : External Peer) (s : StreamProtocol Peer)
    (h₀ : (streamProtocol lib).Init s) (ls : List (Env Peer × Runtime.Label Peer)) :
    (streamProtocol lib).AllStates Lawful s ls ↔ (streamProtocol lib).AllSteps Orderly s ls := by
  obtain ⟨t, hrun⟩ := run_isSome lib s ls
  exact (streamProtocol lib).allStates_iff_of_invariant step_inv step_lawful_iff hrun
    (init_inv h₀) (init_lawful h₀)

/-! ## Closes that cross -/

/-- A node that has just started. -/
def booted : StreamProtocol String := ⟨.new External.plain "me" 0, ∅, fun _ => .unrequested⟩

/-- A peer requests a stream, gets it and sends on it. -/
def peerSends : List (Env String × Runtime.Label String) :=
  [(.calm String, .swarm (.request "peer" (.requestStream 7 "chat"))),
    (.calm String, .command (.acceptStream ⟨7⟩)),
    (.calm String, .swarm (.request "peer" (.streamData 7 [1])))]

theorem protocol_iff_sends : (streamProtocol External.plain).AllStates Lawful booted peerSends ↔
    (streamProtocol External.plain).AllSteps Orderly booted peerSends :=
  protocol_iff External.plain booted ⟨⟨"me", 0, rfl⟩, rfl, rfl⟩ peerSends

/-- Both ends close the stream at the same time. -/
def bothClose : List (Env String × Runtime.Label String) :=
  peerSends ++ [(.calm String, .command (.closeStream ⟨7⟩)),
    (.calm String, .swarm (.request "peer" (.closeStream 7)))]

/-- The application has closed the stream, and is told that it was closed. -/
theorem closed_after_close : ¬ ∀ (s : StreamProtocol String) ls,
    (streamProtocol External.plain).Init s →
      (streamProtocol External.plain).AllStates Lawful s ls := by
  intro h
  have hall := h booted (bothClose ++ []) ⟨⟨"me", 0, rfl⟩, rfl, rfl⟩
  have hbroken : ((streamProtocol External.plain).run booted bothClose).map
      (fun t => t.phase 7) = some .broken := by
    decide +kernel
  obtain ⟨t, ht, hphase⟩ := Option.map_eq_some_iff.mp hbroken
  exact Machine.AllStates.at_cut _ hall ht 7 hphase

end StreamProtocol

end AviNet
