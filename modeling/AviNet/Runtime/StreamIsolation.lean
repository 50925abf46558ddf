import AviNet.Runtime.StreamTable

/-!
# Runtime.StreamIsolation — messages about somebody else's stream

The handler of a stream message looks its id up in the table and nothing else;
only `ConnectionClosed` compares the owner of an entry with the peer.

* `isolated_iff_owned`: a message leaves the streams of other peers alone
  exactly if its id is unused or belongs to its sender;
* `isolated_run_iff`: the same along every run of the runtime;
* `foreign_close`: a peer that closes the stream of another.
-/

namespace AviNet.Runtime

variable {Peer : Type}

/-- The stream a report to the user is about: acceptance, rejection, data or end. -/
def reportedStream : AviEvent → Option StreamId
  | .streamAccepted _ id | .streamRejected _ id _ | .streamData _ id _
  | .streamClosed _ id _ => some id
  | _ => none

variable [LinearOrder Peer] (lib : External Peer)

/-- A message of `p` leaves every entry of other peers as it is and reports
nothing about their streams. -/
def Isolated (self : Runtime Peer) (p : Peer) (msg : StreamMessage) : Prop :=
  ∀ id state, self.streams.get? id = some state → state.peer ≠ p →
    (self.handleStreamMessage lib p msg).1.streams.get? id = some state ∧
      ∀ e ∈ eventsOf (self.handleStreamMessage lib p msg).2, reportedStream e ≠ some ⟨id⟩

/-- The id the message names is unused or belongs to `p`. -/
def Owned (self : Runtime Peer) (p : Peer) (msg : StreamMessage) : Prop :=
  ∀ id state, namedStream msg = some id → self.streams.get? id = some state → state.peer = p

/-! ## One message -/

variable {lib} {self : Runtime Peer} {p : Peer}

omit [LinearOrder Peer] in
/-- All reports about a message are reports about the id it names. -/
theorem reported_of_messageEntry {msg : StreamMessage} {id : UInt64}
    (h : namedStream msg = some id) {entry : Option (StreamState Peer)} {e : AviEvent}
    (he : e ∈ (messageEntry lib p msg entry).2) :
    reportedStream e = none ∨ reportedStream e = some ⟨id⟩ := by
  cases msg <;> cases h <;> cases entry <;> simp [messageEntry] at he <;>
    subst he <;> simp [reportedStream]

omit [LinearOrder Peer] in
/-- A message about an existing entry makes it an entry of the sender or reports about it. -/
theorem messageEntry_touches (lib : External Peer) (p : Peer) {msg : StreamMessage} {id : UInt64}
    (h : namedStream msg = some id) (state : StreamState Peer) :
    (∃ state', (messageEntry lib p msg (some state)).1 = some state' ∧ state'.peer = p) ∨
      ∃ e ∈ (messageEntry lib p msg (some state)).2, reportedStream e = some ⟨id⟩ := by
  cases msg with
  | syncContext incoming => cases h
  | requestStream i reason => exact Or.inl ⟨_, rfl, rfl⟩
  | acceptStream i =>
    cases h
    exact Or.inr ⟨_, List.mem_cons_self, rfl⟩
  | rejectStream i reason =>
    cases h
    exact Or.inr ⟨_, List.mem_cons_self, rfl⟩
  | streamData i data =>
    cases h
    exact Or.inr ⟨_, List.mem_cons_self, rfl⟩
  | closeStream i =>
    cases h
    exact Or.inr ⟨_, List.mem_cons_self, rfl⟩

/-- The exact condition for one message. -/
theorem isolated_iff_owned {msg : StreamMessage} :
    Isolated lib self p msg ↔ Owned self p msg := by
  cases hn : namedStream msg with
  | none =>
    -- a context names no stream
    cases msg with
    | syncContext incoming =>
      refine iff_of_true ?_ nofun
      intro id state hget _
      refine ⟨hget, ?_⟩
      intro e he
      rw [events_mergeContext he]
      exact nofun
    | _ => cases hn
  | some i =>
    unfold Isolated Owned
    simp only [get?_handleStreamMessage hn, events_handleStreamMessage hn]
    constructor
    · -- the message touches the entry, so its sender owns it
      intro h id state hnamed hget
      rw [hn] at hnamed
      cases hnamed
      by_contra hp
      rcases h i state hget hp with ⟨hkept, hsilent⟩
      rw [if_pos rfl, hget] at hkept
      rw [hget] at hsilent
      rcases messageEntry_touches lib p hn state with ⟨state', hnew, hpeer⟩ | he
      · rw [hnew] at hkept
        cases hkept
        exact hp hpeer
      · rcases he with ⟨e, he, hrep⟩
        exact hsilent e he hrep
    · -- an owned id is not that of another peer's stream
      intro h id state hget hp
      have hne : id ≠ i := by
        intro heq
        exact hp (h i state hn (heq ▸ hget))
      refine ⟨by rw [if_neg hne, hget], ?_⟩
      intro e he hrep
      rcases reported_of_messageEntry hn he with hnone | hsome
      · rw [hrep] at hnone
        cases hnone
      · rw [hrep] at hsome
        injection hsome with hid
        injection hid with hid
        exact hne hid

/-! ## Runs -/

/-- A step of the runtime keeps peers apart. -/
def StepIsolated (lib : External Peer) (self : Runtime Peer) : Env Peer × Label Peer → Prop
  | (_, .swarm (.request p msg)) => Isolated lib self p msg
  | _ => True

/-- The condition on a step. -/
def StepOwned (self : Runtime Peer) : Env Peer × Label Peer → Prop
  | (_, .swarm (.request p msg)) => Owned self p msg
  | _ => True

theorem stepIsolated_iff (self : Runtime Peer) (l : Env Peer × Label Peer) :
    StepIsolated lib self l ↔ StepOwned self l := by
  rcases l with ⟨env, l⟩
  cases l with
  | swarm event =>
    cases event with
    | request q msg => exact isolated_iff_owned
    | _ => exact Iff.rfl
  | command cmd => exact Iff.rfl
  | tick => exact Iff.rfl

/-- **Isolation**: in every run of the runtime, all messages leave the streams of
other peers alone exactly if each names an id that is unused or its sender's own. -/
theorem isolated_run_iff (lib : External Peer) (self : Runtime Peer)
    (ls : List (Env Peer × Label Peer)) :
    (runtime lib).AllSteps (StepIsolated lib) self ls ↔
      (runtime lib).AllSteps StepOwned self ls :=
  (runtime lib).allSteps_iff_allSteps (J := fun _ => True) (fun _ _ _ _ _ h => h)
    (fun s l _ => stepIsolated_iff s l) True.intro ls

/-! ## A foreign message -/

/-- A node that has just started. -/
def booted : Runtime String := .new External.plain "me" 0

/-- `owner` opens stream 7, then `stranger` closes it. -/
def closedByStranger : List (Env String × Label String) :=
  [(.calm String, .swarm (.request "owner" (.requestStream 7 "chat"))),
    (.calm String, .swarm (.request "stranger" (.closeStream 7)))]

/-- The stream of `owner` is gone. -/
theorem foreign_close : ¬ ∀ (self : Runtime String) ls, (runtime External.plain).Init self →
    (runtime External.plain).AllSteps (StepIsolated External.plain) self ls := by
  intro h
  have hall := h booted closedByStranger ⟨"me", 0, rfl⟩
  have hiso := (hall.2 _ rfl).1
  have hkept := (hiso 7 ⟨"owner", "chat", .requested, .inbound⟩ (by decide +kernel)
    (by decide)).1
  exact absurd hkept (by decide +kernel)

end AviNet.Runtime
