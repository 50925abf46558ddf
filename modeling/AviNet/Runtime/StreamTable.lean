import AviNet.Lib.Machine
import AviNet.Runtime.Handlers

/-!
# Runtime.StreamTable — what commands and messages do to one entry of the table

Every stream message names one id, and so does every stream command but the
opening one. `messageEntry` and `commandEntry` say what happens to the entry
under that id; `get?_handleStreamMessage` and `get?_handleCommand` that nothing
happens to any other entry. All results about streams rest on these lemmas.
-/

namespace AviNet

/-- The runtime as a machine: every turn of its loop, in every environment. -/
def runtime {Peer : Type} [LinearOrder Peer] (lib : External Peer) :
    Machine (Runtime Peer) (Env Peer × Runtime.Label Peer) where
  Init self := ∃ localPeerId now, self = .new lib localPeerId now
  step self l := some (self.turn lib l.1 l.2).1

namespace Runtime

variable {Peer : Type}

/-! ## Entries -/

/-- The id a stream message names. -/
def namedStream : StreamMessage → Option UInt64
  | .requestStream id _ | .acceptStream id | .rejectStream id _ | .streamData id _
  | .closeStream id => some id
  | .syncContext _ => none

/-- The entry a message of `peer` leaves under its id, and the events it causes. -/
def messageEntry (lib : External Peer) (peer : Peer) (msg : StreamMessage)
    (entry : Option (StreamState Peer)) : Option (StreamState Peer) × List AviEvent :=
  match msg, entry with
  | .requestStream id reason, _ =>
    (some ⟨peer, reason, .requested, .inbound⟩, [.streamRequested (lib.peerId peer) reason ⟨id⟩])
  | .acceptStream id, some state =>
    (some { state with status := .active }, [.streamAccepted (lib.peerId peer) ⟨id⟩])
  | .rejectStream id reason, some _ => (none, [.streamRejected (lib.peerId peer) ⟨id⟩ reason])
  | .streamData id data, some state => (some state, [.streamData (lib.peerId peer) ⟨id⟩ data])
  | .closeStream id, _ => (none, [.streamClosed (lib.peerId peer) ⟨id⟩ .remoteClose])
  | .acceptStream _, none | .rejectStream _ _, none | .streamData _ _, none => (none, [])
  | .syncContext _, entry => (entry, [])

/-- The id a stream command names; `RequestStream` makes its own. -/
def commandStream : Command → Option UInt64
  | .acceptStream id | .rejectStream id _ | .sendStreamData id _ | .closeStream id => some id.id
  | _ => none

/-- The entry a stream command leaves under its id, and the message sent to the
peer of the entry. -/
def commandEntry (cmd : Command) (state : StreamState Peer) :
    Option (StreamState Peer) × Option StreamMessage :=
  match cmd with
  | .acceptStream id => (some { state with status := .accepted }, some (.acceptStream id.id))
  | .rejectStream id reason => (none, some (.rejectStream id.id reason))
  | .sendStreamData id data => (some state, some (.streamData id.id data))
  | .closeStream id => (none, some (.closeStream id.id))
  | _ => (some state, none)

variable [LinearOrder Peer] {lib : External Peer} {env : Env Peer} {self : Runtime Peer}

/-! ## Messages -/

/-- A stream message changes the entry it names as `messageEntry` says. -/
theorem get?_handleStreamMessage {peer : Peer} {msg : StreamMessage} {id : UInt64}
    (h : namedStream msg = some id) (j : UInt64) :
    (self.handleStreamMessage lib peer msg).1.streams.get? j =
      if j = id then (messageEntry lib peer msg (self.streams.get? id)).1
      else self.streams.get? j := by
  cases msg with
  | syncContext incoming => cases h
  | requestStream i reason =>
    cases h
    exact SortedMap.get?_insert self.streams id j _
  | acceptStream i =>
    -- an acceptance needs an entry
    cases h
    simp only [handleStreamMessage, messageEntry]
    cases hi : self.streams.get? id with
    | none => exact SortedMap.get?_eq_ite hi j
    | some state => exact SortedMap.get?_insert self.streams id j _
  | rejectStream i reason =>
    -- a refusal takes it away
    cases h
    simp only [handleStreamMessage, messageEntry]
    cases hi : self.streams.get? id with
    | none => exact SortedMap.get?_eq_ite hi j
    | some state => exact SortedMap.get?_erase self.streams id j
  | streamData i data =>
    -- data leaves it as it is
    cases h
    simp only [handleStreamMessage, messageEntry]
    cases hi : self.streams.get? id with
    | none => exact SortedMap.get?_eq_ite hi j
    | some state => exact SortedMap.get?_eq_ite hi j
  | closeStream i =>
    -- an end takes it away, or finds none
    cases h
    exact SortedMap.get?_erase self.streams id j

theorem events_handleStreamMessage {peer : Peer} {msg : StreamMessage} {id : UInt64}
    (h : namedStream msg = some id) :
    eventsOf (self.handleStreamMessage lib peer msg).2 =
      (messageEntry lib peer msg (self.streams.get? id)).2 := by
  cases msg with
  | syncContext incoming => cases h
  | requestStream i reason =>
    cases h
    rfl
  | acceptStream i =>
    cases h
    simp only [handleStreamMessage, messageEntry]
    cases self.streams.get? id <;> rfl
  | rejectStream i reason =>
    cases h
    simp only [handleStreamMessage, messageEntry]
    cases self.streams.get? id <;> rfl
  | streamData i data =>
    cases h
    simp only [handleStreamMessage, messageEntry]
    cases self.streams.get? id <;> rfl
  | closeStream i =>
    cases h
    rfl

/-- The entry keeps its peer, its reason and its direction. -/
def SameRole (state state' : StreamState Peer) : Prop :=
  state'.peer = state.peer ∧ state'.reason = state.reason ∧ state'.direction = state.direction

omit [LinearOrder Peer] in
/-- Only an opening message makes a new entry. -/
theorem messageEntry_role {peer : Peer} {msg : StreamMessage} {entry : Option (StreamState Peer)}
    {state' : StreamState Peer} (h : (messageEntry lib peer msg entry).1 = some state') :
    (∃ id reason, msg = .requestStream id reason ∧
      state' = ⟨peer, reason, .requested, .inbound⟩) ∨
    ∃ state, entry = some state ∧ SameRole state state' := by
  cases msg with
  | requestStream id reason => exact Or.inl ⟨id, reason, rfl, (Option.some.inj h).symm⟩
  | acceptStream id =>
    cases entry with
    | none => cases h
    | some state =>
      cases h
      exact Or.inr ⟨state, rfl, rfl, rfl, rfl⟩
  | rejectStream id reason => cases entry <;> cases h
  | streamData id data =>
    cases entry with
    | none => cases h
    | some state =>
      cases h
      exact Or.inr ⟨_, rfl, rfl, rfl, rfl⟩
  | closeStream id => cases h
  | syncContext incoming => exact Or.inr ⟨state', h, rfl, rfl, rfl⟩

theorem events_mergeContext {incoming : AviContext} {e : AviEvent}
    (h : e ∈ eventsOf (self.mergeContext incoming).2) :
    e = .contextUpdated ⟨incoming.deviceId⟩ (self.localContext.merge incoming).1.data := by
  unfold mergeContext at h
  dsimp only at h
  split_ifs at h
  · exact List.mem_singleton.mp h
  · cases h

/-! ## Commands -/

/-- A command for an existing stream changes its entry as `commandEntry` says. -/
theorem handleCommand_found {cmd : Command} {id : UInt64} {state : StreamState Peer}
    (h : commandStream cmd = some id) (hget : self.streams.get? id = some state) :
    (∀ j, (self.handleCommand lib env cmd).1.streams.get? j =
      if j = id then (commandEntry cmd state).1 else self.streams.get? j) ∧
    sentOf (self.handleCommand lib env cmd).2 =
      (commandEntry cmd state).2.toList.map fun msg => (state.peer, msg) := by
  cases cmd with
  | acceptStream sid =>
    -- each takes the entry to what `commandEntry` says
    cases h
    simp only [handleCommand, hget]
    exact ⟨fun j => SortedMap.get?_insert self.streams _ j _, rfl⟩
  | rejectStream sid reason =>
    cases h
    simp only [handleCommand, hget]
    exact ⟨fun j => SortedMap.get?_erase self.streams _ j, rfl⟩
  | sendStreamData sid data =>
    cases h
    simp only [handleCommand, hget]
    refine ⟨?_, rfl⟩
    intro j
    show self.streams.get? j = if j = sid.id then some state else self.streams.get? j
    split_ifs with hj
    · rw [hj, hget]
    · rfl
  | closeStream sid =>
    cases h
    simp only [handleCommand, hget]
    exact ⟨fun j => SortedMap.get?_erase self.streams _ j, rfl⟩
  | _ => cases h

/-- A command for an unknown stream does nothing. -/
theorem handleCommand_not_found {cmd : Command} {id : UInt64}
    (h : commandStream cmd = some id) (hget : self.streams.get? id = none) :
    (self.handleCommand lib env cmd).1 = self ∧ sentOf (self.handleCommand lib env cmd).2 = [] := by
  cases cmd <;> cases h <;> simp only [handleCommand, hget] <;> exact ⟨rfl, rfl⟩

variable (lib env self) in
/-- The answer of a stream command. -/
theorem replyOf_named {cmd : Command} {id : UInt64} (h : commandStream cmd = some id) :
    replyOf (self.handleCommand lib env cmd).2 = some (.done
      (if (self.streams.get? id).isSome then .ok () else .error (.streamNotFound ⟨id⟩))) := by
  cases cmd <;> cases h <;> simp only [handleCommand] <;>
    cases self.streams.get? (StreamId.id _) <;> rfl

variable (lib env self) in
/-- The answer of the opening command. -/
theorem replyOf_open (peerId : PeerId) (reason : String) :
    replyOf (self.handleCommand lib env (.requestStream peerId reason)).2 = some (.stream
      (if (lib.fromStr peerId.id).isSome then .ok ⟨self.nextStreamId⟩
        else .error (.peerNotFound peerId))) := by
  simp only [handleCommand]
  cases lib.fromStr peerId.id <;> rfl

omit [LinearOrder Peer] in
/-- The message a stream command sends names the stream and opens none. -/
theorem named_commandEntry {cmd : Command} {id : UInt64} (h : commandStream cmd = some id)
    {state : StreamState Peer} {msg : StreamMessage}
    (hmsg : (commandEntry cmd state).2 = some msg) :
    namedStream msg = some id ∧ ∀ i reason, msg ≠ .requestStream i reason := by
  cases cmd <;> cases h <;> cases hmsg <;> exact ⟨rfl, nofun⟩

omit [LinearOrder Peer] in
theorem commandEntry_role {cmd : Command} {state state' : StreamState Peer}
    (h : (commandEntry cmd state).1 = some state') : SameRole state state' := by
  cases cmd <;> cases h <;> exact ⟨rfl, rfl, rfl⟩

variable (lib env self) in
/-- Opening a stream to a peer takes the next id, whatever is stored under it. -/
theorem handleCommand_open (peer : Peer) (reason : String) :
    (∀ j, (self.handleCommand lib env (.requestStream (lib.peerId peer) reason)).1.streams.get? j =
      if j = self.nextStreamId then some ⟨peer, reason, .requested, .outbound⟩
      else self.streams.get? j) ∧
    sentOf (self.handleCommand lib env (.requestStream (lib.peerId peer) reason)).2 =
      [(peer, .requestStream self.nextStreamId reason)] := by
  have hfrom : lib.fromStr (lib.peerId peer).id = some peer := lib.fromStr_toBase58 peer
  simp only [handleCommand, hfrom]
  exact ⟨fun j => SortedMap.get?_insert self.streams self.nextStreamId j _, rfl⟩

end Runtime

end AviNet
