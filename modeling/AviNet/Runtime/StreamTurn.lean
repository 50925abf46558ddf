import AviNet.Runtime.Frames
import AviNet.Runtime.StreamTable

/-!
# Runtime.StreamTurn — what one turn of the runtime does to one stream

Five commands, five messages and the end of a connection touch the table of
streams. `Move` lists what they do to the entry of one id and which events
about that id they emit; `move` says that there is nothing else.
-/

namespace AviNet.Runtime

variable {Peer : Type} [LinearOrder Peer]

/-- The events about a stream among the effects, in order. -/
def eventsAbout (id : UInt64) (effects : List (Effect Peer)) : List AviEvent :=
  (eventsOf effects).filter fun e => aboutStream e = some id

/-! ## The end of a connection -/

section Closing

variable {lib : External Peer} {env : Env Peer} {self : Runtime Peer}

/-- The ids removed with a peer are those of its streams. -/
theorem mem_idsToRemove {peerId : Peer} {id : UInt64} : id ∈ self.idsToRemove env peerId ↔
    ∃ state, self.streams.get? id = some state ∧ state.peer = peerId := by
  unfold idsToRemove
  rw [List.mem_map]
  constructor
  · rintro ⟨⟨i, state⟩, hmem, rfl⟩
    rw [List.mem_filter, (env.order_perm _).mem_iff, SortedMap.mem_entries] at hmem
    exact ⟨state, hmem.1, of_decide_eq_true hmem.2⟩
  · rintro ⟨state, hget, hpeer⟩
    refine ⟨(id, state), ?_, rfl⟩
    rw [List.mem_filter, (env.order_perm _).mem_iff, SortedMap.mem_entries]
    exact ⟨hget, decide_eq_true hpeer⟩

variable (env self) in
/-- Each of them is removed once. -/
theorem nodup_idsToRemove (peerId : Peer) : (self.idsToRemove env peerId).Nodup := by
  unfold idsToRemove
  have hkeys : (self.streams.entries.map Prod.fst).Nodup := self.streams.nodup_keys
  have hordered : ((env.order self.streams.entries).map Prod.fst).Nodup :=
    ((env.order_perm self.streams.entries).map Prod.fst).nodup_iff.mpr hkeys
  exact hordered.sublist (List.filter_sublist.map Prod.fst)

end Closing

/-! ## Moves -/

section Moves

variable (lib : External Peer) (self : Runtime Peer) (id : UInt64)

/-- The turn is one that acts on the stream `id`. -/
def Touches : Label Peer → Prop
  | .command (.requestStream peerId _) =>
    id = self.nextStreamId ∧ (lib.fromStr peerId.id).isSome = true
  | .command cmd => commandStream cmd = some id ∧ (self.streams.get? id).isSome = true
  | .swarm (.request _ msg) => namedStream msg = some id
  | .swarm (.connectionClosed peer n) =>
    n = 0 ∧ ∃ state, self.streams.get? id = some state ∧ state.peer = peer
  | _ => False

/-- What a turn does to the stream `id`: the entry afterwards and the events. -/
inductive Move : Label Peer → Option (StreamState Peer) → List AviEvent → Prop
  /-- the application opens it -/
  | opened {peerId : PeerId} {reason : String} {target : Peer} (hid : id = self.nextStreamId)
      (hpeer : lib.fromStr peerId.id = some target) :
      Move (.command (.requestStream peerId reason))
        (some ⟨target, reason, .requested, .outbound⟩) []
  /-- another command for it -/
  | command {cmd : Command} {state : StreamState Peer} (hcmd : commandStream cmd = some id)
      (hget : self.streams.get? id = some state) :
      Move (.command cmd) (commandEntry cmd state).1 []
  /-- a message that names it -/
  | message {peer : Peer} {msg : StreamMessage} (hmsg : namedStream msg = some id) :
      Move (.swarm (.request peer msg)) (messageEntry lib peer msg (self.streams.get? id)).1
        (messageEntry lib peer msg (self.streams.get? id)).2
  /-- its peer is gone -/
  | disconnected {peer : Peer} {state : StreamState Peer}
      (hget : self.streams.get? id = some state) (hpeer : state.peer = peer) :
      Move (.swarm (.connectionClosed peer 0)) none
        [.streamClosed (lib.peerId peer) ⟨id⟩ .remoteClose]
  | untouched {l : Label Peer} (h : ¬ Touches lib self id l) : Move l (self.streams.get? id) []

variable {lib} {env : Env Peer} {self} {id}

omit [LinearOrder Peer] in
/-- No event is about the stream if none is. -/
theorem eventsAbout_of_forall {effects : List (Effect Peer)}
    (h : ∀ e ∈ eventsOf effects, aboutStream e ≠ some id) : eventsAbout id effects = [] := by
  unfold eventsAbout
  rw [List.filter_eq_nil_iff]
  intro e he hid
  exact h e he (of_decide_eq_true hid)

omit [LinearOrder Peer] in
/-- All events of a message are about the stream it names. -/
theorem about_of_messageEntry {peer : Peer} {msg : StreamMessage} {i : UInt64}
    (h : namedStream msg = some i) {entry : Option (StreamState Peer)} {e : AviEvent}
    (he : e ∈ (messageEntry lib peer msg entry).2) : aboutStream e = some i := by
  cases msg <;> cases h <;> cases entry <;> simp [messageEntry] at he <;> subst he <;> rfl

omit [LinearOrder Peer] in
/-- A command that names no stream opens one or has nothing to do with streams. -/
theorem offStreams_or_open {cmd : Command} (h : commandStream cmd = none) :
    OffStreams cmd ∨ ∃ peerId reason, cmd = .requestStream peerId reason := by
  cases cmd with
  | requestStream peerId reason => exact Or.inr ⟨peerId, reason, rfl⟩
  | acceptStream sid | rejectStream sid reason | sendStreamData sid data | closeStream sid =>
    cases h
  | _ => exact Or.inl True.intro

/-- A command touches the stream it names, an opening one the stream it makes. -/
theorem touches_command {cmd : Command} (h : Touches lib self id (.command cmd)) :
    (commandStream cmd = some id ∧ (self.streams.get? id).isSome = true) ∨
      ∃ peerId reason, cmd = .requestStream peerId reason ∧ id = self.nextStreamId ∧
        (lib.fromStr peerId.id).isSome = true := by
  cases cmd with
  | requestStream peerId reason => exact Or.inr ⟨peerId, reason, rfl, h⟩
  | _ => exact Or.inl h

/-- Every command makes one of the moves on each stream. -/
theorem move_command (cmd : Command) : Move lib self id (.command cmd)
    ((self.handleCommand lib env cmd).1.streams.get? id)
    (eventsAbout id (self.handleCommand lib env cmd).2) := by
  -- commands emit no events
  have hevents : eventsAbout id (self.handleCommand lib env cmd).2 = [] := by
    unfold eventsAbout
    rw [eventsOf_handleCommand]
    rfl
  rw [hevents]
  cases hcmd : commandStream cmd with
  | some i =>
    have htouch : ∀ {j}, Touches lib self j (.command cmd) →
        j = i ∧ (self.streams.get? i).isSome = true := by
      intro j h
      rcases touches_command h with ⟨hj, hsome⟩ | ⟨peerId, reason, rfl, -⟩
      · rw [hcmd] at hj
        cases hj
        exact ⟨rfl, hsome⟩
      · cases hcmd
    cases hget : self.streams.get? i with
    | none =>
      -- the id is unknown, so nothing happens
      rw [(handleCommand_not_found hcmd hget).1]
      refine .untouched ?_
      intro h
      have hsome := (htouch h).2
      rw [hget] at hsome
      cases hsome
    | some state =>
      rw [(handleCommand_found hcmd hget).1 id]
      split_ifs with hid
      · -- the entry it names
        subst hid
        exact .command hcmd hget
      · exact .untouched fun h => hid (htouch h).1
  | none =>
    -- it names no stream
    rcases offStreams_or_open hcmd with hoff | ⟨peerId, reason, rfl⟩
    · rw [(handleCommand_off_streams hoff).1]
      refine .untouched ?_
      intro h
      rcases touches_command h with ⟨hid, -⟩ | ⟨peerId, reason, rfl, -⟩
      · rw [hcmd] at hid
        cases hid
      · exact hoff
    · simp only [handleCommand]
      cases hpeer : lib.fromStr peerId.id with
      | none =>
        refine .untouched ?_
        rintro ⟨-, hsome⟩
        rw [hpeer] at hsome
        cases hsome
      | some target =>
        -- a new stream is made
        dsimp only
        rw [SortedMap.get?_insert]
        split_ifs with hid
        · exact .opened hid hpeer
        · exact .untouched fun h => hid h.1

/-- So does every stream message. -/
theorem move_request (peer : Peer) (msg : StreamMessage) : Move lib self id
    (.swarm (.request peer msg)) ((self.handleStreamMessage lib peer msg).1.streams.get? id)
    (eventsAbout id (self.handleStreamMessage lib peer msg).2) := by
  cases hn : namedStream msg with
  | none =>
    -- a context
    cases msg with
    | syncContext incoming =>
      have hevents : eventsAbout id (self.handleStreamMessage lib peer
          (.syncContext incoming)).2 = [] := by
        apply eventsAbout_of_forall
        intro e he
        rw [((mergeContext_writes self incoming).2 e he).1]
        exact nofun
      rw [hevents]
      exact .untouched nofun
    | _ => cases hn
  | some i =>
    unfold eventsAbout
    rw [get?_handleStreamMessage hn, events_handleStreamMessage hn]
    by_cases hid : id = i
    · -- the stream that the message names
      subst hid
      have hall : (messageEntry lib peer msg (self.streams.get? id)).2.filter
          (fun e => aboutStream e = some id) =
            (messageEntry lib peer msg (self.streams.get? id)).2 := by
        rw [List.filter_eq_self]
        intro e he
        exact decide_eq_true (about_of_messageEntry hn he)
      rw [if_pos rfl, hall]
      exact .message hn
    · -- the others
      have hnone : (messageEntry lib peer msg (self.streams.get? i)).2.filter
          (fun e => aboutStream e = some id) = [] := by
        rw [List.filter_eq_nil_iff]
        intro e he habout
        rw [about_of_messageEntry hn he] at habout
        exact hid (Option.some.inj (of_decide_eq_true habout)).symm
      rw [if_neg hid, hnone]
      refine .untouched ?_
      intro h
      rw [Touches, hn] at h
      exact hid (Option.some.inj h).symm

variable (lib env self) in
/-- What the end of the last connection to a peer does. -/
theorem handleSwarmEvent_closed (peer : Peer) :
    self.handleSwarmEvent lib env (.connectionClosed peer 0) =
      ({ self with
          peers := self.peers.erase peer
          discoveredPeers := self.discoveredPeers.erase peer
          syncedPeers := self.syncedPeers.erase peer
          streams := (self.idsToRemove env peer).foldl SortedMap.erase self.streams },
        ((self.idsToRemove env peer).map fun i =>
          .event (.streamClosed (lib.peerId peer) ⟨i⟩ .remoteClose)) ++
            [.event (.peerDisconnected (lib.peerId peer))]) := by
  simp only [handleSwarmEvent, if_pos, closeOne_foldl, List.nil_append]
  rfl

variable (lib env self) in
/-- A lost connection tells of each stream that is removed, then of the peer. -/
theorem eventsOf_closed (peer : Peer) :
    eventsOf (self.handleSwarmEvent lib env (.connectionClosed peer 0)).2 =
      ((self.idsToRemove env peer).map fun i =>
        .streamClosed (lib.peerId peer) ⟨i⟩ .remoteClose) ++
          [.peerDisconnected (lib.peerId peer)] := by
  rw [handleSwarmEvent_closed, eventsOf_append, eventsOf_map_event]
  rfl

omit [LinearOrder Peer] in
/-- Of one event for each of several ids, one is about each of them. -/
theorem filter_closed {peerId : PeerId} {ids : List UInt64} (h : ids.Nodup) :
    (ids.map fun i => AviEvent.streamClosed peerId ⟨i⟩ .remoteClose).filter
        (fun e => aboutStream e = some id) =
      if id ∈ ids then [.streamClosed peerId ⟨id⟩ .remoteClose] else [] := by
  induction ids with
  | nil => rfl
  | cons i ids ih =>
    rcases List.nodup_cons.mp h with ⟨hi, hids⟩
    rw [List.map_cons, List.filter_cons, ih hids]
    by_cases hid : i = id
    · subst hid
      simp [aboutStream, hi]
    · have hne : id ≠ i := fun heq => hid heq.symm
      simp [aboutStream, hid, hne]

/-- A lost connection ends the streams of the peer and leaves the others. -/
theorem move_closed (peer : Peer) : Move lib self id (.swarm (.connectionClosed peer 0))
    ((self.handleSwarmEvent lib env (.connectionClosed peer 0)).1.streams.get? id)
    (eventsAbout id (self.handleSwarmEvent lib env (.connectionClosed peer 0)).2) := by
  have hevents : eventsAbout id (self.handleSwarmEvent lib env (.connectionClosed peer 0)).2 =
      if id ∈ self.idsToRemove env peer then
        [.streamClosed (lib.peerId peer) ⟨id⟩ .remoteClose] else [] := by
    unfold eventsAbout
    rw [eventsOf_closed, List.filter_append, filter_closed (nodup_idsToRemove env self peer)]
    exact List.append_nil _
  rw [hevents, handleSwarmEvent_closed]
  dsimp only
  rw [SortedMap.get?_foldl_erase]
  split_ifs with hmem
  · rcases mem_idsToRemove.mp hmem with ⟨state, hget, hpeer⟩
    exact .disconnected hget hpeer
  · exact .untouched fun h => hmem (mem_idsToRemove.mpr h.2)

/-- Events off the peers touch no stream. -/
theorem not_touches_off {event : SwarmEvent Peer} (h : OffPeers event) :
    ¬ Touches lib self id (.swarm event) := by
  cases event with
  | connectionEstablished peer endpoint n => exact h.elim
  | connectionClosed peer n => exact h.elim
  | request peer msg => exact h.elim
  | _ => exact False.elim

/-- A turn that changes no table entry and emits no event about a stream. -/
theorem move_untouched {l : Label Peer} (h : ¬ Touches lib self id l)
    (hstreams : (self.turn lib env l).1.streams = self.streams)
    (hevents : ∀ e ∈ eventsOf (self.turn lib env l).2, aboutStream e = none) :
    Move lib self id l ((self.turn lib env l).1.streams.get? id)
      (eventsAbout id (self.turn lib env l).2) := by
  have hnone : eventsAbout id (self.turn lib env l).2 = [] := by
    apply eventsAbout_of_forall
    intro e he
    rw [hevents e he]
    exact nofun
  rw [hstreams, hnone]
  exact .untouched h

/-- **Moves**: every turn, seen from one stream. -/
theorem move (l : Label Peer) : Move lib self id l ((self.turn lib env l).1.streams.get? id)
    (eventsAbout id (self.turn lib env l).2) := by
  rcases l with cmd | event | _
  · exact move_command cmd
  · rcases offPeers_cases event with hoff | ⟨peer, endpoint, n, rfl⟩ | ⟨peer, n, rfl⟩ |
      ⟨peer, msg, rfl⟩
    · obtain ⟨⟨_, _, _, _, _, heq⟩, hplain⟩ :=
        handleSwarmEvent_off_peers lib env self hoff
      refine move_untouched (not_touches_off hoff) ?_ ?_
      · simp only [turn, heq]
      · intro e he
        exact (hplain e he).1
    · -- a connection begins
      refine move_untouched not_false ?_ ?_
      · simp only [turn, handleSwarmEvent]
        split_ifs
        · obtain ⟨subscribed, topics, heq⟩ := joinContextTopic_writes env
            { self with peers := self.peers.insert peer (some (endpointAddress endpoint)) }
          rw [heq]
        · rfl
      · intro e he
        simp only [turn, handleSwarmEvent] at he
        split_ifs at he
        · rw [List.mem_singleton.mp he]
          rfl
        · cases he
    · -- a connection ends, maybe the last one
      by_cases hn : n = 0
      · subst hn
        exact move_closed peer
      · have hsame : self.turn lib env (.swarm (.connectionClosed peer n)) = (self, []) := by
          simp only [turn, handleSwarmEvent, if_neg hn]
        refine move_untouched (fun h => hn h.1) ?_ ?_
        · rw [hsame]
        · intro e he
          rw [hsame] at he
          cases he
    · have hevents : eventsAbout id (self.turn lib env (.swarm (.request peer msg))).2 =
          eventsAbout id (self.handleStreamMessage lib peer msg).2 := by
        unfold eventsAbout
        simp only [turn, handleSwarmEvent, eventsOf_append]
        exact congrArg _ (List.append_nil _)
      rw [hevents]
      exact move_request peer msg
  · refine move_untouched not_false rfl ?_
    intro e he
    simp only [turn, eventsOf_heartbeat] at he
    cases he

/-! ## Entries made and ended -/

variable (lib self id) in
/-- The turn makes an entry for `id`, whatever was there. -/
def Makes : Label Peer → Prop
  | .command (.requestStream peerId _) =>
    id = self.nextStreamId ∧ (lib.fromStr peerId.id).isSome = true
  | .swarm (.request _ (.requestStream i _)) => i = id
  | _ => False

variable (lib self) in
/-- The id for which the turn makes an entry. -/
def made : Label Peer → Option UInt64
  | .command (.requestStream peerId _) =>
    if (lib.fromStr peerId.id).isSome = true then some self.nextStreamId else none
  | .swarm (.request _ (.requestStream i _)) => some i
  | _ => none

/-- `made` says for which stream the turn makes an entry. -/
theorem made_eq_some_iff {l : Label Peer} :
    made lib self l = some id ↔ Makes lib self id l := by
  rcases l with cmd | event | _
  · cases cmd with
    | requestStream peerId reason =>
      simp only [made, Makes, Option.ite_none_right_eq_some, Option.some.injEq]
      exact ⟨fun ⟨hsome, hid⟩ => ⟨hid.symm, hsome⟩, fun ⟨hid, hsome⟩ => ⟨hsome, hid.symm⟩⟩
    | _ => simp only [made, Makes, reduceCtorEq]
  · cases event with
    | request peer msg =>
      cases msg with
      | requestStream i reason => simp only [made, Makes, Option.some.injEq]
      | _ => simp only [made, Makes, reduceCtorEq]
    | _ => simp only [made, Makes, reduceCtorEq]
  · simp only [made, Makes, reduceCtorEq]

variable (self id) in
/-- The turn ends the entry of `id`, if there is one. -/
def Ends : Label Peer → Prop
  | .command (.rejectStream sid _) | .command (.closeStream sid) => sid.id = id
  | .swarm (.request _ (.rejectStream i _)) | .swarm (.request _ (.closeStream i)) => i = id
  | .swarm (.connectionClosed peer n) =>
    n = 0 ∧ ∃ state, self.streams.get? id = some state ∧ state.peer = peer
  | _ => False

/-- A turn that makes an entry acts on its stream. -/
theorem touches_of_makes {l : Label Peer} (h : Makes lib self id l) : Touches lib self id l := by
  rcases l with cmd | event | _
  · cases cmd with
    | requestStream peerId reason => exact h
    | _ => exact h.elim
  · cases event with
    | request peer msg =>
      cases msg with
      | requestStream i reason => exact congrArg some h
      | _ => exact h.elim
    | _ => exact h.elim
  · exact h.elim

/-- So does one that ends an entry which is there. -/
theorem touches_of_ends {l : Label Peer} (h : Ends self id l)
    (hsome : (self.streams.get? id).isSome = true) : Touches lib self id l := by
  rcases l with cmd | event | _
  · cases cmd with
    | rejectStream sid reason => exact ⟨congrArg some h, hsome⟩
    | closeStream sid => exact ⟨congrArg some h, hsome⟩
    | _ => exact h.elim
  · cases event with
    | connectionClosed peer n => exact h
    | request peer msg =>
      cases msg with
      | rejectStream i reason => exact congrArg some h
      | closeStream i => exact congrArg some h
      | _ => exact h.elim
    | _ => exact h.elim
  · exact h.elim

/-- Which ids have an entry after a turn. -/
theorem isSome_move {l : Label Peer} {entry : Option (StreamState Peer)} {events : List AviEvent}
    (h : Move lib self id l entry events) : entry.isSome = true ↔
      Makes lib self id l ∨ ((self.streams.get? id).isSome = true ∧ ¬ Ends self id l) := by
  cases h with
  | opened hid hpeer =>
    -- made
    refine iff_of_true rfl (Or.inl ⟨hid, ?_⟩)
    rw [hpeer]
    rfl
  | @command cmd state hcmd hget =>
    rw [hget]
    cases cmd <;> cases hcmd <;> simp [commandEntry, Makes, Ends]
  | @message peer msg hmsg =>
    cases hget : self.streams.get? id <;> cases msg <;> cases hmsg <;>
      simp [messageEntry, Makes, Ends]
  | @disconnected peer state hget hpeer =>
    -- ended
    refine iff_of_false Bool.false_ne_true ?_
    rintro (hmakes | ⟨-, hends⟩)
    · exact hmakes
    · exact hends ⟨rfl, state, hget, hpeer⟩
  | untouched hnot =>
    -- left alone
    constructor
    · intro hsome
      exact Or.inr ⟨hsome, fun hends => hnot (touches_of_ends hends hsome)⟩
    · rintro (hmakes | ⟨hsome, -⟩)
      · exact absurd (touches_of_makes hmakes) hnot
      · exact hsome

variable (lib env self id) in
/-- An entry is there after a turn that makes it, and after one that found it and does not
end it. -/
theorem isSome_turn (l : Label Peer) :
    ((self.turn lib env l).1.streams.get? id).isSome = true ↔
      Makes lib self id l ∨ ((self.streams.get? id).isSome = true ∧ ¬ Ends self id l) :=
  isSome_move (move l)

end Moves

end AviNet.Runtime
