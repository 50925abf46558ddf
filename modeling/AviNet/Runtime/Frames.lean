import AviNet.Runtime.Handlers

/-!
# Runtime.Frames — what a turn of the runtime leaves alone

For each handler the fields it may write, as one equation, and the events it
may emit. Frame facts about a single field follow by reading the equation.
-/

namespace AviNet.Runtime

variable {Peer : Type} [LinearOrder Peer]

/-! ## Events -/

omit [LinearOrder Peer] in
@[simp] theorem eventsOf_append (a b : List (Effect Peer)) :
    eventsOf (a ++ b) = eventsOf a ++ eventsOf b := List.filterMap_append

omit [LinearOrder Peer] in
theorem eventsOf_map_event {α : Type} (f : α → AviEvent) (l : List α) :
    eventsOf (l.map fun a => (.event (f a) : Effect Peer)) = l.map f := by
  induction l with
  | nil => rfl
  | cons a l ih => exact congrArg (f a :: ·) ih

/-- The stream an event is about. -/
def aboutStream : AviEvent → Option UInt64
  | .streamRequested _ _ id | .streamAccepted _ id | .streamRejected _ id _
  | .streamData _ id _ | .streamClosed _ id _ => some id.id
  | _ => none

/-- The peer whose connections an event is about, and whether they begin. -/
def aboutConnection : AviEvent → Option (PeerId × Bool)
  | .peerConnected peerId _ => some (peerId, true)
  | .peerDisconnected peerId => some (peerId, false)
  | _ => none

/-- An event about neither a stream nor a connection. -/
def Plain (e : AviEvent) : Prop := aboutStream e = none ∧ aboutConnection e = none

/-! ## Gossip -/

section Writes

variable {lib : External Peer} {env : Env Peer} {self : Runtime Peer}

variable (env self) in
/-- Joining the topic of the contexts touches the subscriptions only. -/
theorem joinContextTopic_writes : ∃ subscribed topics,
    self.joinContextTopic env = { self with subscribed := subscribed, topics := topics } := by
  unfold joinContextTopic gossipSubscribe
  split_ifs
  · exact ⟨_, _, rfl⟩
  · cases env.subscribeError with
    | none => exact ⟨_, _, rfl⟩
    | some e => exact ⟨_, _, rfl⟩

variable (lib env self) in
/-- So does broadcasting the context. -/
theorem broadcastContext_writes : ∃ subscribed topics, (self.broadcastContext lib env).1 =
    { self with subscribed := subscribed, topics := topics } := by
  unfold broadcastContext
  cases lib.encodeContext self.localContext with
  | none => exact ⟨_, _, rfl⟩
  | some data => cases env.publish <;> exact joinContextTopic_writes env self

/-! ## Commands -/

/-- A command that is not about streams. -/
def OffStreams : Command → Prop
  | .requestStream _ _ | .acceptStream _ | .rejectStream _ _ | .sendStreamData _ _
  | .closeStream _ => False
  | _ => True

variable (lib env self) in
/-- No command touches the peers. -/
theorem handleCommand_writes (cmd : Command) : ∃ subscribed topics nextStreamId streams ctx,
    (self.handleCommand lib env cmd).1 = { self with
      subscribed := subscribed
      topics := topics
      nextStreamId := nextStreamId
      streams := streams
      localContext := ctx } := by
  cases cmd with
  | subscribe topic =>
    simp only [handleCommand, gossipSubscribe]
    cases env.subscribeError <;> exact ⟨_, _, _, _, _, rfl⟩
  | unsubscribe topic =>
    simp only [handleCommand, gossipUnsubscribe]
    cases env.unsubscribeError <;> exact ⟨_, _, _, _, _, rfl⟩
  | publish topic data =>
    simp only [handleCommand]
    cases env.publish <;> exact ⟨_, _, _, _, _, rfl⟩
  | requestStream peerId reason =>
    simp only [handleCommand]
    cases lib.fromStr peerId.id <;> exact ⟨_, _, _, _, _, rfl⟩
  | acceptStream id | rejectStream id reason | sendStreamData id data | closeStream id =>
    -- a stream command writes its entry
    simp only [handleCommand]
    cases self.streams.get? id.id <;> exact ⟨_, _, _, _, _, rfl⟩
  | updateSelfContext doc =>
    -- the context, and perhaps the topic's subscription
    obtain ⟨subscribed, topics, heq⟩ := broadcastContext_writes lib env
      { self with localContext := self.localContext.commit (.update doc) env.now }
    exact ⟨subscribed, topics, _, _, _, heq⟩
  | replaceSelfContext doc =>
    obtain ⟨subscribed, topics, heq⟩ := broadcastContext_writes lib env
      { self with localContext := self.localContext.commit (.replace doc) env.now }
    exact ⟨subscribed, topics, _, _, _, heq⟩
  | _ => exact ⟨_, _, _, _, _, rfl⟩

/-- Commands that are not about streams leave the table and the counter alone. -/
theorem handleCommand_off_streams {cmd : Command} (h : OffStreams cmd) :
    (self.handleCommand lib env cmd).1.streams = self.streams ∧
      (self.handleCommand lib env cmd).1.nextStreamId = self.nextStreamId := by
  cases cmd with
  | subscribe topic =>
    simp only [handleCommand, gossipSubscribe]
    cases env.subscribeError <;> exact ⟨rfl, rfl⟩
  | unsubscribe topic =>
    simp only [handleCommand, gossipUnsubscribe]
    cases env.unsubscribeError <;> exact ⟨rfl, rfl⟩
  | publish topic data =>
    simp only [handleCommand]
    cases env.publish <;> exact ⟨rfl, rfl⟩
  -- these are the commands on streams
  | requestStream peerId reason => exact h.elim
  | acceptStream id | rejectStream id reason | sendStreamData id data | closeStream id =>
    exact h.elim
  | updateSelfContext doc =>
    -- the context commands
    obtain ⟨subscribed, topics, heq⟩ := broadcastContext_writes lib env
      { self with localContext := self.localContext.commit (.update doc) env.now }
    simp only [handleCommand, heq, and_self]
  | replaceSelfContext doc =>
    obtain ⟨subscribed, topics, heq⟩ := broadcastContext_writes lib env
      { self with localContext := self.localContext.commit (.replace doc) env.now }
    simp only [handleCommand, heq, and_self]
  | _ => exact ⟨rfl, rfl⟩

variable (lib env self) in
/-- A command is answered, but emits no event. -/
theorem eventsOf_handleCommand (cmd : Command) :
    eventsOf (self.handleCommand lib env cmd).2 = [] := by
  -- a broadcast answers, and tells the application nothing
  have hbroadcast : ∀ rt : Runtime Peer, eventsOf (rt.broadcastContext lib env).2 = [] := by
    intro rt
    unfold broadcastContext
    cases lib.encodeContext rt.localContext with
    | none => rfl
    | some data => cases env.publish <;> rfl
  cases cmd with
  | subscribe topic =>
    simp only [handleCommand, gossipSubscribe]
    cases env.subscribeError <;> rfl
  | unsubscribe topic =>
    simp only [handleCommand, gossipUnsubscribe]
    cases env.unsubscribeError <;> rfl
  | publish topic data =>
    simp only [handleCommand]
    cases env.publish <;> rfl
  | requestStream peerId reason =>
    simp only [handleCommand]
    cases lib.fromStr peerId.id <;> rfl
  | acceptStream id | rejectStream id reason | sendStreamData id data | closeStream id =>
    simp only [handleCommand]
    cases self.streams.get? id.id <;> rfl
  | updateSelfContext doc => exact hbroadcast _
  | replaceSelfContext doc => exact hbroadcast _
  | _ => rfl

/-- Only `RequestStream` is answered with a stream. -/
theorem opens_of_replyOf {cmd : Command} {res : Except AviP2pError StreamId}
    (h : replyOf (self.handleCommand lib env cmd).2 = some (.stream res)) :
    ∃ peerId reason, cmd = .requestStream peerId reason := by
  -- a broadcast answers with no stream
  have hbroadcast : ∀ rt : Runtime Peer,
      replyOf (rt.broadcastContext lib env).2 ≠ some (.stream res) := by
    intro rt
    unfold broadcastContext
    cases lib.encodeContext rt.localContext with
    | none => simp [replyOf]
    | some data => cases env.publish <;> simp [replyOf]
  cases cmd with
  | requestStream peerId reason => exact ⟨peerId, reason, rfl⟩
  | subscribe topic =>
    -- the others answer with something else
    simp only [handleCommand, gossipSubscribe] at h
    cases hsub : env.subscribeError <;> simp [hsub, replyOf] at h
  | unsubscribe topic =>
    simp only [handleCommand, gossipUnsubscribe] at h
    cases hsub : env.unsubscribeError <;> simp [hsub, replyOf] at h
  | publish topic data =>
    simp only [handleCommand] at h
    cases hpub : env.publish <;> simp [hpub, replyOf] at h
  | acceptStream id | rejectStream id reason | sendStreamData id data | closeStream id =>
    simp only [handleCommand, streamNotFound] at h
    cases hget : self.streams.get? id.id <;> simp [hget, replyOf] at h
  | updateSelfContext doc => exact absurd h (hbroadcast _)
  | replaceSelfContext doc => exact absurd h (hbroadcast _)
  | _ => simp [handleCommand, replyOf] at h

variable (env self) in
/-- A heartbeat tells the application nothing. -/
theorem eventsOf_heartbeat : eventsOf (self.heartbeat env) = [] := by
  refine List.filterMap_eq_nil_iff.mpr fun effect heffect => ?_
  rcases List.mem_filterMap.mp heffect with ⟨e, -, he⟩
  split_ifs at he
  cases he
  rfl

/-! ## Swarm events -/

variable (lib self) in
/-- Announcing a peer touches the discovered peers only. -/
theorem emitPeerDiscovered_writes (peerId : Peer) : ∃ discovered,
    (self.emitPeerDiscovered lib peerId).1 = { self with discoveredPeers := discovered } := by
  unfold emitPeerDiscovered
  split_ifs <;> exact ⟨_, rfl⟩

/-- Its event is about no connection and no stream. -/
theorem plain_emitPeerDiscovered {peerId : Peer} {e : AviEvent}
    (he : e ∈ eventsOf (self.emitPeerDiscovered lib peerId).2) : Plain e := by
  unfold emitPeerDiscovered at he
  split_ifs at he
  · cases he
  · rw [List.mem_singleton.mp he]
    exact ⟨rfl, rfl⟩

variable (lib env) in
/-- The loop over the peers found by mDNS. -/
theorem discovered_writes (list : List (Peer × String)) (acc : Runtime Peer × List (Effect Peer)) :
    (∃ discovered known, (list.foldl (discoverOne lib env) acc).1 =
      { acc.1 with discoveredPeers := discovered, knownPeers := known }) ∧
    ((∀ e ∈ eventsOf acc.2, Plain e) →
      ∀ e ∈ eventsOf (list.foldl (discoverOne lib env) acc).2, Plain e) := by
  induction list generalizing acc with
  | nil => exact ⟨⟨_, _, rfl⟩, id⟩
  | cons found list ih =>
    rw [List.foldl_cons]
    rcases ih (discoverOne lib env acc found) with ⟨⟨discovered, known, heq⟩, hplain⟩
    obtain ⟨d, hd⟩ := emitPeerDiscovered_writes lib
      { acc.1 with knownPeers := acc.1.knownPeers.insert found.1 found.2 } found.1
    constructor
    · refine ⟨discovered, known, ?_⟩
      rw [heq]
      simp only [discoverOne, hd]
    · intro hacc
      apply hplain
      intro e he
      simp only [discoverOne, eventsOf_append, List.mem_append] at he
      rcases he with (he | he) | he
      · exact hacc e he
      · -- dialling and adding an address are no events
        split_ifs at he <;> cases he
      · exact plain_emitPeerDiscovered he

/-- The loop over the addresses of a peer. -/
theorem listenAddrs_writes (peerId : Peer) (addrs : List String)
    (acc : Runtime Peer × List (Effect Peer)) :
    (∃ known, (addrs.foldl (addListenAddr peerId) acc).1 = { acc.1 with knownPeers := known }) ∧
    eventsOf (addrs.foldl (addListenAddr peerId) acc).2 = eventsOf acc.2 := by
  induction addrs generalizing acc with
  | nil => exact ⟨⟨_, rfl⟩, rfl⟩
  | cons addr addrs ih =>
    rw [List.foldl_cons]
    rcases ih (addListenAddr peerId acc addr) with ⟨⟨known, heq⟩, hevents⟩
    constructor
    · exact ⟨known, heq⟩
    · rw [hevents]
      simp only [addListenAddr, eventsOf_append]
      exact List.append_nil _

variable (self) in
/-- A sync request touches the synced peers only, and tells the application nothing. -/
theorem syncOnce_writes (peerId : Peer) (protocols : List String) :
    (∃ synced, (self.syncOnce peerId protocols).1 = { self with syncedPeers := synced }) ∧
      eventsOf (self.syncOnce peerId protocols).2 = [] := by
  unfold syncOnce
  split_ifs <;> exact ⟨⟨_, rfl⟩, rfl⟩

variable (self) in
/-- A merge touches the context only, and its events are plain. -/
theorem mergeContext_writes (incoming : AviContext) :
    (∃ ctx, (self.mergeContext incoming).1 = { self with localContext := ctx }) ∧
      ∀ e ∈ eventsOf (self.mergeContext incoming).2, Plain e := by
  unfold mergeContext
  refine ⟨⟨_, rfl⟩, ?_⟩
  intro e he
  dsimp only at he
  split_ifs at he
  · rw [List.mem_singleton.mp he]
    exact ⟨rfl, rfl⟩
  · cases he

variable (lib self) in
/-- A stream message touches the table, a context the context. -/
theorem handleStreamMessage_writes (peer : Peer) (msg : StreamMessage) : ∃ streams ctx,
    (self.handleStreamMessage lib peer msg).1 =
      { self with streams := streams, localContext := ctx } := by
  cases msg with
  | syncContext incoming => exact ⟨_, _, rfl⟩
  | acceptStream id | rejectStream id reason | streamData id data =>
    simp only [handleStreamMessage]
    cases self.streams.get? id <;> exact ⟨_, _, rfl⟩
  | requestStream id reason => exact ⟨_, _, rfl⟩
  | closeStream id => exact ⟨_, _, rfl⟩

/-- A swarm event that concerns neither a connection nor a stream. -/
def OffPeers : SwarmEvent Peer → Prop
  | .connectionEstablished _ _ _ | .connectionClosed _ _ | .request _ _ => False
  | _ => True

omit [LinearOrder Peer] in
/-- An event of the swarm is off the peers, or is one of three. -/
theorem offPeers_cases (event : SwarmEvent Peer) : OffPeers event ∨
    (∃ peer endpoint n, event = .connectionEstablished peer endpoint n) ∨
    (∃ peer n, event = .connectionClosed peer n) ∨ ∃ peer msg, event = .request peer msg := by
  cases event with
  | connectionEstablished peer endpoint n => exact Or.inr (Or.inl ⟨peer, endpoint, n, rfl⟩)
  | connectionClosed peer n => exact Or.inr (Or.inr (Or.inl ⟨peer, n, rfl⟩))
  | request peer msg => exact Or.inr (Or.inr (Or.inr ⟨peer, msg, rfl⟩))
  | _ => exact Or.inl True.intro

variable (lib env self) in
/-- Such an event leaves the peers, the streams and the counter alone. -/
theorem handleSwarmEvent_off_peers {event : SwarmEvent Peer} (h : OffPeers event) :
    (∃ started discovered synced ctx known, (self.handleSwarmEvent lib env event).1 = { self with
      started := started
      discoveredPeers := discovered
      syncedPeers := synced
      localContext := ctx
      knownPeers := known }) ∧
    ∀ e ∈ eventsOf (self.handleSwarmEvent lib env event).2, Plain e := by
  cases event with
  | connectionEstablished peerId endpoint n => exact h.elim
  | connectionClosed peerId n => exact h.elim
  | request peer msg => exact h.elim
  | newListenAddr address =>
    -- only the first address is reported
    simp only [handleSwarmEvent]
    split_ifs
    · exact ⟨⟨_, _, _, _, _, rfl⟩, nofun⟩
    · refine ⟨⟨_, _, _, _, _, rfl⟩, ?_⟩
      intro e he
      rw [List.mem_singleton.mp he]
      exact ⟨rfl, rfl⟩
  | discovered list =>
    rcases discovered_writes lib env list (self, []) with ⟨⟨d, k, heq⟩, hplain⟩
    exact ⟨⟨_, d, _, _, k, heq⟩, hplain nofun⟩
  | identified peerId listenAddrs protocols =>
    simp only [handleSwarmEvent]
    obtain ⟨d, hd⟩ := emitPeerDiscovered_writes lib self peerId
    obtain ⟨⟨known, hknown⟩, haddrs⟩ :=
      listenAddrs_writes peerId listenAddrs (self.emitPeerDiscovered lib peerId)
    obtain ⟨⟨synced, hsynced⟩, hsync⟩ := syncOnce_writes
      (listenAddrs.foldl (addListenAddr peerId) (self.emitPeerDiscovered lib peerId)).1
      peerId protocols
    constructor
    · refine ⟨self.started, d, synced, self.localContext, known, ?_⟩
      rw [hsynced, hknown, hd]
    · intro e he
      rw [eventsOf_append, hsync, haddrs, List.append_nil] at he
      exact plain_emitPeerDiscovered he
  | gossip source topic data =>
    simp only [handleSwarmEvent]
    split_ifs
    · -- a context, if it can be decoded
      cases lib.decodeContext data with
      | none => exact ⟨⟨_, _, _, _, _, rfl⟩, nofun⟩
      | some incoming =>
        rcases mergeContext_writes self incoming with ⟨⟨ctx, heq⟩, hplain⟩
        exact ⟨⟨_, _, _, ctx, _, heq⟩, hplain⟩
    · refine ⟨⟨_, _, _, _, _, rfl⟩, ?_⟩
      intro e he
      rw [List.mem_singleton.mp he]
      exact ⟨rfl, rfl⟩
  | other => exact ⟨⟨_, _, _, _, _, rfl⟩, nofun⟩

/-- The loop that closes the streams of a peer, one event each. -/
theorem closeOne_foldl (peerId : Peer)
    (ids : List UInt64) (acc : Runtime Peer × List (Effect Peer)) :
    ids.foldl (closeOne lib peerId) acc =
      ({ acc.1 with streams := ids.foldl (fun m id => m.erase id) acc.1.streams },
        acc.2 ++ ids.map fun id =>
          .event (.streamClosed (lib.peerId peerId) ⟨id⟩ .remoteClose)) := by
  induction ids generalizing acc with
  | nil => simp
  | cons id ids ih =>
    rw [List.foldl_cons, ih]
    simp [closeOne]

end Writes

end AviNet.Runtime
