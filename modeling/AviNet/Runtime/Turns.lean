import AviNet.Runtime.Frames

/-!
# Runtime.Turns — turns of the event loop one after the other

What the runtime task does by itself: the turns it takes, with everything they
do in program order.

* `does_of_mem_turn`: which effects a turn of each kind can have;
* `repliesOf_handleCommand`, `repliesOf_or_eventsOf`: a command is answered
  exactly once, in its own turn, and a turn that emits events answers nobody;
* `localPeerId_turn`, `started_of_mem_turn`: the id of the node.
-/

namespace AviNet.Runtime

variable {Peer : Type} [LinearOrder Peer]

/-- The turns of the event loop one after the other, with all their effects. -/
def serve (lib : External Peer) (self : Runtime Peer) :
    List (Env Peer × Label Peer) → Runtime Peer × List (Effect Peer)
  | [] => (self, [])
  | (env, l) :: turns =>
    let (self, effects) := self.turn lib env l
    let (self, more) := serve lib self turns
    (self, effects ++ more)

/-- The commands among the turns. -/
def commandsOf (turns : List (Env Peer × Label Peer)) : List Command :=
  turns.filterMap fun
    | (_, .command cmd) => some cmd
    | _ => none

/-- The answers among the effects, in order. -/
def repliesOf (effects : List (Effect Peer)) : List Reply :=
  effects.filterMap fun
    | .reply r => some r
    | _ => none

/-! ## Effects of a turn -/

/-- What a stream message or the context in one is reported by. -/
def OfRequest : AviEvent → Prop
  | .streamRequested _ _ _ | .streamAccepted _ _ | .streamRejected _ _ _ | .streamData _ _ _
  | .streamClosed _ _ _ | .contextUpdated _ _ => True
  | _ => False

/-- The effects that a turn can have. -/
inductive Does (lib : External Peer) : Label Peer → Effect Peer → Prop
  | reply (cmd : Command) (r : Reply) : Does lib (.command cmd) (.reply r)
  | publish (topic : String) (data : Bytes) :
      Does lib (.command (.publish topic data)) (.published topic data)
  | update (patch : Value) (data : Bytes) :
      Does lib (.command (.updateSelfContext patch)) (.published contextTopic data)
  | replace (doc : Value) (data : Bytes) :
      Does lib (.command (.replaceSelfContext doc)) (.published contextTopic data)
  | requestStream (peerId : PeerId) (reason : String) (target : Peer) (id : UInt64) :
      Does lib (.command (.requestStream peerId reason)) (.send target (.requestStream id reason))
  | acceptStream (id : StreamId) (target : Peer) :
      Does lib (.command (.acceptStream id)) (.send target (.acceptStream id.id))
  | rejectStream (id : StreamId) (reason : String) (target : Peer) :
      Does lib (.command (.rejectStream id reason)) (.send target (.rejectStream id.id reason))
  | sendStreamData (id : StreamId) (data : Bytes) (target : Peer) :
      Does lib (.command (.sendStreamData id data)) (.send target (.streamData id.id data))
  | closeStream (id : StreamId) (target : Peer) :
      Does lib (.command (.closeStream id)) (.send target (.closeStream id.id))
  | bootstrap : Does lib (.command .discoverPeers) .bootstrap
  | closeCommands : Does lib (.command .shutdown) .closeCommands
  | heartbeat (addr : String) : Does lib .tick (.dial addr)
  | started (address : String) (id : PeerId) (addresses : List String) :
      Does lib (.swarm (.newListenAddr address)) (.event (.started id addresses))
  | foundAddress (list : List (Peer × String)) (p : Peer) (addr : String) :
      Does lib (.swarm (.discovered list)) (.addAddress p addr)
  | foundDial (list : List (Peer × String)) (addr : String) :
      Does lib (.swarm (.discovered list)) (.dial addr)
  | found (list : List (Peer × String)) (p : Peer) :
      Does lib (.swarm (.discovered list)) (.event (.peerDiscovered (lib.peerId p)))
  | identifiedAddress (p : Peer) (addrs protocols : List String) (addr : String) :
      Does lib (.swarm (.identified p addrs protocols)) (.addAddress p addr)
  | identified (p : Peer) (addrs protocols : List String) :
      Does lib (.swarm (.identified p addrs protocols)) (.event (.peerDiscovered (lib.peerId p)))
  | identifiedSync (p : Peer) (addrs protocols : List String) (ctx : AviContext) :
      Does lib (.swarm (.identified p addrs protocols)) (.send p (.syncContext ctx))
  | connected (p : Peer) (endpoint : Endpoint) (n : ℕ) (addr : String) :
      Does lib (.swarm (.connectionEstablished p endpoint n))
        (.event (.peerConnected (lib.peerId p) addr))
  | streamClosed (p : Peer) (n : ℕ) (id : StreamId) :
      Does lib (.swarm (.connectionClosed p n))
        (.event (.streamClosed (lib.peerId p) id .remoteClose))
  | disconnected (p : Peer) (n : ℕ) :
      Does lib (.swarm (.connectionClosed p n)) (.event (.peerDisconnected (lib.peerId p)))
  | message (source : Peer) (topic : String) (data : Bytes) (h : topic ≠ contextTopic) :
      Does lib (.swarm (.gossip source topic data))
        (.event (.message (lib.peerId source) topic data))
  | gossipContext (source : Peer) (data : Bytes) (id : PeerId) (doc : Value) :
      Does lib (.swarm (.gossip source contextTopic data)) (.event (.contextUpdated id doc))
  | respond (peer : Peer) (msg : StreamMessage) : Does lib (.swarm (.request peer msg)) .respond
  | request (peer : Peer) (msg : StreamMessage) (e : AviEvent) (h : OfRequest e) :
      Does lib (.swarm (.request peer msg)) (.event e)

section Effects

variable {lib : External Peer} {env : Env Peer} {self : Runtime Peer}

/-- A command does what its kind does: it answers, broadcasts, sends or subscribes. -/
theorem does_handleCommand (cmd : Command) :
    ∀ e ∈ (self.handleCommand lib env cmd).2, Does lib (.command cmd) e := by
  -- every command is answered, alone or after something else
  have hreply : ∀ r, ∀ e ∈ [(.reply r : Effect Peer)], Does lib (.command cmd) e := by
    intro r e he
    rw [List.mem_singleton.mp he]
    exact .reply cmd r
  have hafter : ∀ (e' : Effect Peer) (r : Reply), Does lib (.command cmd) e' →
      ∀ e ∈ [e', .reply r], Does lib (.command cmd) e := by
    intro e' r hfirst e he
    rcases List.mem_cons.mp he with rfl | he
    · exact hfirst
    · exact hreply r e he
  have hbroadcast : (∀ data, Does lib (.command cmd) (.published contextTopic data)) →
      ∀ rt : Runtime Peer, ∀ e ∈ (rt.broadcastContext lib env).2, Does lib (.command cmd) e := by
    intro hpublished rt
    unfold broadcastContext
    cases lib.encodeContext rt.localContext with
    | none => exact hreply _
    | some data =>
      dsimp only
      cases env.publish with
      | ok => exact hafter _ _ (hpublished data)
      | insufficientPeers => exact hreply _
      | error e => exact hreply _
  cases cmd with
  | subscribe topic =>
    -- subscriptions are answered
    simp only [handleCommand, gossipSubscribe]
    cases env.subscribeError <;> exact hreply _
  | unsubscribe topic =>
    simp only [handleCommand, gossipUnsubscribe]
    cases env.unsubscribeError <;> exact hreply _
  | publish topic data =>
    -- a publish is sent, or fails
    simp only [handleCommand]
    cases env.publish with
    | ok => exact hafter _ _ (.publish topic data)
    | insufficientPeers => exact hreply _
    | error e => exact hreply _
  | requestStream peerId reason =>
    -- a stream is asked for at a peer that is named rightly
    simp only [handleCommand]
    cases lib.fromStr peerId.id with
    | none => exact hreply _
    | some target => exact hafter _ _ (.requestStream peerId reason target _)
  | acceptStream id =>
    -- stream commands need an entry
    simp only [handleCommand]
    cases self.streams.get? id.id with
    | none => exact hreply _
    | some state => exact hafter _ _ (.acceptStream id state.peer)
  | rejectStream id reason =>
    simp only [handleCommand]
    cases self.streams.get? id.id with
    | none => exact hreply _
    | some state => exact hafter _ _ (.rejectStream id reason state.peer)
  | sendStreamData id data =>
    simp only [handleCommand]
    cases self.streams.get? id.id with
    | none => exact hreply _
    | some state => exact hafter _ _ (.sendStreamData id data state.peer)
  | closeStream id =>
    simp only [handleCommand]
    cases self.streams.get? id.id with
    | none => exact hreply _
    | some state => exact hafter _ _ (.closeStream id state.peer)
  | getConnectedPeers => exact hreply _
  | discoverPeers => exact hafter _ _ .bootstrap
  | shutdown =>
    -- shutdown answers, then closes the queue
    intro e he
    rcases List.mem_cons.mp he with rfl | he
    · exact .reply _ _
    · rw [List.mem_singleton.mp he]
      exact .closeCommands
  -- the two writes broadcast the context
  | updateSelfContext patch => exact hbroadcast (.update patch) _
  | replaceSelfContext doc => exact hbroadcast (.replace doc) _
  | getPeerContext peerId => exact hreply _

/-- A list of discovered peers dials, and announces those that are new. -/
theorem does_discovered {list : List (Peer × String)} (part : List (Peer × String))
    {acc : Runtime Peer × List (Effect Peer)}
    (hacc : ∀ e ∈ acc.2, Does lib (.swarm (.discovered list)) e) :
    ∀ e ∈ (part.foldl (discoverOne lib env) acc).2, Does lib (.swarm (.discovered list)) e := by
  induction part generalizing acc with
  | nil => exact hacc
  | cons found part ih =>
    rw [List.foldl_cons]
    apply ih
    intro e he
    simp only [discoverOne] at he
    rcases List.mem_append.mp he with he | he
    · rcases List.mem_append.mp he with he | he
      · exact hacc e he
      · rcases List.mem_cons.mp he with rfl | he
        · -- the address is noted and, if need be, dialled
          exact .foundAddress list found.1 found.2
        · split_ifs at he
          · cases he
          · rw [List.mem_singleton.mp he]
            exact .foundDial list found.2
    · -- the peer is announced, if it is new
      unfold emitPeerDiscovered at he
      split_ifs at he
      · cases he
      · rw [List.mem_singleton.mp he]
        exact .found list found.1

theorem does_identified (p : Peer) (addrs protocols : List String) :
    ∀ e ∈ (self.handleSwarmEvent lib env (.identified p addrs protocols)).2,
      Does lib (.swarm (.identified p addrs protocols)) e := by
  -- the addresses are noted one by one
  have haddrs : ∀ (part : List String) (acc : Runtime Peer × List (Effect Peer)),
      (∀ e ∈ acc.2, Does lib (.swarm (.identified p addrs protocols)) e) →
      ∀ e ∈ (part.foldl (addListenAddr p) acc).2,
        Does lib (.swarm (.identified p addrs protocols)) e := by
    intro part
    induction part with
    | nil => exact fun acc hacc => hacc
    | cons addr part ih =>
      intro acc hacc
      rw [List.foldl_cons]
      apply ih
      intro e he
      rcases List.mem_append.mp he with he | he
      · exact hacc e he
      · rw [List.mem_singleton.mp he]
        exact .identifiedAddress p addrs protocols addr
  intro e he
  simp only [handleSwarmEvent] at he
  rcases List.mem_append.mp he with he | he
  · refine haddrs addrs (self.emitPeerDiscovered lib p) ?_ e he
    intro e he
    unfold emitPeerDiscovered at he
    split_ifs at he
    · cases he
    · rw [List.mem_singleton.mp he]
      exact .identified p addrs protocols
  · -- the context is asked for, if it has not been
    unfold syncOnce at he
    split_ifs at he
    · cases he
    · rw [List.mem_singleton.mp he]
      exact .identifiedSync p addrs protocols _
    · cases he

/-- What merging a context reports. -/
theorem mem_mergeContext {incoming : AviContext} {e : Effect Peer}
    (he : e ∈ (self.mergeContext incoming).2) : ∃ id doc, e = .event (.contextUpdated id doc) := by
  unfold mergeContext at he
  dsimp only at he
  split_ifs at he
  · exact ⟨_, _, List.mem_singleton.mp he⟩
  · cases he

theorem does_handleStreamMessage {peer : Peer} {msg : StreamMessage} {e : Effect Peer}
    (he : e ∈ (self.handleStreamMessage lib peer msg).2) :
    Does lib (.swarm (.request peer msg)) e := by
  have hone : ∀ e', e ∈ [(.event e' : Effect Peer)] → OfRequest e' →
      Does lib (.swarm (.request peer msg)) e := by
    intro e' he he'
    rw [List.mem_singleton.mp he]
    exact .request peer msg e' he'
  cases msg with
  | syncContext incoming =>
    obtain ⟨id, doc, rfl⟩ := mem_mergeContext he
    exact .request peer _ _ True.intro
  | requestStream id reason => exact hone _ he True.intro
  | closeStream id => exact hone _ he True.intro
  | acceptStream id | rejectStream id reason | streamData id data =>
    simp only [handleStreamMessage] at he
    cases hget : self.streams.get? id with
    | none =>
      rw [hget] at he
      cases he
    | some state =>
      rw [hget] at he
      exact hone _ he True.intro

/-- An event of the swarm does what its kind does. -/
theorem does_handleSwarmEvent (event : SwarmEvent Peer) :
    ∀ e ∈ (self.handleSwarmEvent lib env event).2, Does lib (.swarm event) e := by
  cases event with
  | newListenAddr address =>
    -- the start is told once
    intro e he
    simp only [handleSwarmEvent] at he
    split_ifs at he
    · cases he
    · rw [List.mem_singleton.mp he]
      exact .started address _ _
  | discovered list => exact does_discovered list fun e he => by cases he
  | identified p addrs protocols => exact does_identified p addrs protocols
  | connectionEstablished p endpoint n =>
    -- the first connection is told
    intro e he
    simp only [handleSwarmEvent] at he
    split_ifs at he
    · rw [List.mem_singleton.mp he]
      exact .connected p endpoint n _
    · cases he
  | connectionClosed p n =>
    intro e he
    simp only [handleSwarmEvent] at he
    split_ifs at he
    · -- one event for each stream of the peer, and one for the peer
      rw [closeOne_foldl] at he
      rcases List.mem_append.mp he with he | he
      · rcases List.mem_map.mp he with ⟨id, -, rfl⟩
        exact .streamClosed p n ⟨id⟩
      · rw [List.mem_singleton.mp he]
        exact .disconnected p n
    · cases he
  | gossip source topic data =>
    -- a context on its topic, anything else as a message
    intro e he
    simp only [handleSwarmEvent] at he
    split_ifs at he with htopic
    · cases hdecode : lib.decodeContext data with
      | none =>
        rw [hdecode] at he
        cases he
      | some incoming =>
        rw [hdecode] at he
        obtain ⟨id, doc, rfl⟩ := mem_mergeContext he
        rw [htopic]
        exact .gossipContext source data id doc
    · rw [List.mem_singleton.mp he]
      exact .message source topic data htopic
  | request peer msg =>
    intro e he
    rcases List.mem_append.mp he with he | he
    · exact does_handleStreamMessage he
    · rw [List.mem_singleton.mp he]
      exact .respond peer msg
  | other =>
    intro e he
    cases he

/-- **Inversion**: what a turn can do. -/
theorem does_of_mem_turn {l : Label Peer} {e : Effect Peer} (he : e ∈ (self.turn lib env l).2) :
    Does lib l e := by
  cases l with
  | command cmd => exact does_handleCommand cmd e he
  | swarm event => exact does_handleSwarmEvent event e he
  | tick =>
    rcases List.mem_filterMap.mp he with ⟨entry, -, hentry⟩
    split_ifs at hentry
    cases hentry
    exact .heartbeat entry.2

/-! ## Answers of a turn -/

omit [LinearOrder Peer] in
theorem repliesOf_append (a b : List (Effect Peer)) :
    repliesOf (a ++ b) = repliesOf a ++ repliesOf b := List.filterMap_append

variable (lib env self) in
/-- A command is answered exactly once. -/
theorem repliesOf_handleCommand (cmd : Command) :
    ∃ r, repliesOf (self.handleCommand lib env cmd).2 = [r] := by
  -- a broadcast is answered once
  have hbroadcast : ∀ rt : Runtime Peer, ∃ r, repliesOf (rt.broadcastContext lib env).2 = [r] := by
    intro rt
    unfold broadcastContext
    cases lib.encodeContext rt.localContext with
    | none => exact ⟨_, rfl⟩
    | some data => cases env.publish <;> exact ⟨_, rfl⟩
  cases cmd with
  | subscribe topic =>
    -- so is each of the others
    simp only [handleCommand, gossipSubscribe]
    cases env.subscribeError <;> exact ⟨_, rfl⟩
  | unsubscribe topic =>
    simp only [handleCommand, gossipUnsubscribe]
    cases env.unsubscribeError <;> exact ⟨_, rfl⟩
  | publish topic data =>
    simp only [handleCommand]
    cases env.publish <;> exact ⟨_, rfl⟩
  | requestStream peerId reason =>
    simp only [handleCommand]
    cases lib.fromStr peerId.id <;> exact ⟨_, rfl⟩
  | acceptStream id | rejectStream id reason | sendStreamData id data | closeStream id =>
    simp only [handleCommand]
    cases self.streams.get? id.id <;> exact ⟨_, rfl⟩
  | updateSelfContext doc => exact hbroadcast _
  | replaceSelfContext doc => exact hbroadcast _
  | _ => exact ⟨_, rfl⟩

/-- Only commands are answered. -/
theorem repliesOf_turn_eq_nil {l : Label Peer} (h : ∀ cmd, l ≠ .command cmd) :
    repliesOf (self.turn lib env l).2 = [] := by
  apply List.filterMap_eq_nil_iff.mpr
  intro e he
  cases e with
  | reply r =>
    cases does_of_mem_turn he with
    | reply cmd r => exact absurd rfl (h cmd)
  | _ => rfl

variable (lib env self) in
/-- A turn gives as many answers as it takes commands. -/
theorem length_repliesOf_turn (l : Label Peer) :
    (repliesOf (self.turn lib env l).2).length = (commandsOf [(env, l)]).length := by
  cases l with
  | command cmd =>
    rcases repliesOf_handleCommand lib env self cmd with ⟨r, hr⟩
    show (repliesOf (self.handleCommand lib env cmd).2).length = 1
    rw [hr]
    rfl
  | swarm event => exact congrArg List.length (repliesOf_turn_eq_nil fun cmd h => by cases h)
  | tick => exact congrArg List.length (repliesOf_turn_eq_nil fun cmd h => by cases h)

variable (lib env self) in
/-- A turn that emits events answers nobody. -/
theorem repliesOf_or_eventsOf (l : Label Peer) :
    repliesOf (self.turn lib env l).2 = [] ∨ eventsOf (self.turn lib env l).2 = [] := by
  cases l with
  | command cmd => exact Or.inr (eventsOf_handleCommand lib env self cmd)
  | swarm event => exact Or.inl (repliesOf_turn_eq_nil fun cmd h => by cases h)
  | tick => exact Or.inr (eventsOf_heartbeat env self)

/-- One more turn. -/
theorem serve_concat (turns : List (Env Peer × Label Peer)) (l : Label Peer) :
    serve lib self (turns ++ [(env, l)]) =
      (((serve lib self turns).1.turn lib env l).1,
        (serve lib self turns).2 ++ ((serve lib self turns).1.turn lib env l).2) := by
  induction turns generalizing self with
  | nil => simp [serve]
  | cons entry turns ih => simp only [List.cons_append, serve, ih, List.append_assoc]

/-- Every command is answered exactly once. -/
theorem length_repliesOf_serve (turns : List (Env Peer × Label Peer)) :
    (repliesOf (serve lib self turns).2).length = (commandsOf turns).length := by
  induction turns generalizing self with
  | nil => rfl
  | cons entry turns ih =>
    have hcommands : commandsOf (entry :: turns) = commandsOf [entry] ++ commandsOf turns :=
      List.filterMap_append (l := [entry])
    have hturn := length_repliesOf_turn lib entry.1 self entry.2
    rw [hcommands]
    simp only [serve, repliesOf_append, List.length_append, ih, hturn]

/-! ## The id of the node -/

variable (lib env self) in
/-- A turn does not change who the node is. -/
theorem localPeerId_turn (l : Label Peer) : (self.turn lib env l).1.localPeerId =
    self.localPeerId := by
  cases l with
  | command cmd =>
    -- commands
    obtain ⟨subscribed, topics, nextStreamId, streams, ctx, heq⟩ :=
      handleCommand_writes lib env self cmd
    show (self.handleCommand lib env cmd).1.localPeerId = _
    rw [heq]
  | tick => rfl
  | swarm event =>
    -- events of the swarm
    show (self.handleSwarmEvent lib env event).1.localPeerId = _
    cases event with
    | newListenAddr address =>
      simp only [handleSwarmEvent]
      split_ifs <;> rfl
    | discovered list =>
      obtain ⟨⟨discovered, known, heq⟩, -⟩ := discovered_writes lib env list (self, [])
      show (list.foldl (discoverOne lib env) (self, [])).1.localPeerId = _
      rw [heq]
    | identified q addrs protocols =>
      obtain ⟨d, hd⟩ := emitPeerDiscovered_writes lib self q
      obtain ⟨⟨known, hknown⟩, -⟩ := listenAddrs_writes q addrs (self.emitPeerDiscovered lib q)
      obtain ⟨⟨synced, hsynced⟩, -⟩ := syncOnce_writes
        (addrs.foldl (addListenAddr q) (self.emitPeerDiscovered lib q)).1 q protocols
      simp only [handleSwarmEvent]
      rw [hsynced, hknown, hd]
    | connectionEstablished q endpoint n =>
      simp only [handleSwarmEvent]
      split_ifs
      · obtain ⟨subscribed, topics, heq⟩ := joinContextTopic_writes env
          { self with peers := self.peers.insert q (some (endpointAddress endpoint)) }
        rw [heq]
      · rfl
    | connectionClosed q n =>
      simp only [handleSwarmEvent]
      split_ifs
      · rw [closeOne_foldl]
      · rfl
    | gossip source topic data =>
      simp only [handleSwarmEvent]
      split_ifs
      · cases lib.decodeContext data <;> rfl
      · rfl
    | request peer msg =>
      obtain ⟨streams, ctx, heq⟩ := handleStreamMessage_writes lib self peer msg
      simp only [handleSwarmEvent]
      rw [heq]
    | other => rfl

/-- A node starts under its own id. -/
theorem started_of_mem_turn {l : Label Peer} {id : PeerId} {addresses : List String}
    (h : .started id addresses ∈ eventsOf (self.turn lib env l).2) :
    id = lib.peerId self.localPeerId := by
  have hmem : .event (.started id addresses) ∈ (self.turn lib env l).2 := by
    rcases List.mem_filterMap.mp h with ⟨e, he, hevent⟩
    cases e with
    | event e =>
      cases hevent
      exact he
    | _ => cases hevent
  cases does_of_mem_turn hmem with
  | started address id addresses =>
    simp only [turn, handleSwarmEvent] at hmem
    split_ifs at hmem
    · cases hmem
    · cases List.mem_singleton.mp hmem
      rfl
  | request peer msg e h => cases h

end Effects

end AviNet.Runtime
