import AviNet.Runtime.State

/-!
# Runtime.Handlers — `handle_command` and `handle_swarm_event`

Each handler gives the state afterwards and its effects in program order.
-/

namespace AviNet.Runtime

variable {Peer : Type} [LinearOrder Peer]

/-! ## Gossip -/

/-- The topic of context updates. -/
def contextTopic : String := "avi-context-updates"

/-- `gossipsub.subscribe`. -/
def gossipSubscribe (env : Env Peer) (self : Runtime Peer) (topic : String) :
    Runtime Peer × Except String Unit :=
  match env.subscribeError with
  | none => ({ self with subscribed := insert topic self.subscribed }, .ok ())
  | some e => (self, .error e)

/-- `gossipsub.unsubscribe`. -/
def gossipUnsubscribe (env : Env Peer) (self : Runtime Peer) (topic : String) :
    Runtime Peer × Except String Unit :=
  match env.unsubscribeError with
  | none => ({ self with subscribed := self.subscribed.erase topic }, .ok ())
  | some e => (self, .error e)

/-- Join the topic of context updates unless `topics` lists it already. The
outcome of the subscription is not looked at. -/
def joinContextTopic (env : Env Peer) (self : Runtime Peer) : Runtime Peer :=
  if contextTopic ∈ self.topics then self
  else
    let self := (gossipSubscribe env self contextTopic).1
    { self with topics := insert contextTopic self.topics }

/-- The end of `UpdateSelfContext` and `ReplaceSelfContext`: broadcast and answer. -/
def broadcastContext (lib : External Peer) (env : Env Peer) (self : Runtime Peer) :
    Runtime Peer × List (Effect Peer) :=
  match lib.encodeContext self.localContext with
  | some data =>
    let self := joinContextTopic env self
    match env.publish with
    | .ok => (self, [.published contextTopic data, .reply (.done (.ok ()))])
    | .insufficientPeers => (self, [.reply (.done (.ok ()))])
    | .error e => (self, [.reply (.done (.error (.networkError e)))])
  | none => (self, [.reply (.done (.ok ()))])

/-! ## Commands -/

/-- A stream command for an id that is not in the table. -/
def streamNotFound (self : Runtime Peer) (streamId : StreamId) :
    Runtime Peer × List (Effect Peer) :=
  (self, [.reply (.done (.error (.streamNotFound streamId)))])

/-- `handle_command`. -/
def handleCommand (lib : External Peer) (env : Env Peer) (self : Runtime Peer) :
    Command → Runtime Peer × List (Effect Peer)
  | .subscribe topic =>
    match gossipSubscribe env self topic with
    | (self, .ok ()) =>
      ({ self with topics := insert topic self.topics }, [.reply (.done (.ok ()))])
    | (self, .error e) => (self, [.reply (.done (.error (.networkError e)))])
  | .unsubscribe topic =>
    match gossipUnsubscribe env self topic with
    | (self, .ok ()) =>
      ({ self with topics := self.topics.erase topic }, [.reply (.done (.ok ()))])
    | (self, .error e) => (self, [.reply (.done (.error (.networkError e)))])
  | .publish topic data =>
    match env.publish with
    | .ok => (self, [.published topic data, .reply (.done (.ok ()))])
    | .insufficientPeers =>
      (self, [.reply (.done (.error (.networkError "InsufficientPeers")))])
    | .error e => (self, [.reply (.done (.error (.networkError e)))])
  | .requestStream peerId reason =>
    match lib.fromStr peerId.id with
    | some target =>
      -- `generate_stream_id` counts up, whatever the peer will call its own streams
      let id := self.nextStreamId
      ({ self with
          nextStreamId := id + 1
          streams := self.streams.insert id ⟨target, reason, .requested, .outbound⟩ },
        [.send target (.requestStream id reason), .reply (.stream (.ok ⟨id⟩))])
    | none => (self, [.reply (.stream (.error (.peerNotFound peerId)))])
  | .acceptStream streamId =>
    match self.streams.get? streamId.id with
    | some state =>
      ({ self with
          streams := self.streams.insert streamId.id { state with status := .accepted } },
        [.send state.peer (.acceptStream streamId.id), .reply (.done (.ok ()))])
    | none => self.streamNotFound streamId
  | .rejectStream streamId reason =>
    match self.streams.get? streamId.id with
    | some state =>
      ({ self with streams := self.streams.erase streamId.id },
        [.send state.peer (.rejectStream streamId.id reason), .reply (.done (.ok ()))])
    | none => self.streamNotFound streamId
  | .sendStreamData streamId data =>
    match self.streams.get? streamId.id with
    | some state =>
      (self, [.send state.peer (.streamData streamId.id data), .reply (.done (.ok ()))])
    | none => self.streamNotFound streamId
  | .closeStream streamId =>
    match self.streams.get? streamId.id with
    | some state =>
      ({ self with streams := self.streams.erase streamId.id },
        [.send state.peer (.closeStream streamId.id), .reply (.done (.ok ()))])
    | none => self.streamNotFound streamId
  | .getConnectedPeers =>
    (self, [.reply (.peers (.ok ((env.order self.peers.keys).map lib.peerId)))])
  | .discoverPeers => (self, [.bootstrap, .reply (.done (.ok ()))])
  | .shutdown => (self, [.reply (.done (.ok ())), .closeCommands])
  | .updateSelfContext patch =>
    broadcastContext lib env
      { self with localContext := self.localContext.commit (.update patch) env.now }
  | .replaceSelfContext data =>
    broadcastContext lib env
      { self with localContext := self.localContext.commit (.replace data) env.now }
  | .getPeerContext _ => (self, [.reply (.value (.ok self.localContext.data))])

/-! ## Swarm events -/

/-- `emit_peer_discovered`. -/
def emitPeerDiscovered (lib : External Peer) (self : Runtime Peer) (peerId : Peer) :
    Runtime Peer × List (Effect Peer) :=
  if peerId ∈ self.discoveredPeers then (self, [])
  else
    ({ self with discoveredPeers := insert peerId self.discoveredPeers },
      [.event (.peerDiscovered (lib.peerId peerId))])

/-- Merge a context of a peer and report it if the merge does. -/
def mergeContext (self : Runtime Peer) (incoming : AviContext) :
    Runtime Peer × List (Effect Peer) :=
  let (merged, updated) := self.localContext.merge incoming
  let self := { self with localContext := merged }
  (self, if updated then
    [.event (.contextUpdated ⟨incoming.deviceId⟩ self.localContext.data)] else [])

/-- `handle_stream_message`. -/
def handleStreamMessage (lib : External Peer) (self : Runtime Peer) (peer : Peer) :
    StreamMessage → Runtime Peer × List (Effect Peer)
  | .syncContext incoming => self.mergeContext incoming
  | .requestStream streamId reason =>
    ({ self with streams := self.streams.insert streamId ⟨peer, reason, .requested, .inbound⟩ },
      [.event (.streamRequested (lib.peerId peer) reason ⟨streamId⟩)])
  | .acceptStream streamId =>
    -- neither the sender nor the direction nor the status is looked at
    match self.streams.get? streamId with
    | some state =>
      ({ self with streams := self.streams.insert streamId { state with status := .active } },
        [.event (.streamAccepted (lib.peerId peer) ⟨streamId⟩)])
    | none => (self, [])
  | .rejectStream streamId reason =>
    match self.streams.get? streamId with
    | some _ =>
      ({ self with streams := self.streams.erase streamId },
        [.event (.streamRejected (lib.peerId peer) ⟨streamId⟩ reason)])
    | none => (self, [])
  | .streamData streamId data =>
    match self.streams.get? streamId with
    | some _ => (self, [.event (.streamData (lib.peerId peer) ⟨streamId⟩ data)])
    | none => (self, [])
  | .closeStream streamId =>
    -- reported for an unknown id as well
    ({ self with streams := self.streams.erase streamId },
      [.event (.streamClosed (lib.peerId peer) ⟨streamId⟩ .remoteClose)])

/-- One turn of the loop over the peers found by mDNS. -/
def discoverOne (lib : External Peer) (env : Env Peer)
    (acc : Runtime Peer × List (Effect Peer)) (found : Peer × String) :
    Runtime Peer × List (Effect Peer) :=
  let (peerId, multiaddr) := found
  let self := { acc.1 with knownPeers := acc.1.knownPeers.insert peerId multiaddr }
  let dialed : List (Effect Peer) := if env.isConnected peerId then [] else [.dial multiaddr]
  let (self, emitted) := self.emitPeerDiscovered lib peerId
  (self, acc.2 ++ .addAddress peerId multiaddr :: dialed ++ emitted)

/-- One turn of the loop over the addresses a peer listens on. -/
def addListenAddr (peerId : Peer) (acc : Runtime Peer × List (Effect Peer)) (addr : String) :
    Runtime Peer × List (Effect Peer) :=
  ({ acc.1 with knownPeers := acc.1.knownPeers.insert peerId addr },
    acc.2 ++ [.addAddress peerId addr])

/-- The first `SyncContext` of a connection. -/
def syncOnce (self : Runtime Peer) (peerId : Peer) (protocols : List String) :
    Runtime Peer × List (Effect Peer) :=
  if "/avi/stream/1.0.0" ∈ protocols then
    if peerId ∈ self.syncedPeers then (self, [])
    else
      ({ self with syncedPeers := insert peerId self.syncedPeers },
        [.send peerId (.syncContext self.localContext)])
  else (self, [])

/-- The streams whose other end is `peerId`, in the order of iteration. -/
def idsToRemove (env : Env Peer) (self : Runtime Peer) (peerId : Peer) : List UInt64 :=
  ((env.order self.streams.entries).filter fun e => decide (e.2.peer = peerId)).map Prod.fst

/-- One turn of the loop over `ids_to_remove`. -/
def closeOne (lib : External Peer) (peerId : Peer) (acc : Runtime Peer × List (Effect Peer))
    (id : UInt64) : Runtime Peer × List (Effect Peer) :=
  ({ acc.1 with streams := acc.1.streams.erase id },
    acc.2 ++ [.event (.streamClosed (lib.peerId peerId) ⟨id⟩ .remoteClose)])

/-- The address of a connection. -/
def endpointAddress : Endpoint → String
  | .dialer address => address
  | .listener sendBackAddr => sendBackAddr

/-- `handle_swarm_event`. -/
def handleSwarmEvent (lib : External Peer) (env : Env Peer) (self : Runtime Peer) :
    SwarmEvent Peer → Runtime Peer × List (Effect Peer)
  | .newListenAddr address =>
    if self.started then (self, [])
    else
      ({ self with started := true },
        [.event (.started (lib.peerId self.localPeerId) [address])])
  | .discovered list => list.foldl (discoverOne lib env) (self, [])
  | .identified peerId listenAddrs protocols =>
    let acc := listenAddrs.foldl (addListenAddr peerId) (self.emitPeerDiscovered lib peerId)
    let (self, sync) := acc.1.syncOnce peerId protocols
    (self, acc.2 ++ sync)
  | .connectionEstablished peerId endpoint numEstablished =>
    if numEstablished = 1 then
      let addr := endpointAddress endpoint
      let self := { self with peers := self.peers.insert peerId (some addr) }
      (joinContextTopic env self, [.event (.peerConnected (lib.peerId peerId) addr)])
    else (self, [])
  | .connectionClosed peerId numEstablished =>
    if numEstablished = 0 then
      let self := { self with
        peers := self.peers.erase peerId
        discoveredPeers := self.discoveredPeers.erase peerId
        syncedPeers := self.syncedPeers.erase peerId }
      let (self, closed) := (self.idsToRemove env peerId).foldl (closeOne lib peerId) (self, [])
      (self, closed ++ [.event (.peerDisconnected (lib.peerId peerId))])
    else (self, [])
  | .gossip propagationSource topic data =>
    if topic = contextTopic then
      match lib.decodeContext data with
      | some incoming => self.mergeContext incoming
      | none => (self, [])
    else (self, [.event (.message (lib.peerId propagationSource) topic data)])
  | .request peer msg =>
    let (self, effects) := self.handleStreamMessage lib peer msg
    (self, effects ++ [.respond])
  | .other => (self, [])

/-- The heartbeat of `run`: dial every known peer that is not connected. -/
def heartbeat (env : Env Peer) (self : Runtime Peer) : List (Effect Peer) :=
  (env.order self.knownPeers.entries).filterMap fun e =>
    if env.isConnected e.1 then none else some (.dial e.2)

/-! ## Runs -/

/-- What makes the runtime task run one handler. -/
inductive Label (Peer : Type) where
  | command (cmd : Command)
  | swarm (event : SwarmEvent Peer)
  | tick

/-- One turn of the `select!` loop of `run`. -/
def turn (lib : External Peer) (env : Env Peer) (self : Runtime Peer) :
    Label Peer → Runtime Peer × List (Effect Peer)
  | .command cmd => self.handleCommand lib env cmd
  | .swarm event => self.handleSwarmEvent lib env event
  | .tick => (self, self.heartbeat env)

/-! ## Effects by kind -/

/-- The events among the effects, in order. -/
def eventsOf (effects : List (Effect Peer)) : List AviEvent :=
  effects.filterMap fun
    | .event e => some e
    | _ => none

/-- The stream messages sent among the effects, in order. -/
def sentOf (effects : List (Effect Peer)) : List (Peer × StreamMessage) :=
  effects.filterMap fun
    | .send peer msg => some (peer, msg)
    | _ => none

/-- The answer among the effects of a command. -/
def replyOf : List (Effect Peer) → Option Reply
  | [] => none
  | .reply r :: _ => some r
  | _ :: effects => replyOf effects

end AviNet.Runtime
