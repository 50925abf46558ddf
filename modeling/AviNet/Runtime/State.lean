import AviNet.Context
import AviNet.Error
import Mathlib.Data.Finset.Insert
import Mathlib.Data.Finset.Erase

/-!
# Runtime.State — the data of the runtime task

The state of `Runtime` with what the swarm under it keeps, the commands and
swarm events it handles, and the effects of a handler in program order.
`respond_to.send(..)` is the effect `reply`, `event_tx.send(..).await` the
effect `event`.

libp2p and serde are not part of the repository. Peer ids are an ordered type
`Peer` with its base58 text, contexts and stream messages have a byte encoding
(`External`, `SerdeJson`); what the swarm answers to a call is part of the
environment of the call (`Env`).
-/

namespace AviNet

/-! ## Identifiers as keys -/

instance linearOrderUInt64 : LinearOrder UInt64 where
  le_refl := UInt64.le_refl
  le_trans _ _ _ := UInt64.le_trans
  le_antisymm _ _ := UInt64.le_antisymm
  le_total := UInt64.le_total
  lt_iff_le_not_ge a b := by
    rw [UInt64.lt_iff_toNat_lt, UInt64.le_iff_toNat_le, UInt64.le_iff_toNat_le]
    omega
  toDecidableLE := inferInstance
  toDecidableEq := inferInstance
  toDecidableLT := inferInstance

/-- A byte string, `Vec<u8>`. -/
abbrev Bytes := List UInt8

/-! ## Streams -/

/-- `StreamStatus`. -/
inductive StreamStatus where
  | requested
  | accepted
  | active
  deriving DecidableEq

/-- `StreamDirection`. -/
inductive StreamDirection where
  | inbound
  | outbound
  deriving DecidableEq

/-- `StreamState`. -/
structure StreamState (Peer : Type) where
  peer : Peer
  reason : String
  status : StreamStatus
  direction : StreamDirection
  deriving DecidableEq

/-- `StreamMessage`. -/
inductive StreamMessage where
  | requestStream (streamId : UInt64) (reason : String)
  | acceptStream (streamId : UInt64)
  | rejectStream (streamId : UInt64) (reason : String)
  | streamData (streamId : UInt64) (data : Bytes)
  | closeStream (streamId : UInt64)
  | syncContext (ctx : AviContext)
  deriving DecidableEq

/-! ## Libraries -/

/-- The message is a context. -/
def StreamMessage.context? : StreamMessage → Option AviContext
  | .syncContext ctx => some ctx
  | _ => none

/-- The JSON of stream messages. -/
structure StreamText where
  /-- `serde_json::to_vec`, `none` for an error -/
  toVec : StreamMessage → Option Bytes
  /-- `serde_json::from_slice`, `none` for an error -/
  fromSlice : Bytes → Option StreamMessage

/-- `serde_json` on stream messages. -/
structure SerdeJson extends StreamText where
  /-- ids, texts and bytes are read as they were written -/
  fromSlice_toVec : ∀ req encoded, toVec req = some encoded → req.context? = none →
    fromSlice encoded = some req
  /-- what is read of a context is a context, but its floats may have been rounded -/
  fromSlice_context : ∀ ctx encoded req, toVec (.syncContext ctx) = some encoded →
    fromSlice encoded = some req → req.context?.isSome = true
  /-- a part of the text of a message is no JSON -/
  fromSlice_part : ∀ req encoded part, toVec req = some encoded → part <+: encoded →
    part ≠ encoded → fromSlice part = none

/-- The text form of peer ids and the JSON of contexts and stream messages. -/
structure External (Peer : Type) where
  /-- `libp2p::PeerId::to_base58` -/
  toBase58 : Peer → String
  /-- `libp2p::PeerId::from_str`, `none` for an error -/
  fromStr : String → Option Peer
  fromStr_toBase58 : ∀ p, fromStr (toBase58 p) = some p
  /-- `serde_json::to_vec`, `none` for an error -/
  encodeContext : AviContext → Option Bytes
  /-- `serde_json::from_slice::<AviContext>` -/
  decodeContext : Bytes → Option AviContext
  json : SerdeJson

/-- `PeerId::from(libp2p::PeerId)`. -/
def External.peerId {Peer : Type} (lib : External Peer) (p : Peer) : PeerId := ⟨lib.toBase58 p⟩

theorem External.peerId_injective {Peer : Type} (lib : External Peer) :
    Function.Injective lib.peerId := by
  intro p q h
  have htext : lib.toBase58 p = lib.toBase58 q := congrArg PeerId.id h
  have hsome := lib.fromStr_toBase58 p
  rw [htext, lib.fromStr_toBase58 q] at hsome
  exact (Option.some.inj hsome).symm

/-! ### Finitely many values -/

section Table

variable {α : Type} [DecidableEq α]

/-- The text of a value of the list: so many zeros as there are values before it, and a
one. -/
def placeIn (values : List α) (a : α) : Option Bytes :=
  if a ∈ values then some (List.replicate (values.idxOf a) 0 ++ [1]) else none

/-- The value with this text. -/
def atPlace (values : List α) (encoded : Bytes) : Option α :=
  if encoded = List.replicate (encoded.length - 1) 0 ++ [1] then values[encoded.length - 1]?
  else none

theorem atPlace_of_placeIn {values : List α} {a : α} {encoded : Bytes}
    (h : placeIn values a = some encoded) : atPlace values encoded = some a := by
  unfold placeIn at h
  split_ifs at h with hmem
  cases h
  have hlen : (List.replicate (values.idxOf a) (0 : UInt8) ++ [1]).length - 1 =
      values.idxOf a := by
    rw [List.length_append, List.length_replicate, List.length_singleton, Nat.add_sub_cancel]
  unfold atPlace
  rw [hlen, if_pos rfl, List.getElem?_idxOf hmem]

/-- A part of a text is no text: the one is missing. -/
theorem atPlace_part {values : List α} {a : α} {encoded part : Bytes}
    (h : placeIn values a = some encoded) (hpart : part <+: encoded) (hne : part ≠ encoded) :
    atPlace values part = none := by
  unfold placeIn at h
  split_ifs at h with hmem
  cases h
  rcases List.prefix_concat_iff.mp hpart with heq | hzeros
  · exact absurd heq hne
  · unfold atPlace
    rw [if_neg]
    intro heq
    have hone : (1 : UInt8) ∈ part := by
      rw [heq]
      exact List.mem_append_right _ List.mem_cons_self
    have hzero := List.eq_of_mem_replicate (hzeros.subset hone)
    exact absurd hzero (by decide)

end Table

/-- Each of the messages is written as its place in the list. -/
def SerdeJson.table (messages : List StreamMessage) : SerdeJson where
  toVec := placeIn messages
  fromSlice := atPlace messages
  fromSlice_toVec req encoded h _ := atPlace_of_placeIn h
  fromSlice_context ctx encoded req h h' := by
    rw [atPlace_of_placeIn h] at h'
    cases h'
    rfl
  fromSlice_part req encoded part h := atPlace_part h

/-- Peer ids that are their own text, contexts that are all encoded alike. -/
def External.plain : External String where
  toBase58 p := p
  fromStr s := some s
  fromStr_toBase58 _ := rfl
  encodeContext _ := some [123, 125]
  decodeContext _ := none
  json := .table []

/-! ## Events and commands -/

/-- `AviEvent`. -/
inductive AviEvent where
  | started (localPeerId : PeerId) (listenAddresses : List String)
  | peerDiscovered (peerId : PeerId)
  | peerConnected (peerId : PeerId) (address : String)
  | peerDisconnected (peerId : PeerId)
  | message (source : PeerId) (topic : String) (data : Bytes)
  | streamRequested (source : PeerId) (reason : String) (streamId : StreamId)
  | streamAccepted (peerId : PeerId) (streamId : StreamId)
  | streamRejected (peerId : PeerId) (streamId : StreamId) (reason : String)
  | streamData (source : PeerId) (streamId : StreamId) (data : Bytes)
  | streamClosed (peerId : PeerId) (streamId : StreamId) (reason : StreamCloseReason)
  | contextUpdated (peerId : PeerId) (context : Value)
  deriving DecidableEq

/-- `Command`, without its reply channel. -/
inductive Command where
  | subscribe (topic : String)
  | unsubscribe (topic : String)
  | publish (topic : String) (data : Bytes)
  | requestStream (peerId : PeerId) (reason : String)
  | acceptStream (streamId : StreamId)
  | rejectStream (streamId : StreamId) (reason : String)
  | sendStreamData (streamId : StreamId) (data : Bytes)
  | closeStream (streamId : StreamId)
  | getConnectedPeers
  | discoverPeers
  | shutdown
  | updateSelfContext (patch : Value)
  | replaceSelfContext (data : Value)
  | getPeerContext (peerId : Option PeerId)
  deriving DecidableEq

/-- What is sent on a reply channel. -/
inductive Reply where
  | done (res : Except AviP2pError Unit)
  | stream (res : Except AviP2pError StreamId)
  | peers (res : Except AviP2pError (List PeerId))
  | value (res : Except AviP2pError Value)
  deriving DecidableEq

/-- `ConnectedPoint`. -/
inductive Endpoint where
  | dialer (address : String)
  | listener (sendBackAddr : String)

/-- The swarm events the runtime looks at. -/
inductive SwarmEvent (Peer : Type) where
  | newListenAddr (address : String)
  /-- `mdns::Event::Discovered` -/
  | discovered (list : List (Peer × String))
  /-- `identify::Event::Received` -/
  | identified (peerId : Peer) (listenAddrs : List String) (protocols : List String)
  | connectionEstablished (peerId : Peer) (endpoint : Endpoint) (numEstablished : ℕ)
  | connectionClosed (peerId : Peer) (numEstablished : ℕ)
  /-- `gossipsub::Event::Message` -/
  | gossip (propagationSource : Peer) (topic : String) (data : Bytes)
  /-- an incoming request of the stream protocol -/
  | request (peer : Peer) (msg : StreamMessage)
  /-- everything else -/
  | other

/-- What a handler does besides changing the state. -/
inductive Effect (Peer : Type) where
  /-- `respond_to.send` -/
  | reply (r : Reply)
  /-- `event_tx.send(..).await` -/
  | event (e : AviEvent)
  /-- `stream.send_request` -/
  | send (peer : Peer) (msg : StreamMessage)
  /-- `stream.send_response` -/
  | respond
  /-- a message gossipsub has accepted -/
  | published (topic : String) (data : Bytes)
  /-- `kad.bootstrap` -/
  | bootstrap
  /-- `kad.add_address` -/
  | addAddress (peer : Peer) (address : String)
  /-- `swarm.dial` -/
  | dial (address : String)
  /-- `command_rx.close` -/
  | closeCommands
  deriving DecidableEq

/-! ## Environment and state -/

/-- The outcome of `gossipsub.publish`. -/
inductive PublishOutcome where
  | ok
  | insufficientPeers
  | error (msg : String)
  deriving DecidableEq

/-- What the system clock, the swarm and the hash maps answer during one handler. -/
structure Env (Peer : Type) where
  now : UInt64
  /-- error text of `gossipsub.subscribe`, `none` for success -/
  subscribeError : Option String
  /-- error text of `gossipsub.unsubscribe`, `none` for success -/
  unsubscribeError : Option String
  publish : PublishOutcome
  isConnected : Peer → Bool
  /-- the order in which a hash map is iterated -/
  order : ∀ {α : Type}, List α → List α
  order_perm : ∀ {α : Type} (l : List α), (order l).Perm l

/-- A calm environment: every call succeeds. -/
def Env.calm (Peer : Type) : Env Peer where
  now := 0
  subscribeError := none
  unsubscribeError := none
  publish := .ok
  isConnected _ := true
  order l := l
  order_perm _ := List.Perm.refl _

/-- `Runtime`, together with what the swarm (its own peer id, the gossipsub
subscriptions) and the process (`NEXT_STREAM_ID`) keep for it. -/
structure Runtime (Peer : Type) [LinearOrder Peer] where
  localPeerId : Peer
  subscribed : Finset String
  nextStreamId : UInt64
  peers : SortedMap Peer (Option String)
  streams : SortedMap UInt64 (StreamState Peer)
  topics : Finset String
  started : Bool
  discoveredPeers : Finset Peer
  syncedPeers : Finset Peer
  localContext : AviContext
  knownPeers : SortedMap Peer String

/-- `Runtime::new`, in a process that has opened no stream yet. -/
def Runtime.new {Peer : Type} [LinearOrder Peer] (lib : External Peer) (localPeerId : Peer)
    (now : UInt64) : Runtime Peer where
  localPeerId := localPeerId
  subscribed := ∅
  nextStreamId := 1
  peers := .empty
  streams := .empty
  topics := ∅
  started := false
  discoveredPeers := ∅
  syncedPeers := ∅
  localContext := .new (lib.toBase58 localPeerId) now
  knownPeers := .empty

end AviNet
