/-!
# Error — identifiers and errors of the node

`error.rs`, with `PeerId` of `events.rs` and `StreamId` of `protocols/stream.rs`.
-/

namespace AviNet

/-- `PeerId`: the base58 text of a libp2p peer id, or any text a user passes. -/
structure PeerId where
  id : String
  deriving DecidableEq

/-- `StreamId`. -/
structure StreamId where
  id : UInt64
  deriving DecidableEq

/-- `AviP2pError`. -/
inductive AviP2pError where
  | notStarted
  | peerNotFound (peer : PeerId)
  | streamNotFound (stream : StreamId)
  | invalidTopic (topic : String)
  | networkError (msg : String)
  | alreadySubscribed (topic : String)
  | notSubscribed (topic : String)
  | channelClosed
  | io (msg : String)
  | serialization (msg : String)
  | invalidPath (msg : String)
  deriving DecidableEq

/-- `StreamCloseReason`. -/
inductive StreamCloseReason where
  | localClose
  | remoteClose
  | error (msg : String)
  deriving DecidableEq

end AviNet
