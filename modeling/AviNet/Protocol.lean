import AviNet.Json
import AviNet.Runtime.State
import Mathlib.Algebra.Order.Field.Rat

/-!
# Protocol — the messages between embedded devices and the bridge

The types of the protocol crate and the bytes postcard makes of a downlink
message: variants and lengths as varints, texts and byte strings behind their
length.
-/

namespace AviNet

/-- `MAX_PACKET_SIZE`. -/
def maxPacketSize : ℕ := 1024

/-! ## Messages -/

/-- An `f32`, as its bits. -/
structure F32 where
  bits : UInt32
  deriving DecidableEq

/-- The value of a finite `f32`. -/
def F32.toRat? (x : F32) : Option Rat :=
  let b := x.bits.toNat
  let sign : Rat := if b / 2 ^ 31 = 1 then -1 else 1
  let exponent : ℕ := b / 2 ^ 23 % 2 ^ 8
  let fraction : ℕ := b % 2 ^ 23
  if exponent = 255 then none
  else if exponent = 0 then some (sign * fraction / 2 ^ 149)
  else some (sign * (2 ^ 23 + fraction) * 2 ^ exponent / 2 ^ 150)

/-- `PressType`. -/
inductive PressType where
  | single
  | double
  | long
  deriving DecidableEq

/-- `SensorValue`. -/
inductive SensorValue where
  | temperature (v : F32)
  | humidity (v : F32)
  | battery (v : UInt8)
  | status (v : Bool)
  | raw (v : Int32)
  deriving DecidableEq

/-- `UplinkMessage`. -/
inductive UplinkMessage where
  | hello (deviceId : UInt64)
  | subscribe (topic : String)
  | unsubscribe (topic : String)
  | publish (topic : String) (data : Bytes)
  | streamStart (localStreamId : UInt8) (targetPeerId reason : String)
  | streamData (localStreamId : UInt8) (data : Bytes)
  | streamClose (localStreamId : UInt8)
  | buttonPress (buttonId : UInt8) (pressType : PressType) (customData : String)
  | sensorUpdate (sensorName : String) (data : SensorValue) (customData : String)
  deriving DecidableEq

/-- `DownlinkMessage`. -/
inductive DownlinkMessage where
  | welcome
  | error (reason : UInt8)
  | message (topic : String) (data : Bytes)
  | subscribeAck (topic : String)
  | unsubscribeAck (topic : String)
  deriving DecidableEq

/-! ## Wire format -/

/-- A varint of at most `size` bytes: seven bits a byte, the lowest first. -/
def varintLoop : (size n : ℕ) → Bytes
  | 0, _ => []
  | size + 1, n =>
    if n < 128 then [UInt8.ofNat n]
    else UInt8.ofNat (n % 128 + 128) :: varintLoop size (n / 128)

/-- A varint of a `usize` or a `u64`. -/
def varint (n : ℕ) : Bytes := varintLoop 10 n

/-- A byte string behind its length. -/
def encodeBytes (data : Bytes) : Bytes := varint data.length ++ data

/-- A text behind its length in UTF-8. -/
def encodeText (s : String) : Bytes := encodeBytes s.toUTF8.toList

/-- The postcard form of a downlink message. -/
def DownlinkMessage.encode : DownlinkMessage → Bytes
  | .welcome => varint 0
  | .error reason => varint 1 ++ [reason]
  | .message topic data => varint 2 ++ encodeText topic ++ encodeBytes data
  | .subscribeAck topic => varint 3 ++ encodeText topic
  | .unsubscribeAck topic => varint 4 ++ encodeText topic

/-- `postcard::to_slice` into a buffer of `size` bytes, `none` if it is too small. -/
def DownlinkMessage.toSlice (msg : DownlinkMessage) (size : ℕ) : Option Bytes :=
  if msg.encode.length ≤ size then some msg.encode else none

end AviNet
