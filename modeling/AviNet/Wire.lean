import AviNet.Lib.Reader
import AviNet.Protocol

/-!
# Wire — the packets between embedded devices and the bridge

The bytes postcard makes of an uplink message, and what `from_bytes` reads from
the front of a packet: variants, lengths and integers as varints, signed ones
in zig-zag order, an `f32` as its four bytes, a `u8` or a `bool` as one byte,
texts and byte strings behind their length.

* `reads_varint`, `reads_bytes`, `reads_text`, ..: each part is read back;
* `UplinkMessage.reads`, `DownlinkMessage.reads`: every message is, whatever
  follows it in the packet;
* `self_delimiting`: and nothing else is, however much of the packet is cut off.
-/

namespace AviNet

open Reader (Reads Local)

/-! ## Writing -/

/-- An `f32` in little-endian order. -/
def encodeF32 (x : F32) : Bytes :=
  [UInt8.ofNat x.bits.toNat, UInt8.ofNat (x.bits.toNat / 2 ^ 8),
    UInt8.ofNat (x.bits.toNat / 2 ^ 16), UInt8.ofNat (x.bits.toNat / 2 ^ 24)]

/-- The zig-zag number of an `i32`: 0, -1, 1, -2, 2 and so on. -/
def zigzag (v : Int32) : ℕ :=
  if 0 ≤ v.toInt then 2 * v.toInt.toNat else 2 * (-v.toInt).toNat - 1

def PressType.encode : PressType → Bytes
  | .single => varint 0
  | .double => varint 1
  | .long => varint 2

def SensorValue.encode : SensorValue → Bytes
  | .temperature v => varint 0 ++ encodeF32 v
  | .humidity v => varint 1 ++ encodeF32 v
  | .battery v => varint 2 ++ [v]
  | .status v => varint 3 ++ [if v then 1 else 0]
  | .raw v => varint 4 ++ varint (zigzag v)

/-- The postcard form of an uplink message. -/
def UplinkMessage.encode : UplinkMessage → Bytes
  | .hello deviceId => varint 0 ++ varint deviceId.toNat
  | .subscribe topic => varint 1 ++ encodeText topic
  | .unsubscribe topic => varint 2 ++ encodeText topic
  | .publish topic data => varint 3 ++ (encodeText topic ++ encodeBytes data)
  | .streamStart localStreamId targetPeerId reason =>
    varint 4 ++ ([localStreamId] ++ (encodeText targetPeerId ++ encodeText reason))
  | .streamData localStreamId data => varint 5 ++ ([localStreamId] ++ encodeBytes data)
  | .streamClose localStreamId => varint 6 ++ [localStreamId]
  | .buttonPress buttonId pressType customData =>
    varint 7 ++ ([buttonId] ++ (pressType.encode ++ encodeText customData))
  | .sensorUpdate sensorName data customData =>
    varint 8 ++ (encodeText sensorName ++ (data.encode ++ encodeText customData))

/-- `postcard::to_slice` into a buffer of `size` bytes, `none` if it is too small. -/
def UplinkMessage.toSlice (msg : UplinkMessage) (size : ℕ) : Option Bytes :=
  if msg.encode.length ≤ size then some msg.encode else none

/-! ## Reading -/

/-- A varint of at most so many bytes. -/
def readVarintLoop : (size : ℕ) → Reader UInt8 ℕ
  | 0 => Reader.check none
  | size + 1 => do
    let b ← Reader.next
    if b.toNat < 128 then return b.toNat
    else
      let n ← readVarintLoop size
      return b.toNat - 128 + 128 * n

/-- A varint of at most `size` bytes for a type of `bits` bits. -/
def readVarint (size bits : ℕ) : Reader UInt8 ℕ := do
  let n ← readVarintLoop size
  Reader.check (if n < 2 ^ bits then some n else none)

/-- The number of a variant, a `u32`. -/
def readVariant : Reader UInt8 ℕ := readVarint 5 32

def readU64 : Reader UInt8 UInt64 := do
  let n ← readVarint 10 64
  return UInt64.ofNat n

def readI32 : Reader UInt8 Int32 := do
  let n ← readVarint 5 32
  return if n % 2 = 0 then Int32.ofInt (n / 2 : ℕ) else Int32.ofInt (-(n / 2 : ℕ) - 1)

def readF32 : Reader UInt8 F32 := do
  let b₀ ← Reader.next
  let b₁ ← Reader.next
  let b₂ ← Reader.next
  let b₃ ← Reader.next
  return ⟨UInt32.ofNat
    (b₀.toNat + 2 ^ 8 * b₁.toNat + 2 ^ 16 * b₂.toNat + 2 ^ 24 * b₃.toNat)⟩

def readBool : Reader UInt8 Bool := do
  let b ← Reader.next
  Reader.check (if b = 0 then some false else if b = 1 then some true else none)

def readBytes : Reader UInt8 Bytes := do
  let n ← readVarint 10 64
  Reader.take n

/-- A text has to be UTF-8. -/
def readText : Reader UInt8 String := do
  let data ← readBytes
  Reader.check (String.fromUTF8? ⟨data.toArray⟩)

def PressType.read : Reader UInt8 PressType := do
  match ← readVariant with
  | 0 => return .single
  | 1 => return .double
  | 2 => return .long
  | _ => Reader.check none

def SensorValue.read : Reader UInt8 SensorValue := do
  match ← readVariant with
  | 0 => return .temperature (← readF32)
  | 1 => return .humidity (← readF32)
  | 2 => return .battery (← Reader.next)
  | 3 => return .status (← readBool)
  | 4 => return .raw (← readI32)
  | _ => Reader.check none

def UplinkMessage.read : Reader UInt8 UplinkMessage := do
  match ← readVariant with
  | 0 => return .hello (← readU64)
  | 1 => return .subscribe (← readText)
  | 2 => return .unsubscribe (← readText)
  | 3 => return .publish (← readText) (← readBytes)
  | 4 => return .streamStart (← Reader.next) (← readText) (← readText)
  | 5 => return .streamData (← Reader.next) (← readBytes)
  | 6 => return .streamClose (← Reader.next)
  | 7 => return .buttonPress (← Reader.next) (← PressType.read) (← readText)
  | 8 => return .sensorUpdate (← readText) (← SensorValue.read) (← readText)
  | _ => Reader.check none

def DownlinkMessage.read : Reader UInt8 DownlinkMessage := do
  match ← readVariant with
  | 0 => return .welcome
  | 1 => return .error (← Reader.next)
  | 2 => return .message (← readText) (← readBytes)
  | 3 => return .subscribeAck (← readText)
  | 4 => return .unsubscribeAck (← readText)
  | _ => Reader.check none

/-- `postcard::from_bytes::<UplinkMessage>`. -/
def UplinkMessage.fromBytes (packet : Bytes) : Option UplinkMessage :=
  Reader.front UplinkMessage.read packet

/-- `postcard::from_bytes::<DownlinkMessage>`. -/
def DownlinkMessage.fromBytes (packet : Bytes) : Option DownlinkMessage :=
  Reader.front DownlinkMessage.read packet

/-! ## Numbers -/

/-- A number below 256 fits into the byte it is stored in. -/
theorem toNat_ofNat_lt {n : ℕ} (h : n < 256) : (UInt8.ofNat n).toNat = n := by
  rw [UInt8.toNat_ofNat']
  omega

/-- A number that needs at most `size + 1` bytes is read back, however many are allowed
for writing it. -/
theorem reads_varintLoop {size k n : ℕ} (hn : n < 128 ^ (size + 1)) (hk : size + 1 ≤ k) :
    Reads (readVarintLoop (size + 1)) (varintLoop k n) n := by
  induction size generalizing k n with
  | zero =>
    obtain ⟨k, rfl⟩ := Nat.exists_eq_add_of_le' hk
    have hlt : n < 128 := by simpa using hn
    unfold varintLoop readVarintLoop
    rw [if_pos hlt]
    apply Reader.Reads.cons
    rw [toNat_ofNat_lt (by omega), if_pos hlt]
    exact Reader.reads_pure n
  | succ size ih =>
    obtain ⟨k, rfl⟩ := Nat.exists_eq_add_of_le' (Nat.le_of_succ_le hk)
    unfold varintLoop readVarintLoop
    by_cases hlt : n < 128
    · rw [if_pos hlt]
      apply Reader.Reads.cons
      rw [toNat_ofNat_lt (by omega), if_pos hlt]
      exact Reader.reads_pure n
    · -- seven bits, and the rest of the number
      rw [if_neg hlt]
      apply Reader.Reads.cons
      have hbyte : (UInt8.ofNat (n % 128 + 128)).toNat = n % 128 + 128 :=
        toNat_ofNat_lt (by omega)
      have hrest : n / 128 < 128 ^ (size + 1) := by
        rw [Nat.div_lt_iff_lt_mul (by decide)]
        rwa [Nat.pow_succ] at hn
      rw [hbyte, if_neg (by omega)]
      have hvalue : n % 128 + 128 - 128 + 128 * (n / 128) = n := by omega
      apply (ih hrest (k := k + size) (by omega)).last
      rw [hvalue]

/-- A number of `bits` bits is read back. -/
theorem reads_varint {size bits n : ℕ} (hn : n < 2 ^ bits) (hbits : bits ≤ 7 * (size + 1))
    (hsize : size + 1 ≤ 10) : Reads (readVarint (size + 1) bits) (varint n) n := by
  have hfits : n < 128 ^ (size + 1) := by
    have hpow : (128 : ℕ) ^ (size + 1) = 2 ^ (7 * (size + 1)) := by
      rw [Nat.pow_mul]
    rw [hpow]
    exact lt_of_lt_of_le hn (Nat.pow_le_pow_right (by decide) hbits)
  have hloop := (reads_varintLoop hfits hsize).bind
    (f := fun n => Reader.check (if n < 2 ^ bits then some n else none))
    (Reader.reads_check (if_pos hn))
  rwa [List.append_nil] at hloop

/-- The number of an enum variant, a `u32` on the wire, is read back. -/
theorem reads_variant {n : ℕ} (hn : n < 2 ^ 32) : Reads readVariant (varint n) n :=
  reads_varint hn (by decide) (by decide)

/-- Every `u64` is read back from its varint. -/
theorem reads_u64 (v : UInt64) : Reads readU64 (varint v.toNat) v := by
  have hvarint : Reads (readVarint 10 64) (varint v.toNat) v.toNat :=
    reads_varint v.toNat_lt (by decide) (by decide)
  apply hvarint.last
  rw [UInt64.ofNat_toNat]

/-- The zigzag code of an `i32` fits into 32 bits. -/
theorem zigzag_lt (v : Int32) : zigzag v < 2 ^ 32 := by
  have hlt := v.toInt_lt
  have hle := v.le_toInt
  unfold zigzag
  split_ifs <;> omega

/-- Every `i32` is read back from the varint of its zigzag code. -/
theorem reads_i32 (v : Int32) : Reads readI32 (varint (zigzag v)) v := by
  have hvarint : Reads (readVarint 5 32) (varint (zigzag v)) (zigzag v) :=
    reads_varint (zigzag_lt v) (by decide) (by decide)
  have hvalue : (if zigzag v % 2 = 0 then Int32.ofInt (zigzag v / 2 : ℕ)
      else Int32.ofInt (-(zigzag v / 2 : ℕ) - 1)) = v := by
    unfold zigzag
    by_cases hv : 0 ≤ v.toInt
    · have hhalf : ((2 * v.toInt.toNat / 2 : ℕ) : ℤ) = v.toInt := by omega
      rw [if_pos hv, if_pos (by omega), hhalf, Int32.ofInt_toInt]
    · have hhalf : -((2 * (-v.toInt).toNat - 1) / 2 : ℕ) - 1 = v.toInt := by omega
      rw [if_neg hv, if_neg (by omega), hhalf, Int32.ofInt_toInt]
  apply hvarint.last
  rw [hvalue]

/-- The four bytes of an `f32` are read back, whatever bit pattern they hold. -/
theorem reads_f32 (x : F32) : Reads readF32 (encodeF32 x) x := by
  obtain ⟨bits⟩ := x
  have hlt := bits.toNat_lt
  unfold readF32 encodeF32
  apply Reader.Reads.cons
  apply Reader.Reads.cons
  apply Reader.Reads.cons
  apply Reader.Reads.cons
  have hvalue : UInt32.ofNat ((UInt8.ofNat bits.toNat).toNat +
      2 ^ 8 * (UInt8.ofNat (bits.toNat / 2 ^ 8)).toNat +
      2 ^ 16 * (UInt8.ofNat (bits.toNat / 2 ^ 16)).toNat +
      2 ^ 24 * (UInt8.ofNat (bits.toNat / 2 ^ 24)).toNat) = bits := by
    simp only [UInt8.toNat_ofNat']
    have hsum : bits.toNat % 2 ^ 8 + 2 ^ 8 * (bits.toNat / 2 ^ 8 % 2 ^ 8) +
        2 ^ 16 * (bits.toNat / 2 ^ 16 % 2 ^ 8) + 2 ^ 24 * (bits.toNat / 2 ^ 24 % 2 ^ 8) =
          bits.toNat := by omega
    rw [hsum, UInt32.ofNat_toNat]
  rw [hvalue]
  exact Reader.reads_pure _

theorem reads_bool (v : Bool) : Reads readBool [if v then 1 else 0] v := by
  unfold readBool
  apply Reader.Reads.cons
  apply Reader.reads_check
  cases v <;> rfl

/-! ## Texts and byte strings -/

theorem length_encodeBytes (data : Bytes) :
    (encodeBytes data).length = (varint data.length).length + data.length := List.length_append

/-- A byte string is read back: the prefix says how many bytes to take. -/
theorem reads_bytes {data : Bytes} (h : data.length < 2 ^ 64) :
    Reads readBytes (encodeBytes data) data := by
  have hlength : Reads (readVarint 10 64) (varint data.length) data.length :=
    reads_varint h (by decide) (by decide)
  exact hlength.bind (Reader.reads_take data)

/-- The bytes of a byte array as a list. -/
theorem byteArray_toList (b : ByteArray) : b.toList = b.data.toList := by
  -- `toList` runs from `i` to the end and collects backwards
  have hloop : ∀ n i r, b.size - i = n →
      ByteArray.toList.loop b i r = r.reverse ++ b.data.toList.drop i := by
    intro n
    induction n with
    | zero =>
      -- the end is reached
      intro i r hn
      have hle : b.data.toList.length ≤ i := by
        rw [Array.length_toList]
        exact Nat.sub_eq_zero_iff_le.mp hn
      unfold ByteArray.toList.loop
      rw [if_neg (by omega), List.drop_eq_nil_of_le hle, List.append_nil]
    | succ n ih =>
      -- one byte more
      intro i r hn
      have hlt : i < b.data.size := by
        show i < b.size
        omega
      unfold ByteArray.toList.loop
      rw [if_pos (by omega), ih (i + 1) _ (by omega), List.reverse_cons, List.append_assoc]
      have hlist : i < b.data.toList.length := by
        rw [Array.length_toList]
        exact hlt
      have hget : b.get! i = b.data.toList[i] := by
        show b.data[i]! = _
        rw [getElem!_pos b.data i hlt, Array.getElem_toList]
      rw [hget, List.singleton_append, ← List.drop_eq_getElem_cons]
  exact hloop _ 0 [] rfl

theorem length_toUTF8 (s : String) : s.toUTF8.toList.length = s.utf8ByteSize := by
  rw [byteArray_toList, Array.length_toList, String.toUTF8_eq_toByteArray]
  exact String.size_toByteArray

/-- The UTF-8 bytes of a text decode to that text. -/
theorem fromUTF8_toUTF8 (s : String) :
    String.fromUTF8? ⟨s.toUTF8.toList.toArray⟩ = some s := by
  have hbytes : (⟨s.toUTF8.toList.toArray⟩ : ByteArray) = s.toByteArray := by
    rw [byteArray_toList, Array.toArray_toList, String.toUTF8_eq_toByteArray]
  rw [hbytes, String.fromUTF8?, dif_pos s.isValidUTF8]
  rfl

/-- A text is made of the bytes it has been read from. -/
theorem toUTF8_fromUTF8 {data : Bytes} {s : String}
    (h : String.fromUTF8? ⟨data.toArray⟩ = some s) : s.toUTF8.toList = data := by
  unfold String.fromUTF8? at h
  split_ifs at h with hvalid
  cases h
  rw [byteArray_toList, String.toUTF8_eq_toByteArray]
  rfl

theorem length_encodeText (s : String) :
    (encodeText s).length = (varint s.utf8ByteSize).length + s.utf8ByteSize := by
  rw [encodeText, length_encodeBytes, length_toUTF8]

/-- A text is read back: its bytes are the UTF-8 the reader asks for. -/
theorem reads_text {s : String} (h : s.utf8ByteSize < 2 ^ 64) :
    Reads readText (encodeText s) s := by
  have hbytes : Reads readBytes (encodeText s) s.toUTF8.toList := by
    apply reads_bytes
    rw [length_toUTF8]
    exact h
  have hread := hbytes.bind (f := fun data => Reader.check (String.fromUTF8? ⟨data.toArray⟩))
    (Reader.reads_check (fromUTF8_toUTF8 s))
  rwa [List.append_nil] at hread

/-! ## Messages -/

theorem PressType.reads (t : PressType) : Reads PressType.read t.encode t := by
  unfold PressType.read
  cases t with
  | single => exact (reads_variant (n := 0) (by decide)).last rfl
  | double => exact (reads_variant (n := 1) (by decide)).last rfl
  | long => exact (reads_variant (n := 2) (by decide)).last rfl

/-- Every sensor value is read back, variant by variant. -/
theorem SensorValue.reads (v : SensorValue) : Reads SensorValue.read v.encode v := by
  unfold SensorValue.read
  cases v with
  | temperature x => exact (reads_variant (n := 0) (by decide)).bind ((reads_f32 x).last rfl)
  | humidity x => exact (reads_variant (n := 1) (by decide)).bind ((reads_f32 x).last rfl)
  | battery x => exact (reads_variant (n := 2) (by decide)).bind ((Reader.reads_next x).last rfl)
  | status x => exact (reads_variant (n := 3) (by decide)).bind ((reads_bool x).last rfl)
  | raw x => exact (reads_variant (n := 4) (by decide)).bind ((reads_i32 x).last rfl)

example : (SensorValue.raw (-150)).encode = [4, 171, 2] := by decide

/-- The texts and byte strings have lengths that a `usize` can hold, as every `&str`
and `&[u8]` has. -/
def UplinkMessage.Representable : UplinkMessage → Prop
  | .hello _ | .streamClose _ => True
  | .subscribe topic | .unsubscribe topic => topic.utf8ByteSize < 2 ^ 64
  | .publish topic data => topic.utf8ByteSize < 2 ^ 64 ∧ data.length < 2 ^ 64
  | .streamStart _ targetPeerId reason =>
    targetPeerId.utf8ByteSize < 2 ^ 64 ∧ reason.utf8ByteSize < 2 ^ 64
  | .streamData _ data => data.length < 2 ^ 64
  | .buttonPress _ _ customData => customData.utf8ByteSize < 2 ^ 64
  | .sensorUpdate sensorName _ customData =>
    sensorName.utf8ByteSize < 2 ^ 64 ∧ customData.utf8ByteSize < 2 ^ 64

/-- The same for a downlink message. -/
def DownlinkMessage.Representable : DownlinkMessage → Prop
  | .welcome | .error _ => True
  | .message topic data => topic.utf8ByteSize < 2 ^ 64 ∧ data.length < 2 ^ 64
  | .subscribeAck topic | .unsubscribeAck topic => topic.utf8ByteSize < 2 ^ 64

/-- A message is read back, whatever follows it. -/
theorem UplinkMessage.reads {msg : UplinkMessage} (h : msg.Representable) :
    Reads UplinkMessage.read msg.encode msg := by
  unfold UplinkMessage.read
  cases msg with
  | hello deviceId =>
    -- variant by variant: the number, then the fields in their order
    exact (reads_variant (n := 0) (by decide)).bind ((reads_u64 deviceId).last rfl)
  | subscribe topic =>
    exact (reads_variant (n := 1) (by decide)).bind ((reads_text h).last rfl)
  | unsubscribe topic =>
    exact (reads_variant (n := 2) (by decide)).bind ((reads_text h).last rfl)
  | publish topic data =>
    obtain ⟨htopic, hdata⟩ := h
    exact (reads_variant (n := 3) (by decide)).bind
      ((reads_text htopic).bind ((reads_bytes hdata).last rfl))
  | streamStart localStreamId targetPeerId reason =>
    obtain ⟨htarget, hreason⟩ := h
    exact (reads_variant (n := 4) (by decide)).bind ((Reader.reads_next localStreamId).bind
      ((reads_text htarget).bind ((reads_text hreason).last rfl)))
  | streamData localStreamId data =>
    exact (reads_variant (n := 5) (by decide)).bind
      ((Reader.reads_next localStreamId).bind ((reads_bytes h).last rfl))
  | streamClose localStreamId =>
    exact (reads_variant (n := 6) (by decide)).bind ((Reader.reads_next localStreamId).last rfl)
  | buttonPress buttonId pressType customData =>
    exact (reads_variant (n := 7) (by decide)).bind ((Reader.reads_next buttonId).bind
      (pressType.reads.bind ((reads_text h).last rfl)))
  | sensorUpdate sensorName data customData =>
    obtain ⟨hname, hcustom⟩ := h
    exact (reads_variant (n := 8) (by decide)).bind ((reads_text hname).bind
      (data.reads.bind ((reads_text hcustom).last rfl)))

/-- A message whose form has such a length is made of parts that have. -/
theorem UplinkMessage.representable_of_length {msg : UplinkMessage}
    (h : msg.encode.length < 2 ^ 64) : msg.Representable := by
  cases msg with
  | hello deviceId => exact True.intro
  | streamClose localStreamId => exact True.intro
  | subscribe topic | unsubscribe topic | buttonPress buttonId pressType topic =>
    simp only [UplinkMessage.encode, List.length_append, length_encodeText] at h
    unfold UplinkMessage.Representable
    omega
  | streamData localStreamId data =>
    simp only [UplinkMessage.encode, List.length_append, length_encodeBytes] at h
    unfold UplinkMessage.Representable
    omega
  | publish topic data =>
    simp only [UplinkMessage.encode, List.length_append, length_encodeText,
      length_encodeBytes] at h
    constructor
    · omega
    · omega
  | streamStart localStreamId target reason | sensorUpdate target value reason =>
    simp only [UplinkMessage.encode, List.length_append, length_encodeText] at h
    constructor
    · omega
    · omega

/-- What a device encodes, the gateway decodes to the same message. -/
theorem UplinkMessage.fromBytes_encode {msg : UplinkMessage} (h : msg.encode.length < 2 ^ 64) :
    UplinkMessage.fromBytes msg.encode = some msg :=
  (UplinkMessage.reads (UplinkMessage.representable_of_length h)).front

/-- Every representable downlink message is read back, variant by variant. -/
theorem DownlinkMessage.reads {msg : DownlinkMessage} (h : msg.Representable) :
    Reads DownlinkMessage.read msg.encode msg := by
  unfold DownlinkMessage.read
  cases msg with
  | welcome => exact (reads_variant (n := 0) (by decide)).last rfl
  | error reason =>
    exact (reads_variant (n := 1) (by decide)).bind ((Reader.reads_next reason).last rfl)
  | message topic data =>
    obtain ⟨htopic, hdata⟩ := h
    rw [DownlinkMessage.encode, List.append_assoc]
    exact (reads_variant (n := 2) (by decide)).bind
      ((reads_text htopic).bind ((reads_bytes hdata).last rfl))
  | subscribeAck topic =>
    exact (reads_variant (n := 3) (by decide)).bind ((reads_text h).last rfl)
  | unsubscribeAck topic =>
    exact (reads_variant (n := 4) (by decide)).bind ((reads_text h).last rfl)

/-- The parts of a message whose encoding has a `u64` length have one themselves. -/
theorem DownlinkMessage.representable_of_length {msg : DownlinkMessage}
    (h : msg.encode.length < 2 ^ 64) : msg.Representable := by
  cases msg with
  | welcome => exact True.intro
  | error reason => exact True.intro
  | message topic data =>
    simp only [DownlinkMessage.encode, List.length_append, length_encodeText,
      length_encodeBytes] at h
    constructor
    · omega
    · omega
  | subscribeAck topic | unsubscribeAck topic =>
    simp only [DownlinkMessage.encode, List.length_append, length_encodeText] at h
    unfold DownlinkMessage.Representable
    omega

/-- What the gateway encodes, a device decodes to the same message. -/
theorem DownlinkMessage.fromBytes_encode {msg : DownlinkMessage}
    (h : msg.encode.length < 2 ^ 64) : DownlinkMessage.fromBytes msg.encode = some msg :=
  (DownlinkMessage.reads (DownlinkMessage.representable_of_length h)).front

/-- A downlink packet is read back. -/
theorem DownlinkMessage.fromBytes_toSlice {msg : DownlinkMessage} {packet : Bytes}
    (h : msg.toSlice maxPacketSize = some packet) :
    DownlinkMessage.fromBytes packet = some msg := by
  unfold DownlinkMessage.toSlice at h
  split_ifs at h with hle
  have hlt : msg.encode.length < 2 ^ 64 := lt_of_le_of_lt hle (by decide)
  cases h
  exact DownlinkMessage.fromBytes_encode hlt

/-! ## Packets that are cut short -/

/-- The varint loop stops at the first byte without the continuation bit, so what comes
after plays no part. -/
theorem local_varintLoop (size : ℕ) : Local (readVarintLoop size) := by
  induction size with
  | zero => exact Reader.local_check none
  | succ size ih =>
    apply Reader.local_next.bind
    intro b
    split_ifs
    · exact Reader.local_pure _
    · exact ih.bind fun _ => Reader.local_pure _

/-- A varint's reader looks at no byte behind the varint. -/
theorem local_varint (size bits : ℕ) : Local (readVarint size bits) :=
  (local_varintLoop size).bind fun _ => Reader.local_check _

theorem local_variant : Local readVariant := local_varint 5 32

theorem local_u64 : Local readU64 := (local_varint 10 64).bind fun _ => Reader.local_pure _

theorem local_i32 : Local readI32 := (local_varint 5 32).bind fun _ => Reader.local_pure _

theorem local_f32 : Local readF32 :=
  Reader.local_next.bind fun _ => Reader.local_next.bind fun _ =>
    Reader.local_next.bind fun _ => Reader.local_next.bind fun _ => Reader.local_pure _

theorem local_bool : Local readBool := Reader.local_next.bind fun _ => Reader.local_check _

theorem local_bytes : Local readBytes := (local_varint 10 64).bind fun n => Reader.local_take n

theorem local_text : Local readText := local_bytes.bind fun _ => Reader.local_check _

/-- The last field of a message. -/
theorem local_last {α β : Type} {p : Reader UInt8 α} (hp : Local p) (g : α → β) :
    Local (p >>= fun a => pure (g a)) := hp.bind fun _ => Reader.local_pure _

theorem PressType.local_read : Local PressType.read := by
  apply local_variant.bind
  intro n
  split
  · exact Reader.local_pure _
  · exact Reader.local_pure _
  · exact Reader.local_pure _
  · exact Reader.local_check none

/-- A sensor value is read from its own bytes only, in each variant. -/
theorem SensorValue.local_read : Local SensorValue.read := by
  apply local_variant.bind
  intro n
  split
  · exact local_last local_f32 _
  · exact local_last local_f32 _
  · exact local_last Reader.local_next _
  · exact local_last local_bool _
  · exact local_last local_i32 _
  · exact Reader.local_check none

/-- An uplink message is read from its own bytes only, in each variant. -/
theorem UplinkMessage.local_read : Local UplinkMessage.read := by
  apply local_variant.bind
  intro n
  split
  · exact local_last local_u64 _
  · exact local_last local_text _
  · exact local_last local_text _
  · exact local_text.bind fun _ => local_last local_bytes _
  · exact Reader.local_next.bind fun _ => local_text.bind fun _ => local_last local_text _
  · exact Reader.local_next.bind fun _ => local_last local_bytes _
  · exact local_last Reader.local_next _
  · exact Reader.local_next.bind fun _ => PressType.local_read.bind fun _ =>
      local_last local_text _
  · exact local_text.bind fun _ => SensorValue.local_read.bind fun _ => local_last local_text _
  · exact Reader.local_check none

/-- A downlink message is read from its own bytes only, in each variant. -/
theorem DownlinkMessage.local_read : Local DownlinkMessage.read := by
  apply local_variant.bind
  intro n
  split
  · exact Reader.local_pure _
  · exact local_last Reader.local_next _
  · exact local_text.bind fun _ => local_last local_bytes _
  · exact local_last local_text _
  · exact local_last local_text _
  · exact Reader.local_check none

/-- **The wire format is self-delimiting**: a message is read back from the front of a
packet and what follows it is left, nothing is read from a part of it, and a
packet that is cut is not taken for another message. -/
theorem self_delimiting :
    (∀ msg : UplinkMessage, msg.Representable →
      (∀ rest, UplinkMessage.read (msg.encode ++ rest) = some (msg, rest)) ∧
      (∀ part, part <+: msg.encode → part ≠ msg.encode → UplinkMessage.read part = none) ∧
      ∀ n msg', UplinkMessage.fromBytes (msg.encode.take n) = some msg' → msg' = msg) ∧
    ∀ msg : DownlinkMessage, msg.Representable →
      (∀ rest, DownlinkMessage.read (msg.encode ++ rest) = some (msg, rest)) ∧
      (∀ part, part <+: msg.encode → part ≠ msg.encode → DownlinkMessage.read part = none) ∧
      ∀ n msg', DownlinkMessage.fromBytes (msg.encode.take n) = some msg' → msg' = msg := by
  constructor
  · intro msg h
    have hread := UplinkMessage.reads h
    refine ⟨hread, ?_, ?_⟩
    · intro part hpart hne
      exact hread.fails UplinkMessage.local_read hpart hne
    · intro n msg' hfront
      exact hread.front_take UplinkMessage.local_read hfront
  · intro msg h
    have hread := DownlinkMessage.reads h
    refine ⟨hread, ?_, ?_⟩
    · intro part hpart hne
      exact hread.fails DownlinkMessage.local_read hpart hne
    · intro n msg' hfront
      exact hread.front_take DownlinkMessage.local_read hfront

/-- A `Publish` cut off after three bytes decodes to nothing else. -/
theorem self_delimiting_publish :
    ∀ msg', UplinkMessage.fromBytes ((UplinkMessage.publish "t" [1, 2]).encode.take 3) =
      some msg' → msg' = .publish "t" [1, 2] :=
  fun msg' => (self_delimiting.1 (.publish "t" [1, 2]) ⟨by decide, by decide⟩).2.2 3 msg'

/-! ## Lengths -/

/-- The loop emits at most one byte for each round it is given. -/
theorem length_varintLoop_le (size n : ℕ) : (varintLoop size n).length ≤ size := by
  induction size generalizing n with
  | zero => exact le_refl 0
  | succ size ih =>
    unfold varintLoop
    split_ifs with hn
    · rw [List.length_singleton]
      omega
    · rw [List.length_cons]
      have := ih (n / 128)
      omega

theorem length_varint_le (n : ℕ) : (varint n).length ≤ 10 := length_varintLoop_le 10 n

/-- The bytes of a length below 2 to the power of 14. -/
def shortLength (n : ℕ) : ℕ := if n < 128 then 1 else 2

/-- Below `2 ^ 14` a varint takes one or two bytes, as `shortLength` counts. -/
theorem length_varint_eq {n : ℕ} (h : n < 16384) : (varint n).length = shortLength n := by
  have hrest : n / 128 < 128 := by omega
  unfold varint varintLoop shortLength
  by_cases hn : n < 128
  · rw [if_pos hn, if_pos hn]
    rfl
  · rw [if_neg hn, if_neg hn]
    unfold varintLoop
    rw [if_pos hrest]
    rfl

/-- A text with its length, when it is to fit into a small buffer. -/
theorem length_encodeText_of_lt {s : String} (h : s.utf8ByteSize < 16384) :
    (encodeText s).length = shortLength s.utf8ByteSize + s.utf8ByteSize := by
  rw [length_encodeText, length_varint_eq h]

/-- The same count for a byte string of less than `2 ^ 14` bytes, prefix included. -/
theorem length_encodeBytes_of_lt {data : Bytes} (h : data.length < 16384) :
    (encodeBytes data).length = shortLength data.length + data.length := by
  rw [length_encodeBytes, length_varint_eq h]

theorem PressType.length_encode_le (t : PressType) : t.encode.length ≤ 10 := by
  cases t <;> exact length_varint_le _

/-- A sensor value takes its variant number and at most ten bytes more. -/
theorem SensorValue.length_encode_le (v : SensorValue) : v.encode.length ≤ 20 := by
  cases v with
  | raw x =>
    have htag := length_varint_le 4
    have hvalue := length_varint_le (zigzag x)
    simp only [SensorValue.encode, List.length_append]
    omega
  | _ =>
    have htag := length_varint_le
    simp only [SensorValue.encode, encodeF32, List.length_append, List.length_cons,
      List.length_nil]
    grind

end AviNet
