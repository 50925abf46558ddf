import AviNet.Protocol

/-!
# Embedded.CApi — the calls of the C API

`c_api.rs` up to `send_command`: each call checks its arguments and makes a
command of them, or returns an error code. A pointer with its length is the
bytes it points to, `none` for a null pointer; `custom_data` is never compared
with null.
-/

namespace AviNet.Embedded

/-- A pointer with its length. -/
abbrev CBytes := Option Bytes

/-- `AviCommand`. A buffer with its length is the part that is used. -/
inductive AviCommand where
  | connect (deviceId : UInt64)
  | subscribe (topic : String)
  | unsubscribe (topic : String)
  | publish (topic : String) (data : Bytes)
  | startStream (localStreamId : UInt8) (targetPeerId reason : String)
  | sendStreamData (localStreamId : UInt8) (data : Bytes)
  | closeStream (localStreamId : UInt8)
  | buttonPress (buttonId : UInt8) (pressType : PressType) (customData : String)
  | sensorTemperature (sensorName : String) (value : F32) (customData : String)
  | sensorHumidity (sensorName : String) (value : F32) (customData : String)
  | sensorBattery (sensorName : String) (value : UInt8) (customData : String)
  | sensorStatus (sensorName : String) (value : Bool) (customData : String)
  | sensorRaw (sensorName : String) (value : Int32) (customData : String)
  deriving DecidableEq

/-! ## Arguments -/

/-- Null pointers and arguments that do not fit. -/
def invalid : Int32 := -1

/-- The queue is full. -/
def queueFull : Int32 := -2

/-- `core::str::from_utf8(..).unwrap_or("")`. -/
def fromUtf8 (data : Bytes) : String := (String.fromUTF8? ⟨data.toArray⟩).getD ""

/-- `push_str` on an empty `heapless::String` of this capacity. -/
def heaplessString (capacity : ℕ) (data : Bytes) : Except Int32 String :=
  if (fromUtf8 data).utf8ByteSize ≤ capacity then .ok (fromUtf8 data) else .error invalid

/-- `char_to_string`. -/
def charToString (data : Bytes) : Except Int32 String := heaplessString 32 data

/-- The bytes behind a pointer that is compared with null. -/
def nonNull : CBytes → Except Int32 Bytes
  | some data => .ok data
  | none => .error invalid

/-- A buffer that is copied into one of this size. -/
def buffer (size : ℕ) (data : Bytes) : Except Int32 Bytes :=
  if data.length ≤ size then .ok data else .error invalid

/-! ## Calls -/

/-- `avi_embedded_connect`, on an instance with this device id. -/
def aviEmbeddedConnect (deviceId : UInt64) : Except Int32 AviCommand := .ok (.connect deviceId)

/-- `avi_embedded_subscribe`. -/
def aviEmbeddedSubscribe (topic : CBytes) : Except Int32 AviCommand := do
  let topic ← heaplessString 64 (← nonNull topic)
  return .subscribe topic

/-- `avi_embedded_unsubscribe`. -/
def aviEmbeddedUnsubscribe (topic : CBytes) : Except Int32 AviCommand := do
  let topic ← heaplessString 64 (← nonNull topic)
  return .unsubscribe topic

/-- `avi_embedded_publish`. -/
def aviEmbeddedPublish (topic data : CBytes) : Except Int32 AviCommand := do
  let topic ← nonNull topic
  let data ← buffer 256 (← nonNull data)
  return .publish (← heaplessString 64 topic) data

/-- `avi_embedded_start_stream`. -/
def aviEmbeddedStartStream (localStreamId : UInt8) (targetPeerId reason : CBytes) :
    Except Int32 AviCommand := do
  let target ← nonNull targetPeerId
  let reason ← nonNull reason
  return .startStream localStreamId (← heaplessString 64 target) (← heaplessString 64 reason)

/-- `avi_embedded_send_stream_data`. -/
def aviEmbeddedSendStreamData (localStreamId : UInt8) (data : CBytes) :
    Except Int32 AviCommand := do
  let data ← buffer 512 (← nonNull data)
  return .sendStreamData localStreamId data

/-- `avi_embedded_close_stream`. -/
def aviEmbeddedCloseStream (localStreamId : UInt8) : Except Int32 AviCommand :=
  .ok (.closeStream localStreamId)

/-- The number of a press type. -/
def pressType : UInt8 → Except Int32 PressType
  | 0 => .ok .single
  | 1 => .ok .double
  | 2 => .ok .long
  | _ => .error invalid

/-- `avi_embedded_button_pressed`. -/
def aviEmbeddedButtonPressed (buttonId press : UInt8) (customData : Bytes) :
    Except Int32 AviCommand := do
  let press ← pressType press
  return .buttonPress buttonId press (← charToString customData)

/-- The five sensor calls, which differ in the command they make. -/
def updateSensor (command : String → String → AviCommand) (sensorName : CBytes)
    (customData : Bytes) : Except Int32 AviCommand := do
  let name ← charToString (← nonNull sensorName)
  return command name (← charToString customData)

/-- `avi_embedded_update_sensor_temperature`. -/
def aviEmbeddedUpdateSensorTemperature (sensorName : CBytes) (value : F32) (customData : Bytes) :
    Except Int32 AviCommand :=
  updateSensor (fun name data => .sensorTemperature name value data) sensorName customData

/-- `avi_embedded_update_sensor_humidity`. -/
def aviEmbeddedUpdateSensorHumidity (sensorName : CBytes) (value : F32) (customData : Bytes) :
    Except Int32 AviCommand :=
  updateSensor (fun name data => .sensorHumidity name value data) sensorName customData

/-- `avi_embedded_update_sensor_battery`. -/
def aviEmbeddedUpdateSensorBattery (sensorName : CBytes) (value : UInt8) (customData : Bytes) :
    Except Int32 AviCommand :=
  updateSensor (fun name data => .sensorBattery name value data) sensorName customData

/-- `avi_embedded_update_sensor_status`. -/
def aviEmbeddedUpdateSensorStatus (sensorName : CBytes) (value : Bool) (customData : Bytes) :
    Except Int32 AviCommand :=
  updateSensor (fun name data => .sensorStatus name value data) sensorName customData

/-- `avi_embedded_update_sensor_raw`. -/
def aviEmbeddedUpdateSensorRaw (sensorName : CBytes) (value : Int32) (customData : Bytes) :
    Except Int32 AviCommand :=
  updateSensor (fun name data => .sensorRaw name value data) sensorName customData

/-- The calls that send a command, with their arguments. -/
inductive ApiCall where
  | connect
  | subscribe (topic : CBytes)
  | unsubscribe (topic : CBytes)
  | publish (topic data : CBytes)
  | startStream (localStreamId : UInt8) (targetPeerId reason : CBytes)
  | sendStreamData (localStreamId : UInt8) (data : CBytes)
  | closeStream (localStreamId : UInt8)
  | buttonPressed (buttonId press : UInt8) (customData : Bytes)
  | updateSensorTemperature (sensorName : CBytes) (value : F32) (customData : Bytes)
  | updateSensorHumidity (sensorName : CBytes) (value : F32) (customData : Bytes)
  | updateSensorBattery (sensorName : CBytes) (value : UInt8) (customData : Bytes)
  | updateSensorStatus (sensorName : CBytes) (value : Bool) (customData : Bytes)
  | updateSensorRaw (sensorName : CBytes) (value : Int32) (customData : Bytes)

/-- What a call hands to `send_command`, or returns without it. -/
def ApiCall.command (deviceId : UInt64) : ApiCall → Except Int32 AviCommand
  | .connect => aviEmbeddedConnect deviceId
  | .subscribe topic => aviEmbeddedSubscribe topic
  | .unsubscribe topic => aviEmbeddedUnsubscribe topic
  | .publish topic data => aviEmbeddedPublish topic data
  | .startStream id target reason => aviEmbeddedStartStream id target reason
  | .sendStreamData id data => aviEmbeddedSendStreamData id data
  | .closeStream id => aviEmbeddedCloseStream id
  | .buttonPressed id press data => aviEmbeddedButtonPressed id press data
  | .updateSensorTemperature name v data => aviEmbeddedUpdateSensorTemperature name v data
  | .updateSensorHumidity name v data => aviEmbeddedUpdateSensorHumidity name v data
  | .updateSensorBattery name v data => aviEmbeddedUpdateSensorBattery name v data
  | .updateSensorStatus name v data => aviEmbeddedUpdateSensorStatus name v data
  | .updateSensorRaw name v data => aviEmbeddedUpdateSensorRaw name v data

/-! ## Results -/

/-- A check that has passed, and what is made of its result. -/
theorem bind_eq_ok_iff {α β : Type} {x : Except Int32 α} {f : α → Except Int32 β} {b : β} :
    x >>= f = .ok b ↔ ∃ a, x = .ok a ∧ f a = .ok b := by
  cases x with
  | error e =>
    constructor
    · intro h
      cases h
    · rintro ⟨a, ha, -⟩
      cases ha
  | ok a =>
    constructor
    · intro h
      exact ⟨a, rfl, h⟩
    · rintro ⟨a', ha, h⟩
      cases ha
      exact h

/-! ## Error codes -/

/-- A check that fails says that the arguments are invalid. -/
def Rejects {α : Type} (x : Except Int32 α) : Prop := ∀ e, x = .error e → e = invalid

theorem rejects_ok {α : Type} (a : α) : Rejects (.ok a) := by
  intro e h
  cases h

/-- A check followed by another rejects what either rejects. -/
theorem rejects_bind {α β : Type} {x : Except Int32 α} {f : α → Except Int32 β}
    (hx : Rejects x) (hf : ∀ a, Rejects (f a)) : Rejects (x >>= f) := by
  intro e h
  cases x with
  | error e' =>
    cases h
    exact hx e rfl
  | ok a => exact hf a e h

theorem rejects_heaplessString (capacity : ℕ) (data : Bytes) :
    Rejects (heaplessString capacity data) := by
  intro e h
  unfold heaplessString at h
  split_ifs at h
  cases h
  rfl

theorem rejects_nonNull (data : CBytes) : Rejects (nonNull data) := by
  intro e h
  cases data with
  | none =>
    cases h
    rfl
  | some data => cases h

theorem rejects_buffer (size : ℕ) (data : Bytes) : Rejects (buffer size data) := by
  intro e h
  unfold buffer at h
  split_ifs at h
  cases h
  rfl

theorem rejects_pressType (press : UInt8) : Rejects (pressType press) := by
  intro e h
  unfold pressType at h
  split at h <;> cases h
  rfl

/-- The sensor calls reject with a negative code as well. -/
theorem rejects_updateSensor (command : String → String → AviCommand) (sensorName : CBytes)
    (customData : Bytes) : Rejects (updateSensor command sensorName customData) := by
  apply rejects_bind (rejects_nonNull _)
  intro name
  apply rejects_bind (rejects_heaplessString _ _)
  intro name
  apply rejects_bind (rejects_heaplessString _ _)
  intro data
  exact rejects_ok _

/-- A call that is refused for its arguments returns `-1`. -/
theorem rejects_command (deviceId : UInt64) (call : ApiCall) : Rejects (call.command deviceId) := by
  cases call with
  | connect => exact rejects_ok _
  | closeStream id => exact rejects_ok _
  | subscribe topic | unsubscribe topic =>
    apply rejects_bind (rejects_nonNull _)
    intro topic
    apply rejects_bind (rejects_heaplessString _ _)
    intro topic
    exact rejects_ok _
  | publish topic data =>
    -- null pointers, then the size, then the text
    apply rejects_bind (rejects_nonNull _)
    intro topic
    apply rejects_bind (rejects_nonNull _)
    intro data
    apply rejects_bind (rejects_buffer _ _)
    intro data
    apply rejects_bind (rejects_heaplessString _ _)
    intro topic
    exact rejects_ok _
  | startStream id target reason =>
    -- null pointers, then both texts
    apply rejects_bind (rejects_nonNull _)
    intro target
    apply rejects_bind (rejects_nonNull _)
    intro reason
    apply rejects_bind (rejects_heaplessString _ _)
    intro target
    apply rejects_bind (rejects_heaplessString _ _)
    intro reason
    exact rejects_ok _
  | sendStreamData id data =>
    apply rejects_bind (rejects_nonNull _)
    intro data
    apply rejects_bind (rejects_buffer _ _)
    intro data
    exact rejects_ok _
  | buttonPressed id press data =>
    apply rejects_bind (rejects_pressType _)
    intro press
    apply rejects_bind (rejects_heaplessString _ _)
    intro data
    exact rejects_ok _
  | _ => exact rejects_updateSensor _ _ _

end AviNet.Embedded
