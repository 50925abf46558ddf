import AviNet.Embedded.CApi
import AviNet.Embedded.Client

/-!
# Embedded.Packets — from the command queue to the gateway

A command waits in the queue with its texts in strings of fixed capacity and its
data in an array with a length. `process_single_command` makes one packet of it,
which the uplink task of the bridge receives into a buffer of its own and reads.

* `exists_queued`: what the API makes of a call fits into the queue;
* `message_fits`: no command needs more than `MAX_PACKET_SIZE` bytes;
* `command_arrives`: the gateway reads the message that the command stands for.
-/

namespace AviNet.Embedded

/-! ## Commands in the queue -/

/-- A `heapless::String` of this capacity. -/
structure HeaplessString (capacity : ℕ) where
  text : String
  fits : text.utf8ByteSize ≤ capacity

/-- An array of this size and how much of it is used. -/
structure FixedBuffer (size : ℕ) where
  array : Bytes
  length_array : array.length = size
  len : ℕ
  len_le : len ≤ size

namespace FixedBuffer

variable {size : ℕ}

/-- `&data[..len]`. -/
def slice (b : FixedBuffer size) : Bytes := b.array.take b.len

/-- The data copied to the front of an array of zeros. -/
def copyFrom (data : Bytes) (h : data.length ≤ size) : FixedBuffer size where
  array := data ++ List.replicate (size - data.length) 0
  length_array := by
    rw [List.length_append, List.length_replicate]
    omega
  len := data.length
  len_le := h

theorem slice_copyFrom {data : Bytes} (h : data.length ≤ size) : (copyFrom data h).slice = data :=
  List.take_left

theorem length_slice (b : FixedBuffer size) : b.slice.length = b.len := by
  have hlen := b.len_le
  rw [slice, List.length_take, b.length_array]
  omega

end FixedBuffer

/-- `AviCommand` as it lies in the queue. -/
inductive QueuedCommand where
  | connect (deviceId : UInt64)
  | subscribe (topic : HeaplessString 64)
  | unsubscribe (topic : HeaplessString 64)
  | publish (topic : HeaplessString 64) (data : FixedBuffer 256)
  | startStream (localStreamId : UInt8) (targetPeerId reason : HeaplessString 64)
  | sendStreamData (localStreamId : UInt8) (data : FixedBuffer 512)
  | closeStream (localStreamId : UInt8)
  | buttonPress (buttonId : UInt8) (pressType : PressType) (customData : HeaplessString 32)
  | sensorTemperature (sensorName : HeaplessString 32) (value : F32)
      (customData : HeaplessString 32)
  | sensorHumidity (sensorName : HeaplessString 32) (value : F32) (customData : HeaplessString 32)
  | sensorBattery (sensorName : HeaplessString 32) (value : UInt8)
      (customData : HeaplessString 32)
  | sensorStatus (sensorName : HeaplessString 32) (value : Bool) (customData : HeaplessString 32)
  | sensorRaw (sensorName : HeaplessString 32) (value : Int32) (customData : HeaplessString 32)

namespace QueuedCommand

/-- The command with the part of each buffer that is used. -/
def command : QueuedCommand → AviCommand
  | .connect deviceId => .connect deviceId
  | .subscribe topic => .subscribe topic.text
  | .unsubscribe topic => .unsubscribe topic.text
  | .publish topic data => .publish topic.text data.slice
  | .startStream id target reason => .startStream id target.text reason.text
  | .sendStreamData id data => .sendStreamData id data.slice
  | .closeStream id => .closeStream id
  | .buttonPress id press data => .buttonPress id press data.text
  | .sensorTemperature name v data => .sensorTemperature name.text v data.text
  | .sensorHumidity name v data => .sensorHumidity name.text v data.text
  | .sensorBattery name v data => .sensorBattery name.text v data.text
  | .sensorStatus name v data => .sensorStatus name.text v data.text
  | .sensorRaw name v data => .sensorRaw name.text v data.text

end QueuedCommand

/-- The message that a command stands for, on a device with this id. -/
def AviCommand.message (deviceId : UInt64) : AviCommand → UplinkMessage
  | .connect _ => .hello deviceId
  | .subscribe topic => .subscribe topic
  | .unsubscribe topic => .unsubscribe topic
  | .publish topic data => .publish topic data
  | .startStream id target reason => .streamStart id target reason
  | .sendStreamData id data => .streamData id data
  | .closeStream id => .streamClose id
  | .buttonPress id press data => .buttonPress id press data
  | .sensorTemperature name v data => .sensorUpdate name (.temperature v) data
  | .sensorHumidity name v data => .sensorUpdate name (.humidity v) data
  | .sensorBattery name v data => .sensorUpdate name (.battery v) data
  | .sensorStatus name v data => .sensorUpdate name (.status v) data
  | .sensorRaw name v data => .sensorUpdate name (.raw v) data

/-! ## Processing -/

variable {S E : Type} (udp : UdpClient S E)

/-- The method that a command calls. -/
def QueuedCommand.method : QueuedCommand → Method S E Unit
  | .connect _ => AviEmbedded.connect udp
  | .subscribe topic => AviEmbedded.subscribe udp topic.text
  | .unsubscribe topic => AviEmbedded.unsubscribe udp topic.text
  | .publish topic data => AviEmbedded.publish udp topic.text data.slice
  | .startStream localStreamId targetPeerId reason =>
    AviEmbedded.startStream udp localStreamId targetPeerId.text reason.text
  | .sendStreamData localStreamId data => AviEmbedded.sendAudio udp localStreamId data.slice
  | .closeStream localStreamId => AviEmbedded.closeStream udp localStreamId
  | .buttonPress buttonId pressType customData =>
    AviEmbedded.buttonPressed udp buttonId pressType customData.text
  | .sensorTemperature sensorName value customData =>
    AviEmbedded.updateSensor udp sensorName.text (.temperature value) customData.text
  | .sensorHumidity sensorName value customData =>
    AviEmbedded.updateSensor udp sensorName.text (.humidity value) customData.text
  | .sensorBattery sensorName value customData =>
    AviEmbedded.updateSensor udp sensorName.text (.battery value) customData.text
  | .sensorStatus sensorName value customData =>
    AviEmbedded.updateSensor udp sensorName.text (.status value) customData.text
  | .sensorRaw sensorName value customData =>
    AviEmbedded.updateSensor udp sensorName.text (.raw value) customData.text

/-- `process_single_command`: the result of the method is dropped. -/
def processSingleCommand (cmd : QueuedCommand) (avi : AviEmbedded S) : AviEmbedded S :=
  avi.after (cmd.method udp)

/-- `recv_from` of the uplink task: what of a datagram fits into `buf`. -/
def recvFrom (datagram : Bytes) : Bytes := datagram.take maxPacketSize

/-! ## Commands of the API -/

/-- A text that was copied fits into its capacity. -/
theorem fits_heaplessString {capacity : ℕ} {data : Bytes} {s : String}
    (h : heaplessString capacity data = .ok s) : s.utf8ByteSize ≤ capacity := by
  unfold heaplessString at h
  split_ifs at h with hfits
  cases h
  exact hfits

theorem length_buffer {size : ℕ} {data data' : Bytes} (h : buffer size data = .ok data') :
    data'.length ≤ size := by
  unfold buffer at h
  split_ifs at h with hlen
  cases h
  exact hlen

/-- A sensor call that makes a command has two texts that fit. -/
theorem of_updateSensor {command : String → String → AviCommand} {sensorName : CBytes}
    {customData : Bytes} {cmd : AviCommand}
    (h : updateSensor command sensorName customData = .ok cmd) :
    ∃ name data : HeaplessString 32, cmd = command name.text data.text := by
  obtain ⟨_, -, h⟩ := bind_eq_ok_iff.mp h
  obtain ⟨name, hname, h⟩ := bind_eq_ok_iff.mp h
  obtain ⟨data, hdata, h⟩ := bind_eq_ok_iff.mp h
  cases h
  exact ⟨⟨name, fits_heaplessString hname⟩, ⟨data, fits_heaplessString hdata⟩, rfl⟩

/-- What the API makes of a call fits into the queue. -/
theorem exists_queued {deviceId : UInt64} {call : ApiCall} {cmd : AviCommand}
    (h : call.command deviceId = .ok cmd) : ∃ queued : QueuedCommand, queued.command = cmd := by
  cases call with
  | connect =>
    cases h
    exact ⟨.connect deviceId, rfl⟩
  | closeStream id =>
    cases h
    exact ⟨.closeStream id, rfl⟩
  | subscribe topic =>
    -- a topic that was copied fits its 64 bytes
    obtain ⟨_, -, h⟩ := bind_eq_ok_iff.mp h
    obtain ⟨topic, htopic, h⟩ := bind_eq_ok_iff.mp h
    cases h
    exact ⟨.subscribe ⟨topic, fits_heaplessString htopic⟩, rfl⟩
  | unsubscribe topic =>
    obtain ⟨_, -, h⟩ := bind_eq_ok_iff.mp h
    obtain ⟨topic, htopic, h⟩ := bind_eq_ok_iff.mp h
    cases h
    exact ⟨.unsubscribe ⟨topic, fits_heaplessString htopic⟩, rfl⟩
  | publish topic data =>
    -- the data was measured before it was copied
    obtain ⟨_, -, h⟩ := bind_eq_ok_iff.mp h
    obtain ⟨_, -, h⟩ := bind_eq_ok_iff.mp h
    obtain ⟨data, hdata, h⟩ := bind_eq_ok_iff.mp h
    obtain ⟨topic, htopic, h⟩ := bind_eq_ok_iff.mp h
    cases h
    have hlen := length_buffer hdata
    refine ⟨.publish ⟨topic, fits_heaplessString htopic⟩ (.copyFrom data hlen), ?_⟩
    rw [QueuedCommand.command, FixedBuffer.slice_copyFrom]
  | startStream id target reason =>
    obtain ⟨_, -, h⟩ := bind_eq_ok_iff.mp h
    obtain ⟨_, -, h⟩ := bind_eq_ok_iff.mp h
    obtain ⟨target, htarget, h⟩ := bind_eq_ok_iff.mp h
    obtain ⟨reason, hreason, h⟩ := bind_eq_ok_iff.mp h
    cases h
    exact ⟨.startStream id ⟨target, fits_heaplessString htarget⟩
      ⟨reason, fits_heaplessString hreason⟩, rfl⟩
  | sendStreamData id data =>
    obtain ⟨_, -, h⟩ := bind_eq_ok_iff.mp h
    obtain ⟨data, hdata, h⟩ := bind_eq_ok_iff.mp h
    cases h
    have hlen := length_buffer hdata
    refine ⟨.sendStreamData id (.copyFrom data hlen), ?_⟩
    rw [QueuedCommand.command, FixedBuffer.slice_copyFrom]
  | buttonPressed id press data =>
    obtain ⟨press, -, h⟩ := bind_eq_ok_iff.mp h
    obtain ⟨data, hdata, h⟩ := bind_eq_ok_iff.mp h
    cases h
    exact ⟨.buttonPress id press ⟨data, fits_heaplessString hdata⟩, rfl⟩
  | updateSensorTemperature name v data =>
    -- the five sensor calls
    obtain ⟨name, data, rfl⟩ := of_updateSensor h
    exact ⟨.sensorTemperature name v data, rfl⟩
  | updateSensorHumidity name v data =>
    obtain ⟨name, data, rfl⟩ := of_updateSensor h
    exact ⟨.sensorHumidity name v data, rfl⟩
  | updateSensorBattery name v data =>
    obtain ⟨name, data, rfl⟩ := of_updateSensor h
    exact ⟨.sensorBattery name v data, rfl⟩
  | updateSensorStatus name v data =>
    obtain ⟨name, data, rfl⟩ := of_updateSensor h
    exact ⟨.sensorStatus name v data, rfl⟩
  | updateSensorRaw name v data =>
    obtain ⟨name, data, rfl⟩ := of_updateSensor h
    exact ⟨.sensorRaw name v data, rfl⟩

/-! ## Packets -/

theorem length_encodeText_le {capacity : ℕ} (s : HeaplessString capacity) :
    (encodeText s.text).length ≤ 10 + capacity := by
  have hfits := s.fits
  have hvarint := length_varint_le s.text.utf8ByteSize
  rw [length_encodeText]
  omega

theorem length_encodeBytes_le {size : ℕ} (b : FixedBuffer size) :
    (encodeBytes b.slice).length ≤ 10 + size := by
  have hlen := b.len_le
  have hvarint := length_varint_le b.len
  rw [length_encodeBytes, b.length_slice]
  omega

/-- A sensor update fits into a packet. -/
theorem length_sensorUpdate_le (name data : HeaplessString 32) (v : SensorValue) :
    (UplinkMessage.sensorUpdate name.text v data.text).encode.length ≤ maxPacketSize := by
  have htag := length_varint_le 8
  have hname := length_encodeText_le name
  have hvalue := v.length_encode_le
  have hdata := length_encodeText_le data
  simp only [UplinkMessage.encode, List.length_append]
  unfold maxPacketSize
  omega

/-- No command needs more than `MAX_PACKET_SIZE` bytes. -/
theorem message_fits (deviceId : UInt64) (cmd : QueuedCommand) :
    (cmd.command.message deviceId).encode.length ≤ maxPacketSize := by
  cases cmd with
  | connect id =>
    -- tag and numbers take ten bytes at most, texts and data what fits into them
    have htag := length_varint_le 0
    have hid := length_varint_le deviceId.toNat
    simp only [QueuedCommand.command, AviCommand.message, UplinkMessage.encode,
      List.length_append]
    unfold maxPacketSize
    omega
  | subscribe topic =>
    have htag := length_varint_le 1
    have htopic := length_encodeText_le topic
    simp only [QueuedCommand.command, AviCommand.message, UplinkMessage.encode,
      List.length_append]
    unfold maxPacketSize
    omega
  | unsubscribe topic =>
    have htag := length_varint_le 2
    have htopic := length_encodeText_le topic
    simp only [QueuedCommand.command, AviCommand.message, UplinkMessage.encode,
      List.length_append]
    unfold maxPacketSize
    omega
  | publish topic data =>
    have htag := length_varint_le 3
    have htopic := length_encodeText_le topic
    have hdata := length_encodeBytes_le data
    simp only [QueuedCommand.command, AviCommand.message, UplinkMessage.encode,
      List.length_append]
    unfold maxPacketSize
    omega
  | startStream id target reason =>
    have htag := length_varint_le 4
    have htarget := length_encodeText_le target
    have hreason := length_encodeText_le reason
    simp only [QueuedCommand.command, AviCommand.message, UplinkMessage.encode,
      List.length_append, List.length_singleton]
    unfold maxPacketSize
    omega
  | sendStreamData id data =>
    have htag := length_varint_le 5
    have hdata := length_encodeBytes_le data
    simp only [QueuedCommand.command, AviCommand.message, UplinkMessage.encode,
      List.length_append, List.length_singleton]
    unfold maxPacketSize
    omega
  | closeStream id =>
    have htag := length_varint_le 6
    simp only [QueuedCommand.command, AviCommand.message, UplinkMessage.encode,
      List.length_append, List.length_singleton]
    unfold maxPacketSize
    omega
  | buttonPress id press data =>
    have htag := length_varint_le 7
    have hpress := press.length_encode_le
    have hdata := length_encodeText_le data
    simp only [QueuedCommand.command, AviCommand.message, UplinkMessage.encode,
      List.length_append, List.length_singleton]
    unfold maxPacketSize
    omega
  -- the sensor updates
  | sensorTemperature name v data => exact length_sensorUpdate_le name data (.temperature v)
  | sensorHumidity name v data => exact length_sensorUpdate_le name data (.humidity v)
  | sensorBattery name v data => exact length_sensorUpdate_le name data (.battery v)
  | sensorStatus name v data => exact length_sensorUpdate_le name data (.status v)
  | sensorRaw name v data => exact length_sensorUpdate_le name data (.raw v)

/-- A command hands the packet of its message to the socket and nothing else. -/
theorem processSingleCommand_sent {udp : UdpClient S E} {avi : AviEmbedded S}
    (hscratch : maxPacketSize ≤ avi.scratchLen) (cmd : QueuedCommand) :
    (processSingleCommand udp cmd avi).sent =
      avi.sent ++ [(cmd.command.message avi.deviceId).encode] := by
  have hfits := (message_fits avi.deviceId cmd).trans hscratch
  cases cmd with
  | connect id => exact AviEmbedded.connect_sent hfits
  | _ => exact AviEmbedded.sendPacket_sent udp hfits

/-- The gateway reads the message that a command stands for. -/
theorem command_arrives (udp : UdpClient S E) (avi : AviEmbedded S) (cmd : QueuedCommand)
    (hscratch : maxPacketSize ≤ avi.scratchLen) :
    ∃ datagram, (processSingleCommand udp cmd avi).sent = avi.sent ++ [datagram] ∧
      datagram.length ≤ maxPacketSize ∧
      UplinkMessage.fromBytes (recvFrom datagram) = some (cmd.command.message avi.deviceId) := by
  have hfits := message_fits avi.deviceId cmd
  refine ⟨_, processSingleCommand_sent hscratch cmd, hfits, ?_⟩
  rw [recvFrom, List.take_of_length_le hfits]
  exact UplinkMessage.fromBytes_encode (lt_of_le_of_lt hfits (by decide))

/-- A socket on which nothing is received. -/
def silent : UdpClient Unit Empty where
  send _ s := (.ok (), s)
  receive _ s := (.ok [], s)
  receive_le size s packet h := by
    cases h
    exact Nat.zero_le size

theorem command_arrives_publish :
    ∃ datagram, (processSingleCommand silent
        (.publish ⟨"kitchen", by decide⟩ (.copyFrom [1, 2, 3] (by decide)))
        ⟨(), 7, 2048, true, [], []⟩).sent = [datagram] ∧
      datagram.length ≤ maxPacketSize ∧
      UplinkMessage.fromBytes (recvFrom datagram) = some (.publish "kitchen" [1, 2, 3]) :=
  command_arrives silent ⟨(), 7, 2048, true, [], []⟩
    (.publish ⟨"kitchen", by decide⟩ (.copyFrom [1, 2, 3] (by decide))) (by decide)

end AviNet.Embedded
