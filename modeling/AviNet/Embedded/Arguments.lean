import AviNet.Embedded.Instances
import AviNet.Wire

/-!
# Embedded.Arguments — what the C API makes of the bytes it is given

A text that is not valid UTF-8 becomes the empty text and is sent on, where a
text that is too long is refused.

* `queued_as_passed_iff`: a call queues what it was given or refuses, exactly if
  the texts of every call that is let through are valid UTF-8;
* `subscribed_to_nothing`: a topic of one byte that is not UTF-8.
-/

namespace AviNet.Embedded

/-! ## Texts -/

/-- The bytes are valid UTF-8. -/
def Utf8 (data : Bytes) : Prop := (String.fromUTF8? ⟨data.toArray⟩).isSome

/-- The bytes of a text. -/
def bytesOf (text : String) : Bytes := text.toUTF8.toList

/-- The check of a text, which sees only texts that are valid. -/
def TextFits (capacity : ℕ) (data : Bytes) : Prop := Utf8 data → data.length ≤ capacity

theorem length_bytesOf (text : String) : (bytesOf text).length = text.utf8ByteSize :=
  length_toUTF8 text

/-- Valid bytes are the bytes of the text they decode to. -/
theorem bytesOf_fromUtf8 {data : Bytes} (h : Utf8 data) : bytesOf (fromUtf8 data) = data := by
  obtain ⟨text, htext⟩ := Option.isSome_iff_exists.mp h
  have hread : fromUtf8 data = text := by
    unfold fromUtf8
    rw [htext]
    rfl
  rw [hread]
  exact toUTF8_fromUTF8 htext

theorem utf8_bytesOf (text : String) : Utf8 (bytesOf text) := by
  unfold Utf8 bytesOf
  rw [fromUTF8_toUTF8]
  rfl

/-- Bytes that are not valid UTF-8 become the empty text, as `unwrap_or` has it. -/
theorem fromUtf8_of_not_utf8 {data : Bytes} (h : ¬ Utf8 data) : fromUtf8 data = "" := by
  have hnone : String.fromUTF8? ⟨data.toArray⟩ = none := Option.not_isSome_iff_eq_none.mp h
  unfold fromUtf8
  rw [hnone]
  rfl

/-- The text that is made of the bytes is these bytes exactly if they are valid. -/
theorem eq_bytesOf_fromUtf8_iff (data : Bytes) : data = bytesOf (fromUtf8 data) ↔ Utf8 data := by
  constructor
  · intro h
    rw [h]
    exact utf8_bytesOf _
  · intro h
    exact (bytesOf_fromUtf8 h).symm

/-- A text is copied exactly if it fits, valid or not. -/
theorem heaplessString_eq_ok_iff {capacity : ℕ} {data : Bytes} {text : String} :
    heaplessString capacity data = .ok text ↔ TextFits capacity data ∧ text = fromUtf8 data := by
  have hfits : (fromUtf8 data).utf8ByteSize ≤ capacity ↔ TextFits capacity data := by
    by_cases hvalid : Utf8 data
    · rw [← length_bytesOf, bytesOf_fromUtf8 hvalid]
      exact ⟨fun h _ => h, fun h => h hvalid⟩
    · rw [fromUtf8_of_not_utf8 hvalid]
      exact iff_of_true (Nat.zero_le capacity) fun h => absurd h hvalid
  unfold heaplessString
  split_ifs with hroom
  · constructor
    · intro h
      cases h
      exact ⟨hfits.mp hroom, rfl⟩
    · rintro ⟨-, rfl⟩
      rfl
  · constructor
    · intro h
      cases h
    · rintro ⟨h, -⟩
      exact absurd (hfits.mpr h) hroom

/-- The case of the 32 bytes of a sensor's or a button's text. -/
theorem charToString_eq_ok_iff {data : Bytes} {text : String} :
    charToString data = .ok text ↔ TextFits 32 data ∧ text = fromUtf8 data :=
  heaplessString_eq_ok_iff

/-- Only a null pointer is refused. -/
theorem nonNull_eq_ok_iff {pointer : CBytes} {data : Bytes} :
    nonNull pointer = .ok data ↔ pointer = some data := by
  cases pointer with
  | none => exact iff_of_false (fun h => by cases h) (fun h => by cases h)
  | some bytes =>
    constructor
    · intro h
      cases h
      rfl
    · intro h
      cases h
      rfl

/-- Bytes are copied exactly if there are not too many, and as they are. -/
theorem buffer_eq_ok_iff {size : ℕ} {data sent : Bytes} :
    buffer size data = .ok sent ↔ data.length ≤ size ∧ sent = data := by
  unfold buffer
  split_ifs with hsize
  · constructor
    · intro h
      cases h
      exact ⟨hsize, rfl⟩
    · rintro ⟨-, rfl⟩
      rfl
  · constructor
    · intro h
      cases h
    · rintro ⟨h, -⟩
      exact absurd h hsize

/-! ## Calls -/

/-- The texts that a call is given. -/
def ApiCall.texts : ApiCall → List Bytes
  | .connect | .sendStreamData _ _ | .closeStream _ => []
  | .subscribe topic | .unsubscribe topic | .publish topic _ => topic.toList
  | .startStream _ target reason => target.toList ++ reason.toList
  | .buttonPressed _ _ data => [data]
  | .updateSensorTemperature name _ data | .updateSensorHumidity name _ data
  | .updateSensorBattery name _ data | .updateSensorStatus name _ data
  | .updateSensorRaw name _ data => name.toList ++ [data]

/-- No check of the call refuses its arguments. -/
def ApiCall.Acceptable : ApiCall → Prop
  | .connect | .closeStream _ => True
  | .subscribe topic | .unsubscribe topic => ∃ t ∈ topic, TextFits 64 t
  | .publish topic data => (∃ t ∈ topic, TextFits 64 t) ∧ ∃ d ∈ data, d.length ≤ 256
  | .startStream _ target reason =>
    (∃ t ∈ target, TextFits 64 t) ∧ ∃ r ∈ reason, TextFits 64 r
  | .sendStreamData _ data => ∃ d ∈ data, d.length ≤ 512
  | .buttonPressed _ press data => press ≤ 2 ∧ TextFits 32 data
  | .updateSensorTemperature name _ data | .updateSensorHumidity name _ data
  | .updateSensorBattery name _ data | .updateSensorStatus name _ data
  | .updateSensorRaw name _ data => (∃ n ∈ name, TextFits 32 n) ∧ TextFits 32 data

/-- The command is the one that was asked for, with the bytes that were passed. -/
def ApiCall.Carried : ApiCall → AviCommand → Prop
  | .connect, .connect _ => True
  | .subscribe topic, .subscribe t => topic = some (bytesOf t)
  | .unsubscribe topic, .unsubscribe t => topic = some (bytesOf t)
  | .publish topic data, .publish t d => topic = some (bytesOf t) ∧ data = some d
  | .startStream id target reason, .startStream i t r =>
    id = i ∧ target = some (bytesOf t) ∧ reason = some (bytesOf r)
  | .sendStreamData id data, .sendStreamData i d => id = i ∧ data = some d
  | .closeStream id, .closeStream i => id = i
  | .buttonPressed id press data, .buttonPress i p d =>
    id = i ∧ pressType press = .ok p ∧ data = bytesOf d
  | .updateSensorTemperature name v data, .sensorTemperature n x d =>
    v = x ∧ name = some (bytesOf n) ∧ data = bytesOf d
  | .updateSensorHumidity name v data, .sensorHumidity n x d =>
    v = x ∧ name = some (bytesOf n) ∧ data = bytesOf d
  | .updateSensorBattery name v data, .sensorBattery n x d =>
    v = x ∧ name = some (bytesOf n) ∧ data = bytesOf d
  | .updateSensorStatus name v data, .sensorStatus n x d =>
    v = x ∧ name = some (bytesOf n) ∧ data = bytesOf d
  | .updateSensorRaw name v data, .sensorRaw n x d =>
    v = x ∧ name = some (bytesOf n) ∧ data = bytesOf d
  | _, _ => False

/-- The checks of a call with one text. -/
theorem topic_eq_ok_iff {command : String → AviCommand} {topic : CBytes} {cmd : AviCommand} :
    (do let text ← heaplessString 64 (← nonNull topic)
        return command text) = .ok cmd ↔
      ∃ t, topic = some t ∧ TextFits 64 t ∧ cmd = command (fromUtf8 t) := by
  simp only [bind_eq_ok_iff, nonNull_eq_ok_iff, heaplessString_eq_ok_iff]
  constructor
  · rintro ⟨t, rfl, text, ⟨hfits, rfl⟩, h⟩
    cases h
    exact ⟨t, rfl, hfits, rfl⟩
  · rintro ⟨t, rfl, hfits, rfl⟩
    exact ⟨t, rfl, _, ⟨hfits, rfl⟩, rfl⟩

/-- When `avi_embedded_publish` makes a command, and which. -/
theorem aviEmbeddedPublish_eq_ok_iff {topic data : CBytes} {cmd : AviCommand} :
    aviEmbeddedPublish topic data = .ok cmd ↔
      ∃ t d, topic = some t ∧ data = some d ∧ d.length ≤ 256 ∧ TextFits 64 t ∧
        cmd = .publish (fromUtf8 t) d := by
  simp only [aviEmbeddedPublish, bind_eq_ok_iff, nonNull_eq_ok_iff, buffer_eq_ok_iff,
    heaplessString_eq_ok_iff]
  constructor
  · rintro ⟨t, rfl, d, rfl, _, ⟨hsize, rfl⟩, text, ⟨hfits, rfl⟩, h⟩
    cases h
    exact ⟨t, _, rfl, rfl, hsize, hfits, rfl⟩
  · rintro ⟨t, d, rfl, rfl, hsize, hfits, rfl⟩
    exact ⟨t, rfl, d, rfl, d, ⟨hsize, rfl⟩, _, ⟨hfits, rfl⟩, rfl⟩

/-- When `avi_embedded_start_stream` makes a command, and which. -/
theorem aviEmbeddedStartStream_eq_ok_iff {id : UInt8} {target reason : CBytes}
    {cmd : AviCommand} :
    aviEmbeddedStartStream id target reason = .ok cmd ↔
      ∃ t r, target = some t ∧ reason = some r ∧ TextFits 64 t ∧ TextFits 64 r ∧
        cmd = .startStream id (fromUtf8 t) (fromUtf8 r) := by
  simp only [aviEmbeddedStartStream, bind_eq_ok_iff, nonNull_eq_ok_iff, heaplessString_eq_ok_iff]
  constructor
  · rintro ⟨t, rfl, r, rfl, _, ⟨htarget, rfl⟩, _, ⟨hreason, rfl⟩, h⟩
    cases h
    exact ⟨t, r, rfl, rfl, htarget, hreason, rfl⟩
  · rintro ⟨t, r, rfl, rfl, htarget, hreason, rfl⟩
    exact ⟨t, rfl, r, rfl, _, ⟨htarget, rfl⟩, _, ⟨hreason, rfl⟩, rfl⟩

/-- When `avi_embedded_send_stream_data` makes a command, and which. -/
theorem aviEmbeddedSendStreamData_eq_ok_iff {id : UInt8} {data : CBytes} {cmd : AviCommand} :
    aviEmbeddedSendStreamData id data = .ok cmd ↔
      ∃ d, data = some d ∧ d.length ≤ 512 ∧ cmd = .sendStreamData id d := by
  simp only [aviEmbeddedSendStreamData, bind_eq_ok_iff, nonNull_eq_ok_iff, buffer_eq_ok_iff]
  constructor
  · rintro ⟨d, rfl, _, ⟨hsize, rfl⟩, h⟩
    cases h
    exact ⟨_, rfl, hsize, rfl⟩
  · rintro ⟨d, rfl, hsize, rfl⟩
    exact ⟨d, rfl, d, ⟨hsize, rfl⟩, rfl⟩

/-- When `avi_embedded_button_pressed` makes a command, and which. -/
theorem aviEmbeddedButtonPressed_eq_ok_iff {id press : UInt8} {data : Bytes} {cmd : AviCommand} :
    aviEmbeddedButtonPressed id press data = .ok cmd ↔
      ∃ p, pressType press = .ok p ∧ TextFits 32 data ∧
        cmd = .buttonPress id p (fromUtf8 data) := by
  simp only [aviEmbeddedButtonPressed, bind_eq_ok_iff, charToString_eq_ok_iff]
  constructor
  · rintro ⟨p, hp, _, ⟨hfits, rfl⟩, h⟩
    cases h
    exact ⟨p, hp, hfits, rfl⟩
  · rintro ⟨p, hp, hfits, rfl⟩
    exact ⟨p, hp, _, ⟨hfits, rfl⟩, rfl⟩

/-- When one of the three sensor calls makes a command, and which. -/
theorem updateSensor_eq_ok_iff {command : String → String → AviCommand} {name : CBytes}
    {data : Bytes} {cmd : AviCommand} :
    updateSensor command name data = .ok cmd ↔
      ∃ n, name = some n ∧ TextFits 32 n ∧ TextFits 32 data ∧
        cmd = command (fromUtf8 n) (fromUtf8 data) := by
  simp only [updateSensor, bind_eq_ok_iff, nonNull_eq_ok_iff, charToString_eq_ok_iff]
  constructor
  · rintro ⟨n, rfl, _, ⟨hname, rfl⟩, _, ⟨hdata, rfl⟩, h⟩
    cases h
    exact ⟨n, rfl, hname, hdata, rfl⟩
  · rintro ⟨n, rfl, hname, hdata, rfl⟩
    exact ⟨n, rfl, _, ⟨hname, rfl⟩, _, ⟨hdata, rfl⟩, rfl⟩

/-- The press types are 0, 1 and 2. -/
theorem exists_pressType_iff (press : UInt8) : (∃ p, pressType press = .ok p) ↔ press ≤ 2 := by
  constructor
  · rintro ⟨p, hp⟩
    unfold pressType at hp
    split at hp <;> first | decide | cases hp
  · intro h
    have hnat : press.toNat ≤ 2 := h
    unfold pressType
    split
    · exact ⟨_, rfl⟩
    · exact ⟨_, rfl⟩
    · exact ⟨_, rfl⟩
    · next h0 h1 h2 =>
      -- a number that is none of the three is larger than they are
      have hne0 : press.toNat ≠ 0 := fun h => h0 (UInt8.toNat_inj.mp h)
      have hne1 : press.toNat ≠ 1 := fun h => h1 (UInt8.toNat_inj.mp h)
      have hne2 : press.toNat ≠ 2 := fun h => h2 (UInt8.toNat_inj.mp h)
      omega

/-- A call sends a command exactly when no check refuses its arguments. -/
theorem exists_command_iff (deviceId : UInt64) (c : ApiCall) :
    (∃ cmd, c.command deviceId = .ok cmd) ↔ c.Acceptable := by
  -- each call checks what its command needs
  cases c with
  | connect => exact iff_of_true ⟨_, rfl⟩ True.intro
  | closeStream id => exact iff_of_true ⟨_, rfl⟩ True.intro
  | subscribe topic | unsubscribe topic =>
    constructor
    · rintro ⟨cmd, h⟩
      obtain ⟨t, ht, hfits, -⟩ := topic_eq_ok_iff.mp h
      exact ⟨t, ht, hfits⟩
    · rintro ⟨t, ht, hfits⟩
      exact ⟨_, topic_eq_ok_iff.mpr ⟨t, ht, hfits, rfl⟩⟩
  | publish topic data =>
    -- the data is checked before the topic is copied
    simp only [ApiCall.command, aviEmbeddedPublish_eq_ok_iff]
    constructor
    · rintro ⟨cmd, t, d, ht, hd, hsize, hfits, -⟩
      exact ⟨⟨t, ht, hfits⟩, d, hd, hsize⟩
    · rintro ⟨⟨t, ht, hfits⟩, d, hd, hsize⟩
      exact ⟨_, t, d, ht, hd, hsize, hfits, rfl⟩
  | startStream id target reason =>
    simp only [ApiCall.command, aviEmbeddedStartStream_eq_ok_iff]
    constructor
    · rintro ⟨cmd, t, r, ht, hr, htarget, hreason, -⟩
      exact ⟨⟨t, ht, htarget⟩, r, hr, hreason⟩
    · rintro ⟨⟨t, ht, htarget⟩, r, hr, hreason⟩
      exact ⟨_, t, r, ht, hr, htarget, hreason, rfl⟩
  | sendStreamData id data =>
    simp only [ApiCall.command, aviEmbeddedSendStreamData_eq_ok_iff]
    constructor
    · rintro ⟨cmd, d, hd, hsize, -⟩
      exact ⟨d, hd, hsize⟩
    · rintro ⟨d, hd, hsize⟩
      exact ⟨_, d, hd, hsize, rfl⟩
  | buttonPressed id press data =>
    simp only [ApiCall.command, aviEmbeddedButtonPressed_eq_ok_iff]
    constructor
    · rintro ⟨cmd, p, hp, hfits, -⟩
      exact ⟨(exists_pressType_iff press).mp ⟨p, hp⟩, hfits⟩
    · rintro ⟨hpress, hfits⟩
      obtain ⟨p, hp⟩ := (exists_pressType_iff press).mpr hpress
      exact ⟨_, p, hp, hfits, rfl⟩
  -- the sensor calls differ in the value only
  | updateSensorTemperature name v data | updateSensorHumidity name v data
  | updateSensorBattery name v data | updateSensorStatus name v data
  | updateSensorRaw name v data =>
    constructor
    · rintro ⟨cmd, h⟩
      obtain ⟨n, hn, hname, hdata, -⟩ := updateSensor_eq_ok_iff.mp h
      exact ⟨⟨n, hn, hname⟩, hdata⟩
    · rintro ⟨⟨n, hn, hname⟩, hdata⟩
      exact ⟨_, updateSensor_eq_ok_iff.mpr ⟨n, hn, hname, hdata, rfl⟩⟩

/-- A command that is sent carries what was passed exactly if the texts are valid. -/
theorem carried_iff {deviceId : UInt64} {c : ApiCall} {cmd : AviCommand}
    (h : c.command deviceId = .ok cmd) : c.Carried cmd ↔ ∀ data ∈ c.texts, Utf8 data := by
  cases c with
  | connect | closeStream id =>
    cases h
    simp [ApiCall.Carried, ApiCall.texts]
  | subscribe topic | unsubscribe topic =>
    obtain ⟨t, rfl, -, rfl⟩ := topic_eq_ok_iff.mp h
    simp [ApiCall.Carried, ApiCall.texts, eq_bytesOf_fromUtf8_iff]
  | publish topic data =>
    obtain ⟨t, d, rfl, rfl, -, -, rfl⟩ := aviEmbeddedPublish_eq_ok_iff.mp h
    simp [ApiCall.Carried, ApiCall.texts, eq_bytesOf_fromUtf8_iff]
  | startStream id target reason =>
    obtain ⟨t, r, rfl, rfl, -, -, rfl⟩ := aviEmbeddedStartStream_eq_ok_iff.mp h
    simp [ApiCall.Carried, ApiCall.texts, eq_bytesOf_fromUtf8_iff]
  | sendStreamData id data =>
    -- no text: the bytes are carried as they are
    obtain ⟨d, rfl, -, rfl⟩ := aviEmbeddedSendStreamData_eq_ok_iff.mp h
    simp [ApiCall.Carried, ApiCall.texts]
  | buttonPressed id press data =>
    obtain ⟨p, hp, -, rfl⟩ := aviEmbeddedButtonPressed_eq_ok_iff.mp h
    simp [ApiCall.Carried, ApiCall.texts, hp, eq_bytesOf_fromUtf8_iff]
  | updateSensorTemperature name v data | updateSensorHumidity name v data
  | updateSensorBattery name v data | updateSensorStatus name v data
  | updateSensorRaw name v data =>
    obtain ⟨n, rfl, -, -, rfl⟩ := updateSensor_eq_ok_iff.mp h
    simp [ApiCall.Carried, ApiCall.texts, eq_bytesOf_fromUtf8_iff]

/-! ## Answers -/

namespace Instances

/-- A call that answers `0` has queued one command, with what was passed, and one that
answers with an error has queued nothing. -/
def QueuesAsPassed (s : Instances) (w : ℕ) (c : ApiCall) : Prop :=
  ∀ t code, s.call (some w) c = some (t, code) →
    (code = 0 → ∃ cmd, c.Carried cmd ∧ t = { s with commands := s.commands.put w cmd }) ∧
    (code < 0 → t = s)

/-- A command that is sent is the one that was passed if its texts are valid, or it
finds no room. -/
theorem queuesAsPassed_of_command {s : Instances} {w : ℕ} {wrapper : AviWrapper}
    (hw : s.wrapper w = some wrapper) {c : ApiCall} {cmd : AviCommand}
    (hcmd : c.command wrapper.deviceId = .ok cmd) :
    s.QueuesAsPassed w c ↔ (s.commands.queue.length < queueSize → c.Carried cmd) := by
  have hcall : s.call (some w) c = some (s.sendCommand w cmd) := by
    unfold call
    dsimp only
    rw [hw, Option.map_some, hcmd]
  unfold QueuesAsPassed
  rw [hcall]
  by_cases hroom : s.commands.queue.length < queueSize
  · -- the command is queued
    have hsend : s.sendCommand w cmd = ({ s with commands := s.commands.put w cmd }, 0) :=
      if_pos hroom
    rw [hsend]
    constructor
    · intro h _
      obtain ⟨sent, hcarried, hput⟩ := (h _ 0 rfl).1 rfl
      have hsame : cmd = sent := SharedQueue.put_inj (congrArg Instances.commands hput)
      rw [hsame]
      exact hcarried
    · rintro h t code ⟨⟩
      refine ⟨fun _ => ⟨cmd, h hroom, rfl⟩, ?_⟩
      intro hcode
      exact absurd hcode (by decide)
  · -- the queue is full
    have hsend : s.sendCommand w cmd = (s, queueFull) := if_neg hroom
    rw [hsend]
    refine iff_of_true ?_ fun h => absurd h hroom
    rintro t code ⟨⟩
    refine ⟨?_, fun _ => rfl⟩
    intro hcode
    exact absurd hcode (by decide)

/-- **A call queues what it was given or refuses** exactly if the texts of a call that
no check refuses, and that finds room in the queue, are valid UTF-8. -/
theorem queued_as_passed_iff (s : Instances) (w : ℕ) (wrapper : AviWrapper)
    (hw : s.wrapper w = some wrapper) (c : ApiCall) :
    s.QueuesAsPassed w c ↔
      (c.Acceptable → s.commands.queue.length < queueSize → ∀ data ∈ c.texts, Utf8 data) := by
  cases hcmd : c.command wrapper.deviceId with
  | error e =>
    -- the call is refused and queues nothing
    have hrefused : ¬ c.Acceptable := by
      intro h
      obtain ⟨cmd, hok⟩ := (exists_command_iff wrapper.deviceId c).mpr h
      rw [hcmd] at hok
      cases hok
    have hinvalid : e = invalid := rejects_command _ c e hcmd
    have hcall : s.call (some w) c = some (s, e) := by
      unfold call
      dsimp only
      rw [hw, Option.map_some, hcmd]
    refine iff_of_true ?_ fun h => absurd h hrefused
    unfold QueuesAsPassed
    rw [hcall, hinvalid]
    rintro t code ⟨⟩
    refine ⟨?_, fun _ => rfl⟩
    intro hcode
    exact absurd hcode (by decide)
  | ok cmd =>
    have haccept : c.Acceptable := (exists_command_iff wrapper.deviceId c).mp ⟨cmd, hcmd⟩
    rw [queuesAsPassed_of_command hw hcmd, carried_iff hcmd]
    exact ⟨fun h _ => h, fun h => h haccept⟩

/-- A first instance. -/
def oneInstance : Instances :=
  { start.setWrapper 0 (some ⟨7, false⟩) with created := 1 }

theorem oneInstance_wrapper : oneInstance.wrapper 0 = some ⟨7, false⟩ := rfl

theorem queued_as_passed_iff_topic : oneInstance.QueuesAsPassed 0 (.subscribe (some [])) := by
  have hiff := queued_as_passed_iff oneInstance 0 ⟨7, false⟩ oneInstance_wrapper
    (.subscribe (some []))
  apply hiff.mpr
  intro _ _ data hdata
  have hnil : data = bytesOf "" := by
    rw [List.length_eq_zero_iff.mp (length_bytesOf "")]
    exact List.mem_singleton.mp hdata
  rw [hnil]
  exact utf8_bytesOf ""

/-- A topic that is not UTF-8 subscribes to the empty topic. -/
theorem subscribed_to_nothing : ¬ ∀ s, instances.Reachable s → ∀ w wrapper c,
    s.wrapper w = some wrapper → s.QueuesAsPassed w c := by
  intro h
  have hreach : instances.Reachable oneInstance := ⟨start, [.new 7], rfl, rfl⟩
  have hqueues := h oneInstance hreach 0 ⟨7, false⟩ (.subscribe (some [255]))
    oneInstance_wrapper
  have hsent : ApiCall.command 7 (.subscribe (some [255])) = .ok (.subscribe "") := by
    decide +kernel
  have hcarried := (queuesAsPassed_of_command oneInstance_wrapper hsent).mp hqueues
    (by decide)
  -- the empty text has no bytes
  have hbytes : [255] = bytesOf "" := Option.some.inj hcarried
  have hlength := congrArg List.length hbytes
  rw [length_bytesOf] at hlength
  exact absurd hlength (by decide)

end Instances

end AviNet.Embedded
