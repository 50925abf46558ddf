import AviNet.Serde

/-!
# Device.Capability — the descriptor of a device

`capability.rs`: the types, and the implementations serde derives for them. The
floats are opaque; what `serde_json` makes of them is a parameter.

* `*.readsBack`, `*.readsBack_iff`: each part is read back if its floats are
  finite;
* `DeviceCapabilities.readsBack_iff`: and so is the descriptor.
-/

namespace AviNet

/-- `f32` and `f64`. -/
structure Floats where
  F32 : Type
  F64 : Type
  f32 : JsonFloat F32
  f64 : JsonFloat F64

/-- Rationals, with one value that is not finite. -/
def JsonFloat.exact : JsonFloat (Option Rat) where
  toNumber x := x.map .float
  ofNumber
    | .posInt n => some n.toNat
    | .negInt n => some n.toInt
    | .float q => some q
  ofNumber_toNumber x n h := by
    obtain ⟨q, hq, rfl⟩ := Option.map_eq_some_iff.mp h
    exact hq.symm

def Floats.exact : Floats := ⟨Option Rat, Option Rat, .exact, .exact⟩

/-! ## Compute -/

structure CpuInfo where
  cores : UInt8
  architecture : String
  features : List String
  nominalMhz : UInt32
  currentMhz : UInt32

structure GpuInfo (fl : Floats) where
  present : Bool
  gpuType : String
  tflops : fl.F32
  memoryMb : UInt32

structure NpuInfo (fl : Floats) where
  present : Bool
  tops : fl.F32
  supportedPrecisions : List String

structure RamInfo where
  totalMb : UInt32
  freeMb : UInt32
  ramType : String

structure StorageInfo where
  totalGb : UInt32
  freeGb : UInt32
  storageType : String
  throughputMbps : UInt32

structure ComputeCapability (fl : Floats) where
  cpu : CpuInfo
  gpu : Option (GpuInfo fl)
  npu : Option (NpuInfo fl)
  ram : RamInfo
  storage : StorageInfo

/-! ## Sensors and connectivity -/

inductive SensorCapability (fl : Floats) where
  | microphone (present : Bool) (arraySize : UInt8) (samplingRateKhz : UInt32)
      (maxSplDb : UInt8)
  | camera (present : Bool) (resolutionMp : UInt8) (fovDegrees : UInt16)
      (features : List String)
  | temperature (present : Bool) (accuracyCelsius : fl.F32) (currentValue : Option fl.F32)
  | imu (present : Bool) (axes : UInt8) (updateRateHz : UInt32)
  | lidar (present : Bool) (pointsPerSecond : UInt32) (maxRangeM : UInt8)
  | proximity (present : Bool) (maxRangeCm : UInt16) (accuracyCm : fl.F32)
  | ambientLight (present : Bool) (maxLux : UInt32) (currentValue : Option fl.F32)
  | pressure (present : Bool) (rangeHpa : fl.F32 × fl.F32) (accuracyHpa : fl.F32)
  | humidity (present : Bool) (accuracyPct : fl.F32) (currentValue : Option fl.F32)

inductive ConnectivityCapability where
  | wifi (present : Bool) (standards bands : List String) (mimoStreams : UInt8)
      (rssiDbm : Option Int8)
  | bluetooth (present : Bool) (version : String) (features : List String)
      (rssiDbm : Option Int8)
  | ethernet (present : Bool) (speedMbps : UInt32) (fullDuplex : Bool)
  | cellular (present : Bool) (technology : String) (signalStrengthDbm : Option Int8)
      (carrier : String)
  | uwb (present rangingSupported : Bool) (maxRangeM : UInt8)
  | zigbee (present : Bool) (protocolVersion networkRole : String)
  | thread (present : Bool) (networkRole : String)

/-! ## Power, health, display and audio -/

inductive PowerSource where
  | battery
  | wired
  | solar
  | hybrid

structure PowerCapability (fl : Floats) where
  source : PowerSource
  batteryPct : Option UInt8
  estimatedRuntimeMins : Option UInt32
  charging : Bool
  maxPowerDrawW : fl.F32
  currentPowerDrawW : fl.F32

structure HealthCapability where
  uptimeS : UInt64
  thermalHeadroomPct : UInt8
  cpuLoadPct : UInt8
  memoryPressurePct : UInt8
  networkStabilityPct : UInt8

structure DisplayCapability where
  present : Bool
  resolution : UInt16 × UInt16
  refreshRateHz : UInt8
  touchCapable : Bool
  brightnessNits : UInt16
  currentBrightnessPct : UInt8

structure AudioOutput where
  present : Bool
  channels : UInt8
  maxSplDb : UInt8
  frequencyResponse : UInt32 × UInt32

structure AudioCapability where
  output : Option AudioOutput
  spatialAudio : Bool
  formats : List String

/-! ## Descriptors -/

inductive ExtendedCapability (fl : Floats) where
  | boolean (b : Bool)
  | number (x : fl.F64)
  | text (s : String)
  | list (items : List String)
  | object (members : SortedMap String Value)

structure DeviceCapabilities (fl : Floats) where
  compute : Option (ComputeCapability fl)
  sensors : SortedMap String (SensorCapability fl)
  connectivity : SortedMap String ConnectivityCapability
  power : Option (PowerCapability fl)
  health : Option HealthCapability
  display : Option DisplayCapability
  audio : Option AudioCapability
  extended : SortedMap String (ExtendedCapability fl)

/-- `DeviceCapabilities::default`. -/
def DeviceCapabilities.default (fl : Floats) : DeviceCapabilities fl :=
  ⟨none, .empty, .empty, none, none, none, none, .empty⟩

/-! ## The derived implementations -/

section Codecs

open Codec

def CpuInfo.codec : Codec CpuInfo :=
  .struct
    (.field "cores" u8 <|
     .field "architecture" string <|
     .field "features" (list string) <|
     .field "nominal_mhz" u32 <|
     .field "current_mhz" u32 .nil)
    ⟨fun c => (c.cores, c.architecture, c.features, c.nominalMhz, c.currentMhz, ()),
     fun (cores, architecture, features, nominalMhz, currentMhz, _) =>
       ⟨cores, architecture, features, nominalMhz, currentMhz⟩,
     fun _ => rfl, fun _ => rfl⟩

def GpuInfo.codec (fl : Floats) : Codec (GpuInfo fl) :=
  .struct
    (.field "present" bool <|
     .field "type" string <|
     .field "tflops" (float fl.f32) <|
     .field "memory_mb" u32 .nil)
    ⟨fun g => (g.present, g.gpuType, g.tflops, g.memoryMb, ()),
     fun (present, gpuType, tflops, memoryMb, _) => ⟨present, gpuType, tflops, memoryMb⟩,
     fun _ => rfl, fun _ => rfl⟩

def NpuInfo.codec (fl : Floats) : Codec (NpuInfo fl) :=
  .struct
    (.field "present" bool <|
     .field "tops" (float fl.f32) <|
     .field "supported_precisions" (list string) .nil)
    ⟨fun n => (n.present, n.tops, n.supportedPrecisions, ()),
     fun (present, tops, supportedPrecisions, _) => ⟨present, tops, supportedPrecisions⟩,
     fun _ => rfl, fun _ => rfl⟩

def RamInfo.codec : Codec RamInfo :=
  .struct
    (.field "total_mb" u32 <|
     .field "free_mb" u32 <|
     .field "type" string .nil)
    ⟨fun r => (r.totalMb, r.freeMb, r.ramType, ()),
     fun (totalMb, freeMb, ramType, _) => ⟨totalMb, freeMb, ramType⟩,
     fun _ => rfl, fun _ => rfl⟩

def StorageInfo.codec : Codec StorageInfo :=
  .struct
    (.field "total_gb" u32 <|
     .field "free_gb" u32 <|
     .field "type" string <|
     .field "throughput_mbps" u32 .nil)
    ⟨fun s => (s.totalGb, s.freeGb, s.storageType, s.throughputMbps, ()),
     fun (totalGb, freeGb, storageType, throughputMbps, _) =>
       ⟨totalGb, freeGb, storageType, throughputMbps⟩,
     fun _ => rfl, fun _ => rfl⟩

def ComputeCapability.codec (fl : Floats) : Codec (ComputeCapability fl) :=
  .struct
    (.field "cpu" CpuInfo.codec <|
     .field "gpu" (option (GpuInfo.codec fl)) <|
     .field "npu" (option (NpuInfo.codec fl)) <|
     .field "ram" RamInfo.codec <|
     .field "storage" StorageInfo.codec .nil)
    ⟨fun c => (c.cpu, c.gpu, c.npu, c.ram, c.storage, ()),
     fun (cpu, gpu, npu, ram, storage, _) => ⟨cpu, gpu, npu, ram, storage⟩,
     fun _ => rfl, fun _ => rfl⟩

def SensorCapability.codec (fl : Floats) : Codec (SensorCapability fl) :=
  .tagged "type"
    (.variant "Microphone"
      (.field "present" bool <|
       .field "array_size" u8 <|
       .field "sampling_rate_khz" u32 <|
       .field "max_spl_db" u8 .nil) <|
     .variant "Camera"
      (.field "present" bool <|
       .field "resolution_mp" u8 <|
       .field "fov_degrees" u16 <|
       .field "features" (list string) .nil) <|
     .variant "Temperature"
      (.field "present" bool <|
       .field "accuracy_celsius" (float fl.f32) <|
       .field "current_value" (option (float fl.f32)) .nil) <|
     .variant "Imu"
      (.field "present" bool <|
       .field "axes" u8 <|
       .field "update_rate_hz" u32 .nil) <|
     .variant "Lidar"
      (.field "present" bool <|
       .field "points_per_second" u32 <|
       .field "max_range_m" u8 .nil) <|
     .variant "Proximity"
      (.field "present" bool <|
       .field "max_range_cm" u16 <|
       .field "accuracy_cm" (float fl.f32) .nil) <|
     .variant "AmbientLight"
      (.field "present" bool <|
       .field "max_lux" u32 <|
       .field "current_value" (option (float fl.f32)) .nil) <|
     .variant "Pressure"
      (.field "present" bool <|
       .field "range_hpa" (pair (float fl.f32) (float fl.f32)) <|
       .field "accuracy_hpa" (float fl.f32) .nil) <|
     .variant "Humidity"
      (.field "present" bool <|
       .field "accuracy_pct" (float fl.f32) <|
       .field "current_value" (option (float fl.f32)) .nil) .nil)
    { toFun := fun
        | .microphone p n r d => .inl (p, n, r, d, ())
        | .camera p r d f => .inr (.inl (p, r, d, f, ()))
        | .temperature p a c => .inr (.inr (.inl (p, a, c, ())))
        | .imu p a r => .inr (.inr (.inr (.inl (p, a, r, ()))))
        | .lidar p n r => .inr (.inr (.inr (.inr (.inl (p, n, r, ())))))
        | .proximity p r a => .inr (.inr (.inr (.inr (.inr (.inl (p, r, a, ()))))))
        | .ambientLight p l c => .inr (.inr (.inr (.inr (.inr (.inr (.inl (p, l, c, ())))))))
        | .pressure p r a => .inr (.inr (.inr (.inr (.inr (.inr (.inr (.inl (p, r, a, ()))))))))
        | .humidity p a c =>
          .inr (.inr (.inr (.inr (.inr (.inr (.inr (.inr (.inl (p, a, c, ())))))))))
      invFun := fun
        | .inl (p, n, r, d, _) => .microphone p n r d
        | .inr (.inl (p, r, d, f, _)) => .camera p r d f
        | .inr (.inr (.inl (p, a, c, _))) => .temperature p a c
        | .inr (.inr (.inr (.inl (p, a, r, _)))) => .imu p a r
        | .inr (.inr (.inr (.inr (.inl (p, n, r, _))))) => .lidar p n r
        | .inr (.inr (.inr (.inr (.inr (.inl (p, r, a, _)))))) => .proximity p r a
        | .inr (.inr (.inr (.inr (.inr (.inr (.inl (p, l, c, _))))))) => .ambientLight p l c
        | .inr (.inr (.inr (.inr (.inr (.inr (.inr (.inl (p, r, a, _)))))))) => .pressure p r a
        | .inr (.inr (.inr (.inr (.inr (.inr (.inr (.inr (.inl (p, a, c, _))))))))) =>
          .humidity p a c
      left_inv := by rintro (_ | _) <;> rfl
      right_inv := by
        rintro (_ | _ | _ | _ | _ | _ | _ | _ | _ | s)
        all_goals first | rfl | exact s.elim }

def ConnectivityCapability.codec : Codec ConnectivityCapability :=
  .tagged "type"
    (.variant "Wifi"
      (.field "present" bool <|
       .field "standards" (list string) <|
       .field "bands" (list string) <|
       .field "mimo_streams" u8 <|
       .field "rssi_dbm" (option i8) .nil) <|
     .variant "Bluetooth"
      (.field "present" bool <|
       .field "version" string <|
       .field "features" (list string) <|
       .field "rssi_dbm" (option i8) .nil) <|
     .variant "Ethernet"
      (.field "present" bool <|
       .field "speed_mbps" u32 <|
       .field "full_duplex" bool .nil) <|
     .variant "Cellular"
      (.field "present" bool <|
       .field "technology" string <|
       .field "signal_strength_dbm" (option i8) <|
       .field "carrier" string .nil) <|
     .variant "Uwb"
      (.field "present" bool <|
       .field "ranging_supported" bool <|
       .field "max_range_m" u8 .nil) <|
     .variant "Zigbee"
      (.field "present" bool <|
       .field "protocol_version" string <|
       .field "network_role" string .nil) <|
     .variant "Thread"
      (.field "present" bool <|
       .field "network_role" string .nil) .nil)
    { toFun := fun
        | .wifi p s b m r => .inl (p, s, b, m, r, ())
        | .bluetooth p v f r => .inr (.inl (p, v, f, r, ()))
        | .ethernet p s f => .inr (.inr (.inl (p, s, f, ())))
        | .cellular p t s c => .inr (.inr (.inr (.inl (p, t, s, c, ()))))
        | .uwb p r m => .inr (.inr (.inr (.inr (.inl (p, r, m, ())))))
        | .zigbee p v r => .inr (.inr (.inr (.inr (.inr (.inl (p, v, r, ()))))))
        | .thread p r => .inr (.inr (.inr (.inr (.inr (.inr (.inl (p, r, ())))))))
      invFun := fun
        | .inl (p, s, b, m, r, _) => .wifi p s b m r
        | .inr (.inl (p, v, f, r, _)) => .bluetooth p v f r
        | .inr (.inr (.inl (p, s, f, _))) => .ethernet p s f
        | .inr (.inr (.inr (.inl (p, t, s, c, _)))) => .cellular p t s c
        | .inr (.inr (.inr (.inr (.inl (p, r, m, _))))) => .uwb p r m
        | .inr (.inr (.inr (.inr (.inr (.inl (p, v, r, _)))))) => .zigbee p v r
        | .inr (.inr (.inr (.inr (.inr (.inr (.inl (p, r, _))))))) => .thread p r
      left_inv := by rintro (_ | _) <;> rfl
      right_inv := by
        rintro (_ | _ | _ | _ | _ | _ | _ | s)
        all_goals first | rfl | exact s.elim }

/-- `rename_all = "lowercase"` -/
def PowerSource.name : PowerSource → String
  | .battery => "battery"
  | .wired => "wired"
  | .solar => "solar"
  | .hybrid => "hybrid"

def PowerSource.ofName? : String → Option PowerSource
  | "battery" => some .battery
  | "wired" => some .wired
  | "solar" => some .solar
  | "hybrid" => some .hybrid
  | _ => none

def PowerSource.codec : Codec PowerSource := .names PowerSource.name PowerSource.ofName?

def PowerCapability.codec (fl : Floats) : Codec (PowerCapability fl) :=
  .struct
    (.field "source" PowerSource.codec <|
     .field "battery_pct" (option u8) <|
     .field "estimated_runtime_mins" (option u32) <|
     .field "charging" bool <|
     .field "max_power_draw_w" (float fl.f32) <|
     .field "current_power_draw_w" (float fl.f32) .nil)
    ⟨fun p => (p.source, p.batteryPct, p.estimatedRuntimeMins, p.charging, p.maxPowerDrawW,
       p.currentPowerDrawW, ()),
     fun (source, batteryPct, estimatedRuntimeMins, charging, maxPowerDrawW,
       currentPowerDrawW, _) =>
       ⟨source, batteryPct, estimatedRuntimeMins, charging, maxPowerDrawW, currentPowerDrawW⟩,
     fun _ => rfl, fun _ => rfl⟩

def HealthCapability.codec : Codec HealthCapability :=
  .struct
    (.field "uptime_s" u64 <|
     .field "thermal_headroom_pct" u8 <|
     .field "cpu_load_pct" u8 <|
     .field "memory_pressure_pct" u8 <|
     .field "network_stability_pct" u8 .nil)
    ⟨fun h => (h.uptimeS, h.thermalHeadroomPct, h.cpuLoadPct, h.memoryPressurePct,
       h.networkStabilityPct, ()),
     fun (uptimeS, thermalHeadroomPct, cpuLoadPct, memoryPressurePct, networkStabilityPct, _) =>
       ⟨uptimeS, thermalHeadroomPct, cpuLoadPct, memoryPressurePct, networkStabilityPct⟩,
     fun _ => rfl, fun _ => rfl⟩

def DisplayCapability.codec : Codec DisplayCapability :=
  .struct
    (.field "present" bool <|
     .field "resolution" (pair u16 u16) <|
     .field "refresh_rate_hz" u8 <|
     .field "touch_capable" bool <|
     .field "brightness_nits" u16 <|
     .field "current_brightness_pct" u8 .nil)
    ⟨fun d => (d.present, d.resolution, d.refreshRateHz, d.touchCapable, d.brightnessNits,
       d.currentBrightnessPct, ()),
     fun (present, resolution, refreshRateHz, touchCapable, brightnessNits,
       currentBrightnessPct, _) =>
       ⟨present, resolution, refreshRateHz, touchCapable, brightnessNits, currentBrightnessPct⟩,
     fun _ => rfl, fun _ => rfl⟩

def AudioOutput.codec : Codec AudioOutput :=
  .struct
    (.field "present" bool <|
     .field "channels" u8 <|
     .field "max_spl_db" u8 <|
     .field "frequency_response" (pair u32 u32) .nil)
    ⟨fun o => (o.present, o.channels, o.maxSplDb, o.frequencyResponse, ()),
     fun (present, channels, maxSplDb, frequencyResponse, _) =>
       ⟨present, channels, maxSplDb, frequencyResponse⟩,
     fun _ => rfl, fun _ => rfl⟩

def AudioCapability.codec : Codec AudioCapability :=
  .struct
    (.field "output" (option AudioOutput.codec) <|
     .field "spatial_audio" bool <|
     .field "formats" (list string) .nil)
    ⟨fun a => (a.output, a.spatialAudio, a.formats, ()),
     fun (output, spatialAudio, formats, _) => ⟨output, spatialAudio, formats⟩,
     fun _ => rfl, fun _ => rfl⟩

def ExtendedCapability.toValue (fl : Floats) : ExtendedCapability fl → Value
  | .boolean b => bool.toValue b
  | .number x => (float fl.f64).toValue x
  | .text s => string.toValue s
  | .list items => (Codec.list string).toValue items
  | .object members => (map value).toValue members

def ExtendedCapability.codec (fl : Floats) : Codec (ExtendedCapability fl) :=
  .untagged (ExtendedCapability.toValue fl)
    -- in the order of the variants
    [fun v => (bool.fromValue v).map .boolean,
     fun v => ((float fl.f64).fromValue v).map .number,
     fun v => (string.fromValue v).map .text,
     fun v => ((Codec.list string).fromValue v).map .list,
     fun v => ((map value).fromValue v).map .object]

def DeviceCapabilities.codec (fl : Floats) : Codec (DeviceCapabilities fl) :=
  .struct
    (.field "compute" (option (ComputeCapability.codec fl)) <|
     .field "sensors" (map (SensorCapability.codec fl)) <|
     .field "connectivity" (map ConnectivityCapability.codec) <|
     .field "power" (option (PowerCapability.codec fl)) <|
     .field "health" (option HealthCapability.codec) <|
     .field "display" (option DisplayCapability.codec) <|
     .field "audio" (option AudioCapability.codec) <|
     .field "extended" (map (ExtendedCapability.codec fl)) .nil)
    ⟨fun c => (c.compute, c.sensors, c.connectivity, c.power, c.health, c.display, c.audio,
       c.extended, ()),
     fun (compute, sensors, connectivity, power, health, display, audio, extended, _) =>
       ⟨compute, sensors, connectivity, power, health, display, audio, extended⟩,
     fun _ => rfl, fun _ => rfl⟩

end Codecs

/-! ## The floats of a descriptor -/

section Finite

variable {fl : Floats}

def ComputeCapability.AllFinite (c : ComputeCapability fl) : Prop :=
  (∀ g, c.gpu = some g → fl.f32.IsFinite g.tflops) ∧ ∀ n, c.npu = some n → fl.f32.IsFinite n.tops

def SensorCapability.AllFinite : SensorCapability fl → Prop
  | .temperature _ accuracyCelsius currentValue =>
    fl.f32.IsFinite accuracyCelsius ∧ ∀ x, currentValue = some x → fl.f32.IsFinite x
  | .proximity _ _ accuracyCm => fl.f32.IsFinite accuracyCm
  | .ambientLight _ _ currentValue => ∀ x, currentValue = some x → fl.f32.IsFinite x
  | .pressure _ rangeHpa accuracyHpa =>
    (fl.f32.IsFinite rangeHpa.1 ∧ fl.f32.IsFinite rangeHpa.2) ∧ fl.f32.IsFinite accuracyHpa
  | .humidity _ accuracyPct currentValue =>
    fl.f32.IsFinite accuracyPct ∧ ∀ x, currentValue = some x → fl.f32.IsFinite x
  | _ => True

def PowerCapability.AllFinite (p : PowerCapability fl) : Prop :=
  fl.f32.IsFinite p.maxPowerDrawW ∧ fl.f32.IsFinite p.currentPowerDrawW

def ExtendedCapability.AllFinite : ExtendedCapability fl → Prop
  | .number x => fl.f64.IsFinite x
  | _ => True

/-- Every float of the descriptor is finite. -/
structure DeviceCapabilities.AllFinite (c : DeviceCapabilities fl) : Prop where
  compute : ∀ x, c.compute = some x → x.AllFinite
  sensors : ∀ name x, c.sensors.get? name = some x → x.AllFinite
  power : ∀ x, c.power = some x → x.AllFinite
  extended : ∀ name x, c.extended.get? name = some x → x.AllFinite

end Finite

/-! ## What is read back -/

section ReadsBack

open Codec

variable {fl : Floats}

@[simp] theorem CpuInfo.readsBack (c : CpuInfo) : CpuInfo.codec.ReadsBack c := by
  rw [CpuInfo.codec, readsBack_struct_iff _ (by simp)]
  simp

/-- A GPU is read back exactly if its figure is finite. -/
@[simp] theorem GpuInfo.readsBack_iff (g : GpuInfo fl) :
    (GpuInfo.codec fl).ReadsBack g ↔ fl.f32.IsFinite g.tflops := by
  rw [GpuInfo.codec, readsBack_struct_iff _ (by simp)]
  simp

/-- So is an NPU. -/
@[simp] theorem NpuInfo.readsBack_iff (n : NpuInfo fl) :
    (NpuInfo.codec fl).ReadsBack n ↔ fl.f32.IsFinite n.tops := by
  rw [NpuInfo.codec, readsBack_struct_iff _ (by simp)]
  simp

@[simp] theorem RamInfo.readsBack (r : RamInfo) : RamInfo.codec.ReadsBack r := by
  rw [RamInfo.codec, readsBack_struct_iff _ (by simp)]
  simp

@[simp] theorem StorageInfo.readsBack (s : StorageInfo) : StorageInfo.codec.ReadsBack s := by
  rw [StorageInfo.codec, readsBack_struct_iff _ (by simp)]
  simp

/-- The compute part is read back exactly if all its figures are finite. -/
@[simp] theorem ComputeCapability.readsBack_iff (c : ComputeCapability fl) :
    (ComputeCapability.codec fl).ReadsBack c ↔ c.AllFinite := by
  have hgpu := readsBack_option_iff (c := GpuInfo.codec fl) rfl c.gpu
  have hnpu := readsBack_option_iff (c := NpuInfo.codec fl) rfl c.npu
  rw [ComputeCapability.codec, readsBack_struct_iff _ (by simp)]
  simp [ComputeCapability.AllFinite, hgpu, hnpu]

/-- The variants differ in the name under `type`. -/
@[simp] theorem SensorCapability.readsBack_iff (s : SensorCapability fl) :
    (SensorCapability.codec fl).ReadsBack s ↔ s.AllFinite := by
  have hvalue := readsBack_option_iff (c := float fl.f32) rfl
  rw [SensorCapability.codec, readsBack_tagged_iff _ (by simp) (by simp)]
  cases s <;> simp [SensorCapability.AllFinite, hvalue]

@[simp] theorem ConnectivityCapability.readsBack (c : ConnectivityCapability) :
    ConnectivityCapability.codec.ReadsBack c := by
  have hdbm := readsBack_option_iff (c := i8) rfl
  rw [ConnectivityCapability.codec, readsBack_tagged_iff _ (by simp) (by simp)]
  cases c <;> simp [hdbm]

@[simp] theorem PowerSource.readsBack (p : PowerSource) : PowerSource.codec.ReadsBack p := by
  cases p <;> rfl

/-- The power part is read back exactly if all its figures are finite. -/
@[simp] theorem PowerCapability.readsBack_iff (p : PowerCapability fl) :
    (PowerCapability.codec fl).ReadsBack p ↔ p.AllFinite := by
  have hpct := readsBack_option_iff (c := u8) rfl p.batteryPct
  have hmins := readsBack_option_iff (c := u32) rfl p.estimatedRuntimeMins
  rw [PowerCapability.codec, readsBack_struct_iff _ (by simp)]
  simp [PowerCapability.AllFinite, hpct, hmins]

@[simp] theorem HealthCapability.readsBack (h : HealthCapability) :
    HealthCapability.codec.ReadsBack h := by
  rw [HealthCapability.codec, readsBack_struct_iff _ (by simp)]
  simp

@[simp] theorem DisplayCapability.readsBack (d : DisplayCapability) :
    DisplayCapability.codec.ReadsBack d := by
  rw [DisplayCapability.codec, readsBack_struct_iff _ (by simp)]
  simp

@[simp] theorem AudioOutput.readsBack (o : AudioOutput) : AudioOutput.codec.ReadsBack o := by
  rw [AudioOutput.codec, readsBack_struct_iff _ (by simp)]
  simp

@[simp] theorem AudioCapability.readsBack (a : AudioCapability) :
    AudioCapability.codec.ReadsBack a := by
  have houtput := readsBack_option_iff (c := AudioOutput.codec) rfl a.output
  rw [AudioCapability.codec, readsBack_struct_iff _ (by simp)]
  simp [houtput]

/-- The variants differ in the kind of the value; a float that is not finite has none. -/
@[simp] theorem ExtendedCapability.readsBack_iff (x : ExtendedCapability fl) :
    (ExtendedCapability.codec fl).ReadsBack x ↔ x.AllFinite := by
  cases x with
  | boolean b =>
    have hread : (ExtendedCapability.codec fl).ReadsBack (.boolean b) := rfl
    exact iff_of_true hread trivial
  | number x =>
    show _ ↔ fl.f64.IsFinite x
    rw [← readsBack_float_iff]
    unfold ReadsBack
    show (ExtendedCapability.codec fl).fromValue ((float fl.f64).toValue x) = some (.number x) ↔ _
    cases hx : fl.f64.toNumber x with
    | none =>
      -- written as `null`, which no variant reads
      have hwritten : (float fl.f64).toValue x = .null := by
        simp only [float, hx]
      rw [hwritten]
      constructor
      · intro h
        cases h
      · intro h
        cases h
    | some n =>
      have hwritten : (float fl.f64).toValue x = .number n := by
        simp only [float, hx]
      have hread : (ExtendedCapability.codec fl).fromValue (.number n) =
          some (.number (fl.f64.ofNumber n)) := rfl
      have hfloat : (float fl.f64).fromValue (.number n) = some (fl.f64.ofNumber n) := rfl
      rw [hwritten, hread, hfloat]
      simp
  | text s =>
    have hread : (ExtendedCapability.codec fl).ReadsBack (.text s) := rfl
    exact iff_of_true hread trivial
  | list items =>
    -- the three variants before it read no array
    have hitems : (Codec.list string).ReadsBack items := by simp
    have hread : (ExtendedCapability.codec fl).ReadsBack (.list items) := by
      unfold ReadsBack at hitems ⊢
      show (ExtendedCapability.codec fl).fromValue ((Codec.list string).toValue items) = _
      rw [ExtendedCapability.codec, fromValue_untagged_of_none rfl,
        fromValue_untagged_of_none rfl, fromValue_untagged_of_none rfl]
      exact fromValue_untagged_of_some (Option.map_eq_some_iff.mpr ⟨items, hitems, rfl⟩)
    exact iff_of_true hread trivial
  | object members =>
    -- the four variants before it read no object
    have hmembers : (Codec.map value).ReadsBack members := by simp
    have hread : (ExtendedCapability.codec fl).ReadsBack (.object members) := by
      unfold ReadsBack at hmembers ⊢
      show (ExtendedCapability.codec fl).fromValue ((Codec.map value).toValue members) = _
      rw [ExtendedCapability.codec, fromValue_untagged_of_none rfl,
        fromValue_untagged_of_none rfl, fromValue_untagged_of_none rfl,
        fromValue_untagged_of_none rfl]
      exact fromValue_untagged_of_some (Option.map_eq_some_iff.mpr ⟨members, hmembers, rfl⟩)
    exact iff_of_true hread trivial

/-- A whole descriptor is read back exactly if every figure in it is finite. -/
theorem DeviceCapabilities.readsBack_iff (c : DeviceCapabilities fl) :
    (DeviceCapabilities.codec fl).ReadsBack c ↔ c.AllFinite := by
  have hcompute := readsBack_option_iff (c := ComputeCapability.codec fl) rfl c.compute
  have hpower := readsBack_option_iff (c := PowerCapability.codec fl) rfl c.power
  have hhealth := readsBack_option_iff (c := HealthCapability.codec) rfl c.health
  have hdisplay := readsBack_option_iff (c := DisplayCapability.codec) rfl c.display
  have haudio := readsBack_option_iff (c := AudioCapability.codec) rfl c.audio
  rw [DeviceCapabilities.codec, readsBack_struct_iff _ (by simp)]
  simp only [Fields.ReadsBack, Equiv.coe_fn_mk, hcompute, hpower, hhealth, hdisplay, haudio,
    readsBack_map_iff, ComputeCapability.readsBack_iff, SensorCapability.readsBack_iff,
    ConnectivityCapability.readsBack, PowerCapability.readsBack_iff, HealthCapability.readsBack,
    DisplayCapability.readsBack, AudioCapability.readsBack, ExtendedCapability.readsBack_iff]
  constructor
  · rintro ⟨compute, sensors, -, power, -, -, -, extended, -⟩
    exact ⟨compute, sensors, power, extended⟩
  · rintro ⟨compute, sensors, power, extended⟩
    simp only [implies_true, and_true, true_and]
    exact ⟨compute, sensors, power, extended⟩

end ReadsBack

end AviNet
