import AviNet.Device.Capability
import AviNet.Runtime.ContextCalls

/-!
# Device.Query — queries over the descriptors of all devices

`query.rs` and `AviDevice::execute_query`, which deserializes everything under
`avi.device.caps` at once. A `HashMap` yields its entries in any order.

* `matchesCaps_iff`: what a query asks of a device;
* `mem_execute`, `nodup_execute`: the ids a query returns;
* `answers_iff`: the query is answered from the entries that deserialize exactly
  if all of them do;
* `survives_iff`: a descriptor survives the trip through the context exactly if
  all its floats are finite;
* `one_bad_entry`, `lost_descriptor`: an entry `null`, and a NaN.
-/

namespace AviNet

variable {fl : Floats}

/-! ## Filters -/

/-- `CapabilityType`. -/
inductive CapabilityType where
  | compute
  | health
  | power
  | display
  | audio
  | sensor (name : String)
  | connectivity (name : String)
  | extended (key : String)
  | any

/-- `CapabilityFilter`. -/
structure CapabilityFilter (fl : Floats) where
  capabilityType : CapabilityType
  predicate : DeviceCapabilities fl → Bool

/-- The order in which a `HashMap` yields its entries. -/
structure HashOrder (α : Type) where
  iter : SortedMap String α → List (String × α)
  perm : ∀ m, (iter m).Perm m.entries

/-- By increasing keys. -/
def HashOrder.byKey (α : Type) : HashOrder α := ⟨SortedMap.entries, fun _ => .refl _⟩

/-- The part is there. -/
def CapabilityType.presentIn (capabilityType : CapabilityType) (caps : DeviceCapabilities fl) :
    Bool :=
  match capabilityType with
  | .compute => caps.compute.isSome
  | .health => caps.health.isSome
  | .power => caps.power.isSome
  | .display => caps.display.isSome
  | .audio => caps.audio.isSome
  | .sensor name => (caps.sensors.get? name).isSome
  | .connectivity name => (caps.connectivity.get? name).isSome
  | .extended key => (caps.extended.get? key).isSome
  | .any => true

namespace CapabilityFilter

/-- A filter on a part that a device may lack. -/
def onPart {α : Type} (capabilityType : CapabilityType) (part : DeviceCapabilities fl → Option α)
    (predicate : α → Bool) : CapabilityFilter fl :=
  ⟨capabilityType, fun caps => ((part caps).map predicate).getD false⟩

def compute (predicate : ComputeCapability fl → Bool) : CapabilityFilter fl :=
  onPart .compute (fun caps => caps.compute) predicate

def health (predicate : HealthCapability → Bool) : CapabilityFilter fl :=
  onPart .health (fun caps => caps.health) predicate

def power (predicate : PowerCapability fl → Bool) : CapabilityFilter fl :=
  onPart .power (fun caps => caps.power) predicate

def display (predicate : DisplayCapability → Bool) : CapabilityFilter fl :=
  onPart .display (fun caps => caps.display) predicate

def audio (predicate : AudioCapability → Bool) : CapabilityFilter fl :=
  onPart .audio (fun caps => caps.audio) predicate

def sensor (sensorName : String) (predicate : SensorCapability fl → Bool) : CapabilityFilter fl :=
  onPart (.sensor sensorName) (fun caps => caps.sensors.get? sensorName) predicate

def connectivity (connName : String) (predicate : ConnectivityCapability → Bool) :
    CapabilityFilter fl :=
  onPart (.connectivity connName) (fun caps => caps.connectivity.get? connName) predicate

def checkCapability (self : CapabilityFilter fl) (caps : DeviceCapabilities fl) : Bool :=
  self.capabilityType.presentIn caps && self.predicate caps

def apply (self : CapabilityFilter fl) (order : HashOrder (DeviceCapabilities fl))
    (devices : SortedMap String (DeviceCapabilities fl)) : List String :=
  ((order.iter devices).filter fun e => self.checkCapability e.2).map Prod.fst

/-- What the filter asks of a device: the part, and the predicate. -/
def Accepts (self : CapabilityFilter fl) (caps : DeviceCapabilities fl) : Prop :=
  self.capabilityType.presentIn caps = true ∧ self.predicate caps = true

/-- A filter's check says what its meaning says. -/
theorem checkCapability_iff {f : CapabilityFilter fl} {caps : DeviceCapabilities fl} :
    f.checkCapability caps = true ↔ f.Accepts caps := by
  unfold checkCapability Accepts
  rw [Bool.and_eq_true]

end CapabilityFilter

/-! ## Queries -/

/-- `CombineMode`. -/
inductive CombineMode where
  | all
  | any

/-- `DeviceQuery`. -/
structure DeviceQuery (fl : Floats) where
  filters : List (CapabilityFilter fl)
  combineMode : CombineMode

namespace DeviceQuery

def new : DeviceQuery fl := ⟨[], .all⟩

def all : DeviceQuery fl := ⟨[], .all⟩

def any : DeviceQuery fl := ⟨[], .any⟩

def filter (self : DeviceQuery fl) (filter : CapabilityFilter fl) : DeviceQuery fl :=
  { self with filters := self.filters ++ [filter] }

def compute (self : DeviceQuery fl) (predicate : ComputeCapability fl → Bool) : DeviceQuery fl :=
  self.filter (.compute predicate)

def health (self : DeviceQuery fl) (predicate : HealthCapability → Bool) : DeviceQuery fl :=
  self.filter (.health predicate)

def power (self : DeviceQuery fl) (predicate : PowerCapability fl → Bool) : DeviceQuery fl :=
  self.filter (.power predicate)

def sensor (self : DeviceQuery fl) (sensorName : String)
    (predicate : SensorCapability fl → Bool) : DeviceQuery fl :=
  self.filter (.sensor sensorName predicate)

def connectivity (self : DeviceQuery fl) (connName : String)
    (predicate : ConnectivityCapability → Bool) : DeviceQuery fl :=
  self.filter (.connectivity connName predicate)

/-- `matches`. -/
def matchesCaps (self : DeviceQuery fl) (caps : DeviceCapabilities fl) : Bool :=
  if self.filters.isEmpty then true
  else
    match self.combineMode with
    | .all => self.filters.all fun f => f.checkCapability caps
    | .any => self.filters.any fun f => f.checkCapability caps

def execute (self : DeviceQuery fl) (order : HashOrder (DeviceCapabilities fl))
    (devices : SortedMap String (DeviceCapabilities fl)) : List String :=
  ((order.iter devices).filter fun e => self.matchesCaps e.2).map Prod.fst

/-- What the query asks of a device. -/
def Accepts (self : DeviceQuery fl) (caps : DeviceCapabilities fl) : Prop :=
  self.filters = [] ∨
    match self.combineMode with
    | .all => ∀ f ∈ self.filters, f.Accepts caps
    | .any => ∃ f ∈ self.filters, f.Accepts caps

/-- So does a query's. -/
theorem matchesCaps_iff {query : DeviceQuery fl} {caps : DeviceCapabilities fl} :
    query.matchesCaps caps = true ↔ query.Accepts caps := by
  unfold matchesCaps Accepts
  split_ifs with hempty
  · have hnil := List.isEmpty_iff.mp hempty
    simp [hnil]
  · have hne : query.filters ≠ [] := fun h => hempty (List.isEmpty_iff.mpr h)
    cases query.combineMode with
    | all => simp [hne, CapabilityFilter.checkCapability_iff]
    | any => simp [hne, CapabilityFilter.checkCapability_iff]

end DeviceQuery

/-! ## The ids that are returned -/

section Ids

variable (order : HashOrder (DeviceCapabilities fl))
  (devices : SortedMap String (DeviceCapabilities fl)) (accepts : DeviceCapabilities fl → Bool)

/-- In any order, the entries with a property. -/
theorem mem_filter_iter (id : String) :
    id ∈ ((order.iter devices).filter fun e => accepts e.2).map Prod.fst ↔
      ∃ caps, devices.get? id = some caps ∧ accepts caps = true := by
  constructor
  · intro h
    obtain ⟨e, he, rfl⟩ := List.mem_map.mp h
    have hfilter := List.mem_filter.mp he
    have hentry : (e.1, e.2) ∈ devices.entries := (order.perm devices).mem_iff.mp hfilter.1
    exact ⟨e.2, SortedMap.mem_entries.mp hentry, hfilter.2⟩
  · rintro ⟨caps, hget, haccepts⟩
    have hentry := (order.perm devices).mem_iff.mpr (SortedMap.mem_entries.mpr hget)
    exact List.mem_map.mpr ⟨(id, caps), List.mem_filter.mpr ⟨hentry, haccepts⟩, rfl⟩

theorem nodup_filter_iter :
    (((order.iter devices).filter fun e => accepts e.2).map Prod.fst).Nodup := by
  have hkeys : ((order.iter devices).map Prod.fst).Nodup :=
    ((order.perm devices).map Prod.fst).nodup_iff.mpr devices.nodup_keys
  have hsub : (((order.iter devices).filter fun e => accepts e.2).map Prod.fst).Sublist
      ((order.iter devices).map Prod.fst) :=
    List.filter_sublist.map Prod.fst
  exact hkeys.sublist hsub

end Ids

/-- A query finds the devices it accepts, in whatever order the map is walked. -/
theorem DeviceQuery.mem_execute {query : DeviceQuery fl} {order : HashOrder (DeviceCapabilities fl)}
    {devices : SortedMap String (DeviceCapabilities fl)} {id : String} :
    id ∈ query.execute order devices ↔
      ∃ caps, devices.get? id = some caps ∧ query.Accepts caps := by
  have hmem := mem_filter_iter order devices query.matchesCaps id
  simp only [matchesCaps_iff] at hmem
  exact hmem

/-! ## The device -/

/-- `AviDevice::get_caps_as_json`. -/
def DeviceCapabilities.getCapsAsJson (capabilities : DeviceCapabilities fl) : Value :=
  (DeviceCapabilities.codec fl).toValue capabilities

/-- `serde_json::from_value` for a `HashMap<String, DeviceCapabilities>`. -/
def readDevices (fl : Floats) (caps : Value) :
    Option (SortedMap String (DeviceCapabilities fl)) :=
  (Codec.map (DeviceCapabilities.codec fl)).fromValue caps

/-- `AviDevice::execute_query`. -/
def Runtime.executeQuery {Peer : Type} [LinearOrder Peer] (lib : External Peer) (env : Env Peer)
    (self : Runtime Peer) (order : HashOrder (DeviceCapabilities fl)) (query : DeviceQuery fl) :
    Except AviP2pError (List String) :=
  match self.getCtx lib env "avi.device.caps" with
  | .error e => .error e
  | .ok caps =>
    -- all entries in one `from_value`
    match readDevices fl caps with
    | some v => .ok (query.execute order v)
    | none => .error (.serialization "Error")

namespace AviDevice

variable {Peer : Type} [LinearOrder Peer]

/-- The entry is the descriptor of a device. -/
def Describes (entries : SortedMap String Value) (id : String) (caps : DeviceCapabilities fl) :
    Prop :=
  ∃ entry, entries.get? id = some entry ∧ (DeviceCapabilities.codec fl).fromValue entry = some caps

/-- Every entry deserializes. -/
def AllDescribe (fl : Floats) (entries : SortedMap String Value) : Prop :=
  ∀ id entry, entries.get? id = some entry →
    ((DeviceCapabilities.codec fl).fromValue entry).isSome = true

/-- The ids of the entries that deserialize and satisfy the query, each once. -/
def Answers (entries : SortedMap String Value) (query : DeviceQuery fl)
    (res : Except AviP2pError (List String)) : Prop :=
  ∃ ids, res = .ok ids ∧ ids.Nodup ∧
    ∀ id, id ∈ ids ↔ ∃ caps : DeviceCapabilities fl, Describes entries id caps ∧ query.Accepts caps

variable {lib : External Peer} {env : Env Peer} {rt : Runtime Peer}
  {order : HashOrder (DeviceCapabilities fl)} {query : DeviceQuery fl}
  {entries : SortedMap String Value}

/-- The devices can be read exactly if each entry describes one. -/
theorem isSome_readDevices_iff :
    (readDevices fl (.ofObject entries)).isSome = true ↔ AllDescribe fl entries := by
  unfold readDevices
  rw [Codec.fromValue_map_ofObject]
  exact SortedMap.isSome_traverse

/-- What has been read under an id is what its entry describes. -/
theorem describes_iff {devices : SortedMap String (DeviceCapabilities fl)}
    (h : readDevices fl (.ofObject entries) = some devices) (id : String)
    (caps : DeviceCapabilities fl) : Describes entries id caps ↔ devices.get? id = some caps := by
  unfold readDevices at h
  rw [Codec.fromValue_map_ofObject] at h
  have hid := SortedMap.traverse_eq_some_iff.mp h id
  unfold Describes
  cases hentry : entries.get? id with
  | none =>
    -- the map has the ids of the entries
    rw [hentry] at hid
    have hnone := Option.map_eq_none_iff.mp hid.symm
    simp [hnone]
  | some entry =>
    rw [hentry] at hid
    obtain ⟨caps', hcaps, hread⟩ := Option.map_eq_some_iff.mp hid.symm
    simp [hcaps, ← hread]

/-- The call, once the document under `avi.device.caps` is an object. -/
theorem executeQuery_eq
    (h : rt.localContext.data.getCtx "avi.device.caps" = .ok (.ofObject entries)) :
    rt.executeQuery lib env order query =
      match readDevices fl (.ofObject entries) with
      | some v => .ok (query.execute order v)
      | none => .error (.serialization "Error") := by
  unfold Runtime.executeQuery
  rw [Runtime.getCtx_eq, h]

variable (lib env order query) in
/-- If every entry deserializes, the query is answered. -/
theorem answers_executeQuery
    (h : rt.localContext.data.getCtx "avi.device.caps" = .ok (.ofObject entries))
    (hall : AllDescribe fl entries) :
    Answers entries query (rt.executeQuery lib env order query) := by
  obtain ⟨devices, hread⟩ := Option.isSome_iff_exists.mp (isSome_readDevices_iff.mpr hall)
  refine ⟨query.execute order devices, ?_, ?_, ?_⟩
  · rw [executeQuery_eq h, hread]
  · exact nodup_filter_iter order devices query.matchesCaps
  · intro id
    rw [DeviceQuery.mem_execute]
    apply exists_congr
    intro caps
    rw [describes_iff hread]

/-- If one entry does not, every query fails. -/
theorem executeQuery_eq_error
    (h : rt.localContext.data.getCtx "avi.device.caps" = .ok (.ofObject entries))
    (hbad : ¬ AllDescribe fl entries) :
    rt.executeQuery lib env order query = .error (.serialization "Error") := by
  have hnone : readDevices fl (.ofObject entries) = none := by
    cases hread : readDevices fl (.ofObject entries) with
    | none => rfl
    | some devices =>
      have hsome : (readDevices fl (.ofObject entries)).isSome = true := by
        rw [hread]
        rfl
      exact absurd (isSome_readDevices_iff.mp hsome) hbad
  rw [executeQuery_eq h, hnone]

variable (lib env) in
/-- **A query returns the ids of the devices whose entries deserialize and satisfy
it exactly if every entry deserializes.** -/
theorem answers_iff (order : HashOrder (DeviceCapabilities fl)) (query : DeviceQuery fl)
    (h : rt.localContext.data.getCtx "avi.device.caps" = .ok (.ofObject entries)) :
    Answers entries query (rt.executeQuery lib env order query) ↔ AllDescribe fl entries := by
  constructor
  · -- an answer has come from the whole map
    rintro ⟨ids, hok, -, -⟩
    by_contra hbad
    rw [executeQuery_eq_error h hbad] at hok
    cases hok
  · exact answers_executeQuery lib env order query h

/-! ## The trip of a descriptor -/

/-- A descriptor is read as it was written, and under no id does it keep a query
over the other devices from being answered. -/
structure Survives (lib : External Peer) (env : Env Peer) (c : DeviceCapabilities fl) : Prop where
  read_back : (DeviceCapabilities.codec fl).fromValue c.getCapsAsJson = some c
  answered : ∀ (rt : Runtime Peer) (order : HashOrder (DeviceCapabilities fl))
    (query : DeviceQuery fl) (entries : SortedMap String Value) (id : String),
    rt.localContext.data.getCtx "avi.device.caps" =
      .ok (.ofObject (entries.insert id c.getCapsAsJson)) →
    AllDescribe fl entries →
    ∃ ids, rt.executeQuery lib env order query = .ok ids ∧ (id ∈ ids ↔ query.Accepts c)

/-- A descriptor that is read back fits between any others. -/
theorem allDescribe_insert {c : DeviceCapabilities fl}
    (h : (DeviceCapabilities.codec fl).fromValue c.getCapsAsJson = some c)
    (hall : AllDescribe fl entries) (id : String) :
    AllDescribe fl (entries.insert id c.getCapsAsJson) := by
  intro j entry hentry
  rw [SortedMap.get?_insert] at hentry
  split_ifs at hentry with hj
  · -- the descriptor itself
    have heq := Option.some.inj hentry
    rw [← heq, h]
    rfl
  · -- another entry
    exact hall j entry hentry

/-- **A descriptor survives the trip through the context exactly if all its floats
are finite.** -/
theorem survives_iff (lib : External Peer) (env : Env Peer) (c : DeviceCapabilities fl) :
    Survives lib env c ↔ c.AllFinite := by
  constructor
  · intro h
    exact c.readsBack_iff.mp h.read_back
  · intro hfinite
    have hread : (DeviceCapabilities.codec fl).fromValue c.getCapsAsJson = some c :=
      c.readsBack_iff.mpr hfinite
    refine ⟨hread, ?_⟩
    intro rt order query entries id hdoc hall
    obtain ⟨ids, hok, -, hids⟩ := answers_executeQuery lib env order query hdoc
      (allDescribe_insert hread hall id)
    refine ⟨ids, hok, ?_⟩
    rw [hids id]
    -- the entry of `id` describes `c` and nothing else
    have hentry : (entries.insert id c.getCapsAsJson).get? id = some c.getCapsAsJson :=
      SortedMap.get?_insert_self _ _ _
    constructor
    · rintro ⟨caps, ⟨entry, hget, hcaps⟩, haccepts⟩
      rw [hentry] at hget
      cases hget
      rw [hread] at hcaps
      cases hcaps
      exact haccepts
    · intro haccepts
      exact ⟨c, ⟨c.getCapsAsJson, hentry, hread⟩, haccepts⟩

/-! ## A bad entry -/

/-- A node with these entries under `avi.device.caps`. -/
def withCaps (entries : SortedMap String Value) : Runtime String :=
  { Runtime.new External.plain "A" 0 with
    localContext :=
      { (Runtime.new External.plain "A" 0).localContext with
        data := .object [("avi", .object [("device", .object [("caps", .ofObject entries)])])] } }

theorem getCtx_withCaps (entries : SortedMap String Value) :
    (withCaps entries).localContext.data.getCtx "avi.device.caps" = .ok (.ofObject entries) := by
  have hpath : splitPath "avi.device.caps" = ["avi", "device", "caps"] := by decide
  have hne : "avi.device.caps" ≠ "" := by decide
  unfold Value.getCtx
  rw [if_neg hne, hpath]
  simp [withCaps, Value.walk, Value.object, SortedMap.ofList]

/-- One device, with the default descriptor. -/
def alone : SortedMap String Value :=
  SortedMap.empty.insert "a" (DeviceCapabilities.default .exact).getCapsAsJson

theorem answers_iff_alone :
    Answers alone (.all : DeviceQuery Floats.exact)
        ((withCaps alone).executeQuery .plain (.calm String)
          (.byKey (DeviceCapabilities Floats.exact)) .all) ↔
      AllDescribe Floats.exact alone :=
  answers_iff .plain (.calm String) (.byKey _) .all (getCtx_withCaps alone)

/-- The device beside an entry `null`. -/
theorem one_bad_entry : ¬ ∀ (rt : Runtime String) (order : HashOrder (DeviceCapabilities .exact))
    (query : DeviceQuery .exact) (entries : SortedMap String Value),
    rt.localContext.data.getCtx "avi.device.caps" = .ok (.ofObject entries) →
    Answers entries query (rt.executeQuery .plain (.calm String) order query) := by
  intro h
  let entries := alone.insert "b" .null
  obtain ⟨ids, hok, -, -⟩ := h (withCaps entries) (.byKey _) .all entries (getCtx_withCaps entries)
  have hbad : ¬ AllDescribe Floats.exact entries := by
    intro hall
    have hnull := hall "b" .null (SortedMap.get?_insert_self _ _ _)
    cases hnull
  rw [executeQuery_eq_error (getCtx_withCaps entries) hbad] at hok
  cases hok

/-- A descriptor with a NaN. -/
theorem lost_descriptor : ¬ ∀ (fl : Floats) (c : DeviceCapabilities fl),
    Survives External.plain (.calm String) c := by
  intro h
  have hlost := h .exact
    { DeviceCapabilities.default .exact with
      extended := SortedMap.empty.insert "drift" (ExtendedCapability.number none) }
  have hfinite := (DeviceCapabilities.readsBack_iff _).mp hlost.read_back
  have hdrift := hfinite.extended "drift" _ (SortedMap.get?_insert_self _ _ _)
  cases hdrift

end AviDevice

end AviNet
