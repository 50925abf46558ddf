import AviNet.Bridge.Gateway
import AviNet.Runtime.LocalClients

/-!
# Bridge.SensorEntries — the sensors of the devices in the shared context

The handler of a `SensorUpdate` splices the name of the sensor into a path, so
a name with dots lies deeper than one without, and can lie within the entry of
another sensor. Here the packets of the devices are the only writers.

* `segments_sensorUpdate`: where the reading of a sensor goes;
* `exec_run`: a handler that runs alone is a run of the gateway;
* `sensors_kept_iff`: every reported sensor shows its last payload, and its entry as
  that update left it, exactly if each update finds its path free of leaves and
  says nothing new about the other sensors of its device;
* `name_overwritten`: a sensor within the entry of another one.
-/

namespace AviNet

/-! ## Entries -/

/-- The keys of a sensor in the context. -/
def sensorPath (deviceId : UInt64) (sensorName : String) : List String :=
  ["avi", "sensors", toString deviceId.toNat] ++ splitPath sensorName

theorem segments_sensorUpdate (deviceId : UInt64) (sensorName : String) (payload : Value) :
    segments (PathOp.sensorUpdate deviceId.toNat sensorName payload).path =
      sensorPath deviceId sensorName := by
  have hpath : (PathOp.sensorUpdate deviceId.toNat sensorName payload).path =
      "avi.sensors." ++ toString deviceId.toNat ++ "." ++ sensorName := rfl
  have hne : "avi.sensors." ++ toString deviceId.toNat ++ "." ++ sensorName ≠ "" := by
    intro h
    have hlength := congrArg String.length h
    simp only [String.length_append, String.length_empty] at hlength
    have hprefix : "avi.sensors.".length = 12 := by decide
    omega
  have hfirst : "avi.sensors." ++ toString deviceId.toNat =
      "avi" ++ "." ++ "sensors" ++ "." ++ toString deviceId.toNat := by
    have hconst : "avi.sensors." = "avi" ++ "." ++ "sensors" ++ "." := by decide
    rw [hconst]
  rw [hpath, segments, if_neg hne, splitPath_append, hfirst, splitPath_append, splitPath_append,
    splitPath_toString, splitPath_of_not_mem (a := "avi") (by decide),
    splitPath_of_not_mem (a := "sensors") (by decide)]
  rfl

/-- Sensors of different devices lie apart. -/
theorem sensorPath_diverge {d e : UInt64} (h : d ≠ e) (s t : String) :
    PathDoc.Diverge (sensorPath d s) (sensorPath e t) := by
  have hkey : toString d.toNat ≠ toString e.toNat := by
    intro heq
    exact h (UInt64.toNat_inj.mp (toString_injective heq))
  constructor
  · intro hprefix
    simp only [sensorPath, List.cons_append, List.nil_append, List.cons_prefix_cons] at hprefix
    exact hkey hprefix.2.2.1
  · intro hprefix
    simp only [sensorPath, List.cons_append, List.nil_append, List.cons_prefix_cons] at hprefix
    exact hkey hprefix.2.2.1.symm

/-! ## Model layer -/

/-- A `SensorUpdate` packet, received at the system time `now`, and the environment
in which the runtime handles the commands it leads to. -/
structure SensorPacket (Peer Addr : Type) where
  now : UInt64
  addr : Addr
  sensorName : String
  data : SensorValue
  customData : String
  env : Command → Env Peer

/-- The reading that a packet reports. -/
def SensorPacket.payload {Peer Addr : Type} (p : SensorPacket Peer Addr) : Value :=
  Bridge.sensorPayload p.sensorName p.data p.customData p.now

/-- A gateway, and for each sensor that has been reported its last payload and the
entry that its update has left. -/
structure SensorEntries (Peer Addr : Type) [LinearOrder Peer] [LinearOrder Addr] where
  rt : Runtime Peer
  bridge : Bridge Addr
  reported : UInt64 → String → Option (Value × Option Value)

/-- The runtime answers a command at once. -/
def Gateway.answer {Peer : Type} [LinearOrder Peer] (lib : External Peer)
    (env : Command → Env Peer) (rt : Runtime Peer) (cmd : Command) :
    Option (Runtime Peer × Reply) :=
  (Runtime.replyOf (rt.turn lib (env cmd) (.command cmd)).2).map fun r =>
    ((rt.turn lib (env cmd) (.command cmd)).1, r)

namespace SensorEntries

variable {Peer Addr : Type} [LinearOrder Peer] [LinearOrder Addr]

/-- The handler of a packet, from its start to its end. -/
def handle (lib : External Peer) (toVec : Value → Bytes) (s : SensorEntries Peer Addr)
    (p : SensorPacket Peer Addr) : Option (Bridge Addr × Runtime Peer) :=
  (s.bridge.handleUplinkPacket toVec p.now p.addr
    (.sensorUpdate p.sensorName p.data p.customData)).exec (Gateway.answer lib p.env) s.rt

/-- What is shown where a sensor is reported. -/
def entry (rt : Runtime Peer) (deviceId : UInt64) (sensorName : String) : Option Value :=
  rt.localContext.data.at? (sensorPath deviceId sensorName)

def step (lib : External Peer) (toVec : Value → Bytes) (s : SensorEntries Peer Addr)
    (p : SensorPacket Peer Addr) : Option (SensorEntries Peer Addr) :=
  match s.bridge.sessions.get? p.addr with
  | some session =>
    (s.handle lib toVec p).map fun (bridge, rt) => {
      rt := rt
      bridge := bridge
      reported := fun d name =>
        if d = session.deviceId ∧ name = p.sensorName then some (p.payload, entry rt d name)
        else s.reported d name }
  | none => none

end SensorEntries

/-- The machine of a gateway with any context and any sessions, of which nothing has
been reported yet. -/
def sensorEntries {Peer Addr : Type} [LinearOrder Peer] [LinearOrder Addr] (lib : External Peer)
    (toVec : Value → Bytes) : Machine (SensorEntries Peer Addr) (SensorPacket Peer Addr) where
  Init s := s.reported = fun _ _ => none
  step := SensorEntries.step lib toVec

namespace SensorEntries

variable {Peer Addr : Type} [LinearOrder Peer] [LinearOrder Addr]

/-- Each sensor that has been reported shows its last payload, in the entry that its
own update has left. -/
def Kept (s : SensorEntries Peer Addr) : Prop :=
  ∀ d name payload shown, s.reported d name = some (payload, shown) →
    entry s.rt d name = shown ∧ ∃ v, shown = some v ∧ payload.doc ≤ v.doc

/-- Nothing but objects is on the way to the entry of the sensor, and its payload says
nothing new in the entries of the other sensors of the device, and nothing in their
place. -/
def KeepsApart (s : SensorEntries Peer Addr) (p : SensorPacket Peer Addr) : Prop :=
  ∀ session, s.bridge.sessions.get? p.addr = some session →
    (s.rt.localContext.data.isObject = true →
      s.rt.localContext.data.doc.Clear (sensorPath session.deviceId p.sensorName)) ∧
    ∀ name, name ≠ p.sensorName → (s.reported session.deviceId name).isSome = true →
      PathOp.Spares s.rt.localContext.data (sensorPath session.deviceId p.sensorName) p.payload
        (sensorPath session.deviceId name)

/-! ## Handlers that run alone -/

section Handlers

variable {lib : External Peer} {toVec : Value → Bytes}

/-- A program that runs alone is a run of the gateway. -/
theorem exec_run {env : Command → Env Peer} {p : Bridge.Code Addr} {rt rt' : Runtime Peer}
    {b b' : Bridge Addr} (h : p.exec (Gateway.answer lib env) rt = some (b', rt')) :
    ∃ ls, (gateway Addr lib toVec).run ⟨rt, b, .ready p⟩ ls = some ⟨rt', b', .idle⟩ := by
  induction p generalizing rt b with
  | done s =>
    cases h
    exact ⟨[.resume], rfl⟩
  | call s cmd k ih =>
    obtain ⟨⟨rt₁, r⟩, hanswer, hrest⟩ := Option.bind_eq_some_iff.mp h
    obtain ⟨ls, hls⟩ := ih r hrest
    refine ⟨.resume :: .serve (env cmd) :: ls, ?_⟩
    obtain ⟨r', hr', heq⟩ := Option.map_eq_some_iff.mp hanswer
    cases heq
    have hserve : (gateway Addr lib toVec).step ⟨rt, s, .waiting cmd k⟩ (.serve (env cmd)) =
        some ⟨(rt.turn lib (env cmd) (.command cmd)).1, s, .ready (k r)⟩ := by
      simp only [gateway, Gateway.step, hr', Option.map_some]
    rw [Machine.run_cons]
    show (gateway Addr lib toVec).run ⟨rt, s, .waiting cmd k⟩ _ = _
    rw [Machine.run_cons, hserve]
    exact hls

variable (lib) in
/-- A publish is answered and changes no document. -/
theorem answer_publish (env : Command → Env Peer) (rt : Runtime Peer) (topic : String)
    (data : Bytes) : ∃ res, Gateway.answer lib env rt (.publish topic data) =
      some (rt, .done res) := by
  unfold Gateway.answer
  dsimp only [Runtime.turn, Runtime.handleCommand]
  cases (env (.publish topic data)).publish with
  | ok => exact ⟨_, rfl⟩
  | insufficientPeers => exact ⟨_, rfl⟩
  | error e => exact ⟨_, rfl⟩

variable (lib) in
/-- An update is answered and lays its patch onto the document. -/
theorem answer_update (env : Command → Env Peer) (rt : Runtime Peer) (patch : Value) :
    ∃ rt' res, Gateway.answer lib env rt (.updateSelfContext patch) = some (rt', .done res) ∧
      rt'.localContext.data = (AviContext.ContextWrite.update patch).applyTo
        rt.localContext.data := by
  obtain ⟨hcontext, res, hres⟩ := LocalClients.handleCommand_write lib
    (env (.updateSelfContext patch)) rt (.update patch)
  refine ⟨(rt.handleCommand lib (env (.updateSelfContext patch)) (.updateSelfContext patch)).1,
    res, ?_, ?_⟩
  · unfold Gateway.answer
    exact congrArg (Option.map _) hres
  · exact congrArg AviContext.data hcontext

/-- A call that is answered goes on with its answer. -/
theorem exec_callDone {env : Command → Env Peer} {rt rt' : Runtime Peer} {b : Bridge Addr}
    {cmd : Command} {k : Except AviP2pError Unit → Bridge.Code Addr}
    {res : Except AviP2pError Unit} (h : Gateway.answer lib env rt cmd = some (rt', .done res)) :
    (b.callDone cmd k).exec (Gateway.answer lib env) rt =
      (k res).exec (Gateway.answer lib env) rt' :=
  Program.exec_call h

/-- Reading the root goes on with the whole document. -/
theorem exec_getRoot {env : Command → Env Peer} {rt : Runtime Peer} {b : Bridge Addr}
    {k : Except AviP2pError Value → Bridge.Code Addr} :
    (b.getRoot k).exec (Gateway.answer lib env) rt =
      (k (.ok rt.localContext.data)).exec (Gateway.answer lib env) rt := rfl

variable (lib toVec) in
/-- The handler of a `SensorUpdate` writes the payload at the path of the sensor. -/
theorem handle_spec {s : SensorEntries Peer Addr} {p : SensorPacket Peer Addr}
    {session : DeviceSession} (hget : s.bridge.sessions.get? p.addr = some session) :
    ∃ rt, s.handle lib toVec p = some (s.bridge, rt) ∧ rt.localContext.data =
      (PathOp.sensorUpdate session.deviceId.toNat p.sensorName p.payload).alone
        s.rt.localContext.data := by
  -- the path-wise write of the handler
  let op := PathOp.sensorUpdate session.deviceId.toNat p.sensorName
    (Bridge.sensorPayload p.sensorName p.data p.customData p.now)
  show ∃ rt : Runtime Peer, _ ∧ rt.localContext.data = op.alone s.rt.localContext.data
  obtain ⟨res, hpublish⟩ := answer_publish lib p.env s.rt
    ("device/" ++ toString session.deviceId.toNat ++ "/sensor/" ++ p.sensorName) (toVec p.payload)
  unfold handle
  simp only [Bridge.handleUplinkPacket, hget]
  unfold SensorPacket.payload at hpublish
  rw [exec_callDone hpublish, exec_getRoot]
  dsimp only
  cases hedit : op.editCopy s.rt.localContext.data with
  | mk copy result =>
    cases result with
    | error e =>
      -- the write is refused: no update is sent
      have halone : op.alone s.rt.localContext.data = s.rt.localContext.data := by
        apply PathOp.alone_of_error
        rw [hedit]
      rw [halone]
      exact ⟨s.rt, rfl, rfl⟩
    | ok u =>
      -- the changed copy is sent as the patch
      have halone : op.alone s.rt.localContext.data =
          (op.command copy).applyTo s.rt.localContext.data := by
        have hok := PathOp.alone_of_ok (congrArg Prod.snd hedit)
        rwa [hedit] at hok
      obtain ⟨rt, res, hupdate, hdata⟩ := answer_update lib p.env s.rt copy
      rw [halone]
      refine ⟨rt, ?_, hdata⟩
      dsimp only
      rw [exec_callDone hupdate]
      rfl

end Handlers

/-! ## One update -/

section Updates

variable {data payload : Value} {d : UInt64} {name : String}

variable (d name payload) in
theorem path_ne_empty : (PathOp.sensorUpdate d.toNat name payload).path ≠ "" := by
  intro h
  have hsegments := segments_sensorUpdate d name payload
  rw [h] at hsegments
  cases hsegments

variable (payload) in
/-- Nothing stands in the way of the write. -/
theorem edit_of_clear (h : data.isObject = true → data.doc.Clear (sensorPath d name)) :
    ∃ w, (PathOp.sensorUpdate d.toNat name payload).edit data = .ok w ∧
      (PathOp.sensorUpdate d.toNat name payload).alone data = w.applyTo data := by
  have hok : ((PathOp.sensorUpdate d.toNat name payload).editCopy data).2 = .ok () := by
    apply Value.setNestedValue_ok_iff.mpr
    right
    by_cases hobj : data.isObject = true
    · right
      have hclear := h hobj
      rw [← segments_sensorUpdate d name payload] at hclear
      exact hclear
    · exact Or.inl hobj
  have hedit := PathOp.edit_eq_ok_iff.mpr ⟨hok, rfl⟩
  refine ⟨_, hedit, ?_⟩
  unfold PathOp.alone
  rw [hedit]

/-- Something does, and the entry is not there before nor after. -/
theorem at?_of_not_clear (h : ¬ (data.isObject = true → data.doc.Clear (sensorPath d name))) :
    ((PathOp.sensorUpdate d.toNat name payload).alone data).at? (sensorPath d name) = none := by
  have hfails : (PathOp.sensorUpdate d.toNat name payload).alone data = data := by
    unfold PathOp.alone
    cases hedit : (PathOp.sensorUpdate d.toNat name payload).edit data with
    | error e => rfl
    | ok w =>
      exfalso
      apply h
      intro hobj
      have hset := Value.setNestedValue_ok_iff.mp (PathOp.edit_eq_ok_iff.mp hedit).1
      rcases hset with hempty | hnot | hclear
      · exact absurd hempty (path_ne_empty payload d name)
      · exact absurd hobj hnot
      · rw [← segments_sensorUpdate d name payload]
        exact hclear
  rw [hfails, ← Value.doc_eq_absent_iff]
  by_contra hpresent
  apply h
  intro _ q v hq hne hleaf
  -- above what is there stand objects
  rw [PathDoc.branch_above hq hne hpresent] at hleaf
  cases hleaf

/-- The sensor shows its payload. -/
theorem own_shown (h : data.isObject = true → data.doc.Clear (sensorPath d name)) :
    ∃ v, ((PathOp.sensorUpdate d.toNat name payload).alone data).at? (sensorPath d name) = some v ∧
      payload.doc ≤ v.doc := by
  obtain ⟨w, hedit, -⟩ := edit_of_clear payload h
  have hown := PathOp.at?_alone hedit (path_ne_empty payload d name)
  rw [segments_sensorUpdate] at hown
  rw [hown]
  cases data.at? (sensorPath d name) with
  | none => exact ⟨payload, rfl, le_rfl⟩
  | some old => exact ⟨old.mergeJson payload, rfl, PathOp.le_mergeJson old payload⟩

/-- Another entry stays as it is exactly if it is spared. -/
theorem other_unchanged_iff (h : data.isObject = true → data.doc.Clear (sensorPath d name))
    {q : List String} (hq : (data.at? q).isSome = true) :
    ((PathOp.sensorUpdate d.toNat name payload).alone data).at? q = data.at? q ↔
      PathOp.Spares data (sensorPath d name) payload q := by
  obtain ⟨w, hedit, halone⟩ := edit_of_clear payload h
  have hiff := PathOp.at?_unchanged_iff hedit (path_ne_empty payload d name) hq
  rw [halone, hiff]
  rw [← segments_sensorUpdate d name payload]
  rfl

/-- Other devices are not touched. -/
theorem device_unchanged {e : UInt64} (hne : e ≠ d) (other : String) :
    ((PathOp.sensorUpdate d.toNat name payload).alone data).at? (sensorPath e other) =
      data.at? (sensorPath e other) := by
  unfold PathOp.alone
  cases hedit : (PathOp.sensorUpdate d.toNat name payload).edit data with
  | error err => rfl
  | ok w =>
    apply PathOp.at?_diverging hedit
    rw [segments_sensorUpdate]
    exact sensorPath_diverge hne.symm name other

end Updates

/-! ## Runs -/

variable {lib : External Peer} {toVec : Value → Bytes}

/-- A packet keeps the entries exactly if it keeps them apart. -/
theorem step_kept_iff (s : SensorEntries Peer Addr) (p : SensorPacket Peer Addr)
    (t : SensorEntries Peer Addr) (hstep : (sensorEntries lib toVec).step s p = some t)
    (h : s.Kept) : t.Kept ↔ s.KeepsApart p := by
  simp only [sensorEntries, step] at hstep
  split at hstep
  · next session hget =>
    obtain ⟨rt, hhandle, hdata⟩ := handle_spec lib toVec hget
    rw [hhandle] at hstep
    cases hstep
    have hentry : ∀ e other, entry rt e other =
        ((PathOp.sensorUpdate session.deviceId.toNat p.sensorName p.payload).alone
          s.rt.localContext.data).at? (sensorPath e other) := by
      intro e other
      rw [← hdata]
      rfl
    simp only [KeepsApart, hget, Option.some.injEq, forall_eq']
    constructor
    · intro hkept
      -- the update shows its own payload, so nothing was in its way
      have hclear : s.rt.localContext.data.isObject = true →
          s.rt.localContext.data.doc.Clear (sensorPath session.deviceId p.sensorName) := by
        by_contra hnot
        obtain ⟨-, v, hv, -⟩ := hkept session.deviceId p.sensorName _ _ (if_pos ⟨rfl, rfl⟩)
        rw [hentry, at?_of_not_clear hnot] at hv
        cases hv
      refine ⟨hclear, ?_⟩
      intro name hname hreported
      obtain ⟨⟨payload, shown⟩, hbefore⟩ := Option.isSome_iff_exists.mp hreported
      obtain ⟨hshown, v, rfl, -⟩ := h _ _ _ _ hbefore
      have hafter := (hkept session.deviceId name payload (some v)
        ((if_neg fun hboth => hname hboth.2).trans hbefore)).1
      have hsome : (s.rt.localContext.data.at? (sensorPath session.deviceId name)).isSome = true :=
        Option.isSome_iff_exists.mpr ⟨v, hshown⟩
      apply (other_unchanged_iff hclear hsome).mp
      rw [← hentry, hafter]
      exact hshown.symm
    · rintro ⟨hclear, hspares⟩ e name payload shown hreported
      dsimp only at hreported ⊢
      split_ifs at hreported with hown
      · -- the sensor that is reported
        obtain ⟨rfl, rfl⟩ := hown
        cases hreported
        refine ⟨rfl, ?_⟩
        rw [hentry]
        exact own_shown hclear
      · obtain ⟨hshown, v, rfl, hle⟩ := h _ _ _ _ hreported
        refine ⟨?_, v, rfl, hle⟩
        rw [hentry, ← hshown]
        by_cases hdevice : e = session.deviceId
        · subst hdevice
          have hname : name ≠ p.sensorName := fun hname => hown ⟨rfl, hname⟩
          apply (other_unchanged_iff hclear (Option.isSome_iff_exists.mpr ⟨v, hshown⟩)).mpr
          exact hspares name hname (Option.isSome_iff_exists.mpr ⟨_, hreported⟩)
        · exact device_unchanged hdevice name
  · cases hstep

/-- **Sensor readings do not disturb each other**, in every run of packets from any
devices into any context, if and only if each of them finds nothing but objects
on the way to its entry and says nothing new in the entries of the other sensors
of its device, and nothing in their place. -/
theorem sensors_kept_iff (lib : External Peer) (toVec : Value → Bytes)
    (s t : SensorEntries Peer Addr)
    (h₀ : (sensorEntries lib toVec).Init s) (ps : List (SensorPacket Peer Addr))
    (hrun : (sensorEntries lib toVec).run s ps = some t) :
    (sensorEntries lib toVec).AllStates Kept s ps ↔
      (sensorEntries lib toVec).AllSteps KeepsApart s ps := by
  have hkept : s.Kept := by
    intro d name payload shown h
    rw [show s.reported = fun _ _ => none from h₀] at h
    cases h
  exact (sensorEntries lib toVec).allStates_iff_of_invariant (J := fun _ => True)
    (fun _ _ _ _ _ => True.intro) (fun s p t hs _ => step_kept_iff s p t hs) hrun
    True.intro hkept

/-! ## A sensor within another one -/

/-- A gateway with the session of one device. -/
def oneDevice : SensorEntries String ℕ where
  rt := .new External.plain "me" 0
  bridge := Bridge.start.setSession 1 ⟨7, .empty, ∅⟩
  reported := fun _ _ => none

/-- A reading of the device. -/
def reading (sensorName : String) : SensorPacket String ℕ :=
  ⟨0, 1, sensorName, .battery 50, "", fun _ => .calm String⟩

theorem sensors_kept_iff_apart : (sensorEntries External.plain fun _ => []).AllStates Kept oneDevice
      [reading "a", reading "b"] ↔
    (sensorEntries External.plain fun _ => []).AllSteps KeepsApart oneDevice
      [reading "a", reading "b"] := by
  have hrun : ((sensorEntries External.plain fun _ => []).run oneDevice
      [reading "a", reading "b"]).isSome = true := by
    decide +kernel
  obtain ⟨t, ht⟩ := Option.isSome_iff_exists.mp hrun
  exact sensors_kept_iff _ _ oneDevice t rfl _ ht

/-- The second sensor overwrites the name of the first one. -/
theorem name_overwritten : ¬ ∀ (s t : SensorEntries String ℕ) ps,
    (sensorEntries External.plain fun _ => []).Init s →
      (sensorEntries External.plain fun _ => []).run s ps = some t →
        (sensorEntries External.plain fun _ => []).AllStates Kept s ps := by
  intro h
  have hview : ((sensorEntries External.plain fun _ => []).run oneDevice
      [reading "a", reading "a.name"]).map (fun t =>
        (t.reported 7 "a").map fun r => decide (entry t.rt 7 "a" = r.2)) = some (some false) := by
    decide +kernel
  obtain ⟨t, ht, hview⟩ := Option.map_eq_some_iff.mp hview
  obtain ⟨⟨payload, shown⟩, hreported, hdiffers⟩ := Option.map_eq_some_iff.mp hview
  have hall := h oneDevice t [reading "a", reading "a.name"] rfl ht
  rw [← List.append_nil [reading "a", reading "a.name"]] at hall
  have hkept : t.Kept := Machine.AllStates.at_cut _ hall ht
  exact of_decide_eq_false hdiffers (hkept 7 "a" payload shown hreported).1

end SensorEntries

end AviNet
