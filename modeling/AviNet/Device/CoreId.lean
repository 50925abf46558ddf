import AviNet.Device.EventLoops
import AviNet.Runtime.ContextCalls
import AviNet.Serde

/-!
# Device.CoreId — who the core is

A core that has started writes its id to `avi.core` unless it finds something there,
and `get_core_id` panics on anything but a string. Two cores may start before they
hear of each other.

* `core_id_names_core`: whatever devices and applications do, except for setting
  something at `avi.core` themselves that is no id of a core, `get_core_id` does not
  panic, and what it returns is the id of a core.
-/

namespace AviNet

open AviContext (ContextWrite)

/-- `AviDevice::get_core_id`; `none` if its `expect` panics. -/
def Runtime.getCoreId {Peer : Type} [LinearOrder Peer] (lib : External Peer) (env : Env Peer)
    (self : Runtime Peer) : Option (Except AviP2pError String) :=
  match self.getCtx lib env "avi.core" with
  | .ok v => (Codec.string.fromValue v).map .ok
  | .error e => some (.error e)

/-! ## Documents -/

/-- There is nothing, or one of the ids. -/
def Names (ids : Set String) (n : Node Value) : Prop :=
  n = .absent ∨ ∃ id ∈ ids, n = .leaf (.string id)

/-- At `avi.core` there is nothing, or one of the ids. -/
def NamesCore (ids : Set String) (d : Value) : Prop := Names ids (d.doc.node ["avi", "core"])

/-- Put at the path, the value sets nothing at `avi.core`, or one of the ids. -/
def SparesCoreAt (ids : Set String) (path : String) (value : Value) : Prop :=
  PathDoc.Diverge (segments path) ["avi", "core"] ∨
    ∃ r, segments path ++ r = ["avi", "core"] ∧ Names ids (value.doc.node r)

section Documents

variable {ids : Set String} {d : Value} {w : ContextWrite} {path : String} {value : Value}

/-- Whether a document names the core depends on `avi.core` alone. -/
theorem NamesCore.congr {d' : Value} (h : NamesCore ids d)
    (hsame : d'.doc.node ["avi", "core"] = d.doc.node ["avi", "core"]) : NamesCore ids d' := by
  unfold NamesCore
  rw [hsame]
  exact h

variable (ids) in
/-- Two documents that name a core merge to one that does. -/
theorem namesCore_layers : Value.Layers (NamesCore ids) := by
  intro a b c hc ha hb
  by_cases ho : a.doc.Open ["avi", "core"]
  · apply hb.congr
    rw [hc, PathDoc.onto_open ho]
  · apply ha.congr
    rw [hc, PathDoc.onto_not_open ho]

theorem namesCore_skeleton : NamesCore ids AviContext.skeleton := by
  left
  apply Value.doc_eq_absent_iff.mpr
  decide +kernel

/-- A value that is put elsewhere leaves `avi.core` alone, and above it brings its own. -/
theorem NamesCore.put {d' : Value} (h : NamesCore ids d)
    (hput : d'.doc = d.doc.put (segments path) value.doc) (hspares : SparesCoreAt ids path value) :
    NamesCore ids d' := by
  rcases hspares with hdiverge | ⟨r, hr, hnames⟩
  · apply h.congr
    rw [hput, PathDoc.put_diverging hdiverge]
  · have hbelow : d'.doc.below (segments path) = value.doc.node := by
      rw [hput, PathDoc.below_put]
    have hat : d'.doc.node (segments path ++ r) = value.doc.node r := congrFun hbelow r
    show Names ids (d'.doc.node ["avi", "core"])
    rw [← hr, hat]
    exact hnames

/-- What `update_ctx` sends. -/
theorem NamesCore.edit_update (h : NamesCore ids d)
    (hedit : (PathOp.update path value).edit d = .ok w) (hspares : SparesCoreAt ids path value) :
    NamesCore ids w.value := by
  obtain ⟨patch, rfl, -, hput⟩ := PathOp.edit_update hedit
  exact h.put hput hspares

/-- What `replace_ctx` sends. -/
theorem NamesCore.edit_replace (h : NamesCore ids d)
    (hedit : (PathOp.replace path value).edit d = .ok w) (hspares : SparesCoreAt ids path value) :
    NamesCore ids w.value := by
  obtain ⟨data, rfl, -, hput⟩ := PathOp.edit_replace hedit
  exact h.put hput hspares

/-- Deleting something puts nothing there. -/
theorem NamesCore.edit_delete (h : NamesCore ids d)
    (hedit : (PathOp.delete path).edit d = .ok w) : NamesCore ids w.value := by
  by_cases hpath : path = ""
  · rw [hpath] at hedit
    cases hedit
    left
    apply Value.doc_eq_absent_iff.mpr
    show Value.emptyObject.at? ["avi", "core"] = none
    decide +kernel
  · obtain ⟨data, rfl, -, hdoc⟩ := PathOp.edit_delete hedit hpath
    by_cases hbelow : segments path <+: ["avi", "core"]
    · left
      show data.doc.node _ = _
      rw [hdoc]
      rcases hbelow with ⟨r, hr⟩
      rw [← hr]
      exact congrFun (PathDoc.below_cut d.doc (Value.segments_ne_nil hpath)) r
    · apply h.congr
      show data.doc.node _ = _
      rw [hdoc, PathDoc.cut_outside hbelow]

/-- A core writes its id. -/
theorem sparesCoreAt_id {id : String} (hid : id ∈ ids) :
    SparesCoreAt ids "avi.core" (.string id) := by
  have hpath : segments "avi.core" = ["avi", "core"] := by decide +kernel
  right
  refine ⟨[], ?_, Or.inr ⟨id, hid, rfl⟩⟩
  rw [hpath, List.append_nil]

/-- What `get_core_id` makes of such a document. -/
theorem NamesCore.read (h : NamesCore ids d) :
    (∃ e, d.getCtx "avi.core" = .error e) ∨
      ∃ id ∈ ids, d.getCtx "avi.core" = .ok (.string id) := by
  have hpath : segments "avi.core" = ["avi", "core"] := by decide +kernel
  cases hget : d.getCtx "avi.core" with
  | error e => exact Or.inl ⟨e, rfl⟩
  | ok v =>
    have hat := Value.getCtx_eq_ok_iff.mp hget
    rw [hpath] at hat
    rcases h with habsent | ⟨id, hid, hleaf⟩
    · rw [Value.doc_eq_absent_iff.mp habsent] at hat
      cases hat
    · rw [Value.doc_eq_leaf_iff, Value.walk_eq_ok_iff] at hleaf
      have hsame : v = .string id := Option.some.inj (hat.symm.trans hleaf.1)
      rw [hsame]
      exact Or.inr ⟨id, hid, rfl⟩

end Documents

/-! ## Where the capabilities of a device stand -/

theorem segments_caps (id : String) :
    segments ("avi.device.caps." ++ id) = ["avi", "device", "caps"] ++ splitPath id := by
  have hdot : "avi.device.caps." ++ id = "avi.device.caps" ++ "." ++ id := by
    have hparent : "avi.device.caps." = "avi.device.caps" ++ "." := by decide
    rw [hparent]
  have hsplit : splitPath "avi.device.caps" = ["avi", "device", "caps"] := by decide +kernel
  have hne : "avi.device.caps." ++ id ≠ "" := by
    intro h
    have hchars := congrArg String.toList h
    rw [String.toList_append] at hchars
    exact absurd (congrArg List.length hchars) (by simp)
  unfold segments
  rw [if_neg hne, hdot, splitPath_append, hsplit]

/-- The announcement of a device does not touch `avi.core`. -/
theorem caps_diverges_core (id : String) :
    PathDoc.Diverge (segments ("avi.device.caps." ++ id)) ["avi", "core"] := by
  rw [segments_caps]
  have hshort : PathDoc.Diverge ["avi", "core"] ["avi", "device", "caps"] := by
    unfold PathDoc.Diverge
    decide
  exact (hshort.append (splitPath id)).symm

/-! ## Devices -/

/-- The call sets nothing at `avi.core` but one of the ids, and publishes no context. -/
def DeviceCall.SparesCore {Peer : Type} (lib : External Peer) (ids : Set String) :
    DeviceCall → Prop
  | .updateCtx path value | .replaceCtx path value => SparesCoreAt ids path value
  | .publish topic data => topic = Runtime.contextTopic → lib.decodeContext data = none
  | _ => True

namespace Devices

variable {ι Peer : Type} [DecidableEq ι] [LinearOrder Peer] {lib : External Peer}
  {peer : ι ↪ Peer} {s t : Devices ι Peer} {device : ι → AviDevice}

/-- The ids of the cores. -/
def coreIds (lib : External Peer) (peer : ι ↪ Peer) (device : ι → AviDevice) : Set String :=
  {id | ∃ n, (device n).deviceType = .core ∧ id = lib.toBase58 (peer n)}

/-- Applications set nothing at `avi.core` but the id of a core, also in whole documents that
they hand to their nodes, and publish no context. -/
def SparesCore (lib : External Peer) (ids : Set String) : Label ι Peer → Prop
  | .other l => Mesh.WritesHave lib (NamesCore ids) l
  | .spawn _ u => u.All (DeviceCall.SparesCore lib ids)
  | .receive _ app => ∀ u, app.Runs u → u.All (DeviceCall.SparesCore lib ids)
  | .task _ _ _ | .loop _ _ _ => True

omit [LinearOrder Peer] in
/-- The writes of such a call. -/
theorem meets_of_sparesCore {ids : Set String} {c : DeviceCall} (h : c.SparesCore lib ids) :
    c.Meets lib (NamesCore ids) fun w => NamesCore ids w.value := by
  cases c with
  | updateCtx path value => exact fun d w hd hedit => hd.edit_update hedit h
  | replaceCtx path value => exact fun d w hd hedit => hd.edit_replace hedit h
  | deleteCtx path => exact fun d w hd hedit => hd.edit_delete hedit
  | clearCtx =>
    left
    apply Value.doc_eq_absent_iff.mpr
    show (Value.object []).at? ["avi", "core"] = none
    decide +kernel
  | publish topic data => exact h
  | _ => exact True.intro

/-- What devices announce leaves `avi.core` alone, or names a core there. -/
theorem discipline_core :
    Discipline lib peer (Mesh.EveryDocument lib (NamesCore (coreIds lib peer device)))
      (NamesCore (coreIds lib peer device))
      (fun w => NamesCore (coreIds lib peer device) w.value) (fun _ => True) device := by
  refine ⟨fun net h n => h.node n, ?_, ?_, ?_⟩
  · -- the nodes merge documents that name the core alike
    intro net l net' hstep hkeeps hok h
    apply h.step (namesCore_layers _) hkeeps hstep
    cases l with
    | turn n env l => exact ⟨hok.1, fun w hw => (hok.2 w hw).1⟩
    | deliver n env source k => exact True.intro
  · -- an announcement is apart from `avi.core`
    intro n
    apply keeps_edit
    intro d w hd hedit
    exact hd.edit_update hedit (Or.inl (caps_diverges_core _))
  · -- the core writes its own id
    intro n
    unfold AviDevice.announceCore
    split_ifs with hcore
    · apply keeps_getCtx
      intro d hd
      cases d.getCtx "avi.core" with
      | ok v => exact True.intro
      | error e =>
        apply keeps_edit
        intro d w hd hedit
        exact hd.edit_update hedit (sparesCoreAt_id ⟨n, hcore, rfl⟩)
    · exact True.intro

/-- **The core is a core**: in every run in which applications set nothing at
`avi.core` but the id of a core, `get_core_id` panics on no node, and returns an error
or the id of a device that is a core. -/
theorem core_id_names_core {ls : List (Label ι Peer)}
    (h₀ : (devices lib peer).Init s) (hrun : (devices lib peer).run s ls = some t)
    (hkeeps : (devices lib peer).AllStates (fun s => s.net.ReadsBack lib) s ls)
    (hok : ∀ l ∈ ls, SparesCore lib (coreIds lib peer fun n => (s.loop n).device) l)
    (n : ι) (env : Env Peer) :
    ∃ res, (t.net.rt n).getCoreId lib env = some res ∧
      ∀ id, res = .ok id → ∃ m, (s.loop m).device.deviceType = .core ∧
        id = lib.toBase58 (peer m) := by
  -- every step is allowed by the discipline
  have hall : (devices lib peer).AllSteps (Allowed lib
      (NamesCore (coreIds lib peer fun n => (s.loop n).device))
      (fun w => NamesCore (coreIds lib peer fun n => (s.loop n).device) w.value)
      fun _ => True) s ls := by
    apply Machine.AllSteps.of_mem
    intro l hl u
    have hl := hok l hl
    cases l with
    | other l =>
      cases l with
      | turn n env l => exact ⟨hl.1, fun w hw => ⟨hl.2 w hw, True.intro⟩⟩
      | deliver n env source k => exact True.intro
    | spawn n v => exact keeps_code (UserCode.All.mono hl fun _ => meets_of_sparesCore)
    | receive n app =>
      intro v hv
      exact keeps_code (UserCode.All.mono (hl v hv) fun _ => meets_of_sparesCore)
    | task i env queued => exact fun _ _ => True.intro
    | loop n env queued => exact True.intro
  have hkept := run_kept h₀ (Mesh.init_everyDocument namesCore_skeleton h₀.1)
    discipline_core hrun hkeeps hall
  unfold Runtime.getCoreId
  rw [Runtime.getCtx_eq]
  -- nothing to read, or the id of a core
  rcases (hkept.net.node n).read with ⟨e, he⟩ | ⟨id, ⟨m, hcore, rfl⟩, hid⟩
  · rw [he]
    refine ⟨_, rfl, ?_⟩
    intro id h
    cases h
  · rw [hid]
    refine ⟨_, rfl, ?_⟩
    rintro id ⟨⟩
    exact ⟨m, hcore, rfl⟩

/-! ## A core that starts -/

/-- An application that has set nothing. -/
def quiet : Reactions where
  onStarted := none
  onPeerDiscovered := none
  onPeerConnected := none
  onPeerDisconnected := none
  subscriptionHandlers _ := []
  factories _ := none
  activeHandlers _ := none

theorem not_runs_quiet {u : UserCode} : ¬ quiet.Runs u := by
  intro h
  cases h with
  | onStarted u h => cases h
  | onPeerDiscovered u h => cases h
  | onPeerConnected u h => cases h
  | onPeerDisconnected u h => cases h
  | subscriptionHandler topic u h => cases h
  | createHandler reason u onAccepted h => cases h
  | onAccepted reason createHandler u h => cases h
  | activeHandler streamId u h => cases h

/-- `a` is a core, `b` is none. -/
def twoDevices : Devices Bool String where
  net := Mesh.twoStarted
  loop i := ⟨⟨if i then .core else .node, .object [], none⟩, [], none, []⟩
  tasks := []

/-- `a` starts, announces itself, and tells `b`. -/
def coreStarts : List (Label Bool String) :=
  [.other (.turn true (.calm String) (.swarm (.newListenAddr "/ip4/10.0.0.1"))),
    .receive true quiet] ++
  List.replicate 10 (.loop true (.calm String) fun _ => false) ++
  [.other (.turn true (.calm String) (.swarm (.identified "b" [] ["/avi/stream/1.0.0"]))),
    .other (.deliver false (.calm String) "a" 2)]

/-- The contexts of a core `a` with these capabilities while it starts. -/
def coreContexts (caps : Value) : List AviContext :=
  let device : Value := .object [("caps", .object [("a", caps)])]
  let first := (AviContext.new "a" 0).commit
    (.update (.object [("avi", .object [("device", device)])])) 0
  [first, first.commit (.update (.object [("avi", .object [("core", .string "a")])])) 0]

/-- These contexts can be written and read. -/
def coreLib (caps : Value) : External String := .table (coreContexts caps)

/-- All contexts of such a run are read back. -/
theorem readsBack_coreLib {caps : Value} {s : Devices Bool String}
    {ls : List (Label Bool String)} :
    (devices (coreLib caps) Mesh.twoPeers).AllStates (fun s => s.net.ReadsBack (coreLib caps))
      s ls :=
  Machine.AllStates.of_forall _ (fun _ _ => External.table_keeps _ _) s ls

theorem core_id_names_core_two :
    ∃ t, (devices (coreLib (.object [])) Mesh.twoPeers).run twoDevices coreStarts = some t ∧
      ∃ res, (t.net.rt false).getCoreId (coreLib (.object [])) (.calm String) = some res ∧
        ∀ id, res = .ok id → ∃ m, (twoDevices.loop m).device.deviceType = .core ∧
          id = (coreLib (.object [])).toBase58 (Mesh.twoPeers m) := by
  have hrun : ((devices (coreLib (.object [])) Mesh.twoPeers).run twoDevices
      coreStarts).isSome = true := by
    decide +kernel
  obtain ⟨t, ht⟩ := Option.isSome_iff_exists.mp hrun
  refine ⟨t, ht, core_id_names_core
    ⟨⟨fun _ => ⟨0, rfl⟩, rfl⟩, rfl, fun _ => ⟨rfl, rfl, rfl, rfl⟩⟩ ht readsBack_coreLib ?_
    false (.calm String)⟩
  intro l hl
  rcases List.mem_append.mp hl with hl | hl
  · rcases List.mem_append.mp hl with hl | hl
    · rcases List.mem_cons.mp hl with rfl | hl
      · exact ⟨True.intro, fun w hw => by cases hw⟩
      · rw [List.mem_singleton.mp hl]
        exact fun u hu => absurd hu not_runs_quiet
    · rw [List.eq_of_mem_replicate hl]
      exact True.intro
  · rcases List.mem_cons.mp hl with rfl | hl
    · exact ⟨True.intro, fun w hw => by cases hw⟩
    · rw [List.mem_singleton.mp hl]
      exact True.intro

end Devices

end AviNet
