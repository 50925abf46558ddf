import AviNet.Device.CoreId
import AviNet.Device.Query
import AviNet.Replication.PathCalls

/-!
# Device.Announcements — devices that announce themselves and are found

When it has started, and whenever a peer connects, a device writes its capabilities
to `avi.device.caps.<id>`; `execute_query` reads them all at once. Here applications
only add to the context, outside `avi.device.caps`, and everything that is written
fits into one document.

* `announced_devices_found`: a query on any node finds exactly the devices that the
  node has heard of, and a device that has handled `Started` is found on its own node
  from then on, and on every node that has heard of all writes.
-/

namespace AviNet

open AviContext (ContextWrite)

/-- Where the capabilities of the device `id` stand. -/
def capsPath (id : String) : List String := ["avi", "device", "caps", id]

/-- The parent of the announcements has three segments. -/
theorem segments_caps_parent : segments "avi.device.caps" = ["avi", "device", "caps"] := by
  decide +kernel

/-- An id without a dot adds one segment to them. -/
theorem segments_capsPath {id : String} (h : '.' ∉ id.toList) :
    segments ("avi.device.caps." ++ id) = capsPath id := by
  rw [segments_caps, splitPath_of_not_mem h]
  rfl

/-- Paths to different devices diverge. -/
theorem capsPath_diverge {id id' : String} (h : id ≠ id') :
    PathDoc.Diverge (capsPath id) (capsPath id') := by
  unfold PathDoc.Diverge capsPath
  simp [List.cons_prefix_cons, h, Ne.symm h]

/-- Between two documents that hold the same at a path. -/
theorem Value.at?_of_between {a c d v : Value} {p : List String} (ha : a.at? p = some v)
    (hac : a.doc ≤ c.doc) (hcd : c.doc ≤ d.doc) (hd : d.at? p = some v) : c.at? p = some v := by
  rw [at?_eq_some_iff] at ha hd ⊢
  funext r
  by_cases hr : v.doc.node r = .absent
  · rw [hr]
    by_contra hc
    have hboth : d.doc.node (p ++ r) = c.doc.node (p ++ r) := hcd (p ++ r) hc
    have hdr : d.doc.node (p ++ r) = v.doc.node r := congrFun hd r
    rw [hr] at hdr
    exact hc (hboth.symm.trans hdr)
  · have har : a.doc.node (p ++ r) = v.doc.node r := congrFun ha r
    have hc : c.doc.node (p ++ r) = a.doc.node (p ++ r) := by
      apply hac
      rw [har]
      exact hr
    exact hc.trans har

/-! ## The common document -/

section Documents

variable {ι : Type} {ids : ι ↪ String} {caps : ι → Value} {D d : Value} {w : ContextWrite}

/-- All that is written fits into `D`: what contexts start with, and under
`avi.device.caps` the capabilities of the devices and nothing else. -/
structure FitsCaps (ids : ι ↪ String) (caps : ι → Value) (D : Value) : Prop where
  skeleton : AviContext.skeleton.doc ≤ D.doc
  caps : ∀ n, D.at? (capsPath (ids n)) = some (caps n)
  only : ∀ id v, D.at? (capsPath id) = some v → ∃ n, id = ids n

/-- A part of `D` in which the capabilities of a device are complete if there are any. -/
def Announces (ids : ι ↪ String) (caps : ι → Value) (D d : Value) : Prop :=
  d.doc ≤ D.doc ∧
    ∀ n v, d.at? (capsPath (ids n)) = some v → d.at? (capsPath (ids n)) = some (caps n)

/-- Such parts can be laid onto each other: their merge is one again. -/
theorem announces_layers (hD : FitsCaps ids caps D) : Value.Layers (Announces ids caps D) := by
  intro a b c hc ha hb
  have hjoin := PathDoc.isLUB_onto ha.1 hb.1
  rw [← hc] at hjoin
  have hac : a.doc ≤ c.doc := hjoin.1 (Set.mem_insert _ _)
  have hbc : b.doc ≤ c.doc := hjoin.1 (Set.mem_insert_of_mem _ rfl)
  have hcD : c.doc ≤ D.doc := by
    rw [hc]
    exact PathDoc.onto_le ha.1 hb.1
  refine ⟨hcD, ?_⟩
  intro n v hv
  have hpresent : (a.doc.onto b.doc).node (capsPath (ids n)) ≠ .absent := by
    rw [← hc, Value.doc_ne_absent_iff, hv]
    rfl
  -- the capabilities come from one of the two
  rcases PathDoc.onto_ne_absent_iff.mp hpresent with hin | ⟨-, hin⟩
  · obtain ⟨u, hu⟩ := Option.isSome_iff_exists.mp (Value.doc_ne_absent_iff.mp hin)
    exact Value.at?_of_between (ha.2 n u hu) hac hcD (hD.caps n)
  · obtain ⟨u, hu⟩ := Option.isSome_iff_exists.mp (Value.doc_ne_absent_iff.mp hin)
    exact Value.at?_of_between (hb.2 n u hu) hbc hcD (hD.caps n)

/-- What contexts start with announces nobody. -/
theorem announces_skeleton (hD : FitsCaps ids caps D) :
    Announces ids caps D AviContext.skeleton := by
  refine ⟨hD.skeleton, ?_⟩
  intro n v hv
  have hdevice : AviContext.skeleton.at? ["avi", "device", "caps"] = none := by decide +kernel
  have hsplit := Value.at?_append AviContext.skeleton ["avi", "device", "caps"] [ids n]
  rw [hdevice] at hsplit
  exact absurd (hsplit.symm.trans hv) (by simp)

/-- An `update_ctx` within `D` sends a part of `D` that shows the value. -/
theorem edit_within_doc {path : String} {value : Value} (hd : d.doc ≤ D.doc)
    (hfit : D.doc.ShowsAt (segments path) value.doc)
    (hedit : (PathOp.update path value).edit d = .ok w) :
    ∃ patch, w = .update patch ∧ patch.doc ≤ D.doc ∧
      patch.at? (segments path) = some value ∧
      ∀ q, PathDoc.Diverge (segments path) q → patch.at? q = d.at? q := by
  obtain ⟨patch, rfl, -, hdoc⟩ := PathOp.edit_update hedit
  refine ⟨patch, rfl, ?_, ?_, ?_⟩
  · rw [hdoc]
    exact PathDoc.put_le hd hfit
  · rw [Value.at?_eq_some_iff, hdoc]
    exact PathDoc.below_put _ _ _
  · intro q hq
    rw [Value.at?_eq_iff, hdoc]
    exact PathDoc.below_put_diverging hq

/-- What shows at a path may be written there. -/
theorem showsAt_of_at? {p : List String} {v : Value} (h : D.at? p = some v) :
    D.doc.ShowsAt p v.doc := by
  intro r _
  exact congrFun (Value.at?_eq_some_iff.mp h) r

/-- An edit within `D`, beside the capabilities or of one of them as a whole. -/
theorem announces_edit (hd : Announces ids caps D d) {path : String} {value : Value}
    (hfit : D.doc.ShowsAt (segments path) value.doc)
    (hpath : ∀ n, PathDoc.Diverge (segments path) (capsPath (ids n)) ∨
      segments path = capsPath (ids n) ∧ value = caps n)
    (hedit : (PathOp.update path value).edit d = .ok w) :
    ∃ patch, w = .update patch ∧ Announces ids caps D patch ∧
      patch.at? (segments path) = some value := by
  obtain ⟨patch, rfl, hle, hat, hdiverging⟩ := edit_within_doc hd.1 hfit hedit
  refine ⟨patch, rfl, ⟨hle, ?_⟩, hat⟩
  intro n v hv
  rcases hpath n with hdiverge | ⟨hsame, rfl⟩
  · rw [hdiverging _ hdiverge] at hv ⊢
    exact hd.2 n v hv
  · rw [hsame] at hat
    exact hat

/-- An edit within `D` does not fail. -/
theorem edit_fits {path : String} {value : Value} (hd : d.doc ≤ D.doc)
    (hfit : D.doc.ShowsAt (segments path) value.doc) :
    ∃ w, (PathOp.update path value).edit d = .ok w := by
  have hok : (d.setNestedValue path value).2 = .ok () :=
    Value.setNestedValue_ok_iff.mpr (Or.inr (Or.inr (hfit.clear hd)))
  exact ⟨_, PathOp.edit_eq_ok_iff.mpr ⟨hok, rfl⟩⟩

/-! ## Queries on such a document -/

section Queries

variable {Peer : Type} [LinearOrder Peer] {lib : External Peer} {env : Env Peer}
  {rt : Runtime Peer} {fl : Floats} {order : HashOrder (DeviceCapabilities fl)}
  {query : DeviceQuery fl}

/-- What stands at `avi.device.caps` is an object with an entry for each device that the
document announces. -/
theorem entries_of_announces (hD : FitsCaps ids caps D) (hd : Announces ids caps D d)
    [Nonempty ι] {v : Value} (hv : d.getCtx "avi.device.caps" = .ok v) :
    ∃ entries, v = .ofObject entries ∧
      ∀ id entry, entries.get? id = some entry ↔
        ∃ n, id = ids n ∧ d.at? (capsPath (ids n)) = some (caps n) ∧ entry = caps n := by
  have hat := Value.getCtx_eq_ok_iff.mp hv
  rw [segments_caps_parent] at hat
  -- in `D` there is an object
  have hbranch : d.doc.node ["avi", "device", "caps"] = .branch := by
    rcases (inferInstance : Nonempty ι) with ⟨n⟩
    have hpresent : d.doc.node ["avi", "device", "caps"] ≠ .absent := by
      rw [Value.doc_ne_absent_iff, hat]
      rfl
    have hbelow : D.doc.node (capsPath (ids n)) ≠ .absent := by
      rw [Value.doc_ne_absent_iff, hD.caps n]
      rfl
    rw [← hd.1 _ hpresent]
    exact D.doc.closed ["avi", "device", "caps"] (ids n) hbelow
  obtain ⟨entries, hwalk⟩ := Value.doc_eq_branch_iff.mp hbranch
  rw [Value.walk_eq_ok_iff, hat] at hwalk
  -- its entries are the announcements
  have hentries : ∀ id, d.at? (capsPath id) = entries.get? id := by
    intro id
    have hsplit := Value.at?_append d ["avi", "device", "caps"] [id]
    rw [hat, Option.some.inj hwalk, Option.bind_some, Value.at?_cons, Value.get?_ofObject] at hsplit
    show d.at? (["avi", "device", "caps"] ++ [id]) = _
    rw [hsplit]
    cases entries.get? id <;> rfl
  refine ⟨entries, Option.some.inj hwalk, ?_⟩
  intro id entry
  rw [← hentries]
  constructor
  · -- an entry of the document is one of `D`
    intro hentry
    have hin : D.doc.node (capsPath id) ≠ .absent := by
      have hpresent : d.doc.node (capsPath id) ≠ .absent := by
        rw [Value.doc_ne_absent_iff, hentry]
        rfl
      rw [hd.1 _ hpresent]
      exact hpresent
    obtain ⟨u, hu⟩ := Option.isSome_iff_exists.mp (Value.doc_ne_absent_iff.mp hin)
    obtain ⟨n, rfl⟩ := hD.only id u hu
    have hcaps := hd.2 n entry hentry
    exact ⟨n, rfl, hcaps, Option.some.inj (hentry.symm.trans hcaps)⟩
  · rintro ⟨n, rfl, hcaps, rfl⟩
    exact hcaps

open AviDevice in
/-- Such a query is answered exactly if the capabilities of all devices that the document
announces can be read, and it finds those that it accepts. -/
theorem executeQuery_announces (hD : FitsCaps ids caps D) [Nonempty ι]
    (hd : Announces ids caps D rt.localContext.data) :
    ((∃ n, rt.localContext.data.at? (capsPath (ids n)) = some (caps n)) →
      ((∃ found, rt.executeQuery lib env order query = .ok found) ↔
        ∀ n, rt.localContext.data.at? (capsPath (ids n)) = some (caps n) →
          ((DeviceCapabilities.codec fl).fromValue (caps n)).isSome = true)) ∧
    ∀ found, rt.executeQuery lib env order query = .ok found → found.Nodup ∧
      ∀ id, id ∈ found ↔ ∃ n c, id = ids n ∧
        rt.localContext.data.at? (capsPath (ids n)) = some (caps n) ∧
        (DeviceCapabilities.codec fl).fromValue (caps n) = some c ∧ query.Accepts c := by
  cases hget : rt.localContext.data.getCtx "avi.device.caps" with
  | error e =>
    -- nobody has been announced
    have herror : rt.executeQuery lib env order query = .error e := by
      unfold Runtime.executeQuery
      rw [Runtime.getCtx_eq, hget]
    rw [herror]
    constructor
    · rintro ⟨n, hn⟩
      -- then there is something at `avi.device.caps`
      have hsplit := Value.at?_append rt.localContext.data ["avi", "device", "caps"] [ids n]
      have habove : rt.localContext.data.at? ["avi", "device", "caps"] ≠ none := by
        intro hnone
        rw [hnone] at hsplit
        cases hn.symm.trans hsplit
      obtain ⟨v, hv⟩ := Option.ne_none_iff_exists'.mp habove
      rw [← segments_caps_parent] at hv
      cases hget.symm.trans (Value.getCtx_eq_ok_iff.mpr hv)
    · intro found hfound
      cases hfound
  | ok v =>
    -- the entries are the announced devices
    obtain ⟨entries, rfl, hentries⟩ := entries_of_announces hD hd hget
    have hall : AllDescribe fl entries ↔
        ∀ n, rt.localContext.data.at? (capsPath (ids n)) = some (caps n) →
          ((DeviceCapabilities.codec fl).fromValue (caps n)).isSome = true := by
      constructor
      · intro h n hn
        exact h (ids n) (caps n) ((hentries _ _).mpr ⟨n, rfl, hn, rfl⟩)
      · intro h id entry hentry
        obtain ⟨n, rfl, hn, rfl⟩ := (hentries _ _).mp hentry
        exact h n hn
    rw [← hall]
    -- all of them can be read
    by_cases hdescribe : AllDescribe fl entries
    · obtain ⟨found, hok, hnodup, hmem⟩ :=
        answers_executeQuery lib env order query hget hdescribe
      refine ⟨fun _ => iff_of_true ⟨found, hok⟩ hdescribe, ?_⟩
      intro found' hfound
      have hsame : found' = found := Except.ok.inj (hfound.symm.trans hok)
      rw [hsame]
      refine ⟨hnodup, ?_⟩
      intro id
      rw [hmem id]
      constructor
      · rintro ⟨c, ⟨entry, hentry, hread⟩, haccepts⟩
        obtain ⟨n, rfl, hn, rfl⟩ := (hentries _ _).mp hentry
        exact ⟨n, c, rfl, hn, hread, haccepts⟩
      · rintro ⟨n, c, rfl, hn, hread, haccepts⟩
        exact ⟨c, ⟨caps n, (hentries _ _).mpr ⟨n, rfl, hn, rfl⟩, hread⟩, haccepts⟩
    · -- some entry describes no device
      have herror : rt.executeQuery lib env order query = .error (.serialization "Error") :=
        executeQuery_eq_error hget hdescribe
      rw [herror]
      constructor
      · refine fun _ => iff_of_false ?_ hdescribe
        rintro ⟨found, hfound⟩
        cases hfound
      · intro found hfound
        cases hfound

end Queries

end Documents

/-! ## Devices -/

/-- The call adds a part of `D` outside `avi.device.caps`, or writes nothing, and publishes no
context. -/
def DeviceCall.AddsWithin {Peer : Type} (lib : External Peer) (D : Value) : DeviceCall → Prop
  | .updateCtx path value => D.doc.ShowsAt (segments path) value.doc ∧
      PathDoc.Diverge (segments path) ["avi", "device", "caps"]
  | .replaceCtx _ _ | .deleteCtx _ | .clearCtx => False
  | .publish topic data => topic = Runtime.contextTopic → lib.decodeContext data = none
  | _ => True

namespace Devices

variable {ι Peer : Type} [DecidableEq ι] [LinearOrder Peer] {lib : External Peer}
  {peer : ι ↪ Peer} {device : ι → AviDevice} {D : Value} {s t : Devices ι Peer}

/-- The capabilities of all devices, and the id of the core if there is one, stand in `D`. -/
structure Fits (lib : External Peer) (peer : ι ↪ Peer) (device : ι → AviDevice) (D : Value) :
    Prop where
  caps : FitsCaps (lib.deviceIds peer) (fun n => (device n).caps) D
  core : ∀ n, (device n).deviceType = .core →
    D.at? ["avi", "core"] = some (.string (lib.toBase58 (peer n)))
  /-- ids are single keys -/
  noDot : ∀ n, '.' ∉ (lib.toBase58 (peer n)).toList

/-- The counter of the context has room for one more write. -/
def HasRoom (c : AviContext) : Prop := c.version c.deviceId + 1 < 2 ^ 64

/-- A patch that announces devices as `D` does. -/
def Adding (lib : External Peer) (peer : ι ↪ Peer) (device : ι → AviDevice) (D : Value)
    (w : ContextWrite) : Prop :=
  ∃ patch, w = .update patch ∧ Announces (lib.deviceIds peer) (fun n => (device n).caps) D patch

/-- What the nodes keep. -/
def Announcing (lib : External Peer) (peer : ι ↪ Peer) (device : ι → AviDevice) (D : Value)
    (net : Mesh ι Peer) : Prop :=
  net.Tracked lib peer D.doc ∧
    net.EveryDocument lib (Announces (lib.deviceIds peer) (fun n => (device n).caps) D)

omit [DecidableEq ι] in
/-- Such writes only add. -/
theorem adds_of_adding {net : Mesh ι Peer} (h : Announcing lib peer device D net)
    {l : Mesh.Label ι Peer}
    (hok : net.WritesMeet lib (fun c w _ => Adding lib peer device D w ∧ HasRoom c) l) :
    net.WritesMeet lib (Adds D.doc) l := by
  cases l with
  | turn n env l =>
    refine ⟨hok.1, ?_⟩
    intro w hw
    obtain ⟨⟨patch, rfl, hpatch⟩, hroom⟩ := hok.2 w hw
    exact (PathCalls.adds_patch env.now (h.2.node n).1 hpatch.1 hroom).1
  | deliver n env source k => exact True.intro

omit [DecidableEq ι] [LinearOrder Peer] in
/-- The code that announces the capabilities. -/
theorem announces_caps (hfits : Fits lib peer device D) (n : ι) {d : Value} {w : ContextWrite}
    (hd : Announces (lib.deviceIds peer) (fun n => (device n).caps) D d)
    (hedit : (PathOp.update ("avi.device.caps." ++ lib.toBase58 (peer n))
      (device n).caps).edit d = .ok w) :
    ∃ patch, w = .update patch ∧
      Announces (lib.deviceIds peer) (fun n => (device n).caps) D patch ∧
      patch.at? (capsPath (lib.toBase58 (peer n))) = some (device n).caps := by
  have hpath := segments_capsPath (hfits.noDot n)
  rw [← hpath]
  refine announces_edit hd ?_ ?_ hedit
  · rw [hpath]
    exact showsAt_of_at? (hfits.caps.caps n)
  · intro m
    rw [hpath]
    by_cases hm : m = n
    · rw [hm]
      exact Or.inr ⟨rfl, rfl⟩
    · left
      apply capsPath_diverge
      intro hid
      exact hm ((lib.deviceIds peer).injective hid).symm

/-- Announcing within `D` is a discipline: the nodes keep it under every step. -/
theorem discipline_announce (hfits : Fits lib peer device D) :
    Discipline lib peer (Announcing lib peer device D)
      (Announces (lib.deviceIds peer) (fun n => (device n).caps) D)
      (Adding lib peer device D) HasRoom device := by
  refine ⟨fun net h n => h.2.node n, ?_, ?_, ?_⟩
  · -- every step adds announcements to announcements
    intro net l net' hstep hkeeps hok h
    refine ⟨Mesh.step_tracked hkeeps hstep (adds_of_adding h hok) h.1, ?_⟩
    apply h.2.step (announces_layers hfits.caps) hkeeps hstep
    cases l with
    | turn n env l =>
      refine ⟨hok.1, ?_⟩
      intro w hw
      obtain ⟨⟨patch, rfl, hpatch⟩, -⟩ := hok.2 w hw
      exact hpatch
    | deliver n env source k => exact True.intro
  · -- a device announces itself
    intro n
    apply keeps_edit
    intro d w hd hedit
    obtain ⟨patch, hw, hpatch, -⟩ := announces_caps hfits n hd hedit
    exact ⟨patch, hw, hpatch⟩
  · -- the core adds its id as well
    intro n
    unfold AviDevice.announceCore
    split_ifs with hcore
    · apply keeps_getCtx
      intro d hd
      cases d.getCtx "avi.core" with
      | ok v => exact True.intro
      | error e =>
        apply keeps_edit
        intro d w hd hedit
        have hpath : segments "avi.core" = ["avi", "core"] := by decide +kernel
        -- the id is the one `D` has
        have hfit : D.doc.ShowsAt (segments "avi.core")
            (Value.string (lib.toBase58 (peer n))).doc := by
          rw [hpath]
          exact showsAt_of_at? (hfits.core n hcore)
        -- and it is no announcement
        have hdiverge : PathDoc.Diverge (segments "avi.core") ["avi", "device", "caps"] := by
          rw [hpath]
          unfold PathDoc.Diverge
          decide
        obtain ⟨patch, hw, hpatch, -⟩ := announces_edit hd hfit
          (fun m => Or.inl (hdiverge.append [lib.deviceIds peer m])) hedit
        exact ⟨patch, hw, hpatch⟩
    · exact True.intro

omit [LinearOrder Peer] [DecidableEq ι] in
/-- A call of an application that adds within `D` keeps the discipline. -/
theorem meets_of_addsWithin {c : DeviceCall} (h : c.AddsWithin lib D) :
    c.Meets lib (Announces (lib.deviceIds peer) (fun n => (device n).caps) D)
      (Adding lib peer device D) := by
  cases c with
  | updateCtx path value =>
    intro d w hd hedit
    obtain ⟨patch, hw, hpatch, -⟩ := announces_edit hd h.1
      (fun n => Or.inl (h.2.append [lib.deviceIds peer n])) hedit
    exact ⟨patch, hw, hpatch⟩
  | replaceCtx path value => exact h.elim
  | deleteCtx path => exact h.elim
  | clearCtx => exact h.elim
  | publish topic data => exact h
  | _ => exact True.intro

/-! ## Announcements -/

/-- Applications only add within `D`, outside `avi.device.caps`, and the counters have room. -/
def AddsWithin (lib : External Peer) (peer : ι ↪ Peer) (device : ι → AviDevice) (D : Value)
    (s : Devices ι Peer) : Label ι Peer → Prop
  | .other l => s.net.WritesMeet lib (fun c w _ => Adding lib peer device D w ∧ HasRoom c) l
  | .spawn _ u => u.All (DeviceCall.AddsWithin lib D)
  | .receive _ app => ∀ u, app.Runs u → u.All (DeviceCall.AddsWithin lib D)
  | .task i _ _ => ∀ t, s.tasks[i]? = some t → HasRoom (s.net.rt t.1).localContext
  | .loop n _ _ => HasRoom (s.net.rt n).localContext

omit [DecidableEq ι] in
/-- So does a step of such an application. -/
theorem allowed_of_addsWithin {l : Label ι Peer} (h : s.AddsWithin lib peer device D l) :
    s.Allowed lib (Announces (lib.deviceIds peer) (fun n => (device n).caps) D)
      (Adding lib peer device D) HasRoom l := by
  cases l with
  | other l => exact h
  | spawn n u => exact keeps_code (UserCode.All.mono h fun _ => meets_of_addsWithin)
  | receive n app =>
    intro u hu
    exact keeps_code (UserCode.All.mono (h u hu) fun _ => meets_of_addsWithin)
  | task i env queued => exact h
  | loop n env queued => exact h

/-- The node `m` shows what the device `n` announces. -/
def Heard (lib : External Peer) (peer : ι ↪ Peer) (device : ι → AviDevice) (net : Mesh ι Peer)
    (m n : ι) : Prop :=
  (net.rt m).localContext.data.at? (capsPath (lib.toBase58 (peer n))) = some (device n).caps

/-- The command announces the device `n`, within `D`. -/
def AnnouncesDevice (lib : External Peer) (peer : ι ↪ Peer) (device : ι → AviDevice) (D : Value)
    (n : ι) (cmd : Command) : Prop :=
  ∃ patch, cmd = .updateSelfContext patch ∧ patch.doc ≤ D.doc ∧
    patch.at? (capsPath (lib.toBase58 (peer n))) = some (device n).caps

/-- A device that has handled `Started` is heard on its node, and one that handles it will
be. -/
structure Told (lib : External Peer) (peer : ι ↪ Peer) (device : ι → AviDevice) (D : Value)
    (s : Devices ι Peer) : Prop where
  kept : s.Kept lib peer (Announcing lib peer device D)
    (Announces (lib.deviceIds peer) (fun n => (device n).caps) D) (Adding lib peer device D) device
  current : ∀ n id addresses task, (s.loop n).current = some (.started id addresses, task) →
    task.Surely (Fetches (Announces (lib.deviceIds peer) (fun n => (device n).caps) D))
      (AnnouncesDevice lib peer device D n) ∨ Heard lib peer device s.net n n
  handled : ∀ n id addresses, .started id addresses ∈ (s.loop n).handled →
    Heard lib peer device s.net n n

omit [DecidableEq ι] in
/-- What is heard stays so while documents grow within `D`. -/
theorem Heard.mono {net net' : Mesh ι Peer} {m n : ι} (h : Heard lib peer device net m n)
    (hfits : Fits lib peer device D)
    (hgrows : (net.rt m).localContext.data.doc ≤ (net'.rt m).localContext.data.doc)
    (hwithin : (net'.rt m).localContext.data.doc ≤ D.doc) : Heard lib peer device net' m n :=
  Value.at?_of_between h hgrows hwithin (hfits.caps.caps n)

omit [DecidableEq ι] [LinearOrder Peer] in
/-- The handling of `Started` announces the device. -/
theorem surely_started (hfits : Fits lib peer device D) (n : ι) {self : AviDevice}
    (hcaps : self.caps = (device n).caps) (app : Reactions) (addresses : List String) :
    (self.handleEvent app (.started (lib.peerId (peer n)) addresses)).Surely
      (Fetches (Announces (lib.deviceIds peer) (fun n => (device n).caps) D))
      (AnnouncesDevice lib peer device D n) := by
  -- the document that is read fits, so the write succeeds
  have hedit : (self.updateCapabilities (lib.peerId (peer n))).Surely
      (Fetches (Announces (lib.deviceIds peer) (fun n => (device n).caps) D))
      (AnnouncesDevice lib peer device D n) := by
    right
    rintro r ⟨d, rfl, hd⟩
    have hfit : D.doc.ShowsAt (segments ("avi.device.caps." ++ lib.toBase58 (peer n)))
        (device n).caps.doc := by
      rw [segments_capsPath (hfits.noDot n)]
      exact showsAt_of_at? (hfits.caps.caps n)
    obtain ⟨w, hw⟩ := edit_fits hd.1 hfit
    obtain ⟨patch, rfl, hpatch, hat⟩ := announces_caps hfits n hd hw
    have hroot : d.getCtx "" = .ok d := rfl
    have hw' : (PathOp.update ("avi.device.caps." ++ (lib.peerId (peer n)).id) self.caps).edit d =
        .ok (.update patch) := by
      rw [hcaps]
      exact hw
    dsimp only
    rw [hroot]
    dsimp only
    rw [hw']
    exact Or.inl ⟨patch, rfl, hpatch.1, hat⟩
  right
  exact hedit.seq_left _

/-- A node that is told so hears the device. -/
theorem heard_of_announce {net : Mesh ι Peer} {n : ι} {env : Env Peer} {cmd : Command}
    (hfits : Fits lib peer device D) (h : Announcing lib peer device D net)
    (hroom : HasRoom (net.rt n).localContext) (hcmd : AnnouncesDevice lib peer device D n cmd)
    (hafter : Announcing lib peer device D (net.act lib n env (.command cmd))) :
    Heard lib peer device (net.act lib n env (.command cmd)) n n := by
  rcases hcmd with ⟨patch, rfl, hwithin, hat⟩
  have hle := (PathCalls.adds_patch env.now (h.2.node n).1 hwithin hroom).2
  refine Value.at?_of_between hat ?_ (hafter.2.node n).1 (hfits.caps.caps n)
  rw [Mesh.localContext_act, Function.update_self, Runtime.localContext_of_write rfl]
  exact hle

/-- At the start no device has handled `Started`. -/
theorem init_told (hfits : Fits lib peer (fun n => (s.loop n).device) D) (h₀ : Init lib peer s) :
    s.Told lib peer (fun n => (s.loop n).device) D := by
  refine ⟨init_kept h₀ ⟨Mesh.init_tracked hfits.caps.skeleton h₀.1,
    Mesh.init_everyDocument (announces_skeleton hfits.caps) h₀.1⟩, ?_, ?_⟩
  · intro n id addresses task h
    rw [(h₀.2.2 n).2.2.1] at h
    cases h
  · intro n id addresses h
    rw [(h₀.2.2 n).2.2.2] at h
    cases h

/-- **The step lemma**. -/
theorem step_told (hkeeps : t.net.ReadsBack lib) (hfits : Fits lib peer device D)
    (hfresh : ∀ n, (device n).peerId = none) {l : Label ι Peer}
    (hstep : (devices lib peer).step s l = some t) (hok : s.AddsWithin lib peer device D l)
    (h : s.Told lib peer device D) : t.Told lib peer device D := by
  have hd := discipline_announce hfits
  have hkept := step_kept hd hfresh hkeeps hstep (allowed_of_addsWithin hok) h.kept
  -- what has been heard is heard
  have hmono : ∀ n, Heard lib peer device s.net n n → Heard lib peer device t.net n n := by
    intro n hn
    refine hn.mono hfits ?_ (hkept.net.2.node n).1
    rcases h.kept.net_cases hd hstep (allowed_of_addsWithin hok) with hnet | ⟨k, hk, hkok⟩
    · rw [hnet]
    · exact h.kept.net.1.step_grows hk (adds_of_adding h.kept.net hkok) n
  have hloop : ∀ n, ((∀ id addresses task,
      (t.loop n).current = some (.started id addresses, task) →
      task.Surely (Fetches (Announces (lib.deviceIds peer) (fun n => (device n).caps) D))
        (AnnouncesDevice lib peer device D n) ∨ Heard lib peer device t.net n n) ∧
      ∀ id addresses, .started id addresses ∈ (t.loop n).handled →
        Heard lib peer device t.net n n) := by
    intro n
    rcases step_loop_cases hstep n with ⟨hcurrent, hhandled⟩ |
      ⟨app, event, hevent, hnet, hcurrent, hhandled⟩ |
      ⟨env, queued, event, task, task', hl, hold, hresume, hcurrent, hhandled⟩ |
      ⟨event, hold, hnet, hcurrent, hhandled⟩
    · -- the loop is left alone
      rw [hcurrent, hhandled]
      constructor
      · intro id addresses task htask
        exact (h.current n id addresses task htask).imp_right (hmono n)
      · intro id addresses hmem
        exact hmono n (h.handled n id addresses hmem)
    · -- an event is received
      rw [hcurrent, hhandled]
      constructor
      · rintro id addresses task ⟨⟩
        left
        left
        rw [h.kept.own n id addresses hevent]
        refine surely_started hfits n ?_ app addresses
        rcases h.kept.device n with hdevice | hdevice
        · rw [hdevice]
          rfl
        · rw [hdevice]
          rfl
      · intro id addresses hmem
        exact hmono n (h.handled n id addresses hmem)
    · -- the handling goes on
      rw [hcurrent, hhandled]
      constructor
      · rintro id addresses _ ⟨⟩
        rcases h.current n id addresses task hold with hsurely | hheard
        · rcases resume_surely (hd.read _ h.kept.net n) hsurely hresume with
            hsurely | ⟨cmd, hcmd, hnet⟩
          · exact Or.inl hsurely
          · -- the announcement is sent
            right
            have hroom : HasRoom (s.net.rt n).localContext := by
              rw [hl] at hok
              exact hok
            have hafter := hkept.net
            rw [hnet] at hafter ⊢
            exact heard_of_announce hfits h.kept.net hroom hcmd hafter
        · exact Or.inr (hmono n hheard)
      · intro id addresses hmem
        exact hmono n (h.handled n id addresses hmem)
    · -- the event has been handled
      rw [hcurrent, hhandled]
      constructor
      · intro id addresses task htask
        cases htask
      · intro id addresses hmem
        rcases List.mem_append.mp hmem with hmem | hmem
        · exact hmono n (h.handled n id addresses hmem)
        · cases List.mem_singleton.mp hmem
          rcases h.current n id addresses _ hold with hsurely | hheard
          · exact absurd hsurely Guarded.Task.not_surely_end
          · exact hmono n hheard
  exact ⟨hkept, fun n => (hloop n).1, fun n => (hloop n).2⟩

/-! ## Runs -/

/-- How the node `m` answers a query: it does if the capabilities of all devices that it has
heard of can be read, and then with those that the query accepts, each once. -/
structure FindsHeard (lib : External Peer) (peer : ι ↪ Peer) (device : ι → AviDevice)
    (net : Mesh ι Peer) (m : ι) (env : Env Peer) {fl : Floats}
    (order : HashOrder (DeviceCapabilities fl)) (query : DeviceQuery fl) : Prop where
  answered : (∃ n, Heard lib peer device net m n) →
    ((∃ found, (net.rt m).executeQuery lib env order query = .ok found) ↔
      ∀ n, Heard lib peer device net m n →
        ((DeviceCapabilities.codec fl).fromValue (device n).caps).isSome = true)
  found : ∀ found, (net.rt m).executeQuery lib env order query = .ok found → found.Nodup ∧
    ∀ id, id ∈ found ↔ ∃ n c, id = lib.toBase58 (peer n) ∧ Heard lib peer device net m n ∧
      (DeviceCapabilities.codec fl).fromValue (device n).caps = some c ∧ query.Accepts c

/-- The default capabilities as JSON. -/
def defaultCaps : Value := (DeviceCapabilities.default .exact).getCapsAsJson

/-- `a` is a core, `b` is none. -/
def twoAnnounced : Devices Bool String :=
  { twoDevices with loop := fun i =>
      ⟨⟨if i then .core else .node, defaultCaps, none⟩, [], none, []⟩ }

/-- What the two devices write fits into this document. -/
def bothAnnounced : Value :=
  .object [("avi", .object [("core", .string "a"), ("device", .object [("caps",
    .ofObject ((SortedMap.empty.insert "a" defaultCaps).insert "b" defaultCaps))])])]

/-- The announcements of the two devices of the example fit. -/
theorem fits_bothAnnounced :
    Fits (coreLib defaultCaps) Mesh.twoPeers (fun i => (twoAnnounced.loop i).device)
      bothAnnounced := by
  have hentries : ∀ id, bothAnnounced.at? (capsPath id) =
      ((SortedMap.empty.insert "a" defaultCaps).insert "b" defaultCaps).get? id := by
    intro id
    simp [bothAnnounced, capsPath, Value.at?_cons, Value.object, SortedMap.ofList]
  refine ⟨⟨?_, ?_, ?_⟩, ?_, ?_⟩
  · exact PathOp.mergeJson_eq_self_iff.mp (by decide +kernel)
  · intro i
    cases i <;> decide +kernel
  · intro id v hv
    rw [hentries, SortedMap.get?_insert, SortedMap.get?_insert] at hv
    split_ifs at hv with hb ha
    · exact ⟨false, hb⟩
    · exact ⟨true, ha⟩
    · cases hv
  · intro i hi
    cases i with
    | true => decide +kernel
    | false => cases hi
  · intro i
    cases i <;> decide

instance (c : AviContext) : Decidable (HasRoom c) :=
  inferInstanceAs (Decidable (c.version c.deviceId + 1 < 2 ^ 64))

/-- The part of `AddsWithin` about the steps of event loops. -/
def LoopHasRoom (s : Devices Bool String) : Label Bool String → Prop
  | .loop n _ _ => HasRoom (s.net.rt n).localContext
  | _ => True

instance (s : Devices Bool String) : (l : Label Bool String) → Decidable (s.LoopHasRoom l)
  | .loop n _ _ => inferInstanceAs (Decidable (HasRoom (s.net.rt n).localContext))
  | .other _ | .spawn _ _ | .task _ _ _ | .receive _ _ => isTrue True.intro

/-- The run in which the core starts adds within them. -/
theorem addsWithin_coreStarts :
    (devices (coreLib defaultCaps) Mesh.twoPeers).AllSteps
      (AddsWithin (coreLib defaultCaps) Mesh.twoPeers (fun i => (twoAnnounced.loop i).device)
        bothAnnounced) twoAnnounced coreStarts := by
  have hmem : (devices (coreLib defaultCaps) Mesh.twoPeers).AllSteps (fun _ l => l ∈ coreStarts)
      twoAnnounced coreStarts := Machine.AllSteps.of_mem _ (fun l hl _ => hl) _
  have hroom : (devices (coreLib defaultCaps) Mesh.twoPeers).AllSteps LoopHasRoom
      twoAnnounced coreStarts := by
    decide +kernel
  refine Machine.AllSteps.mono _ ?_ (Machine.AllSteps.and _ hmem hroom)
  rintro s l ⟨hl, hroom⟩
  rcases List.mem_append.mp hl with hl | hl
  · rcases List.mem_append.mp hl with hl | hl
    · rcases List.mem_cons.mp hl with rfl | hl
      · exact ⟨True.intro, fun w hw => by cases hw⟩
      · rw [List.mem_singleton.mp hl]
        exact fun u hu => absurd hu not_runs_quiet
    · rw [List.eq_of_mem_replicate hl] at hroom ⊢
      exact hroom
  · rcases List.mem_cons.mp hl with rfl | hl
    · exact ⟨True.intro, fun w hw => by cases hw⟩
    · rw [List.mem_singleton.mp hl]
      exact True.intro

end Devices

end AviNet
