import AviNet.Context
import AviNet.Path

/-!
# ContextApi — the path-wise writes of an application

`AviDevice::update_ctx`, `AviDevice::replace_ctx` and `AviP2pHandle::delete_ctx`
all read the whole document, edit their copy at a path and send the copy back,
as a patch (`update_ctx`) or as the new document. The bridge writes a sensor
value as `update_ctx` does.

* `edit_update`, `edit_replace`, `edit_delete`, `below_edit`: what is sent back;
* `doc_commit_update`, `data_commit_replace`: what the runtime makes of it.
-/

namespace AviNet

open AviContext (ContextWrite)

/-- The document a write carries. -/
def AviContext.ContextWrite.value : ContextWrite → Value
  | .update patch => patch
  | .replace data => data

/-- A path-wise write. -/
inductive PathOp where
  /-- `AviDevice::update_ctx` -/
  | update (path : String) (value : Value)
  /-- `AviDevice::replace_ctx` -/
  | replace (path : String) (value : Value)
  /-- `AviP2pHandle::delete_ctx` -/
  | delete (path : String)

namespace PathOp

/-! ## The code -/

def path : PathOp → String
  | .update path _ | .replace path _ | .delete path => path

/-- The copy of the document after the edit, and the result of the edit. -/
def editCopy (op : PathOp) (currentCtx : Value) : Value × Except AviP2pError Unit :=
  match op with
  | .update path value | .replace path value => currentCtx.setNestedValue path value
  | .delete path => currentCtx.deleteNestedValue path

/-- The command that sends the copy back. -/
def command (op : PathOp) (currentCtx : Value) : ContextWrite :=
  match op with
  | .update _ _ => .update currentCtx
  | .replace _ _ | .delete _ => .replace currentCtx

/-- The command sent for the document read, or the error returned instead. -/
def edit (op : PathOp) (currentCtx : Value) : Except AviP2pError ContextWrite :=
  (op.editCopy currentCtx).2.map fun _ => op.command (op.editCopy currentCtx).1

/-- The write of the bridge for a `SensorUpdate` packet. -/
def sensorUpdate (deviceId : ℕ) (sensorName : String) (payload : Value) : PathOp :=
  .update ("avi.sensors." ++ toString deviceId ++ "." ++ sensorName) payload

/-! ## What is sent back -/

section Sent

variable {d : Value} {w : ContextWrite} {path : String} {value : Value}

theorem edit_eq_ok_iff {op : PathOp} :
    op.edit d = .ok w ↔ (op.editCopy d).2 = .ok () ∧ w = op.command (op.editCopy d).1 := by
  unfold edit
  cases (op.editCopy d).2 with
  | error e => simp [Except.map]
  | ok u => simp [Except.map, eq_comm]

/-- `update_ctx` sends the edited document as a patch. -/
theorem edit_update (h : (PathOp.update path value).edit d = .ok w) :
    ∃ patch, w = .update patch ∧ (d.setNestedValue path value).2 = .ok () ∧
      patch.doc = d.doc.put (segments path) value.doc := by
  rcases edit_eq_ok_iff.mp h with ⟨hok, hw⟩
  exact ⟨_, hw, hok, Value.doc_setNestedValue hok⟩

/-- `replace_ctx` sends the same document as a replacement. -/
theorem edit_replace (h : (PathOp.replace path value).edit d = .ok w) :
    ∃ data, w = .replace data ∧ (d.setNestedValue path value).2 = .ok () ∧
      data.doc = d.doc.put (segments path) value.doc := by
  rcases edit_eq_ok_iff.mp h with ⟨hok, hw⟩
  exact ⟨_, hw, hok, Value.doc_setNestedValue hok⟩

/-- `delete_ctx` sends the document without the path. -/
theorem edit_delete (h : (PathOp.delete path).edit d = .ok w) (hp : path ≠ "") :
    ∃ data, w = .replace data ∧ d.doc.Clear (segments path) ∧
      data.doc = d.doc.cut (segments path) := by
  rcases edit_eq_ok_iff.mp h with ⟨hok, hw⟩
  exact ⟨_, hw, Value.doc_deleteNestedValue hok hp⟩

/-- At a path diverging from the one written, the command carries what was read there. -/
theorem below_edit {op : PathOp} {p : List String} (h : op.edit d = .ok w)
    (hp : PathDoc.Diverge (segments op.path) p) : w.value.doc.below p = d.doc.below p := by
  cases op with
  | update path value =>
    obtain ⟨patch, rfl, -, hdoc⟩ := edit_update h
    show patch.doc.below p = _
    rw [hdoc]
    exact PathDoc.below_put_diverging hp
  | replace path value =>
    obtain ⟨data, rfl, -, hdoc⟩ := edit_replace h
    show data.doc.below p = _
    rw [hdoc]
    exact PathDoc.below_put_diverging hp
  | delete path =>
    have hne : path ≠ "" := fun he => hp.ne_nil ((Value.segments_eq_nil_iff path).mpr he)
    obtain ⟨data, rfl, -, hdoc⟩ := edit_delete h hne
    show data.doc.below p = _
    rw [hdoc]
    exact PathDoc.below_cut_diverging hp

end Sent

end PathOp

namespace AviContext

/-- A patch is laid over the document. -/
theorem doc_commit_update (c : AviContext) (patch : Value) (now : UInt64) :
    (c.commit (.update patch) now).data.doc = patch.doc.onto c.data.doc :=
  Value.doc_deepMerge_false _ _

theorem data_commit_replace (c : AviContext) (data : Value) (now : UInt64) :
    (c.commit (.replace data) now).data = data := rfl

end AviContext

end AviNet
