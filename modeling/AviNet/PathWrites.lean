import AviNet.ContextApi

/-!
# PathWrites — what path-wise writes do to each other's paths

A write reads a document, edits its copy and sends it back; by then the
document may have changed. In terms of the values at the two paths:

* `at?_own`: the path written afterwards holds `written`, a function of what it
  held, whatever happened to other paths;
* `at?_diverging`: from a fresh copy, diverging paths keep what they hold;
* `at?_stale_replace`, `at?_stale_update`: from a stale copy they fall back to
  what the copy holds, or are overlaid with it;
* `kept_iff`: when the first of two writes from the same copy survives the second;
* `at?_unchanged_iff`: what a patch from a fresh copy leaves unchanged, on nested paths too.
-/

namespace AviNet

open AviContext (ContextWrite)

/-- The document after the command has been executed on it. -/
def AviContext.ContextWrite.applyTo (w : ContextWrite) (data : Value) : Value :=
  match w with
  | .update patch => data.mergeJson patch
  | .replace data => data

namespace PathOp

/-- The document after the call, if it runs alone. -/
def alone (op : PathOp) (before : Value) : Value :=
  match op.edit before with
  | .ok w => w.applyTo before
  | .error _ => before

/-- What the call leaves at its path, where `old` was before. -/
def written (op : PathOp) (old : Option Value) : Option Value :=
  match op, old with
  | .update _ value, none => some value
  | .update _ value, some o => some (o.mergeJson value)
  | .replace _ value, _ => some value
  | .delete _, _ => none

/-- The call sends its copy as a patch, not as the new document. -/
def isPatch : PathOp → Bool
  | .update _ _ => true
  | .replace _ _ | .delete _ => false

/-- The write `f`, at a path that held `old`, survives a later write `g` made
from the same copy of the document. -/
def Kept (f g : PathOp) (old : Option Value) : Prop :=
  match f, old with
  | .delete _, none => True
  | .delete _, some _ => False
  | .update _ _, none | .replace _ _, none => g.isPatch = true
  | .replace _ value, some o => if g.isPatch then o.doc ≤ value.doc else o = value
  | .update _ value, some o =>
    if g.isPatch then value.doc.Agree o.doc else value.doc ≤ o.doc

/-- The edited copy is sent back. -/
theorem alone_of_ok {op : PathOp} {d : Value} (h : (op.editCopy d).2 = .ok ()) :
    op.alone d = (op.command (op.editCopy d).1).applyTo d := by
  have hedit : op.edit d = .ok (op.command (op.editCopy d).1) := edit_eq_ok_iff.mpr ⟨h, rfl⟩
  unfold alone
  rw [hedit]

/-- An edit that fails sends nothing. -/
theorem alone_of_error {op : PathOp} {d : Value} {e : AviP2pError}
    (h : (op.editCopy d).2 = .error e) : op.alone d = d := by
  unfold alone edit
  rw [h]
  rfl

/-! ## At the path itself -/

section Own

variable {d e : Value} {w : ContextWrite} {op : PathOp}

theorem doc_applyTo_update (patch data : Value) :
    ((ContextWrite.update patch).applyTo data).doc = patch.doc.onto data.doc :=
  Value.doc_deepMerge_false _ _

/-- A patch that holds `v` at a path merges `v` into what is there. -/
theorem at?_patch {patch data v : Value} {p : List String} (h : patch.at? p = some v) :
    ((ContextWrite.update patch).applyTo data).at? p =
      some (match data.at? p with
        | some o => o.mergeJson v
        | none => v) := by
  have hp : patch.doc.node p ≠ .absent := by
    rw [Value.doc_ne_absent_iff, h]
    rfl
  rw [Value.at?_eq_some_iff, doc_applyTo_update]
  cases ho : data.at? p with
  | none =>
    rw [PathDoc.below_onto_left (Value.doc_eq_absent_iff.mpr ho), Value.below_doc h]
  | some o =>
    have hd : data.doc.node p ≠ .absent := by
      rw [Value.doc_ne_absent_iff, ho]
      rfl
    -- both sub-documents are those of the values found
    have hv : patch.doc.sub p hp = v.doc := PathDoc.ext (congrFun (Value.below_doc h))
    have ho' : data.doc.sub p hd = o.doc := PathDoc.ext (congrFun (Value.below_doc ho))
    rw [PathDoc.below_onto hp hd, hv, ho']
    show (v.doc.onto o.doc).node = (o.mergeJson v).doc.node
    rw [Value.mergeJson, Value.doc_deepMerge_false]

/-- The path written holds `written`, even if the copy `d` is stale elsewhere. -/
theorem at?_own (h : op.edit d = .ok w) (hpath : op.path ≠ "")
    (hsame : e.at? (segments op.path) = d.at? (segments op.path)) :
    (w.applyTo e).at? (segments op.path) = op.written (d.at? (segments op.path)) := by
  cases op with
  | update path value =>
    obtain ⟨patch, rfl, -, hdoc⟩ := edit_update h
    have hat : patch.at? (segments path) = some value := by
      rw [Value.at?_eq_some_iff, hdoc, PathDoc.below_put]
    rw [show segments (PathOp.update path value).path = segments path from rfl] at hsame ⊢
    rw [at?_patch hat, hsame]
    cases d.at? (segments path) <;> rfl
  | replace path value =>
    obtain ⟨data, rfl, -, hdoc⟩ := edit_replace h
    show data.at? (segments path) = some value
    rw [Value.at?_eq_some_iff, hdoc, PathDoc.below_put]
  | delete path =>
    obtain ⟨data, rfl, -, hdoc⟩ := edit_delete h hpath
    show data.at? (segments path) = none
    rw [← Value.doc_eq_absent_iff, hdoc]
    have habs := congrFun (PathDoc.below_cut d.doc (Value.segments_ne_nil hpath)) []
    rwa [PathDoc.below, List.append_nil] at habs

theorem at?_alone (h : op.edit d = .ok w) (hpath : op.path ≠ "") :
    (op.alone d).at? (segments op.path) = op.written (d.at? (segments op.path)) := by
  unfold alone
  rw [h]
  exact at?_own h hpath rfl

end Own

/-! ## At diverging paths -/

section Diverging

variable {d e : Value} {w : ContextWrite} {op : PathOp} {p : List String}

/-- The command carries what the copy holds at a diverging path. -/
theorem at?_value (h : op.edit d = .ok w) (hdiv : PathDoc.Diverge (segments op.path) p) :
    w.value.at? p = d.at? p :=
  Value.at?_eq_iff.mpr (below_edit h hdiv)

/-- A write from a fresh copy leaves diverging paths alone. -/
theorem at?_diverging (h : op.edit d = .ok w) (hdiv : PathDoc.Diverge (segments op.path) p) :
    (w.applyTo d).at? p = d.at? p := by
  have hbelow := below_edit h hdiv
  rw [Value.at?_eq_iff]
  cases w with
  | replace data => exact hbelow
  | update patch =>
    rw [doc_applyTo_update]
    -- the patch holds there what the document holds
    have hbelow' : patch.doc.below p = d.doc.below p := hbelow
    rw [← PathDoc.below_onto_congr (a := patch.doc) hbelow', PathDoc.onto_self, hbelow']

/-- A replacement brings back what the stale copy held. -/
theorem at?_stale_replace (h : op.edit d = .ok w) (hop : op.isPatch = false)
    (hdiv : PathDoc.Diverge (segments op.path) p) : (w.applyTo e).at? p = d.at? p := by
  rw [← at?_value h hdiv]
  rcases edit_eq_ok_iff.mp h with ⟨-, hw⟩
  cases op with
  | update path value => cases hop
  | replace path value => rw [hw]; rfl
  | delete path => rw [hw]; rfl

/-- A patch overlays the document with what the stale copy held. -/
theorem at?_stale_update (h : op.edit d = .ok w) (hop : op.isPatch = true)
    (hdiv : PathDoc.Diverge (segments op.path) p) (hclear : d.doc.Clear p ∨ d.isObject = false) :
    (w.applyTo e).at? p = match d.at? p with
      | some o => some (match e.at? p with
        | some n => n.mergeJson o
        | none => o)
      | none => e.at? p := by
  have hvalue := at?_value h hdiv
  cases op with
  | replace path value => cases hop
  | delete path => cases hop
  | update path value =>
    obtain ⟨patch, rfl, -, hdoc⟩ := edit_update h
    have hvalue' : patch.at? p = d.at? p := hvalue
    cases hd : d.at? p with
    | some o => exact at?_patch (hvalue'.trans hd)
    | none =>
      -- nothing stands on the way to `p` in the patch either
      have hopen : patch.doc.Open p := by
        refine PathDoc.Clear.open ?_ (Value.doc_eq_absent_iff.mpr (hvalue'.trans hd))
        intro r v hrp hne hv
        rw [hdoc] at hv
        by_cases hrq : r <+: segments path
        · have hne' : r ≠ segments path := fun he => hdiv.1 (he ▸ hrp)
          rw [PathDoc.put_above hrq hne'] at hv
          cases hv
        · have hqr : ¬ segments path <+: r := fun hqr => hdiv.1 (hqr.trans hrp)
          rw [PathDoc.put_diverging ⟨hqr, hrq⟩] at hv
          rcases hclear with hclear | hobj
          · exact hclear r v hrp hne hv
          · -- below a document that is no object there is nothing
            cases r with
            | nil => exact hrq List.nil_prefix
            | cons k r =>
              rw [Value.doc_node_cons, Value.get?_of_not_object (by simp [hobj])] at hv
              cases hv
      rw [Value.at?_eq_iff, doc_applyTo_update]
      exact PathDoc.below_onto_open hopen

end Diverging

/-! ## Two writes -/

section Two

variable {d : Value} {f g : PathOp} {wf wg : ContextWrite}

/-- What success of an edit says about the copy. -/
theorem clear_of_edit {op : PathOp} {w : ContextWrite} (h : op.edit d = .ok w)
    (hpath : op.path ≠ "") : d.doc.Clear (segments op.path) ∨ d.isObject = false := by
  have hset : ∀ {path value}, path ≠ "" → (d.setNestedValue path value).2 = .ok () →
      d.doc.Clear (segments path) ∨ d.isObject = false := by
    intro path value hne hok
    rcases Value.setNestedValue_ok_iff.mp hok with he | hobj | hclear
    · exact absurd he hne
    · exact Or.inr (by simpa using hobj)
    · exact Or.inl hclear
  cases op with
  | update path value =>
    obtain ⟨-, -, hok, -⟩ := edit_update h
    exact hset hpath hok
  | replace path value =>
    obtain ⟨-, -, hok, -⟩ := edit_replace h
    exact hset hpath hok
  | delete path =>
    obtain ⟨-, -, hclear, -⟩ := edit_delete h hpath
    exact Or.inl hclear

/-- Merging in `o` changes nothing if `o` says nothing new. -/
theorem mergeJson_eq_self_iff {n o : Value} : n.mergeJson o = n ↔ o.doc ≤ n.doc := by
  rw [← Value.doc_injective.eq_iff, Value.mergeJson, Value.doc_deepMerge_false]
  exact PathDoc.onto_eq_right_iff

/-- **Two writes from the same copy**: the first survives the second exactly under `Kept`. -/
theorem kept_iff (hf : f.edit d = .ok wf) (hg : g.edit d = .ok wg) (hpath : f.path ≠ "")
    (hdiv : PathDoc.Diverge (segments g.path) (segments f.path)) :
    (wg.applyTo (wf.applyTo d)).at? (segments f.path) = f.written (d.at? (segments f.path)) ↔
      Kept f g (d.at? (segments f.path)) := by
  have hown := at?_own (e := d) hf hpath rfl
  unfold Kept
  cases hgp : g.isPatch with
  | false =>
    -- the second write brings back what the copy held
    rw [at?_stale_replace hg hgp hdiv]
    cases hold : d.at? (segments f.path) with
    | none => cases f <;> simp [written]
    | some o =>
      cases f with
      | update path value =>
        show some o = some (o.mergeJson value) ↔ _
        rw [Option.some.injEq, eq_comm, mergeJson_eq_self_iff]
        simp
      | replace path value =>
        show some o = some value ↔ _
        simp
      | delete path => simp [written]
  | true =>
    -- the second write overlays what the copy held
    rw [at?_stale_update hg hgp hdiv (clear_of_edit hf hpath), hown]
    cases hold : d.at? (segments f.path) with
    | none => cases f <;> simp [written]
    | some o =>
      cases f with
      | update path value =>
        show some ((o.mergeJson value).mergeJson o) = some (o.mergeJson value) ↔ _
        rw [Option.some.injEq, mergeJson_eq_self_iff, Value.mergeJson, Value.doc_deepMerge_false]
        simpa using PathDoc.le_onto_right_iff
      | replace path value =>
        show some (value.mergeJson o) = some value ↔ _
        rw [Option.some.injEq, mergeJson_eq_self_iff]
        simp
      | delete path => simp [written]

/-- A path-wise set that succeeds after another write would have succeeded before it. -/
theorem edit_ok_before (hf : f.edit d = .ok wf) (hpath : f.path ≠ "")
    (hg : g.edit (wf.applyTo d) = .ok wg) (hgpath : g.path ≠ "")
    (hdiv : PathDoc.Diverge (segments f.path) (segments g.path))
    (hset : ∀ path, g ≠ .delete path) : ∃ w, g.edit d = .ok w := by
  -- no leaf stands above the path before, because none does afterwards
  have hclear : ¬ d.isObject = true ∨ d.doc.Clear (segments g.path) := by
    by_contra hcon
    rw [not_or, not_not] at hcon
    rcases hcon with ⟨hobj, hblocked⟩
    unfold PathDoc.Clear at hblocked
    push Not at hblocked
    rcases hblocked with ⟨r, v, hrg, hne, hv⟩
    -- `f` cannot have made the leaf: its path is apart
    have hrf : PathDoc.Diverge (segments f.path) r := by
      refine ⟨fun hfr => hdiv.1 (hfr.trans hrg), ?_⟩
      intro hrf
      have hrne : r ≠ segments f.path := by
        rintro rfl
        exact hdiv.1 hrg
      rcases clear_of_edit hf hpath with hclear | hno
      · exact hclear r v hrf hrne hv
      · rw [hobj] at hno
        cases hno
    -- so the leaf would still be there for `g`
    have hkeep : (wf.applyTo d).doc.node r = .leaf v := by
      rw [PathDoc.below_self (Value.at?_eq_iff.mp (at?_diverging hf hrf)), hv]
    have hr : r ≠ [] := fun hr => hrf.2 (hr ▸ List.nil_prefix)
    rcases clear_of_edit hg hgpath with hclear | hno
    · exact hclear r v hrg hne hkeep
    · cases r with
      | nil => exact hr rfl
      | cons k r =>
        rw [Value.doc_node_cons, Value.get?_of_not_object (by simp [hno])] at hkeep
        cases hkeep
  -- then the write of `g` succeeds
  cases g with
  | delete path => exact absurd rfl (hset path)
  | update path value =>
    exact ⟨_, edit_eq_ok_iff.mpr ⟨Value.setNestedValue_ok_iff.mpr (Or.inr hclear), rfl⟩⟩
  | replace path value =>
    exact ⟨_, edit_eq_ok_iff.mpr ⟨Value.setNestedValue_ok_iff.mpr (Or.inr hclear), rfl⟩⟩

end Two

/-! ## What the callers can see -/

/-- After the call, a written path reads what the call alone would have
produced, a deleted path is absent. -/
def Shown (op : PathOp) (before after : Value) : Prop :=
  match op with
  | .update path _ | .replace path _ => after.getCtx path = (op.alone before).getCtx path
  | .delete path => after.hasCtx path = false

theorem getCtx_eq_iff {v w c : Value} {path : String} (hw : w.at? (segments path) = some c) :
    v.getCtx path = w.getCtx path ↔ v.at? (segments path) = some c := by
  rw [Value.getCtx_eq_ok_iff.mpr hw, Value.getCtx_eq_ok_iff]

/-- A call is shown if its path holds `written`. -/
theorem shown_iff {op : PathOp} {before after : Value} (hpath : op.path ≠ "")
    (hok : (∀ path, op ≠ .delete path) → ∃ w, op.edit before = .ok w) :
    op.Shown before after ↔
      after.at? (segments op.path) = op.written (before.at? (segments op.path)) := by
  cases op with
  | delete path =>
    show after.hasCtx path = false ↔ after.at? (segments path) = none
    rw [← Bool.not_eq_true, Value.hasCtx_iff, not_not, Value.doc_eq_absent_iff]
  | update path value =>
    rcases hok (by simp) with ⟨w, hw⟩
    have halone := at?_alone hw hpath
    cases hold : before.at? (segments path) with
    | none =>
      rw [show segments (PathOp.update path value).path = segments path from rfl, hold] at halone ⊢
      exact getCtx_eq_iff halone
    | some o =>
      rw [show segments (PathOp.update path value).path = segments path from rfl, hold] at halone ⊢
      exact getCtx_eq_iff halone
  | replace path value =>
    rcases hok (by simp) with ⟨w, hw⟩
    have halone := at?_alone hw hpath
    exact getCtx_eq_iff halone

/-! ## Nested paths -/

section Nested

variable {d value : Value} {w : ContextWrite} {path : String}

/-- A value merged into another one shows what it is. -/
theorem le_mergeJson (o value : Value) : value.doc ≤ (o.mergeJson value).doc := by
  rw [Value.mergeJson, Value.doc_deepMerge_false]
  exact PathDoc.le_onto_left _ _

/-- A patch leaves its own path alone if it says nothing new there. -/
theorem at?_own_iff (h : (PathOp.update path value).edit d = .ok w) (hpath : path ≠ "") :
    (w.applyTo d).at? (segments path) = d.at? (segments path) ↔
      ∃ old, d.at? (segments path) = some old ∧ value.doc ≤ old.doc := by
  have hown : (w.applyTo d).at? (segments path) =
      (PathOp.update path value).written (d.at? (segments path)) := at?_own h hpath rfl
  rw [hown]
  cases d.at? (segments path) with
  | none =>
    refine iff_of_false (Option.some_ne_none value) ?_
    rintro ⟨old, hold, -⟩
    cases hold
  | some old =>
    simp only [written, Option.some.injEq, exists_eq_left']
    exact mergeJson_eq_self_iff

/-- Above its path a patch changes something exactly if it does at its path. -/
theorem at?_above_iff {q : List String} (h : (PathOp.update path value).edit d = .ok w)
    (hpath : path ≠ "") (hq : q <+: segments path) :
    (w.applyTo d).at? q = d.at? q ↔
      (w.applyTo d).at? (segments path) = d.at? (segments path) := by
  constructor
  · -- what shows above shows at the path
    intro hsame
    obtain ⟨r, hr⟩ := hq
    rw [← hr, Value.at?_append, Value.at?_append, hsame]
  · intro hsame
    -- the value written was there already
    obtain ⟨old, hold, -⟩ := (at?_own_iff h hpath).mp hsame
    obtain ⟨patch, rfl, -, hdoc⟩ := edit_update h
    have hpresent : d.doc.node (segments path) ≠ .absent := by
      rw [Value.doc_ne_absent_iff, hold]
      rfl
    rw [Value.at?_eq_iff] at hsame ⊢
    funext x
    -- below the path: the same by assumption
    by_cases hbelow : segments path <+: q ++ x
    · obtain ⟨y, hy⟩ := hbelow
      unfold PathDoc.below
      rw [← hy]
      exact congrFun hsame y
    · show ((ContextWrite.update patch).applyTo d).doc.node (q ++ x) = d.doc.node (q ++ x)
      rw [doc_applyTo_update]
      by_cases habove : q ++ x <+: segments path
      · -- branches, on the way to the path
        have hne : q ++ x ≠ segments path := fun he => hbelow (he ▸ List.prefix_refl _)
        have hbranch : patch.doc.node (q ++ x) = .branch := by
          rw [hdoc]
          exact PathDoc.put_above habove hne
        rw [PathDoc.onto_present (by rw [hbranch]; simp), hbranch]
        exact (PathDoc.branch_above habove hne hpresent).symm
      · -- apart from it: nothing was written
        have hnode : patch.doc.node (q ++ x) = d.doc.node (q ++ x) := by
          rw [hdoc]
          exact PathDoc.put_diverging ⟨hbelow, habove⟩
        by_cases hopen : patch.doc.Open (q ++ x)
        · exact PathDoc.onto_open hopen
        · rw [PathDoc.onto_not_open hopen, hnode]

/-- What a value found below another one is after a merge. -/
theorem at?_mergeJson_iff {o v : Value} {r : List String} (h : o.at? r = some v) :
    (o.mergeJson value).at? r = some v ↔
      value.doc.Open r ∨ ∃ u, value.at? r = some u ∧ u.doc ≤ v.doc := by
  cases hu : value.at? r with
  | some u =>
    have hmerge : (o.mergeJson value).at? r = some (v.mergeJson u) := by
      have hpatch : ((ContextWrite.update value).applyTo o).at? r = _ := at?_patch hu
      rw [h] at hpatch
      exact hpatch
    have hpresent : ¬ value.doc.Open r := by
      intro hopen
      rw [Value.doc_eq_absent_iff.mp hopen.1] at hu
      cases hu
    simp only [hmerge, Option.some.injEq, exists_eq_left', hpresent, false_or]
    exact mergeJson_eq_self_iff
  | none =>
    have habsent : value.doc.node r = .absent := Value.doc_eq_absent_iff.mpr hu
    simp only [reduceCtorEq, false_and, exists_false, or_false]
    rw [← h]
    constructor
    · intro hsame
      by_contra hopen
      -- a leaf of `value` stands on the way, and nothing is left below it
      rw [Value.at?_eq_iff, Value.mergeJson, Value.doc_deepMerge_false] at hsame
      have hnode := PathDoc.below_self hsame
      rw [PathDoc.onto_not_open hopen, habsent] at hnode
      rw [Value.doc_eq_absent_iff.mp hnode.symm] at h
      cases h
    · intro hopen
      rw [Value.at?_eq_iff, Value.mergeJson, Value.doc_deepMerge_false]
      exact PathDoc.below_onto_open hopen

/-- Writing `value` at `p` puts nothing new into, and nothing in place of, what
`data` shows at `q`. -/
def Spares (data : Value) (p : List String) (value : Value) (q : List String) : Prop :=
  (∀ r, p = q ++ r → ∃ old, data.at? p = some old ∧ value.doc ≤ old.doc) ∧
    (∀ r, q = p ++ r → value.doc.Open r ∨
      ∃ u v, value.at? r = some u ∧ data.at? q = some v ∧ u.doc ≤ v.doc)

/-- What a patch leaves unchanged. -/
theorem at?_unchanged_iff {q : List String} (h : (PathOp.update path value).edit d = .ok w)
    (hpath : path ≠ "") (hq : (d.at? q).isSome = true) :
    (w.applyTo d).at? q = d.at? q ↔ Spares d (segments path) value q := by
  obtain ⟨v, hv⟩ := Option.isSome_iff_exists.mp hq
  unfold Spares
  -- `q` above the path: it sees the whole write
  by_cases habove : q <+: segments path
  · obtain ⟨r, hr⟩ := habove
    rw [at?_above_iff h hpath ⟨r, hr⟩, at?_own_iff h hpath]
    constructor
    · rintro ⟨old, hold, hle⟩
      refine ⟨fun _ _ => ⟨old, hold, hle⟩, ?_⟩
      intro s hs
      -- then both paths are the same
      rw [hs, List.append_assoc] at hr
      have hnil := List.append_right_eq_self.mp hr
      rw [List.append_eq_nil_iff] at hnil
      rw [hs, hnil.1, List.append_nil]
      exact Or.inr ⟨value, old, rfl, hold, hle⟩
    · rintro ⟨hnew, -⟩
      exact hnew r hr.symm
  · -- `q` below the path: it sees the part of the value at `q`
    by_cases hbelow : segments path <+: q
    · obtain ⟨r, rfl⟩ := hbelow
      rw [Value.at?_append] at hv
      obtain ⟨o, ho, hov⟩ := Option.bind_eq_some_iff.mp hv
      have hown : (w.applyTo d).at? (segments path) = some (o.mergeJson value) := by
        have hwritten : _ = (PathOp.update path value).written _ := at?_own h hpath rfl
        rw [show segments (PathOp.update path value).path = segments path from rfl, ho] at hwritten
        exact hwritten
      rw [Value.at?_append, Value.at?_append, hown, ho, Option.bind_some, Option.bind_some, hov,
        at?_mergeJson_iff hov]
      constructor
      · intro hsame
        refine ⟨fun s hs => absurd ⟨s, hs.symm⟩ habove, ?_⟩
        intro s hs
        rw [← List.append_cancel_left hs]
        apply hsame.imp_right
        rintro ⟨u, hu, hle⟩
        exact ⟨u, v, hu, rfl, hle⟩
      · rintro ⟨-, hnew⟩
        apply (hnew r rfl).imp_right
        rintro ⟨u, v', hu, hsame, hle⟩
        cases hsame
        exact ⟨u, hu, hle⟩
    · -- `q` apart from it: it sees nothing
      refine iff_of_true (at?_diverging h ⟨hbelow, habove⟩) ⟨?_, ?_⟩
      · rintro r hr
        exact absurd ⟨r, hr.symm⟩ habove
      · rintro r hr
        exact absurd ⟨r, hr.symm⟩ hbelow

end Nested

end PathOp

end AviNet
