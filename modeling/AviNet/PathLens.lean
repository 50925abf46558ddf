import AviNet.Path

/-!
# PathLens — how set, get and delete at a path fit together

The three walkers of the repository are written independently: two change the
document in place, one only reads. On documents they are `PathDoc.put`,
`PathDoc.cut` and `Value.at?`, and their laws follow from those:

* `set_get_lens`: after a set the walk finds the new value, and a second set
  hides the first;
* `failed_set_changes_nothing`: when a set fails, and that it leaves no trace;
* `delete_removes_path`: when a delete succeeds, what it removes, and that it
  undoes a set.
-/

namespace AviNet.Value

variable {v w : Value} {p q keys : List String}

/-! ## What the walk finds -/

/-- A branch of the document is an object at the path. -/
theorem doc_eq_branch_iff : v.doc.node p = .branch ↔ ∃ m, walk v p = .ok (ofObject m) := by
  simp only [walk_eq_ok_iff]
  show v.nodeAt p = .branch ↔ _
  unfold nodeAt kind
  cases v.at? p with
  | none => simp
  | some u =>
    by_cases hu : u.isObject = true
    · simpa [hu] using isObject_iff.mp hu
    · have hno : ¬ ∃ m, u = ofObject m := fun h => hu (isObject_iff.mpr h)
      simpa [hu] using hno

/-- A leaf is anything else there. -/
theorem doc_eq_leaf_iff : v.doc.node p = .leaf w ↔ walk v p = .ok w ∧ ¬ w.isObject = true := by
  rw [walk_eq_ok_iff]
  show v.nodeAt p = .leaf w ↔ _
  unfold nodeAt kind
  cases v.at? p with
  | none => simp
  | some u =>
    by_cases hu : u.isObject = true
    · simp only [hu, if_true, Option.some.injEq, reduceCtorEq, false_iff]
      rintro ⟨rfl, hw⟩
      exact hw hu
    · simp only [hu, Bool.false_eq_true, if_false, Option.some.injEq, Node.leaf.injEq]
      constructor
      · rintro rfl
        exact ⟨rfl, hu⟩
      · exact fun h => h.1

/-- Two documents that hold the same at a path, and go equally far on the way,
give the same result there, the text of an error included. -/
theorem walk_congr (hfar : ∀ r, r <+: keys → ((v.at? r).isSome ↔ (w.at? r).isSome))
    (hsame : v.at? keys = w.at? keys) : walk v keys = walk w keys := by
  induction keys generalizing v w with
  | nil =>
    rw [at?_nil, at?_nil, Option.some.injEq] at hsame
    rw [hsame]
  | cons key rest ih =>
    have hkey : (v.get? key).isSome ↔ (w.get? key).isSome := by
      simpa [at?_cons] using hfar [key] (by simp)
    unfold walk
    cases hv : v.get? key with
    | none =>
      have hw : w.get? key = none := by
        rw [hv] at hkey
        simpa using hkey
      rw [hw]
    | some c =>
      obtain ⟨d, hd⟩ := Option.isSome_iff_exists.mp (hkey.mp (by rw [hv]; rfl))
      rw [hd]
      rw [at?_cons, at?_cons, hv, hd] at hsame
      refine ih (fun r hr => ?_) hsame
      have := hfar (key :: r) (List.cons_prefix_cons.mpr ⟨rfl, hr⟩)
      rwa [at?_cons, at?_cons, hv, hd] at this

/-- Two values that look alike along a path answer `get_ctx` alike. -/
theorem getCtx_congr {path : String}
    (hfar : ∀ r, r <+: segments path → ((v.at? r).isSome ↔ (w.at? r).isSome))
    (hsame : v.at? (segments path) = w.at? (segments path)) :
    v.getCtx path = w.getCtx path := by
  unfold getCtx segments at *
  split_ifs at hfar hsame ⊢ with hpath
  · simpa using hsame
  · exact walk_congr hfar hsame

/-! ## Set and get -/

section Set

variable {data : Value} {path : String}

/-- Whether a set succeeds does not depend on the value. -/
theorem setNestedValue_ok_congr {v w : Value} (h : (data.setNestedValue path v).2 = .ok ()) :
    (data.setNestedValue path w).2 = .ok () :=
  setNestedValue_ok_iff.mpr (setNestedValue_ok_iff.mp h)

/-- The walk finds what was set. -/
theorem getCtx_setNestedValue (h : (data.setNestedValue path v).2 = .ok ()) :
    (data.setNestedValue path v).1.getCtx path = .ok v := by
  rw [getCtx_eq_ok_iff, at?_eq_some_iff, doc_setNestedValue h]
  exact PathDoc.below_put _ _ _

/-- Nothing has changed at a diverging path. -/
theorem at?_setNestedValue_diverging (h : (data.setNestedValue path v).2 = .ok ())
    (hdiv : PathDoc.Diverge (segments path) q) :
    (data.setNestedValue path v).1.at? q = data.at? q := by
  rw [at?_eq_iff, doc_setNestedValue h]
  exact PathDoc.below_put_diverging hdiv

/-- Above a path that has been set there are objects. -/
theorem setNestedValue_above (h : (data.setNestedValue path v).2 = .ok ())
    (hq : q <+: segments path) (hne : q ≠ segments path) :
    (data.setNestedValue path v).1.doc.node q = .branch := by
  rw [doc_setNestedValue h]
  exact PathDoc.put_above hq hne

/-- A path that has been set can be set again. -/
theorem setNestedValue_again {v w : Value} (h : (data.setNestedValue path v).2 = .ok ()) :
    ((data.setNestedValue path v).1.setNestedValue path w).2 = .ok () := by
  rw [setNestedValue_ok_iff]
  refine Or.inr (Or.inr fun q u hq hne hu => ?_)
  rw [setNestedValue_above h hq hne] at hu
  cases hu

/-- The second of two sets hides the first. -/
theorem setNestedValue_setNestedValue {v w : Value}
    (h : (data.setNestedValue path v).2 = .ok ()) :
    (data.setNestedValue path v).1.setNestedValue path w = data.setNestedValue path w := by
  have hagain := setNestedValue_again (w := w) h
  have honce := setNestedValue_ok_congr (w := w) h
  apply Prod.ext
  · apply doc_injective
    rw [doc_setNestedValue hagain, doc_setNestedValue h, doc_setNestedValue honce]
    exact PathDoc.put_put _ _ _ _
  · rw [hagain, honce]

/-- **Setting and reading a path form a lens.** -/
theorem set_get_lens {data v : Value} {p : String}
    (h : (data.setNestedValue p v).2 = .ok ()) :
    (data.setNestedValue p v).1.getCtx p = .ok v ∧
    (∀ q, PathDoc.Diverge (segments p) (segments q) → ∀ w,
      (data.setNestedValue p v).1.getCtx q = .ok w ↔ data.getCtx q = .ok w) ∧
    (∀ r, r <+: segments p → r ≠ segments p →
      ∃ m, walk (data.setNestedValue p v).1 r = .ok (ofObject m)) ∧
    ∀ v₁ v₂, (data.setNestedValue p v₁).1.setNestedValue p v₂ = data.setNestedValue p v₂ := by
  refine ⟨getCtx_setNestedValue h, ?_, ?_, ?_⟩
  · intro q hdiv w
    rw [getCtx_eq_ok_iff, getCtx_eq_ok_iff, at?_setNestedValue_diverging h hdiv]
  · intro r hr hne
    exact doc_eq_branch_iff.mp (setNestedValue_above h hr hne)
  · intro v₁ v₂
    exact setNestedValue_setNestedValue (setNestedValue_ok_congr h)

/-- A set through a new object, next to a member that stays. -/
theorem set_get_lens_nested :
    ((Value.object [("x", .bool false)]).setNestedValue "a..b" (.bool true)).2 = .ok () ∧
      ((Value.object [("x", .bool false)]).setNestedValue "a..b" (.bool true)).1.getCtx "a..b" =
        .ok (.bool true) :=
  ⟨by decide +kernel, (set_get_lens (by decide +kernel)).1⟩

end Set

/-! ## A set that fails -/

section Fail

theorem setMember_get? {key : String} {c : Value} (h : v.get? key = some c) :
    v.setMember key c = v := by
  have hv : v.isObject = true := isObject_of_get? h
  refine object_ext (isObject_setMember hv) hv fun k => ?_
  rw [get?_setMember hv]
  split_ifs with hk
  · rw [hk, h]
  · rfl

/-- **The loop of a set that fails leaves the document as it was**: an object it
has created does not block the rest of the walk. -/
theorem setKeys_fail (hne : keys ≠ []) (h : (setKeys v keys w).2 ≠ .ok ()) :
    (setKeys v keys w).1 = v := by
  induction keys generalizing v with
  | nil => exact absurd rfl hne
  | cons key keys ih =>
    cases keys with
    | nil =>
      unfold setKeys at h ⊢
      split_ifs at h ⊢
      · exact absurd rfl h
      · rfl
    | cons next rest =>
      by_cases hv : v.isObject = true
      · cases hc : v.get? key with
        | none =>
          -- below a new object the set cannot fail
          obtain ⟨v', -, -, heq⟩ := setKeys_cons hv key next rest w
          have hchild : v.childOrNew key = emptyObject := by
            rw [childOrNew, hc]
            rfl
          rw [heq, hchild] at h
          exact absurd ((setKeys_ok_iff (by simp)).mpr (emptyObject_clear _)) h
        | some c =>
          have heq : setKeys v (key :: next :: rest) w =
              (v.setMember key (setKeys c (next :: rest) w).1,
                (setKeys c (next :: rest) w).2) := by
            rw [setKeys]
            simp [hc]
          rw [heq] at h ⊢
          show v.setMember key _ = v
          rw [ih (by simp) h]
          exact setMember_get? hc
      · rw [setKeys_cons_of_not_object hv]

/-- The loop returns at the last key. -/
theorem setKeys_not_end (hne : keys ≠ []) :
    (setKeys v keys w).2 ≠ .error (.invalidPath "Unexpected end of path") := by
  induction keys generalizing v with
  | nil => exact absurd rfl hne
  | cons key keys ih =>
    cases keys with
    | nil =>
      unfold setKeys
      split_ifs
      · simp
      · simp
    | cons next rest =>
      by_cases hv : v.isObject = true
      · obtain ⟨v', -, -, heq⟩ := setKeys_cons hv key next rest w
        rw [heq]
        exact ih (by simp)
      · rw [setKeys_cons_of_not_object hv]
        intro h
        have htext : "Failed to navigate to key: " ++ key = "Unexpected end of path" := by
          simpa using h
        have hchars := congrArg String.toList htext
        rw [String.toList_append] at hchars
        exact absurd (List.cons.inj hchars).1 (by decide)

variable {data : Value} {path : String}

/-- A set that fails has an object for a document and runs the loop on it. -/
theorem setNestedValue_fail (h : (data.setNestedValue path v).2 ≠ .ok ()) :
    path ≠ "" ∧ data.isObject = true ∧
      data.setNestedValue path v = setKeys data (splitPath path) v := by
  have hnot := mt setNestedValue_ok_iff.mpr h
  rw [not_or, not_or, not_not] at hnot
  obtain ⟨hpath, hobj, -⟩ := hnot
  refine ⟨hpath, hobj, ?_⟩
  unfold setNestedValue
  simp only [root_iff, hpath, hobj, if_true, if_false]

/-- Not clear means that the walk meets a value that is no object. -/
theorem not_clear_iff (hobj : v.isObject = true) : ¬ v.doc.Clear p ↔
    ∃ r u, r ≠ [] ∧ r <+: p ∧ r ≠ p ∧ walk v r = .ok u ∧ ¬ u.isObject = true := by
  unfold PathDoc.Clear
  push Not
  constructor
  · rintro ⟨r, u, hr, hne, hu⟩
    refine ⟨r, u, ?_, hr, hne, doc_eq_leaf_iff.mp hu⟩
    rintro rfl
    rw [doc_root_of_object hobj] at hu
    cases hu
  · rintro ⟨r, u, -, hr, hne, hu⟩
    exact ⟨r, u, hr, hne, doc_eq_leaf_iff.mpr hu⟩

/-- **When a path write fails, and that it changes nothing then.** -/
theorem failed_set_changes_nothing (data v : Value) (p : String) :
    ((data.setNestedValue p v).2 ≠ .ok () ↔ p ≠ "" ∧ data.isObject = true ∧
      ∃ r w, r ≠ [] ∧ r <+: segments p ∧ r ≠ segments p ∧
        walk data r = .ok w ∧ ¬ w.isObject = true) ∧
    ((data.setNestedValue p v).2 ≠ .ok () → (data.setNestedValue p v).1 = data) ∧
    (data.setNestedValue p v).2 ≠ .error (.invalidPath "Unexpected end of path") := by
  refine ⟨?_, ?_, ?_⟩
  · -- when it fails
    rw [ne_eq, setNestedValue_ok_iff, not_or, not_or, not_not]
    refine and_congr Iff.rfl ?_
    constructor
    · rintro ⟨hobj, hclear⟩
      exact ⟨hobj, (not_clear_iff hobj).mp hclear⟩
    · rintro ⟨hobj, hblocked⟩
      exact ⟨hobj, (not_clear_iff hobj).mpr hblocked⟩
  · -- a failed write changes nothing
    intro h
    obtain ⟨-, -, heq⟩ := setNestedValue_fail h
    rw [heq] at h ⊢
    exact setKeys_fail (splitPath_ne_nil p) h
  · -- and never with that error
    intro h
    have hfail : (data.setNestedValue p v).2 ≠ .ok () := by
      rw [h]
      simp
    obtain ⟨-, -, heq⟩ := setNestedValue_fail hfail
    rw [heq] at h
    exact setKeys_not_end (splitPath_ne_nil p) h

end Fail

/-! ## Delete -/

section Delete

/-- The loop of a delete succeeds if the parent is an object, and fails without a trace. -/
theorem deleteKeys_spec (hne : keys ≠ []) :
    ((deleteKeys v keys).2 = .ok () ↔ v.doc.node keys.dropLast = .branch) ∧
      ((deleteKeys v keys).2 ≠ .ok () → (deleteKeys v keys).1 = v) := by
  induction keys generalizing v with
  | nil => exact absurd rfl hne
  | cons key keys ih =>
    cases keys with
    | nil =>
      unfold deleteKeys
      rw [List.dropLast_singleton, doc_node_nil, kind]
      split_ifs with hv
      · simp
      · simp
    | cons next rest =>
      unfold deleteKeys
      rw [List.dropLast_cons_of_ne_nil (by simp), doc_node_cons]
      cases hc : v.get? key with
      | none => simp
      | some c =>
        obtain ⟨hok, hfail⟩ := ih (v := c) (by simp)
        refine ⟨hok, fun h => ?_⟩
        show v.setMember key _ = v
        rw [hfail h]
        exact setMember_get? hc

variable {data : Value} {path : String}

theorem deleteNestedValue_eq (hpath : path ≠ "") :
    data.deleteNestedValue path = deleteKeys data (segments path) := by
  unfold deleteNestedValue segments
  simp only [root_iff, hpath, if_false]

theorem deleteNestedValue_ok_iff (hpath : path ≠ "") :
    (data.deleteNestedValue path).2 = .ok () ↔
      data.doc.node (segments path).dropLast = .branch := by
  rw [deleteNestedValue_eq hpath]
  exact (deleteKeys_spec (segments_ne_nil hpath)).1

/-- A strict prefix is a prefix of the parent. -/
theorem prefix_dropLast (hq : q <+: keys) (hne : q ≠ keys) : q <+: keys.dropLast := by
  obtain ⟨r, rfl⟩ := hq
  have hr : r ≠ [] := by
    rintro rfl
    exact hne (List.append_nil q).symm
  rw [List.dropLast_append_of_ne_nil hr]
  exact List.prefix_append q _

/-- An object has objects above it. -/
theorem branch_of_parent {d : PathDoc String Value} (h : d.node keys.dropLast = .branch)
    (hq : q <+: keys) (hne : q ≠ keys) : d.node q = .branch := by
  by_cases hqp : q = keys.dropLast
  · rw [hqp, h]
  · exact PathDoc.branch_above (prefix_dropLast hq hne) hqp (by rw [h]; simp)

/-- Below an object nothing stands in the way. -/
theorem clear_of_parent (h : v.doc.node keys.dropLast = .branch) : v.doc.Clear keys := by
  intro q u hq hne hu
  rw [branch_of_parent h hq hne] at hu
  cases hu

/-- A set under an object is undone by a delete if nothing was there before. -/
theorem delete_set (hpath : path ≠ "")
    (hparent : data.doc.node (segments path).dropLast = .branch)
    (habs : data.doc.node (segments path) = .absent) :
    (data.setNestedValue path v).2 = .ok () ∧
      (data.setNestedValue path v).1.deleteNestedValue path = (data, .ok ()) := by
  have hset : (data.setNestedValue path v).2 = .ok () :=
    setNestedValue_ok_iff.mpr (Or.inr (Or.inr (clear_of_parent hparent)))
  have hdrop : (segments path).dropLast ++ [(segments path).getLast (segments_ne_nil hpath)] =
      segments path := List.dropLast_append_getLast (segments_ne_nil hpath)
  have hshorter : (segments path).dropLast ≠ segments path := by
    intro h
    rw [h] at hdrop
    simpa using congrArg List.length hdrop
  have hdel : ((data.setNestedValue path v).1.deleteNestedValue path).2 = .ok () := by
    rw [deleteNestedValue_ok_iff hpath]
    exact setNestedValue_above hset (List.dropLast_prefix _) hshorter
  refine ⟨hset, Prod.ext ?_ hdel⟩
  apply doc_injective
  rw [(doc_deleteNestedValue hdel hpath).2, doc_setNestedValue hset, ← hdrop]
  rw [← hdrop] at habs
  exact PathDoc.cut_put hparent habs

/-- **Deleting a path removes that path and nothing else.** -/
theorem delete_removes_path (data : Value) {p : String} (hp : p ≠ "") :
    ((data.deleteNestedValue p).2 = .ok () ↔
      ∃ m, walk data (segments p).dropLast = .ok (ofObject m)) ∧
    ((data.deleteNestedValue p).2 = .ok () →
      (∀ r w, walk (data.deleteNestedValue p).1 (segments p ++ r) ≠ .ok w) ∧
      (∀ r, r <+: segments p → r ≠ segments p →
        ∃ m, walk (data.deleteNestedValue p).1 r = .ok (ofObject m)) ∧
      ∀ q, PathDoc.Diverge (segments p) (segments q) →
        (data.deleteNestedValue p).1.getCtx q = data.getCtx q) ∧
    ((data.deleteNestedValue p).2 ≠ .ok () → (data.deleteNestedValue p).1 = data) ∧
    ((∃ m, walk data (segments p).dropLast = .ok (ofObject m)) → (∀ w, data.getCtx p ≠ .ok w) →
      ∀ v, (data.setNestedValue p v).2 = .ok () ∧
        (data.setNestedValue p v).1.deleteNestedValue p = (data, .ok ())) := by
  refine ⟨?_, ?_, ?_, ?_⟩
  · -- when it succeeds
    rw [deleteNestedValue_ok_iff hp]
    exact doc_eq_branch_iff
  · -- nothing is left at the path or below, and nothing else is changed
    intro hok
    have hparent := (deleteNestedValue_ok_iff hp).mp hok
    have hdoc := (doc_deleteNestedValue hok hp).2
    have hout : ∀ r, ¬ segments p <+: r →
        (data.deleteNestedValue p).1.doc.node r = data.doc.node r := by
      intro r hr
      rw [hdoc]
      exact PathDoc.cut_outside hr
    refine ⟨?_, ?_, ?_⟩
    · intro r w hw
      have habs : (data.deleteNestedValue p).1.doc.node (segments p ++ r) = .absent := by
        rw [hdoc]
        exact congrFun (PathDoc.below_cut data.doc (segments_ne_nil hp)) r
      rw [walk_eq_ok_iff, doc_eq_absent_iff.mp habs] at hw
      cases hw
    · intro r hr hne
      apply doc_eq_branch_iff.mp
      rw [hout r fun h => hne (hr.eq_of_length_le h.length_le)]
      exact branch_of_parent hparent hr hne
    · intro q hdiv
      refine getCtx_congr ?_ ?_
      · intro r hr
        rw [← doc_ne_absent_iff, ← doc_ne_absent_iff, hout r fun h => hdiv.1 (h.trans hr)]
      · rw [at?_eq_iff, hdoc]
        exact PathDoc.below_cut_diverging hdiv
  · -- a failed deletion changes nothing
    rw [deleteNestedValue_eq hp]
    exact (deleteKeys_spec (segments_ne_nil hp)).2
  · -- what was set can be deleted again
    intro hobj hno v
    refine delete_set hp (doc_eq_branch_iff.mpr hobj) ?_
    rw [doc_eq_absent_iff, Option.eq_none_iff_forall_ne_some]
    intro w hw
    exact hno w (getCtx_eq_ok_iff.mpr hw)

theorem delete_removes_path_nested :
    ((Value.object [("a", .object [("b", .bool true)])]).deleteNestedValue "a.b").2 = .ok () ↔
      ∃ m, walk (.object [("a", .object [("b", .bool true)])]) (segments "a.b").dropLast =
        .ok (ofObject m) :=
  (delete_removes_path _ (by decide)).1

end Delete

end AviNet.Value
