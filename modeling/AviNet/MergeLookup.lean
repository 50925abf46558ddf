import AviNet.PathLens

/-!
# MergeLookup — what `deep_merge` shows at each path

The merge walks the keys of the side that is not preferred and inserts what the
preferred side lacks. From outside:

* `deep_merge_mirrors`: the two preferences are the same merge with the sides
  exchanged, and a value merged into itself stays as it is;
* `deep_merge_lookup`: which paths resolve in the merged value, and to what.
-/

namespace AviNet.Value

variable {a b v w : Value} {p : List String}

/-! ## The two preferences -/

/-- **The two preferences of `deep_merge`** mirror each other, and merging a value
into itself changes nothing. -/
theorem deep_merge_mirrors :
    (∀ a b : Value, a.deepMerge b true = b.deepMerge a false) ∧
      ∀ (a : Value) (preferA : Bool), a.deepMerge a preferA = a := by
  constructor
  · intro a b
    exact (deepMerge_false_eq b a).symm
  · intro a preferA
    exact deepMerge_self a preferA

/-! ## Lookups -/

/-- No value that is not an object stands on the way to `p`, or at its end. -/
def Passable (a : Value) (p : List String) : Prop :=
  ∀ q, q <+: p → ∀ w, a.at? q = some w → w.isObject = true

theorem not_blocked_iff : ¬ a.doc.Blocked p ↔ a.Passable p := by
  constructor
  · intro h q hqp w hw
    by_contra hobj
    have hleaf : a.doc.node q = .leaf w :=
      doc_eq_leaf_iff.mpr ⟨walk_eq_ok_iff.mpr hw, hobj⟩
    exact h ⟨q, w, hqp, hleaf⟩
  · rintro h ⟨q, w, hqp, hleaf⟩
    rcases doc_eq_leaf_iff.mp hleaf with ⟨hwalk, hobj⟩
    exact hobj (h q hqp w (walk_eq_ok_iff.mp hwalk))

/-- A path that lacks in the preferred side: the other side shows through, unless
something stands on the way. -/
theorem at?_deepMerge_of_none (h : a.at? p = none) :
    (a.Passable p → (a.deepMerge b true).at? p = b.at? p) ∧
      (¬ a.Passable p → (a.deepMerge b true).at? p = none) := by
  have habsent : a.doc.node p = .absent := doc_eq_absent_iff.mpr h
  constructor
  · intro hpass
    have hopen : a.doc.Open p := ⟨habsent, not_blocked_iff.mpr hpass⟩
    rw [at?_eq_iff, doc_deepMerge_true]
    exact PathDoc.below_onto_open hopen
  · intro hpass
    have hopen : ¬ a.doc.Open p := fun hopen => hpass (not_blocked_iff.mp hopen.2)
    rw [← doc_eq_absent_iff, doc_deepMerge_true, PathDoc.onto_not_open hopen]
    exact habsent

/-- A path of the preferred side keeps its kind, and its value if that is no object. -/
theorem at?_deepMerge_of_some (h : a.at? p = some w) :
    ∃ v, (a.deepMerge b true).at? p = some v ∧ v.kind = w.kind := by
  have hpresent : a.doc.node p ≠ .absent := by
    rw [doc_ne_absent_iff, h]
    rfl
  have hnode : (a.deepMerge b true).doc.node p = a.doc.node p := by
    rw [doc_deepMerge_true]
    exact PathDoc.onto_present hpresent
  have hsome : ((a.deepMerge b true).at? p).isSome = true := by
    rw [← doc_ne_absent_iff, hnode]
    exact hpresent
  rcases Option.isSome_iff_exists.mp hsome with ⟨v, hv⟩
  refine ⟨v, hv, ?_⟩
  have hbelow := congrFun (below_doc hv) []
  have hbelow' := congrFun (below_doc h) []
  rw [doc_node_nil] at hbelow hbelow'
  rw [← hbelow, ← hbelow', PathDoc.below, PathDoc.below, List.append_nil]
  exact hnode

theorem eq_of_kind_eq (h : v.kind = w.kind) (hw : w.isObject = false) : v = w := by
  unfold kind at h
  rw [if_neg (Bool.eq_false_iff.mp hw)] at h
  split_ifs at h
  exact Node.leaf.inj h

theorem isObject_of_kind_eq (h : v.kind = w.kind) (hw : w.isObject = true) :
    v.isObject = true := by
  unfold kind at h
  rw [if_pos hw] at h
  by_contra hv
  rw [if_neg hv] at h
  cases h

/-- **Lookups in a merge.** A path resolves after `deep_merge(a, b, true)` exactly if
it resolves in `a`, or it resolves in `b` and nothing but objects stands on the
way in `a`. What it resolves to is `a`'s value where that is no object, an object
where `a` has an object, and `b`'s value where `a` has nothing. -/
theorem deep_merge_lookup (a b : Value) (p : List String) :
    (((a.deepMerge b true).at? p).isSome = true ↔ (a.at? p).isSome = true ∨
        (b.at? p).isSome = true ∧
          ∀ q, q <+: p → ∀ w, a.at? q = some w → w.isObject = true) ∧
      ∀ v, (a.deepMerge b true).at? p = some v →
        (∀ w, a.at? p = some w → w.isObject = false → v = w) ∧
          (a.at? p = none → b.at? p = some v) ∧
          ∀ w, a.at? p = some w → w.isObject = true → v.isObject = true := by
  cases ha : a.at? p with
  | some w =>
    -- the preferred side has the path
    rcases at?_deepMerge_of_some (b := b) ha with ⟨v, hv, hkind⟩
    rw [hv]
    refine ⟨iff_of_true rfl (Or.inl rfl), ?_⟩
    intro v' hv'
    cases hv'
    refine ⟨?_, nofun, ?_⟩
    · intro w' hw' hobj
      cases hw'
      exact eq_of_kind_eq hkind hobj
    · intro w' hw' hobj
      cases hw'
      exact isObject_of_kind_eq hkind hobj
  | none =>
    rcases at?_deepMerge_of_none (b := b) ha with ⟨hthrough, hstopped⟩
    by_cases hpass : a.Passable p
    · -- the other side shows through
      rw [hthrough hpass]
      constructor
      · constructor
        · intro hb
          exact Or.inr ⟨hb, hpass⟩
        · rintro (habsurd | ⟨hb, -⟩)
          · cases habsurd
          · exact hb
      · intro v hv
        exact ⟨nofun, fun _ => hv, nofun⟩
    · -- a value that is no object keeps it out
      rw [hstopped hpass]
      constructor
      · constructor
        · nofun
        · rintro (habsurd | ⟨-, hall⟩)
          · cases habsurd
          · exact absurd hall hpass
      · nofun

end AviNet.Value
