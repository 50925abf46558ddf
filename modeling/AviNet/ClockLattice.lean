import AviNet.Context
import Mathlib.Order.Bounds.Basic

/-!
# ClockLattice — clocks as a join semilattice

Clocks are ordered actor by actor, a missing actor counting as 0. Two clocks
that differ in zero entries only lie below each other, so this is a preorder.
`partial_cmp` decides it and `merge` is its least upper bound; the four
branches of `AviContext::merge` all leave that bound, also the two that do not
touch the clock.
-/

namespace AviNet

namespace VectorClock

/-- Clocks are ordered actor by actor. -/
instance : Preorder VectorClock where
  le a b := ∀ actor, a.get actor ≤ b.get actor
  le_refl a actor := UInt64.le_refl _
  le_trans a b c hab hbc actor := UInt64.le_trans (hab actor) (hbc actor)

/-- Clocks are ordered as the numbers behind them. -/
theorem le_iff_version {a b : VectorClock} : a ≤ b ↔ a.version ≤ b.version := by
  constructor
  · intro h actor
    exact UInt64.le_iff_toNat_le.mp (h actor)
  · intro h actor
    exact UInt64.le_iff_toNat_le.mpr (h actor)

/-- Zero entries apart, the two clocks are the same. -/
def Same (a b : VectorClock) : Prop := ∀ actor, a.get actor = b.get actor

theorem same_iff_version {a b : VectorClock} : a.Same b ↔ a.version = b.version := by
  constructor
  · intro h
    funext actor
    rw [version, h actor, version]
  · intro h actor
    exact UInt64.toNat_inj.mp (congrFun h actor)

theorem same_iff_le_le {a b : VectorClock} : a.Same b ↔ a ≤ b ∧ b ≤ a := by
  rw [same_iff_version, le_iff_version, le_iff_version]
  exact le_antisymm_iff

/-- Below and different is the strict order. -/
theorem lt_iff_le_not_same {a b : VectorClock} : a < b ↔ a ≤ b ∧ ¬ a.Same b := by
  rw [lt_iff_le_not_ge, same_iff_le_le]
  constructor
  · rintro ⟨hab, hba⟩
    exact ⟨hab, fun h => hba h.2⟩
  · rintro ⟨hab, hne⟩
    exact ⟨hab, fun hba => hne ⟨hab, hba⟩⟩

theorem lt_iff_version {a b : VectorClock} : a < b ↔ a.version < b.version := by
  rw [lt_iff_le_not_ge, lt_iff_le_not_ge, le_iff_version, le_iff_version]

/-- `partial_cmp` decides the order. -/
theorem partialCmp_iff (a b : VectorClock) :
    (a.partialCmp b = some .eq ↔ a.Same b) ∧ (a.partialCmp b = some .lt ↔ a < b) ∧
      (a.partialCmp b = some .gt ↔ b < a) ∧
      (a.partialCmp b = none ↔ ¬ a ≤ b ∧ ¬ b ≤ a) := by
  refine ⟨?_, ?_, ?_, ?_⟩
  · rw [same_iff_version]
    exact partialCmp_eq_some_eq_iff
  · rw [lt_iff_version]
    exact partialCmp_eq_some_lt_iff
  · rw [lt_iff_version]
    exact partialCmp_eq_some_gt_iff
  · rw [le_iff_version, le_iff_version]
    exact partialCmp_eq_none_iff

/-- A clock with the version of the pointwise maximum is the join. -/
theorem isLUB_of_version {a b j : VectorClock} (h : j.version = a.version ⊔ b.version) :
    IsLUB {a, b} j := by
  constructor
  · intro c hc
    rw [le_iff_version, h]
    rcases hc with rfl | rfl
    · exact le_sup_left
    · exact le_sup_right
  · intro c hc
    have ha : a ≤ c := hc (Set.mem_insert a {b})
    have hb : b ≤ c := hc (Set.mem_insert_of_mem a rfl)
    rw [le_iff_version] at ha hb ⊢
    rw [h]
    exact sup_le ha hb

/-- The merge is the least upper bound. -/
theorem merge_isLUB (a b : VectorClock) : IsLUB {a, b} (a.merge b) :=
  isLUB_of_version (version_merge a b)

/-- What the join semilattice says of `merge`, zero entries apart. -/
theorem merge_laws (a b c : VectorClock) :
    (a.merge b).Same (b.merge a) ∧ ((a.merge b).merge c).Same (a.merge (b.merge c)) ∧
      (a.merge a).Same a := by
  simp only [same_iff_version, version_merge]
  exact ⟨sup_comm _ _, sup_assoc _ _ _, sup_idem _⟩

end VectorClock

namespace AviContext

/-- In every branch a context merge leaves the join of the two clocks. -/
theorem merge_vectorClock_same (s o : AviContext) :
    (s.merge o).1.vectorClock.Same (s.vectorClock.merge o.vectorClock) := by
  rw [VectorClock.same_iff_version, VectorClock.version_merge]
  exact version_merge s o

/-- **Clocks form a join semilattice, `partial_cmp` decides its order, and
both merges compute its join.** -/
theorem clocks_join_semilattice :
    (∀ a b : VectorClock,
      (a.partialCmp b = some .eq ↔ ∀ actor, a.get actor = b.get actor) ∧
      (a.partialCmp b = some .lt ↔
        (∀ actor, a.get actor ≤ b.get actor) ∧ ¬ ∀ actor, a.get actor = b.get actor) ∧
      (a.partialCmp b = some .gt ↔
        (∀ actor, b.get actor ≤ a.get actor) ∧ ¬ ∀ actor, a.get actor = b.get actor) ∧
      (a.partialCmp b = none ↔
        (¬ ∀ actor, a.get actor ≤ b.get actor) ∧ ¬ ∀ actor, b.get actor ≤ a.get actor)) ∧
    (∀ a b : VectorClock, IsLUB {a, b} (a.merge b)) ∧
    (∀ a b c : VectorClock, (a.merge b).Same (b.merge a) ∧
      ((a.merge b).merge c).Same (a.merge (b.merge c)) ∧ (a.merge a).Same a) ∧
    ∀ s o : AviContext, IsLUB {s.vectorClock, o.vectorClock} (s.merge o).1.vectorClock ∧
      (s.merge o).1.vectorClock.Same (s.vectorClock.merge o.vectorClock) := by
  refine ⟨?_, VectorClock.merge_isLUB, VectorClock.merge_laws, ?_⟩
  · intro a b
    obtain ⟨heq, hlt, hgt, hnone⟩ := VectorClock.partialCmp_iff a b
    have hsymm : a.Same b ↔ b.Same a := ⟨fun h k => (h k).symm, fun h k => (h k).symm⟩
    refine ⟨heq, ?_, ?_, hnone⟩
    · exact hlt.trans VectorClock.lt_iff_le_not_same
    · refine hgt.trans (VectorClock.lt_iff_le_not_same.trans (and_congr Iff.rfl ?_))
      exact not_congr hsymm.symm
  · intro s o
    exact ⟨VectorClock.isLUB_of_version (version_merge s o), merge_vectorClock_same s o⟩

end AviContext

end AviNet
