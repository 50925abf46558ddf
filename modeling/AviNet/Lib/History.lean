import Mathlib.Logic.Function.Basic
import Mathlib.Order.Bounds.Basic
import Mathlib.Order.Lattice
import Mathlib.Order.Nat

/-!
# History — what a replica shows is the join of what it has heard

Each process makes updates of its own; `h.upTo i k` is what process `i` showed
after its `k`th one. A version vector says how much of each history has been
heard, and a replica *shows* `a` for it if `a` is the least upper bound of the
parts heard (`History.Shows`).

What is shown grows with the vector (`Shows.mono`); joining two replicas joins
their vectors (`Shows.join`); a new update extends one history
(`Shows.extend_own`, `Shows.extend_heard`).
-/

/-- What each process showed after each of its updates: more and more. -/
structure History (ι α : Type*) [Preorder α] where
  upTo : ι → ℕ → α
  grows : ∀ i, Monotone (upTo i)

namespace History

variable {ι α : Type*} [PartialOrder α] {h : History ι α} {v w : ι → ℕ} {a b c : α}

/-- `a` is the join of what has been heard. -/
def Shows (h : History ι α) (v : ι → ℕ) (a : α) : Prop :=
  IsLUB (Set.range fun i => h.upTo i (v i)) a

/-- What was heard of one process is shown. -/
theorem Shows.heard (ha : h.Shows v a) (i : ι) : h.upTo i (v i) ≤ a := ha.1 ⟨i, rfl⟩

/-- Whoever has heard more shows more. -/
theorem Shows.mono (ha : h.Shows v a) (hb : h.Shows w b) (hle : v ≤ w) : a ≤ b := by
  apply ha.2
  rintro _ ⟨i, rfl⟩
  exact (h.grows i (hle i)).trans (hb.heard i)

/-- Joining two replicas joins what they have heard. -/
theorem Shows.join (ha : h.Shows v a) (hb : h.Shows w b) (hc : IsLUB {a, b} c) :
    h.Shows (v ⊔ w) c := by
  have hac : a ≤ c := hc.1 (Set.mem_insert a {b})
  have hbc : b ≤ c := hc.1 (Set.mem_insert_of_mem a rfl)
  constructor
  · rintro _ ⟨i, rfl⟩
    show h.upTo i (max (v i) (w i)) ≤ c
    rcases le_total (v i) (w i) with hi | hi
    · rw [max_eq_right hi]
      exact (hb.heard i).trans hbc
    · rw [max_eq_left hi]
      exact (ha.heard i).trans hac
  · intro u hu
    have hheard : ∀ i, h.upTo i (max (v i) (w i)) ≤ u := fun i => hu ⟨i, rfl⟩
    apply hc.2
    rintro x (rfl | rfl)
    · -- all that the first one has heard is below `u`
      apply ha.2
      rintro _ ⟨i, rfl⟩
      exact (h.grows i (le_max_left _ _)).trans (hheard i)
    · apply hb.2
      rintro _ ⟨i, rfl⟩
      exact (h.grows i (le_max_right _ _)).trans (hheard i)

/-- Nobody has made an update yet. -/
def start (a : α) : History ι α where
  upTo _ _ := a
  grows _ := monotone_const

theorem start_shows [Nonempty ι] (a : α) (v : ι → ℕ) : (start a : History ι α).Shows v a := by
  have hrange : (Set.range fun i : ι => (start a : History ι α).upTo i (v i)) = {a} :=
    Set.range_const
  unfold Shows
  rw [hrange]
  exact isLUB_singleton

variable [DecidableEq ι]

/-- Process `i` makes an update after its `k`th one and shows `a` from then on. -/
def extend (h : History ι α) (i : ι) (k : ℕ) (a : α) (ha : h.upTo i k ≤ a) : History ι α where
  upTo j n := if j = i ∧ k < n then a else h.upTo j n
  grows := by
    intro j m n hmn
    by_cases hj : j = i
    · subst hj
      dsimp only
      split_ifs with hm hn hn
      · exact le_rfl
      · exact absurd ⟨rfl, lt_of_lt_of_le hm.2 hmn⟩ hn
      · -- the last value before the update
        have hmk : m ≤ k := not_lt.mp fun hlt => hm ⟨rfl, hlt⟩
        exact (h.grows j hmk).trans ha
      · exact h.grows j hmn
    · dsimp only
      rw [if_neg fun hm => hj hm.1, if_neg fun hn => hj hn.1]
      exact h.grows j hmn

/-- Who has not heard of the new update shows what it showed before. -/
theorem Shows.extend_heard {i : ι} {k : ℕ} (hle : h.upTo i k ≤ a) (hb : h.Shows v b)
    (hv : v i ≤ k) : (h.extend i k a hle).Shows v b := by
  have hsame : (fun j => (h.extend i k a hle).upTo j (v j)) = fun j => h.upTo j (v j) := by
    funext j
    show (if j = i ∧ k < v j then a else h.upTo j (v j)) = h.upTo j (v j)
    apply if_neg
    rintro ⟨rfl, hlt⟩
    exact absurd hv (not_le.mpr hlt)
  unfold Shows
  rw [hsame]
  exact hb

/-- A process that adds to what it shows goes on showing all that it has heard. -/
theorem Shows.extend_own {i : ι} (hle : h.upTo i (v i) ≤ a) (hb : h.Shows v b) (hba : b ≤ a) :
    (h.extend i (v i) a hle).Shows (Function.update v i (v i + 1)) a := by
  have hown : (h.extend i (v i) a hle).upTo i (Function.update v i (v i + 1) i) = a := by
    rw [Function.update_self]
    exact if_pos ⟨rfl, Nat.lt_succ_self _⟩
  constructor
  · rintro _ ⟨j, rfl⟩
    by_cases hj : j = i
    · rw [hj]
      exact hown.le
    · show (if j = i ∧ _ then a else h.upTo j (Function.update v i (v i + 1) j)) ≤ a
      rw [if_neg fun hji => hj hji.1, Function.update_of_ne hj]
      exact (hb.heard j).trans hba
  · intro u hu
    rw [← hown]
    exact hu ⟨i, rfl⟩

end History
