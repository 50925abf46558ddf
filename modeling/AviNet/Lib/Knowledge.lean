import AviNet.Lib.Machine
import Mathlib.Logic.Function.Basic
import Mathlib.Logic.Embedding.Basic
import Mathlib.Order.Lattice
import Mathlib.Data.Set.Insert

/-!
# Knowledge — version vectors of processes that tick, send and join

Each process `i` owns one component `own i` of the vectors and counts its own
steps there; vectors are copied into flight and joined, in any order and any
number of times.

`Bounded`: nobody, neither a process nor a vector in flight, claims more about
a process than the process itself. Everything else follows from it: a join
leaves the own component alone (`Bounded.join_own`), and the vector after a
tick is new (`Bounded.tick_fresh`).
-/

/-- The vectors held by the processes and those in flight. -/
structure Knowledge (ι α : Type*) where
  clock : ι → α → ℕ
  flight : Set (α → ℕ)

namespace Knowledge

variable {ι α : Type*} (own : ι ↪ α)

/-! ## The invariant -/

/-- A vector somebody holds or that is in flight. -/
def Known (s : Knowledge ι α) (v : α → ℕ) : Prop := (∃ i, v = s.clock i) ∨ v ∈ s.flight

/-- Nobody claims more about a process than the process itself. -/
def Bounded (s : Knowledge ι α) : Prop :=
  ∀ v, s.Known v → ∀ i, v (own i) ≤ s.clock i (own i)

variable {own}

/-- A join never changes the own component. -/
theorem Bounded.join_own {s : Knowledge ι α} (h : Bounded own s) {v : α → ℕ} (hv : s.Known v)
    (i : ι) : (s.clock i ⊔ v) (own i) = s.clock i (own i) :=
  max_eq_left (h v hv i)

/-- A vector that is above the process's own one agrees with it in the own component. -/
theorem Bounded.own_eq_of_le {s : Knowledge ι α} (h : Bounded own s) {v : α → ℕ}
    (hv : s.Known v) {i : ι} (hle : s.clock i ≤ v) : v (own i) = s.clock i (own i) :=
  le_antisymm (h v hv i) (hle (own i))

variable [DecidableEq α] (own)

/-- The vector of `i` after a tick. -/
def ticked (s : Knowledge ι α) (i : ι) : α → ℕ :=
  Function.update (s.clock i) (own i) (s.clock i (own i) + 1)

theorem ticked_own (s : Knowledge ι α) (i : ι) :
    s.ticked own i (own i) = s.clock i (own i) + 1 := Function.update_self ..

theorem ticked_of_ne (s : Knowledge ι α) {i : ι} {x : α} (h : x ≠ own i) :
    s.ticked own i x = s.clock i x := Function.update_of_ne h ..

variable {own} in
/-- Nobody has seen the vector a tick produces. -/
theorem Bounded.tick_fresh {s : Knowledge ι α} (h : Bounded own s) {v : α → ℕ} (hv : s.Known v)
    (i : ι) : ¬ s.ticked own i ≤ v := by
  intro hle
  have h1 : s.ticked own i (own i) ≤ v (own i) := hle (own i)
  have h2 := h v hv i
  rw [ticked_own] at h1
  omega

/-! ## The machine -/

/-- A process ticks, sends its vector, or joins one that is in flight. -/
inductive Label (ι α : Type*) where
  | tick (i : ι)
  | send (i : ι)
  | join (i : ι) (v : α → ℕ)

variable [DecidableEq ι]

open Classical in
/-- The machine of all processes. -/
noncomputable def machine : Machine (Knowledge ι α) (Label ι α) where
  Init s := (∀ i, s.clock i = fun _ => 0) ∧ s.flight = ∅
  step s
    | .tick i => some { s with clock := Function.update s.clock i (s.ticked own i) }
    | .send i => some { s with flight := insert (s.clock i) s.flight }
    | .join i v =>
      if v ∈ s.flight then some { s with clock := Function.update s.clock i (s.clock i ⊔ v) }
      else none

theorem bounded_init {s : Knowledge ι α} (h : (machine own).Init s) : Bounded own s := by
  rintro v (⟨j, rfl⟩ | hv) i
  · rw [h.1]
    exact Nat.zero_le _
  · rw [h.2] at hv
    exact hv.elim

theorem bounded_step {s t : Knowledge ι α} {l : Label ι α}
    (hstep : (machine own).step s l = some t) (h : Bounded own s) : Bounded own t := by
  cases l with
  | tick i =>
    cases hstep
    -- the own entry of the ticking process grows, no other entry does
    have hgrow : ∀ j, s.clock j (own j) ≤
        Function.update s.clock i (s.ticked own i) j (own j) := by
      intro j
      by_cases hj : j = i
      · rw [hj, Function.update_self, ticked_own]
        exact Nat.le_succ _
      · rw [Function.update_of_ne hj]
    rintro v (⟨k, rfl⟩ | hv) j
    · by_cases hk : k = i
      · subst hk
        show Function.update s.clock k (s.ticked own k) k (own j) ≤ _
        rw [Function.update_self]
        by_cases hj : j = k
        · show _ ≤ Function.update s.clock k (s.ticked own k) j (own j)
          rw [hj, Function.update_self]
        · rw [ticked_of_ne own s fun he => hj (own.injective he)]
          exact (h _ (Or.inl ⟨k, rfl⟩) j).trans (hgrow j)
      · show Function.update s.clock i (s.ticked own i) k (own j) ≤ _
        rw [Function.update_of_ne hk]
        exact (h _ (Or.inl ⟨k, rfl⟩) j).trans (hgrow j)
    · exact (h v (Or.inr hv) j).trans (hgrow j)
  | send i =>
    cases hstep
    rintro v (hv | hv) j
    · exact h v (Or.inl hv) j
    · rcases Set.mem_insert_iff.mp hv with rfl | hv
      · exact h _ (Or.inl ⟨i, rfl⟩) j
      · exact h v (Or.inr hv) j
  | join i w =>
    simp only [machine] at hstep
    split_ifs at hstep with hw
    cases hstep
    -- the joined vector claims no more than the two it is made of
    have hjoin : ∀ j, (s.clock i ⊔ w) (own j) ≤ s.clock j (own j) := fun j =>
      max_le (h _ (Or.inl ⟨i, rfl⟩) j) (h w (Or.inr hw) j)
    have hown : ∀ j, s.clock j (own j) ≤
        Function.update s.clock i (s.clock i ⊔ w) j (own j) := by
      intro j
      by_cases hj : j = i
      · rw [hj, Function.update_self]
        exact le_max_left _ _
      · rw [Function.update_of_ne hj]
    rintro v (⟨k, rfl⟩ | hv) j
    · show Function.update s.clock i (s.clock i ⊔ w) k (own j) ≤ _
      by_cases hk : k = i
      · rw [hk, Function.update_self]
        exact (hjoin j).trans (hown j)
      · rw [Function.update_of_ne hk]
        exact (h _ (Or.inl ⟨k, rfl⟩) j).trans (hown j)
    · exact (h v (Or.inr hv) j).trans (hown j)

theorem bounded_run {s t : Knowledge ι α} {ls : List (Label ι α)}
    (hrun : (machine own).run s ls = some t) (h : Bounded own s) : Bounded own t :=
  (machine own).run_invariant (fun _ _ _ => bounded_step own) hrun h

end Knowledge
