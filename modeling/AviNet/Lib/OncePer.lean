import AviNet.Lib.Machine
import Mathlib.Data.List.Induction

/-!
# OncePer — what happens once at most between two resets

A monitor that reads a log: it is armed from a hit to the next reset and stops
at a hit while it is armed. Logs are put together from parts by the rules for
runs, and every part of a log that the monitor reads to its end has one hit at
most unless there is a reset in it.
-/

variable {α : Type*} {hit reset : α → Bool}

/-- The monitor; its state is whether there has been a hit since the last reset. -/
def oncePer (hit reset : α → Bool) : Machine Bool α where
  Init armed := armed = false
  step armed x :=
    if reset x then some false
    else if hit x then if armed then none else some true
    else some armed

namespace OncePer

/-- What is neither a hit nor a reset is passed over. -/
theorem run_quiet {l : List α} (h : ∀ x ∈ l, hit x = false ∧ reset x = false) (armed : Bool) :
    (oncePer hit reset).run armed l = some armed := by
  induction l with
  | nil => rfl
  | cons x l ih =>
    obtain ⟨hhit, hreset⟩ := h x List.mem_cons_self
    rw [Machine.run_cons]
    simp only [oncePer, hhit, hreset, Bool.false_eq_true, if_false, Option.bind_some]
    exact ih fun y hy => h y (List.mem_cons_of_mem x hy)

theorem run_hit {x : α} (hhit : hit x = true) (hreset : reset x = false) :
    (oncePer hit reset).run false [x] = some true := by
  simp [Machine.run, oncePer, hhit, hreset]

theorem run_reset {x : α} (hreset : reset x = true) (armed : Bool) :
    (oncePer hit reset).run armed [x] = some false := by
  simp [Machine.run, oncePer, hreset]

/-- Two logs one after the other. -/
theorem run_append {a b c : Bool} {l m : List α} (hl : (oncePer hit reset).run a l = some b)
    (hm : (oncePer hit reset).run b m = some c) :
    (oncePer hit reset).run a (l ++ m) = some c :=
  (oncePer hit reset).run_append_eq_some.mpr ⟨b, hl, hm⟩

/-- A log without a reset: no hit if the monitor is armed, one at most if not. -/
theorem countP_le {armed b : Bool} {l : List α} (hrun : (oncePer hit reset).run armed l = some b)
    (hreset : ∀ x ∈ l, reset x = false) : l.countP hit + (if armed then 1 else 0) ≤ 1 := by
  induction l generalizing armed with
  | nil =>
    cases armed <;> simp
  | cons x l ih =>
    rcases (oncePer hit reset).run_cons_eq_some.mp hrun with ⟨a, ha, hrun'⟩
    have hrest : l.countP hit + (if a then 1 else 0) ≤ 1 :=
      ih hrun' fun y hy => hreset y (List.mem_cons_of_mem x hy)
    simp only [oncePer, hreset x List.mem_cons_self, Bool.false_eq_true, if_false] at ha
    rw [List.countP_cons]
    cases hhit : hit x with
    | false =>
      simp only [hhit, Bool.false_eq_true, if_false, Option.some.injEq] at ha ⊢
      rw [ha]
      exact hrest
    | true =>
      rw [hhit, if_pos rfl] at ha
      split_ifs at ha with harmed
      cases ha
      simp only [if_true, harmed, Bool.false_eq_true, if_false] at hrest ⊢
      omega

/-- **The rule**: between two resets of a log there is one hit at most. -/
theorem countP_infix_le {armed b : Bool} {l part : List α}
    (hrun : (oncePer hit reset).run armed l = some b) (hpart : part <:+: l)
    (hreset : ∀ x ∈ part, reset x = false) : part.countP hit ≤ 1 := by
  rcases hpart with ⟨u, v, rfl⟩
  rcases (oncePer hit reset).run_append_eq_some.mp hrun with ⟨c, hc, -⟩
  rcases (oncePer hit reset).run_append_eq_some.mp hc with ⟨d, -, hd⟩
  have hcount := countP_le hd hreset
  omega

/-- The state after a log says whether it has a hit that no reset follows. -/
theorem armed_iff (h : ∀ x, hit x = true → reset x = false) {armed : Bool} {l : List α}
    (hrun : (oncePer hit reset).run false l = some armed) :
    armed = true ↔ ∃ u x v, l = u ++ x :: v ∧ hit x = true ∧ ∀ y ∈ v, reset y = false := by
  induction l using List.reverseRecOn generalizing armed with
  | nil =>
    cases hrun
    constructor
    · intro hfalse
      cases hfalse
    · rintro ⟨u, x, v, hnil, -⟩
      simp at hnil
  | append_singleton l x ih =>
    rcases (oncePer hit reset).run_append_eq_some.mp hrun with ⟨a, ha, hx⟩
    have hstep : (oncePer hit reset).step a x = some armed := by
      rcases (oncePer hit reset).run_cons_eq_some.mp hx with ⟨b, hb, hnil⟩
      cases hnil
      exact hb
    simp only [oncePer] at hstep
    constructor
    · intro harmed
      split_ifs at hstep with hreset hhit
      · -- a reset
        cases hstep
        cases harmed
      · exact ⟨l, x, [], rfl, hhit, fun y hy => by cases hy⟩
      · -- the hit is further back
        cases hstep
        obtain ⟨u, y, v, rfl, hy, hv⟩ := (ih ha).mp harmed
        refine ⟨u, y, v ++ [x], by simp, hy, ?_⟩
        intro z hz
        rcases List.mem_append.mp hz with hz | hz
        · exact hv z hz
        · rw [List.mem_singleton.mp hz]
          exact Bool.eq_false_iff.mpr hreset
    · rintro ⟨u, y, v, hl, hy, hv⟩
      rcases List.eq_nil_or_concat v with rfl | ⟨v, z, rfl⟩
      · -- the last one is the hit
        have hlast : x = y := by
          have htail := congrArg List.getLast? hl
          simpa using htail
        rw [hlast, h y hy, hy] at hstep
        simp only [Bool.false_eq_true, if_false, if_true] at hstep
        split_ifs at hstep
        exact (Option.some.inj hstep).symm
      · have hcut : l ++ [x] = (u ++ y :: v) ++ [z] := by simpa using hl
        obtain ⟨rfl, hxz⟩ := List.append_inj' hcut rfl
        have hnotReset : reset x = false := by
          apply hv
          rw [List.singleton_inj.mp hxz]
          simp
        have ha' : a = true := (ih ha).mpr ⟨u, y, v, rfl, hy, fun w hw => hv w (by simp [hw])⟩
        rw [hnotReset, ha'] at hstep
        simp only [Bool.false_eq_true, if_false, if_true] at hstep
        split_ifs at hstep
        exact (Option.some.inj hstep).symm

/-- **The rule**: the monitor is armed if there has been exactly one hit since some
point that no reset follows. -/
theorem armed_iff_once (h : ∀ x, hit x = true → reset x = false) {armed : Bool} {l : List α}
    (hrun : (oncePer hit reset).run false l = some armed) : armed = true ↔
      ∃ u v, l = u ++ v ∧ (∀ y ∈ v, reset y = false) ∧ v.countP hit = 1 := by
  rw [armed_iff h hrun]
  constructor
  · rintro ⟨u, x, v, rfl, hx, hv⟩
    have hreset : ∀ y ∈ x :: v, reset y = false := by
      intro y hy
      rcases List.mem_cons.mp hy with rfl | hy
      · exact h y hx
      · exact hv y hy
    have hone : (x :: v).countP hit ≤ 1 :=
      countP_infix_le hrun (List.suffix_append u _).isInfix hreset
    refine ⟨u, x :: v, rfl, hreset, ?_⟩
    rw [List.countP_cons_of_pos hx] at hone ⊢
    omega
  · rintro ⟨u, v, rfl, hv, hone⟩
    have hpos : 0 < v.countP hit := by omega
    rcases List.countP_pos_iff.mp hpos with ⟨x, hx, hhit⟩
    rcases List.append_of_mem hx with ⟨v₁, v₂, rfl⟩
    refine ⟨u ++ v₁, x, v₂, by simp, hhit, ?_⟩
    intro y hy
    exact hv y (List.mem_append_right v₁ (List.mem_cons_of_mem x hy))

end OncePer
