import Mathlib.Data.Multiset.Lattice
import Mathlib.Logic.Function.Basic

/-!
# Exchange — two replicas that tell each other what they know

What a replica knows is an element of a join semilattice. It grows, copies of
it are put on their way to the other replica, and what arrives is joined, each
copy once and in any order. A replica is *linked* while it owes the other one
everything it knows.

`Step` lists the steps that withhold nothing: a replica that is linked after
the step has sent all it knows in this step, or was linked before and has
learnt nothing. Then whatever a linked replica knows is known to the other one
as soon as everything on its way has arrived (`Covered`), and two linked
replicas with nothing on its way know the same (`Covered.agree`).
-/

/-- What two replicas know, what is on its way to each, and which are linked. -/
structure Exchange (α : Type*) where
  value : Bool → α
  flight : Bool → Multiset α
  linked : Bool → Prop

namespace Exchange

variable {α : Type*} [SemilatticeSup α] [OrderBot α]

/-- What a replica will know when everything on its way to it has arrived. -/
def eventual (s : Exchange α) (i : Bool) : α := s.value i ⊔ (s.flight i).sup

/-- The steps that withhold nothing. -/
inductive Step (s : Exchange α) : Exchange α → Prop
  /-- a replica learns something, and sends some of what it knows -/
  | act (i : Bool) {w : α} {sent : Multiset α} {link : Prop} (hgrow : s.value i ≤ w)
      (hhonest : ∀ v ∈ sent, v ≤ w) (hcover : link → w ∈ sent ∨ (s.linked i ∧ w = s.value i)) :
      Step s {
        value := Function.update s.value i w
        flight := Function.update s.flight (!i) (s.flight (!i) + sent)
        linked := Function.update s.linked i link }
  /-- something arrives -/
  | receive (j : Bool) {v : α} {rest : Multiset α} (hflight : s.flight j = v ::ₘ rest) :
      Step s { s with
        value := Function.update s.value j (s.value j ⊔ v)
        flight := Function.update s.flight j rest }

/-- Nothing on its way is news to its sender, and what a linked replica knows will
get to the other one. -/
structure Covered (s : Exchange α) : Prop where
  honest : ∀ i, ∀ v ∈ s.flight (!i), v ≤ s.value i
  covers : ∀ i, s.linked i → s.value i ≤ s.eventual (!i)

theorem value_le_eventual (s : Exchange α) (i : Bool) : s.value i ≤ s.eventual i := le_sup_left

theorem le_eventual {s : Exchange α} {i : Bool} {v : α} (h : v ∈ s.flight i) :
    v ≤ s.eventual i :=
  (Multiset.le_sup h).trans le_sup_right

/-- Before anything is known or sent, nothing is owed. -/
theorem Covered.start {s : Exchange α} (hflight : ∀ i, s.flight i = 0)
    (hlinked : ∀ i, ¬ s.linked i) : s.Covered := by
  constructor
  · intro i v hv
    rw [hflight] at hv
    exact absurd hv (Multiset.notMem_zero v)
  · intro i hi
    exact absurd hi (hlinked i)

/-- Two linked replicas know the same once everything has arrived. -/
theorem Covered.agree {s : Exchange α} (h : s.Covered) (hlinked : ∀ i, s.linked i)
    (hflight : ∀ i, s.flight i = 0) : s.value true = s.value false := by
  have heventual : ∀ i, s.eventual i = s.value i := by
    intro i
    unfold eventual
    rw [hflight, Multiset.sup_zero, sup_bot_eq]
  have hle : ∀ i, s.value i ≤ s.value (!i) := by
    intro i
    rw [← heventual (!i)]
    exact h.covers i (hlinked i)
  exact le_antisymm (hle true) (hle false)

/-- A replica that learns something and, if it is linked, has told all it knows. -/
theorem Covered.act {s t : Exchange α} (h : s.Covered) (i : Bool) (sent : Multiset α)
    (hgrow : s.value i ≤ t.value i) (hhonest : ∀ v ∈ sent, v ≤ t.value i)
    (hcover : t.linked i → t.value i ∈ sent ∨ (s.linked i ∧ t.value i = s.value i))
    (hvalue : t.value (!i) = s.value (!i)) (hflight : t.flight i = s.flight i)
    (hsent : t.flight (!i) = s.flight (!i) + sent) (hlinked : t.linked (!i) = s.linked (!i)) :
    t.Covered := by
  -- neither replica will know less than before
  have heventual : ∀ j, s.eventual j ≤ t.eventual j := by
    refine (Bool.forall_bool' i).mpr ⟨?_, ?_⟩
    · unfold eventual
      rw [hflight]
      exact sup_le_sup_right hgrow _
    · unfold eventual
      rw [hvalue, hsent, Multiset.sup_add]
      exact sup_le_sup_left le_sup_left _
  constructor
  · -- honest: what is in flight is below its sender
    refine (Bool.forall_bool' i).mpr ⟨?_, ?_⟩
    · intro v hv
      rw [hsent] at hv
      rcases Multiset.mem_add.mp hv with hold | hnew
      · exact (h.honest i v hold).trans hgrow
      · exact hhonest v hnew
    · intro v hv
      have hold := h.honest (!i) v
      rw [Bool.not_not] at hold hv
      rw [hflight] at hv
      rw [hvalue]
      exact hold hv
  · -- covers: a linked replica's value is known or on its way
    refine (Bool.forall_bool' i).mpr ⟨?_, ?_⟩
    · intro hlink
      rcases hcover hlink with hmem | ⟨hbefore, hsame⟩
      · apply le_eventual
        rw [hsent]
        exact Multiset.mem_add.mpr (Or.inr hmem)
      · rw [hsame]
        exact (h.covers i hbefore).trans (heventual (!i))
    · intro hlink
      rw [hlinked] at hlink
      rw [hvalue]
      exact (h.covers (!i) hlink).trans (heventual (!!i))

/-- Something arrives. -/
theorem Covered.receive {s t : Exchange α} (h : s.Covered) {j : Bool} {v : α} {rest : Multiset α}
    (hflight : s.flight j = v ::ₘ rest) (hvalue : t.value j = s.value j ⊔ v)
    (hother : t.value (!j) = s.value (!j)) (hrest : t.flight j = rest)
    (hback : t.flight (!j) = s.flight (!j)) (hlinked : t.linked = s.linked) : t.Covered := by
  -- what arrives was counted before
  have heventual : ∀ i, t.eventual i = s.eventual i := by
    refine (Bool.forall_bool' j).mpr ⟨?_, ?_⟩
    · unfold eventual
      rw [hvalue, hrest, hflight, Multiset.sup_cons, sup_assoc]
    · unfold eventual
      rw [hother, hback]
  -- and the other one has sent it
  have hsent : v ≤ s.value (!j) := by
    apply h.honest (!j) v
    rw [Bool.not_not, hflight]
    exact Multiset.mem_cons_self v rest
  constructor
  · refine (Bool.forall_bool' j).mpr ⟨?_, ?_⟩
    · intro u hu
      rw [hback] at hu
      rw [hvalue]
      exact (h.honest j u hu).trans le_sup_left
    · intro u hu
      have hold := h.honest (!j) u
      rw [Bool.not_not] at hold hu
      rw [hrest] at hu
      rw [hother]
      rw [hflight] at hold
      exact hold (Multiset.mem_cons_of_mem hu)
  · refine (Bool.forall_bool' j).mpr ⟨?_, ?_⟩
    · intro hlink
      rw [hlinked] at hlink
      rw [hvalue, heventual]
      exact sup_le (h.covers j hlink) (hsent.trans (s.value_le_eventual (!j)))
    · intro hlink
      rw [hlinked] at hlink
      rw [hother, heventual]
      exact h.covers (!j) hlink

/-- No step withholds anything. -/
theorem Covered.step {s t : Exchange α} (h : s.Covered) (hstep : s.Step t) : t.Covered := by
  cases hstep with
  | @act i w sent link hgrow hhonest hcover =>
    have hne : (!i) ≠ i := Bool.not_ne_self i
    have hself : Function.update s.value i w i = w := Function.update_self i w s.value
    refine h.act i sent ?_ ?_ ?_ ?_ ?_ ?_ ?_
    · exact hgrow.trans_eq hself.symm
    · intro v hv
      exact (hhonest v hv).trans_eq hself.symm
    · dsimp only
      rw [hself, Function.update_self]
      exact hcover
    · exact Function.update_of_ne hne _ _
    · exact Function.update_of_ne hne.symm _ _
    · exact Function.update_self ..
    · exact Function.update_of_ne hne _ _
  | @receive j v rest hflight =>
    have hne : (!j) ≠ j := Bool.not_ne_self j
    refine h.receive hflight ?_ ?_ ?_ ?_ rfl
    · exact Function.update_self ..
    · exact Function.update_of_ne hne _ _
    · exact Function.update_self ..
    · exact Function.update_of_ne hne _ _

end Exchange
