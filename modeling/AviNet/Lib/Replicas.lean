import Mathlib.Data.Finset.Dedup
import Mathlib.Data.Fintype.Basic
import Mathlib.Data.Fintype.EquivFin
import Mathlib.Order.Bounds.Basic
import Mathlib.Order.Lattice

/-!
# Replicas — states that are merged along a list of exchanges

In an exchange one replica merges the state that another one holds. All that is
known of a merge is that it joins the versions, that a strictly newer state
replaces the data, and that an equally new one leaves it alone (`Merging`).

* `exists_gather`: a replica that has heard of all others is at the join of
  their versions;
* `exists_broadcast`: one that no other is newer than gives its data to all;
* `exists_agreement`: unless two of the newest replicas hold different data,
  there are exchanges after which all hold the same.
-/

/-- A merge of states that have a version and data. -/
structure Merging (α β δ : Type*) [SemilatticeSup β] where
  merge : α → α → α
  version : α → β
  data : α → δ
  version_merge : ∀ a b, version (merge a b) = version a ⊔ version b
  data_of_lt : ∀ a b, version a < version b → data (merge a b) = data b
  data_of_eq : ∀ a b, version a = version b → data (merge a b) = data a

namespace Merging

variable {ι α β δ : Type*} [DecidableEq ι] [SemilatticeSup β] (M : Merging α β δ)

/-- The second replica merges the state of the first. -/
def exchange (r : ι → α) (e : ι × ι) : ι → α :=
  Function.update r e.2 (M.merge (r e.2) (r e.1))

/-- One exchange after the other. -/
def exchanges (r : ι → α) (es : List (ι × ι)) : ι → α := es.foldl M.exchange r

/-- The states that merging can make of those of the replicas. -/
inductive Reach (r : ι → α) : α → Prop
  | own (n : ι) : Reach r (r n)
  | merge {a b : α} : Reach r a → Reach r b → Reach r (M.merge a b)

/-- Every state that one of the exchanges hands over has the property. -/
def Sends (P : α → Prop) : (ι → α) → List (ι × ι) → Prop
  | _, [] => True
  | r, e :: es => P (r e.1) ∧ Sends P (M.exchange r e) es

/-- No replica is newer than `n`. -/
def Newest (r : ι → α) (n : ι) : Prop := ∀ k, M.version (r k) ≤ M.version (r n)

theorem exchanges_append (r : ι → α) (es fs : List (ι × ι)) :
    M.exchanges r (es ++ fs) = M.exchanges (M.exchanges r es) fs := List.foldl_append

/-! ## States that exchanges make -/

theorem reach_exchange {r r' : ι → α} (h : ∀ n, M.Reach r (r' n)) (e : ι × ι) (n : ι) :
    M.Reach r (M.exchange r' e n) := by
  unfold exchange
  by_cases hn : n = e.2
  · rw [hn, Function.update_self]
    exact .merge (h _) (h _)
  · rw [Function.update_of_ne hn]
    exact h n

/-- Exchanges lead to states that merging can make. -/
theorem reach_exchanges (r : ι → α) (es : List (ι × ι)) (n : ι) :
    M.Reach r (M.exchanges r es n) := by
  have hall : ∀ (es : List (ι × ι)) (r' : ι → α), (∀ n, M.Reach r (r' n)) →
      ∀ n, M.Reach r (M.exchanges r' es n) := by
    intro es
    induction es with
    | nil => exact fun r' h => h
    | cons e es ih => exact fun r' h => ih _ (M.reach_exchange h e)
  exact hall es r .own n

/-- Only states that merging can make are handed over. -/
theorem sends_of_reach {P : α → Prop} {r : ι → α} (hP : ∀ a, M.Reach r a → P a)
    (es : List (ι × ι)) : M.Sends P r es := by
  have hall : ∀ (es : List (ι × ι)) (r' : ι → α), (∀ n, M.Reach r (r' n)) → M.Sends P r' es := by
    intro es
    induction es with
    | nil => exact fun _ _ => True.intro
    | cons e es ih => exact fun r' h => ⟨hP _ (h e.1), ih _ (M.reach_exchange h e)⟩
  exact hall es r .own

/-! ## One replica hears of all others -/

theorem gather_of_ne {h k : ι} (hk : k ≠ h) (ns : List ι) (r : ι → α) :
    M.exchanges r (ns.map fun n => (n, h)) k = r k := by
  induction ns generalizing r with
  | nil => rfl
  | cons n ns ih =>
    have hstep : M.exchange r (n, h) k = r k := Function.update_of_ne hk _ _
    exact (ih _).trans hstep

/-- The replica ends up at the join of the versions. -/
theorem gather_le_iff {h : ι} {ns : List ι} (hns : h ∉ ns) (r : ι → α) (v : β) :
    M.version (M.exchanges r (ns.map fun n => (n, h)) h) ≤ v ↔
      M.version (r h) ≤ v ∧ ∀ n ∈ ns, M.version (r n) ≤ v := by
  induction ns generalizing r with
  | nil => exact ⟨fun hv => ⟨hv, fun n hn => absurd hn List.not_mem_nil⟩, fun hv => hv.1⟩
  | cons n ns ih =>
    have hown : M.exchange r (n, h) h = M.merge (r h) (r n) := Function.update_self _ _ _
    have hrest : ∀ m ∈ ns, M.exchange r (n, h) m = r m := by
      intro m hm
      apply Function.update_of_ne
      rintro rfl
      exact hns (List.mem_cons_of_mem _ hm)
    have hgather := ih (fun hmem => hns (List.mem_cons_of_mem _ hmem)) (M.exchange r (n, h))
    rw [hown, M.version_merge, sup_le_iff] at hgather
    rw [List.forall_mem_cons, ← and_assoc]
    refine hgather.trans (and_congr_right fun _ => ?_)
    apply forall₂_congr
    intro m hm
    rw [hrest m hm]

/-! ## One replica tells all others -/

theorem broadcast_eq {h : ι} {ns : List ι} (hns : h ∉ ns) (hnodup : ns.Nodup) (r : ι → α) (k : ι) :
    M.exchanges r (ns.map fun n => (h, n)) k = if k ∈ ns then M.merge (r k) (r h) else r k := by
  induction ns generalizing r with
  | nil => rfl
  | cons n ns ih =>
    rw [List.nodup_cons] at hnodup
    rw [List.mem_cons, not_or] at hns
    have hsource : M.exchange r (h, n) h = r h := Function.update_of_ne hns.1 _ _
    have htold : M.exchange r (h, n) n = M.merge (r n) (r h) := Function.update_self _ _ _
    refine (ih hns.2 hnodup.2 (M.exchange r (h, n))).trans ?_
    rw [hsource]
    by_cases hk : k = n
    · -- it is told once
      rw [hk, if_neg hnodup.1, if_pos List.mem_cons_self, htold]
    · have hother : M.exchange r (h, n) k = r k := Function.update_of_ne hk _ _
      rw [hother]
      simp only [List.mem_cons, hk, false_or]

/-- It hands over its own state only. -/
theorem sends_broadcast {P : α → Prop} {h : ι} {ns : List ι} (hns : h ∉ ns) {r : ι → α}
    (hP : P (r h)) : M.Sends P r (ns.map fun n => (h, n)) := by
  induction ns generalizing r with
  | nil => exact True.intro
  | cons n ns ih =>
    rw [List.mem_cons, not_or] at hns
    have hsource : M.exchange r (h, n) h = r h := Function.update_of_ne hns.1 _ _
    refine ⟨hP, ih hns.2 ?_⟩
    rw [hsource]
    exact hP

/-! ## All replicas -/

section Finite

variable [Finite ι]

omit [SemilatticeSup β] [DecidableEq ι] in
/-- The replicas other than `h`, in some order. -/
theorem exists_others (h : ι) :
    ∃ ns : List ι, ns.Nodup ∧ h ∉ ns ∧ ∀ n, n ≠ h → n ∈ ns := by
  classical
  cases nonempty_fintype ι
  refine ⟨(Finset.univ.erase h).toList, Finset.nodup_toList _, ?_, ?_⟩
  · intro hmem
    exact Finset.notMem_erase h _ (Finset.mem_toList.mp hmem)
  · intro n hn
    exact Finset.mem_toList.mpr (Finset.mem_erase.mpr ⟨hn, Finset.mem_univ n⟩)

/-- Some exchanges take one replica to the join of all and leave the others alone. -/
theorem exists_gather (r : ι → α) (h : ι) : ∃ es : List (ι × ι), (∀ e ∈ es, e.1 ≠ e.2) ∧
    IsLUB (Set.range fun n => M.version (r n)) (M.version (M.exchanges r es h)) ∧
    ∀ n, n ≠ h → M.exchanges r es n = r n := by
  obtain ⟨ns, -, hns, hall⟩ := exists_others h
  refine ⟨ns.map fun n => (n, h), ?_, ?_, fun n hn => M.gather_of_ne hn ns r⟩
  · intro e he
    obtain ⟨n, hn, rfl⟩ := List.mem_map.mp he
    intro (heq : n = h)
    rw [heq] at hn
    exact hns hn
  · have hle := M.gather_le_iff hns r
    constructor
    · rintro _ ⟨n, rfl⟩
      have hbelow := (hle _).mp le_rfl
      by_cases hn : n = h
      · rw [hn]
        exact hbelow.1
      · exact hbelow.2 n (hall n hn)
    · intro v hv
      exact (hle v).mpr ⟨hv ⟨h, rfl⟩, fun n _ => hv ⟨n, rfl⟩⟩

/-- A replica that none is newer than tells the others, and all hold its data. -/
theorem exists_broadcast (r : ι → α) (h : ι) (htop : M.Newest r h)
    (hsame : ∀ n, M.version (r n) = M.version (r h) → M.data (r n) = M.data (r h)) :
    ∃ es : List (ι × ι), (∀ e ∈ es, e.1 ≠ e.2) ∧
      (∀ P : α → Prop, P (r h) → M.Sends P r es) ∧ ∀ n,
      M.version (M.exchanges r es n) = M.version (r h) ∧
      M.data (M.exchanges r es n) = M.data (r h) := by
  obtain ⟨ns, hnodup, hns, hall⟩ := exists_others h
  refine ⟨ns.map fun n => (h, n), ?_, fun P hP => M.sends_broadcast hns hP, ?_⟩
  · intro e he
    obtain ⟨n, hn, rfl⟩ := List.mem_map.mp he
    intro (heq : h = n)
    rw [← heq] at hn
    exact hns hn
  · intro n
    rw [M.broadcast_eq hns hnodup]
    by_cases hn : n = h
    · rw [hn, if_neg hns]
      exact ⟨rfl, rfl⟩
    · rw [if_pos (hall n hn), M.version_merge, sup_eq_right.mpr (htop n)]
      refine ⟨rfl, ?_⟩
      rcases (htop n).lt_or_eq with hlt | heq
      · exact M.data_of_lt _ _ hlt
      · exact (M.data_of_eq _ _ heq).trans (hsame n heq)

/-- **Agreement by exchanges**: unless two replicas that none is newer than hold
different data, some exchanges take all to the join of the versions and to the
same data. -/
theorem exists_agreement (r : ι → α) (hsame : ∀ n m, M.Newest r n → M.Newest r m →
      M.data (r n) = M.data (r m)) :
    ∃ es : List (ι × ι), (∀ e ∈ es, e.1 ≠ e.2) ∧ ∀ n,
      IsLUB (Set.range fun n => M.version (r n)) (M.version (M.exchanges r es n)) ∧
      ∀ m, M.data (M.exchanges r es n) = M.data (M.exchanges r es m) := by
  by_cases htop : ∃ h, M.Newest r h
  · -- one of the newest tells the others
    obtain ⟨h, hh⟩ := htop
    obtain ⟨es, hes, -, hend⟩ := M.exists_broadcast r h hh (by
      intro n hn
      exact hsame n h (fun k => (hh k).trans hn.ge) hh)
    refine ⟨es, hes, ?_⟩
    intro n
    rw [(hend n).1]
    refine ⟨⟨?_, fun v hv => hv ⟨h, rfl⟩⟩, fun m => (hend n).2.trans (hend m).2.symm⟩
    rintro _ ⟨k, rfl⟩
    exact hh k
  · rcases isEmpty_or_nonempty ι with hempty | ⟨⟨h⟩⟩
    · exact ⟨[], fun e he => absurd he List.not_mem_nil, fun n => hempty.elim n⟩
    · -- one gathers what all hold, and is strictly newer than the others
      obtain ⟨es, hes, hlub, hrest⟩ := M.exists_gather r h
      have hbelow : M.Newest (M.exchanges r es) h := by
        intro n
        by_cases hn : n = h
        · rw [hn]
        · rw [hrest n hn]
          exact hlub.1 ⟨n, rfl⟩
      obtain ⟨fs, hfs, -, hend⟩ := M.exists_broadcast (M.exchanges r es) h hbelow (by
        intro n hn
        by_cases hnh : n = h
        · rw [hnh]
        · rw [hrest n hnh] at hn
          exact absurd ⟨n, fun k => (hlub.1 ⟨k, rfl⟩).trans hn.ge⟩ htop)
      refine ⟨es ++ fs, fun e he => (List.mem_append.mp he).elim (hes e) (hfs e), ?_⟩
      intro n
      rw [exchanges_append, (hend n).1]
      exact ⟨hlub, fun m => (hend n).2.trans (hend m).2.symm⟩

end Finite

end Merging
