import Mathlib.Order.Bounds.Basic
import Mathlib.Data.List.Infix
import Mathlib.Tactic.Common

/-!
# PathDoc — trees read along paths, and how one tree is laid over another

A document is what its paths show: nothing, a branch, or a leaf. `a.onto b`
is `a`, completed with the keys of `b` that `a` lacks under a branch; where the
two disagree, `a` wins. The laws say exactly when the order of laying documents
over each other does not matter:

* `onto_eq_left_iff`: laying over `b` adds nothing (`Covers`);
* `onto_eq_right_iff`: nothing of `b` is changed (the order `a ≤ b`);
* `onto_comm_iff`: either may lie on top (`Agree`);
* `onto_onto_right`, `onto_onto_left`: `b` a second time adds nothing;
* `onto_right_comm_iff`, `onto_assoc_iff`, `onto_exchange_iff`: three documents
  in two groupings (`AgreeOff`, `NoShadow`);
* `isLUB_onto`: parts of one document are joined.
-/

/-- What a document shows at a path. -/
inductive Node (α : Type*) where
  | absent
  | branch
  | leaf (a : α)

/-- A document: only branches have anything below them, and the root exists. -/
structure PathDoc (κ α : Type*) where
  node : List κ → Node α
  root : node [] ≠ .absent
  closed : ∀ p k, node (p ++ [k]) ≠ .absent → node p = .branch

namespace PathDoc

variable {κ α : Type*} {a b c : PathDoc κ α} {p q : List κ}

@[ext] theorem ext (h : ∀ p, a.node p = b.node p) : a = b := by
  cases a
  cases b
  congr
  exact funext h

/-- Above anything present there are branches only. -/
theorem branch_above (hqp : q <+: p) (hne : q ≠ p) (hp : a.node p ≠ .absent) :
    a.node q = .branch := by
  rcases hqp with ⟨r, rfl⟩
  induction r using List.reverseRecOn with
  | nil => simp at hne
  | append_singleton r k ih =>
    rw [← List.append_assoc] at hp
    have hr : a.node (q ++ r) = .branch := a.closed _ k hp
    by_cases hq : q = q ++ r
    · rw [← hq] at hr
      exact hr
    · exact ih hq (by rw [hr]; simp)

/-! ## Open paths -/

/-- A leaf stands on the way to `p`. -/
def Blocked (a : PathDoc κ α) (p : List κ) : Prop := ∃ q v, q <+: p ∧ a.node q = .leaf v

/-- The walk towards `p` ends in a branch that lacks the next key. -/
def Open (a : PathDoc κ α) (p : List κ) : Prop := a.node p = .absent ∧ ¬ a.Blocked p

/-- A leaf on the way stays on every longer way. -/
theorem Blocked.mono (h : a.Blocked q) (hqp : q <+: p) : a.Blocked p := by
  rcases h with ⟨r, v, hr, hv⟩
  exact ⟨r, v, hr.trans hqp, hv⟩

/-- No leaf stands on the way to an open path. -/
theorem Open.not_leaf (h : a.Open p) (hqp : q <+: p) (v : α) : a.node q ≠ .leaf v :=
  fun hv => h.2 ⟨q, v, hqp, hv⟩

/-- On the way to an open path there are only branches and open paths. -/
theorem Open.above (h : a.Open p) (hqp : q <+: p) : a.node q = .branch ∨ a.Open q := by
  cases hq : a.node q with
  | branch => exact Or.inl rfl
  | leaf v => exact absurd hq (h.not_leaf hqp v)
  | absent => exact Or.inr ⟨hq, fun hb => h.2 (hb.mono hqp)⟩

/-! ## Laying over -/

open Classical in
/-- `a` on top of `b`: `b` shows only where `a` leaves the path open. -/
noncomputable def onto (a b : PathDoc κ α) : PathDoc κ α where
  node p := if a.Open p then b.node p else a.node p
  root := by
    rw [if_neg fun h => a.root h.1]
    exact a.root
  closed := by
    intro p k h
    by_cases hk : a.Open (p ++ [k])
    · rw [if_pos hk] at h
      rcases hk.above (List.prefix_append p [k]) with hp | hp
      · rw [if_neg fun ho => by rw [ho.1] at hp; cases hp]
        exact hp
      · rw [if_pos hp]
        exact b.closed p k h
    · rw [if_neg hk] at h
      have hp := a.closed p k h
      rw [if_neg fun ho => by rw [ho.1] at hp; cases hp]
      exact hp

theorem onto_open (h : a.Open p) : (a.onto b).node p = b.node p := if_pos h

theorem onto_not_open (h : ¬ a.Open p) : (a.onto b).node p = a.node p := if_neg h

theorem onto_present (h : a.node p ≠ .absent) : (a.onto b).node p = a.node p :=
  onto_not_open fun ho => h ho.1

/-- A leaf is a leaf of one of the two. -/
theorem leaf_onto {v : α} (h : (a.onto b).node p = .leaf v) :
    a.node p = .leaf v ∨ b.node p = .leaf v := by
  by_cases ho : a.Open p
  · rw [onto_open ho] at h
    exact Or.inr h
  · rw [onto_not_open ho] at h
    exact Or.inl h

/-- Something shows where the upper document has it, or leaves the path open to the lower one. -/
theorem onto_ne_absent_iff :
    (a.onto b).node p ≠ .absent ↔ a.node p ≠ .absent ∨ (a.Open p ∧ b.node p ≠ .absent) := by
  by_cases h : a.Open p
  · rw [onto_open h]
    simp [h, h.1]
  · rw [onto_not_open h]
    simp [h]

/-- A path is blocked in `a.onto b` by a leaf of `a`, or by one of `b` in the
part that `a` leaves open. -/
theorem onto_blocked_iff : (a.onto b).Blocked p ↔
    a.Blocked p ∨ ∃ q v, q <+: p ∧ a.Open q ∧ b.node q = .leaf v := by
  constructor
  · rintro ⟨q, v, hqp, hv⟩
    by_cases h : a.Open q
    · rw [onto_open h] at hv
      exact Or.inr ⟨q, v, hqp, h, hv⟩
    · rw [onto_not_open h] at hv
      exact Or.inl ⟨q, v, hqp, hv⟩
  · rintro (⟨q, v, hqp, hv⟩ | ⟨q, v, hqp, h, hv⟩)
    · refine ⟨q, v, hqp, ?_⟩
      rw [onto_present (by rw [hv]; simp), hv]
    · exact ⟨q, v, hqp, by rw [onto_open h, hv]⟩

/-- A path is open after a merge if neither document has it or blocks it. -/
theorem onto_open_iff : (a.onto b).Open p ↔
    a.Open p ∧ b.node p = .absent ∧ ∀ q v, q <+: p → a.Open q → b.node q ≠ .leaf v := by
  constructor
  · rintro ⟨habs, hblk⟩
    rw [onto_blocked_iff, not_or] at hblk
    have ha : a.Open p := by
      refine ⟨?_, hblk.1⟩
      by_contra hp
      rw [onto_present hp] at habs
      exact hp habs
    rw [onto_open ha] at habs
    exact ⟨ha, habs, fun q v hqp ho hv => hblk.2 ⟨q, v, hqp, ho, hv⟩⟩
  · rintro ⟨ha, hb, hleaf⟩
    refine ⟨by rw [onto_open ha, hb], ?_⟩
    rw [onto_blocked_iff, not_or]
    exact ⟨ha.2, fun ⟨q, v, hqp, ho, hv⟩ => hleaf q v hqp ho hv⟩

/-- A document laid onto itself is itself. -/
theorem onto_self (a : PathDoc κ α) : a.onto a = a := by
  ext p
  by_cases h : a.Open p
  · rw [onto_open h]
  · rw [onto_not_open h]

/-! ## The information order -/

/-- Everything `a` shows, `b` shows too. -/
instance : PartialOrder (PathDoc κ α) where
  le a b := ∀ p, a.node p ≠ .absent → b.node p = a.node p
  le_refl _ _ _ := rfl
  le_trans a b c hab hbc p hp := by
    rw [hbc p (by rwa [hab p hp]), hab p hp]
  le_antisymm a b hab hba := by
    ext p
    by_cases hp : a.node p = .absent
    · by_contra hne
      have hb : b.node p ≠ .absent := fun h => hne (hp.trans h.symm)
      exact hne (hba p hb)
    · exact (hab p hp).symm

/-- Laying a document onto another loses nothing of the upper one. -/
theorem le_onto_left (a b : PathDoc κ α) : a ≤ a.onto b := fun _ hp => onto_present hp

/-- A document that shows what `a` and what `b` show is above `a.onto b`. -/
theorem onto_le (ha : a ≤ c) (hb : b ≤ c) : a.onto b ≤ c := by
  intro p hp
  by_cases ho : a.Open p
  · rw [onto_open ho] at hp ⊢
    exact hb p hp
  · rw [onto_not_open ho] at hp ⊢
    exact ha p hp

/-- `a` already has every key of `b` that it could take over. -/
def Covers (a b : PathDoc κ α) : Prop := ∀ p, a.Open p → b.node p = .absent

/-- Where both show something they show the same. -/
def Agree (a b : PathDoc κ α) : Prop :=
  ∀ p, a.node p ≠ .absent → b.node p ≠ .absent → a.node p = b.node p

theorem Agree.symm (h : Agree a b) : Agree b a := fun p hb ha => (h p ha hb).symm

/-- Agreeing documents do not block each other. -/
theorem Agree.not_blocked (h : Agree a b) (ha : a.node p = .absent) (hb : b.node p ≠ .absent) :
    ¬ a.Blocked p := by
  rintro ⟨q, v, hqp, hv⟩
  have hne : q ≠ p := by
    rintro rfl
    rw [hv] at ha
    cases ha
  have hq := branch_above hqp hne hb
  have := h q (by rw [hv]; simp) (by rw [hq]; simp)
  rw [hv, hq] at this
  cases this

/-- The lower document adds nothing exactly if the upper one covers it. -/
theorem onto_eq_left_iff : a.onto b = a ↔ a.Covers b := by
  constructor
  · intro h p hp
    rw [← onto_open (b := b) hp, h, hp.1]
  · intro h
    ext p
    by_cases hp : a.Open p
    · rw [onto_open hp, h p hp, hp.1]
    · rw [onto_not_open hp]

/-- The lower document is the result exactly if it extends the upper one. -/
theorem onto_eq_right_iff : a.onto b = b ↔ a ≤ b := by
  constructor
  · intro h
    rw [← h]
    exact le_onto_left a b
  · intro h
    ext p
    by_cases hp : a.Open p
    · rw [onto_open hp]
    · rw [onto_not_open hp]
      by_cases ha : a.node p = .absent
      · -- blocked in `a`, hence in `b`
        by_contra hne
        have hb : b.node p ≠ .absent := fun hb => hne (ha.trans hb.symm)
        refine hp ⟨ha, Agree.not_blocked (b := b) (fun q hq _ => (h q hq).symm) ha hb⟩
      · exact (h p ha).symm

/-- Nothing of the lower document is lost exactly if the two agree. -/
theorem le_onto_right_iff : b ≤ a.onto b ↔ Agree a b := by
  constructor
  · intro h p ha hb
    rw [← h p hb, onto_present ha]
  · intro h p hb
    by_cases ha : a.node p = .absent
    · exact onto_open ⟨ha, h.not_blocked ha hb⟩
    · rw [onto_present ha, h p ha hb]

/-- Either document may lie on top exactly when they agree. -/
theorem onto_comm_iff : a.onto b = b.onto a ↔ Agree a b := by
  constructor
  · intro h
    rw [← le_onto_right_iff, h]
    exact le_onto_left b a
  · intro h
    have hle : b ≤ a.onto b := le_onto_right_iff.mpr h
    have hle' : a ≤ b.onto a := le_onto_right_iff.mpr h.symm
    exact le_antisymm (onto_le hle' (le_onto_left b a)) (onto_le hle (le_onto_left a b))

/-- Once `b` has been laid under, laying it under again adds nothing. -/
theorem onto_onto_right (a b : PathDoc κ α) : (a.onto b).onto b = a.onto b :=
  onto_eq_left_iff.mpr fun _ hp => (onto_open_iff.mp hp).2.1

/-- Nor does it once `b` has been laid on top. -/
theorem onto_onto_left (a b : PathDoc κ α) : (b.onto a).onto b = b.onto a :=
  onto_eq_left_iff.mpr fun _ hp => (onto_open_iff.mp hp).1.1

/-! ## Three documents -/

/-- `b` and `c` agree wherever `a` leaves the path open. -/
def AgreeOff (a b c : PathDoc κ α) : Prop :=
  ∀ p, a.Open p → b.node p ≠ .absent → c.node p ≠ .absent → b.node p = c.node p

/-- Below a leaf of `b` that sits where `a` branches, `c` adds nothing to `a`:
such keys of `c` are hidden if `c` is first laid under `b`. -/
def NoShadow (a b c : PathDoc κ α) : Prop :=
  ∀ p q v, q <+: p → b.node q = .leaf v → a.node q = .branch → a.Open p → c.node p = .absent

/-- What `(a.onto b).onto c` shows where `a` and `b` show nothing. -/
theorem onto_onto_node (ha : a.Open p) (hb : b.node p = .absent) :
    ((a.onto b).onto c).node p = c.node p ∨
      (((a.onto b).onto c).node p = .absent ∧
        ∃ q v, q <+: p ∧ a.Open q ∧ b.node q = .leaf v) := by
  by_cases hleaf : ∃ q v, q <+: p ∧ a.Open q ∧ b.node q = .leaf v
  · refine Or.inr ⟨?_, hleaf⟩
    have hno : ¬ (a.onto b).Open p := by
      rw [onto_open_iff]
      rintro ⟨-, -, h⟩
      rcases hleaf with ⟨q, v, hqp, ho, hv⟩
      exact h q v hqp ho hv
    rw [onto_not_open hno, onto_open ha, hb]
  · refine Or.inl (onto_open (onto_open_iff.mpr ⟨ha, hb, fun q v hqp ho hv => ?_⟩))
    exact hleaf ⟨q, v, hqp, ho, hv⟩

/-- Where `a` is not open, nothing that is laid under `a` shows. -/
theorem onto_onto_node_not_open (ha : ¬ a.Open p) : ((a.onto b).onto c).node p = a.node p := by
  rw [onto_not_open fun h => ha (onto_open_iff.mp h).1, onto_not_open ha]

/-- Two documents laid under `a` one after the other: the order does not matter
exactly when they agree where `a` is open. -/
theorem onto_right_comm_iff : (a.onto b).onto c = (a.onto c).onto b ↔ AgreeOff a b c := by
  -- what `x` adds at an open path stays
  have hpresent : ∀ {x y : PathDoc κ α} {p}, a.Open p → x.node p ≠ .absent →
      ((a.onto x).onto y).node p = x.node p := by
    intro x y p ha hx
    rw [onto_present (by rwa [onto_open ha]), onto_open ha]
  constructor
  · -- where both add something the order shows
    intro h p ha hb hc
    rw [← hpresent (y := c) ha hb, h, hpresent ha hc]
  · intro h
    -- one side present is enough to decide both groupings
    have hone : ∀ {x y : PathDoc κ α} {p}, AgreeOff a x y → a.Open p → x.node p ≠ .absent →
        y.node p = .absent → ((a.onto y).onto x).node p = x.node p := by
      intro x y p hxy ha hx hy
      rcases onto_onto_node (c := x) ha hy with heq | ⟨-, q, v, hqp, ho, hv⟩
      · exact heq
      · have hne : q ≠ p := by
          rintro rfl
          rw [hv] at hy
          cases hy
        have hbr := branch_above hqp hne hx
        have := hxy q ho (by rw [hbr]; simp) (by rw [hv]; simp)
        rw [hbr, hv] at this
        cases this
    have hsymm : AgreeOff a c b := fun p ho hc hb => (h p ho hb hc).symm
    ext p
    -- an open path: decided by who adds something
    by_cases ha : a.Open p
    · by_cases hb : b.node p = .absent
      · by_cases hc : c.node p = .absent
        · have hnone : ∀ {x y : PathDoc κ α}, x.node p = .absent → y.node p = .absent →
              ((a.onto x).onto y).node p = .absent := by
            intro x y hx hy
            rcases onto_onto_node (c := y) ha hx with heq | ⟨heq, -⟩
            · rw [heq, hy]
            · exact heq
          rw [hnone hb hc, hnone hc hb]
        · rw [hone hsymm ha hc hb, hpresent ha hc]
      · by_cases hc : c.node p = .absent
        · rw [hpresent ha hb, hone h ha hb hc]
        · rw [hpresent ha hb, hpresent ha hc, h p ha hb hc]
    · -- a path that `a` closes
      rw [onto_onto_node_not_open ha, onto_onto_node_not_open ha]

/-- Grouping to the left or to the right. -/
theorem onto_assoc_iff : (a.onto b).onto c = a.onto (b.onto c) ↔ NoShadow a b c := by
  constructor
  · intro h p q v hqp hv hbr ha
    by_contra hc
    have hne : q ≠ p := by
      rintro rfl
      rw [ha.1] at hbr
      cases hbr
    have hb : b.node p = .absent := by
      by_contra hp
      rw [branch_above hqp hne hp] at hv
      cases hv
    -- grouped to the right the leaf of `b` hides `c`
    have hright : (a.onto (b.onto c)).node p = .absent := by
      rw [onto_open ha, onto_not_open fun ho => ho.not_leaf hqp v hv, hb]
    rcases onto_onto_node (c := c) ha hb with heq | ⟨-, r, w, hrp, ho, hw⟩
    · rw [h, hright] at heq
      exact hc heq.symm
    · -- the only leaf of `b` on the way to `p` is the one at `q`
      have hqr : q = r := by
        rcases List.prefix_or_prefix_of_prefix hqp hrp with hqr | hrq
        · by_contra hne'
          rw [branch_above hqr hne' (by rw [hw]; simp)] at hv
          cases hv
        · by_contra hne'
          rw [branch_above hrq (Ne.symm hne') (by rw [hv]; simp)] at hw
          cases hw
      rw [← hqr, Open, hbr] at ho
      cases ho.1
  · intro h
    ext p
    by_cases ha : a.Open p
    · rw [onto_open (a := a) ha]
      by_cases hb : b.node p = .absent
      · by_cases hblk : b.Blocked p
        · rw [onto_not_open fun ho => ho.2 hblk, hb]
          rcases hblk with ⟨q, v, hqp, hv⟩
          rcases onto_onto_node (c := c) ha hb with heq | ⟨heq, -⟩
          · rcases ha.above hqp with hbr | ho
            · rw [heq, h p q v hqp hv hbr ha]
            · -- the leaf is in the open part, so it blocks on the left too
              have hno : ¬ (a.onto b).Open p := fun hop => (onto_open_iff.mp hop).2.2 q v hqp ho hv
              rw [onto_not_open hno, onto_open ha, hb]
          · exact heq
        · have hob : b.Open p := ⟨hb, hblk⟩
          rw [onto_open hob]
          exact onto_open (onto_open_iff.mpr
            ⟨ha, hb, fun q v hqp _ => hob.not_leaf hqp v⟩)
      · rw [onto_present (a := b) hb, onto_present (by rwa [onto_open ha]), onto_open ha]
    · rw [onto_onto_node_not_open ha, onto_not_open ha]

/-- Exchanging the two lower documents while regrouping. -/
theorem onto_exchange_iff :
    (a.onto b).onto c = a.onto (c.onto b) ↔ AgreeOff a b c ∧ NoShadow a c b := by
  constructor
  · intro h
    -- at an open path the order puts `b` first
    have hb : ∀ p, a.Open p → b.node p ≠ .absent → (c.onto b).node p = b.node p := by
      intro p ha hb
      have hleft : ((a.onto b).onto c).node p = b.node p := by
        rw [onto_present (by rwa [onto_open ha]), onto_open ha]
      rw [← hleft, h, onto_open ha]
    constructor
    · -- they agree where both add something
      intro p ha hbp hc
      rw [← hb p ha hbp, onto_present hc]
    · -- a leaf of `c` above would hide what `b` adds
      intro p q v hqp hv hbr ha
      by_contra hbp
      have hne : q ≠ p := by
        rintro rfl
        rw [ha.1] at hbr
        cases hbr
      have := hb p ha hbp
      rw [onto_not_open fun ho => ho.not_leaf hqp v hv] at this
      have hcp : c.node p ≠ .absent := by rwa [this]
      rw [branch_above hqp hne hcp] at hv
      cases hv
  · rintro ⟨hoff, hshadow⟩
    rw [onto_right_comm_iff.mpr hoff, onto_assoc_iff.mpr hshadow]

/-! ## Parts of one document -/

variable {d : PathDoc κ α}

/-- Two documents within a third agree. -/
theorem agree_of_le (ha : a ≤ d) (hb : b ≤ d) : Agree a b := by
  intro p hap hbp
  rw [← ha p hap, ← hb p hbp]

/-- Laying two parts of one document over each other joins them. -/
theorem isLUB_onto (ha : a ≤ d) (hb : b ≤ d) : IsLUB {a, b} (a.onto b) := by
  have hcomm : a.onto b = b.onto a := onto_comm_iff.mpr (agree_of_le ha hb)
  constructor
  · rintro x (rfl | rfl)
    · exact le_onto_left x b
    · rw [hcomm]
      exact le_onto_left x a
  · intro u hu
    exact onto_le (hu (Set.mem_insert a {b})) (hu (Set.mem_insert_of_mem a rfl))

end PathDoc
