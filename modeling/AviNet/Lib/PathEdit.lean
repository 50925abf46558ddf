import AviNet.Lib.PathDoc

/-!
# PathEdit — writing and removing at a path

`a.put p d` shows `d` at `p`, with branches above it; `a.cut p` shows nothing
at `p`. Both leave the paths that diverge from `p` alone (`below_put_diverging`,
`below_cut_diverging`). What a document shows at and below a path is
`a.below p`; `below_onto` says what laying over does there.
-/

namespace PathDoc

variable {κ α : Type*} {a b c d : PathDoc κ α} {p q : List κ}

/-- Neither path is a prefix of the other. -/
def Diverge (p q : List κ) : Prop := ¬ p <+: q ∧ ¬ q <+: p

theorem Diverge.symm (h : Diverge p q) : Diverge q p := ⟨h.2, h.1⟩

/-- A path that leaves another stays apart from it further down. -/
theorem Diverge.append (h : Diverge p q) (r : List κ) : Diverge p (q ++ r) := by
  constructor
  · intro hp
    rcases List.prefix_or_prefix_of_prefix hp (List.prefix_append q r) with hpq | hqp
    · exact h.1 hpq
    · exact h.2 hqp
  · intro hq
    exact h.2 ((List.prefix_append q r).trans hq)

/-- The root diverges from nothing. -/
theorem Diverge.ne_nil (h : Diverge p q) : p ≠ [] := by
  rintro rfl
  exact h.1 List.nil_prefix

/-! ## What shows at a path -/

/-- What `a` shows at `p` and below. -/
def below (a : PathDoc κ α) (p : List κ) : List κ → Node α := fun r => a.node (p ++ r)

/-- The document at `p`. -/
def sub (a : PathDoc κ α) (p : List κ) (h : a.node p ≠ .absent) : PathDoc κ α where
  node := a.below p
  root := by
    show a.node (p ++ []) ≠ .absent
    rwa [List.append_nil]
  closed := by
    intro r k hk
    refine a.closed (p ++ r) k ?_
    rwa [List.append_assoc]

/-- Where nothing shows, nothing shows below. -/
theorem below_absent (h : a.node p = .absent) : a.below p = fun _ => .absent := by
  funext r
  by_contra hr
  by_cases hne : p = p ++ r
  · have : a.below p r = a.node p := by rw [below, ← hne]
    exact hr (this.trans h)
  · have hbr := branch_above (List.prefix_append p r) hne hr
    rw [h] at hbr
    cases hbr

theorem below_self (h : a.below p = b.below p) : a.node p = b.node p := by
  have := congrFun h []
  simpa [below] using this

/-- Below a present path only its own leaves block. -/
theorem open_append_iff (h : a.node p ≠ .absent) {r : List κ} :
    a.Open (p ++ r) ↔ (a.sub p h).Open r := by
  refine and_congr_right fun hr => not_congr ?_
  constructor
  · rintro ⟨q, v, hq, hv⟩
    rcases List.prefix_or_prefix_of_prefix hq (List.prefix_append p r) with hqp | hpq
    · by_cases hne : q = p
      · exact ⟨[], v, List.nil_prefix, by
          show a.node (p ++ []) = _
          rw [List.append_nil, ← hne, hv]⟩
      · rw [branch_above hqp hne h] at hv
        cases hv
    · rcases hpq with ⟨s, rfl⟩
      exact ⟨s, v, (List.prefix_append_right_inj p).mp hq, hv⟩
  · rintro ⟨q, v, hq, hv⟩
    exact ⟨p ++ q, v, (List.prefix_append_right_inj p).mpr hq, hv⟩

/-! ## Laying over, at a path -/

/-- Where both show something, the two sub-documents are laid over each other. -/
theorem below_onto (ha : a.node p ≠ .absent) (hb : b.node p ≠ .absent) :
    (a.onto b).below p = ((a.sub p ha).onto (b.sub p hb)).node := by
  funext r
  by_cases ho : a.Open (p ++ r)
  · rw [onto_open ((open_append_iff ha).mp ho), below, onto_open ho]
    rfl
  · rw [onto_not_open (fun h => ho ((open_append_iff ha).mpr h)), below, onto_not_open ho]
    rfl

/-- Where the lower document has nothing, the upper one decides all below. -/
theorem below_onto_left (hb : b.node p = .absent) :
    (a.onto b).below p = a.below p := by
  funext r
  by_cases ho : a.Open (p ++ r)
  · rw [below, onto_open ho, below, ho.1]
    exact congrFun (below_absent hb) r
  · rw [below, onto_not_open ho]
    rfl

/-- Below an open path everything comes from the lower document. -/
theorem below_onto_open (ho : a.Open p) : (a.onto b).below p = b.below p := by
  funext r
  have hr : a.node (p ++ r) = .absent := congrFun (below_absent ho.1) r
  have hopen : a.Open (p ++ r) := by
    refine ⟨hr, ?_⟩
    rintro ⟨q, v, hq, hv⟩
    rcases List.prefix_or_prefix_of_prefix hq (List.prefix_append p r) with hqp | hpq
    · exact ho.not_leaf hqp v hv
    · rcases hpq with ⟨s, rfl⟩
      rw [show a.node (p ++ s) = .absent from congrFun (below_absent ho.1) s] at hv
      cases hv
  rw [below, onto_open hopen]
  rfl

/-- What `a.onto b` shows at a path depends only on what `b` shows there. -/
theorem below_onto_congr (h : b.below p = c.below p) :
    (a.onto b).below p = (a.onto c).below p := by
  funext r
  by_cases ho : a.Open (p ++ r)
  · rw [below, onto_open ho, below, onto_open ho]
    exact congrFun h r
  · rw [below, onto_not_open ho, below, onto_not_open ho]

/-! ## Writing -/

open Classical in
/-- `d` at `p`, branches above, and `a` elsewhere. -/
noncomputable def put (a : PathDoc κ α) (p : List κ) (d : PathDoc κ α) : PathDoc κ α where
  node q := if p <+: q then d.node (q.drop p.length) else if q <+: p then .branch else a.node q
  root := by
    by_cases hp : p <+: []
    · rw [if_pos hp, List.drop_nil]
      exact d.root
    · rw [if_neg hp, if_pos List.nil_prefix]
      simp
  closed := by
    intro q k h
    by_cases hpq : p <+: q
    · rcases hpq with ⟨r, rfl⟩
      rw [if_pos (List.prefix_append _ _), List.drop_left]
      rw [if_pos ((List.prefix_append p r).trans (List.prefix_append _ _)), List.append_assoc,
        List.drop_left] at h
      exact d.closed r k h
    · rw [if_neg hpq]
      by_cases hqp : q <+: p
      · rw [if_pos hqp]
      · -- one key further the path diverges from `p` as well
        have hdiv : Diverge p (q ++ [k]) := Diverge.append ⟨hpq, hqp⟩ [k]
        rw [if_neg hdiv.1, if_neg hdiv.2] at h
        rw [if_neg hqp]
        exact a.closed q k h

/-- Below a path that has been written shows what was written. -/
theorem below_put (a : PathDoc κ α) (p : List κ) (d : PathDoc κ α) :
    (a.put p d).below p = d.node := by
  funext r
  refine (if_pos (List.prefix_append p r)).trans ?_
  rw [List.drop_left]

/-- A write changes nothing at a path apart from its own. -/
theorem put_diverging (h : Diverge p q) : (a.put p d).node q = a.node q :=
  (if_neg h.1).trans (if_neg h.2)

/-- A write leaves diverging paths alone. -/
theorem below_put_diverging (h : Diverge p q) : (a.put p d).below q = a.below q :=
  funext fun r => put_diverging (h.append r)

/-- Above a path that has been written the document branches. -/
theorem put_above (hqp : q <+: p) (hne : q ≠ p) : (a.put p d).node q = .branch := by
  have hpq : ¬ p <+: q := fun h => hne (hqp.eq_of_length_le h.length_le)
  exact (if_neg hpq).trans (if_pos hqp)

theorem put_nil (a d : PathDoc κ α) : a.put [] d = d := by
  ext q
  exact congrFun (below_put a [] d) q

/-- A write below the key `k`, read below `k`: only what `a` shows strictly below `k` matters. -/
theorem put_cons {k : κ} (h : ∀ r, r ≠ [] → c.node r = a.node (k :: r)) (p r : List κ) :
    (a.put (k :: p) d).node (k :: r) = (c.put p d).node r := by
  by_cases hpr : p <+: r
  · have hk : k :: p <+: k :: r := List.cons_prefix_cons.mpr ⟨rfl, hpr⟩
    refine (if_pos hk).trans (Eq.trans ?_ (if_pos hpr).symm)
    rw [List.length_cons, List.drop_succ_cons]
  · have hk : ¬ k :: p <+: k :: r := fun hk => hpr (List.cons_prefix_cons.mp hk).2
    refine (if_neg hk).trans (Eq.trans ?_ (if_neg hpr).symm)
    by_cases hrp : r <+: p
    · exact (if_pos (List.cons_prefix_cons.mpr ⟨rfl, hrp⟩)).trans (if_pos hrp).symm
    · have hk' : ¬ k :: r <+: k :: p := fun hk => hrp (List.cons_prefix_cons.mp hk).2
      have hr : r ≠ [] := fun hr => hrp (hr ▸ List.nil_prefix)
      exact (if_neg hk').trans (Eq.trans (h r hr).symm (if_neg hrp).symm)

/-- Two documents that differ in their root only are the same after a write. -/
theorem put_congr (h : ∀ q, q ≠ [] → a.node q = b.node q) :
    a.put p d = b.put p d := by
  ext q
  by_cases hpq : p <+: q
  · exact (if_pos hpq).trans (if_pos hpq).symm
  · by_cases hqp : q <+: p
    · exact ((if_neg hpq).trans (if_pos hqp)).trans ((if_neg hpq).trans (if_pos hqp)).symm
    · have hq : q ≠ [] := fun hq => hqp (hq ▸ List.nil_prefix)
      rw [put_diverging ⟨hpq, hqp⟩, put_diverging ⟨hpq, hqp⟩, h q hq]

/-- The second of two writes at the same path stays. -/
theorem put_put (a : PathDoc κ α) (p : List κ) (d e : PathDoc κ α) :
    (a.put p d).put p e = a.put p e := by
  ext q
  by_cases hpq : p <+: q
  · exact (if_pos hpq).trans (if_pos hpq).symm
  · by_cases hqp : q <+: p
    · have hne : q ≠ p := fun he => hpq (he ▸ List.prefix_refl q)
      rw [put_above hqp hne, put_above hqp hne]
    · have hdiv : Diverge p q := ⟨hpq, hqp⟩
      rw [put_diverging hdiv, put_diverging hdiv, put_diverging hdiv]

/-- No leaf stands strictly above `p`. -/
def Clear (a : PathDoc κ α) (p : List κ) : Prop :=
  ∀ q v, q <+: p → q ≠ p → a.node q ≠ .leaf v

/-- A clear path is present or open. -/
theorem Clear.open (h : a.Clear p) (hp : a.node p = .absent) : a.Open p := by
  refine ⟨hp, ?_⟩
  rintro ⟨q, v, hqp, hv⟩
  by_cases hne : q = p
  · rw [hne, hp] at hv
    cases hv
  · exact h q v hqp hne hv

/-! ## Removing -/

open Classical in
/-- `a` without what it shows at `p`; removing the root leaves the empty branch. -/
noncomputable def cut (a : PathDoc κ α) (p : List κ) : PathDoc κ α where
  node q := if p <+: q then (if q = [] then .branch else .absent) else a.node q
  root := by
    by_cases hp : p <+: []
    · rw [if_pos hp, if_pos rfl]
      simp
    · rw [if_neg hp]
      exact a.root
  closed := by
    intro q k h
    by_cases hk : p <+: q ++ [k]
    · rw [if_pos hk, if_neg (by simp)] at h
      exact absurd rfl h
    · rw [if_neg hk] at h
      rw [if_neg fun hq => hk (hq.trans (List.prefix_append _ _))]
      exact a.closed q k h

/-- Nothing shows below a path that has been cut. -/
theorem below_cut (a : PathDoc κ α) (hp : p ≠ []) : (a.cut p).below p = fun _ => .absent := by
  funext r
  have hne : p ++ r ≠ [] := by simp [hp]
  exact (if_pos (List.prefix_append p r)).trans (if_neg hne)

/-- A cut changes nothing outside. -/
theorem cut_outside (h : ¬ p <+: q) : (a.cut p).node q = a.node q := if_neg h

/-- A cut further down is a cut in the child. -/
theorem cut_cons {k : κ} (h : ∀ r, c.node r = a.node (k :: r)) (hp : p ≠ []) (r : List κ) :
    (a.cut (k :: p)).node (k :: r) = (c.cut p).node r := by
  by_cases hpr : p <+: r
  · have hk : k :: p <+: k :: r := List.cons_prefix_cons.mpr ⟨rfl, hpr⟩
    have hr : r ≠ [] := by
      rintro rfl
      exact hp (List.prefix_nil.mp hpr)
    exact ((if_pos hk).trans (if_neg (by simp))).trans ((if_pos hpr).trans (if_neg hr)).symm
  · rw [cut_outside hpr, cut_outside fun hk => hpr (List.cons_prefix_cons.mp hk).2, h]

/-- Removing what was written where nothing stood under a branch undoes the write. -/
theorem cut_put {k : κ} (hp : a.node p = .branch) (hk : a.node (p ++ [k]) = .absent) :
    (a.put (p ++ [k]) d).cut (p ++ [k]) = a := by
  have hne : p ++ [k] ≠ [] := by simp
  ext q
  by_cases hpq : p ++ [k] <+: q
  · obtain ⟨r, rfl⟩ := hpq
    exact (congrFun (below_cut _ hne) r).trans (congrFun (below_absent hk) r).symm
  · rw [cut_outside hpq]
    by_cases hqp : q <+: p ++ [k]
    · have hqk : q ≠ p ++ [k] := fun he => hpq (he ▸ List.prefix_refl q)
      rw [put_above hqp hqk]
      rcases List.prefix_concat_iff.mp hqp with he | hqp'
      · exact absurd he hqk
      · by_cases hqe : q = p
        · rw [hqe, hp]
        · exact (branch_above hqp' hqe (by rw [hp]; simp)).symm
    · exact put_diverging ⟨hpq, hqp⟩

/-- A removal leaves diverging paths alone. -/
theorem below_cut_diverging (h : Diverge p q) : (a.cut p).below q = a.below q :=
  funext fun r => cut_outside (h.append r).1

/-! ## Where leaves come from -/

/-- A leaf after a write is one of what was written, or was there before. -/
theorem leaf_put {v : α} (h : (a.put p d).node q = .leaf v) :
    (∃ r, q = p ++ r ∧ d.node r = .leaf v) ∨ a.node q = .leaf v := by
  by_cases hpq : p <+: q
  · rcases hpq with ⟨r, rfl⟩
    have hr : (a.put p d).node (p ++ r) = d.node r := congrFun (below_put a p d) r
    rw [hr] at h
    exact Or.inl ⟨r, rfl, h⟩
  · by_cases hqp : q <+: p
    · have hne : q ≠ p := fun heq => hpq (heq ▸ List.prefix_refl q)
      rw [put_above hqp hne] at h
      cases h
    · rw [put_diverging ⟨hpq, hqp⟩] at h
      exact Or.inr h

/-- Every leaf left by a cut was there before. -/
theorem leaf_cut {v : α} (h : (a.cut p).node q = .leaf v) : a.node q = .leaf v := by
  by_cases hpq : p <+: q
  · have hnone : (a.cut p).node q = if q = [] then .branch else .absent := if_pos hpq
    rw [hnone] at h
    split_ifs at h
  · rw [cut_outside hpq] at h
    exact h

/-! ## Writing parts of one document -/

/-- `a` shows at `p` all that `e` shows. -/
def ShowsAt (a : PathDoc κ α) (p : List κ) (e : PathDoc κ α) : Prop :=
  ∀ r, e.node r ≠ .absent → a.node (p ++ r) = e.node r

/-- What shows at a path goes on to show in any larger document. -/
theorem ShowsAt.mono {e : PathDoc κ α} (h : a.ShowsAt p e) (hle : a ≤ b) : b.ShowsAt p e := by
  intro r hr
  have ha := h r hr
  rw [← ha]
  apply hle
  rw [ha]
  exact hr

theorem put_showsAt (a : PathDoc κ α) (p : List κ) (e : PathDoc κ α) :
    (a.put p e).ShowsAt p e := fun r _ => congrFun (below_put a p e) r

/-- Above what is shown there are branches only. -/
theorem ShowsAt.above {e : PathDoc κ α} (h : b.ShowsAt p e) (hqp : q <+: p) (hne : q ≠ p) :
    b.node q = .branch := by
  apply branch_above hqp hne
  have hp := h [] e.root
  rw [List.append_nil] at hp
  rw [hp]
  exact e.root

/-- Writing into a part of a document what the document shows gives a part of it. -/
theorem put_le {e : PathDoc κ α} (ha : a ≤ b) (h : b.ShowsAt p e) : a.put p e ≤ b := by
  intro q hq
  by_cases hpq : p <+: q
  · rcases hpq with ⟨r, rfl⟩
    have hr : (a.put p e).node (p ++ r) = e.node r := congrFun (below_put a p e) r
    rw [hr] at hq ⊢
    exact h r hq
  · by_cases hqp : q <+: p
    · have hne : q ≠ p := fun heq => hpq (heq ▸ List.prefix_refl q)
      rw [put_above hqp hne]
      exact h.above hqp hne
    · rw [put_diverging ⟨hpq, hqp⟩] at hq ⊢
      exact ha q hq

/-- The way to what the whole shows is clear in each part. -/
theorem ShowsAt.clear {e : PathDoc κ α} (h : b.ShowsAt p e) (ha : a ≤ b) : a.Clear p := by
  intro q v hqp hne hv
  have hb := ha q (by rw [hv]; simp)
  rw [h.above hqp hne, hv] at hb
  cases hb

end PathDoc
