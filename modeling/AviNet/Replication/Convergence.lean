import AviNet.Replication.Network

/-!
# Replication.Convergence — when equal clocks mean equal documents

`partial_cmp` documents `Equal` as "states are identical", and an equal context
is never merged again. Here is what that takes.

* `DeliveryOk`: the condition on one delivery. The branch for a newer receiver
  changes the document but not the clock, so it must have nothing to add
  whenever somebody else holds the same clock. The branch for concurrent
  contexts makes a document for the joined clock: whoever has that clock already
  must show what both documents show, which then do not contradict each other,
  or hold the older of the two, to which the younger has no key to add.
* `converged_of_ok`: in a run whose deliveries all meet the condition equal
  clocks mean equal documents in every state.
* `not_converged`: four steps of two nodes that do not.
-/

namespace AviNet.Network

variable {ι : Type*}

/-- Any two contexts in the system with equal clocks hold equal documents. -/
def Converged (s : Network ι) : Prop :=
  ∀ c d, s.Holds c → s.Holds d →
    c.vectorClock.partialCmp d.vectorClock = some .eq → c.data = d.data

/-- A context in flight or held by a node other than `n`. -/
def HeldElsewhere (s : Network ι) (n : ι) (c : AviContext) : Prop :=
  (∃ k, k ≠ n ∧ c = s.nodes k) ∨ c ∈ s.flight

/-- The delivery of `x` to `n` leaves equal clocks equal. -/
def DeliveryOk (s : Network ι) (n : ι) (x : AviContext) : Prop :=
  match (s.nodes n).vectorClock.partialCmp x.vectorClock with
  | some .lt => True
  | some .eq => True
  | some .gt =>
    -- a newer receiver takes over keys under its old clock
    ∀ c, s.HeldElsewhere n c → c.version = (s.nodes n).version →
      (s.nodes n).data.doc.Covers x.data.doc
  | none =>
    -- concurrent contexts are merged under the joined clock, which others may have
    ∀ c, s.HeldElsewhere n c → c.version = (s.nodes n).version ⊔ x.version →
      IsLUB {(s.nodes n).data.doc, x.data.doc} c.data.doc ∨
      (c.data = ((s.nodes n).older x).data ∧
        ((s.nodes n).older x).data.doc.Covers ((s.nodes n).younger x).data.doc)

/-- The condition on a step: a counter below its last value, a good delivery. -/
def StepOk (s : Network ι) : Label ι → Prop
  | .write n w now => NoOverflow s (.write n w now)
  | .sync _ => True
  | .deliver n x => DeliveryOk s n x

/-! ## One step -/

theorem converged_iff_version {s : Network ι} : s.Converged ↔
    ∀ c d, s.Holds c → s.Holds d → c.version = d.version → c.data = d.data := by
  refine forall₄_congr fun c d _ _ => ?_
  rw [VectorClock.partialCmp_eq_some_eq_iff]
  rfl

/-- A context is held by `n` or elsewhere. -/
theorem holds_iff {s : Network ι} {n : ι} {c : AviContext} :
    s.Holds c ↔ c = s.nodes n ∨ s.HeldElsewhere n c := by
  constructor
  · rintro (⟨k, rfl⟩ | h)
    · by_cases hk : k = n
      · exact Or.inl (by rw [hk])
      · exact Or.inr (Or.inl ⟨k, hk, rfl⟩)
    · exact Or.inr (Or.inr h)
  · rintro (rfl | ⟨k, -, rfl⟩ | h)
    · exact Or.inl ⟨n, rfl⟩
    · exact Or.inl ⟨k, rfl⟩
    · exact Or.inr h

variable [DecidableEq ι]

/-- What `n` does changes nothing elsewhere. -/
theorem heldElsewhere_update {s : Network ι} {n : ι} {m c : AviContext} :
    HeldElsewhere { s with nodes := Function.update s.nodes n m } n c ↔ s.HeldElsewhere n c := by
  refine or_congr_left (exists_congr fun k => and_congr_right fun hk => ?_)
  show c = Function.update s.nodes n m k ↔ _
  rw [Function.update_of_ne hk]

/-- Only the new context of `n` has to be compared, and only with the others. -/
theorem converged_update_iff {s : Network ι} (h : s.Converged) (n : ι) (m : AviContext) :
    Converged { s with nodes := Function.update s.nodes n m } ↔
      ∀ c, s.HeldElsewhere n c → c.version = m.version → c.data = m.data := by
  have hholds : ∀ c, Holds { s with nodes := Function.update s.nodes n m } c ↔
      c = m ∨ s.HeldElsewhere n c := by
    intro c
    rw [holds_iff (n := n), heldElsewhere_update]
    show c = Function.update s.nodes n m n ∨ _ ↔ _
    rw [Function.update_self]
  rw [converged_iff_version] at h ⊢
  constructor
  · intro ht c hc heq
    exact ht c m ((hholds c).mpr (Or.inr hc)) ((hholds m).mpr (Or.inl rfl)) heq
  · intro hm c d hc hd heq
    rcases (hholds c).mp hc with hcm | hce
    · rcases (hholds d).mp hd with hdm | hde
      · rw [hcm, hdm]
      · rw [hcm] at heq ⊢
        exact (hm d hde heq.symm).symm
    · rcases (hholds d).mp hd with hdm | hde
      · rw [hdm] at heq ⊢
        exact hm c hce heq
      · exact h c d (holds_iff.mpr (Or.inr hce)) (holds_iff.mpr (Or.inr hde)) heq

omit [DecidableEq ι] in
/-- One more copy of what a node holds changes nothing. -/
theorem converged_send_iff {s : Network ι} {n : ι} {c : AviContext} (hc : c = s.nodes n) :
    Converged { s with flight := c :: s.flight } ↔ s.Converged := by
  have hholds : ∀ d, Holds { s with flight := c :: s.flight } d ↔ s.Holds d := by
    intro d
    constructor
    · rintro (h | h)
      · exact Or.inl h
      · rcases List.mem_cons.mp h with rfl | h
        · exact Or.inl ⟨n, hc⟩
        · exact Or.inr h
    · rintro (h | h)
      · exact Or.inl h
      · exact Or.inr (List.mem_cons_of_mem _ h)
  unfold Converged
  simp only [hholds]

/-- A node that publishes a version nobody has seen leaves equal clocks equal. -/
theorem converged_publish {s : Network ι} (h : s.Converged) {n : ι} {m : AviContext}
    (hfresh : ∀ c, s.Holds c → c.version ≠ m.version) : (s.publish n m).Converged := by
  have hsend : (s.publish n m).Converged ↔
      Converged { s with nodes := Function.update s.nodes n m } := by
    refine converged_send_iff (s := { s with nodes := Function.update s.nodes n m }) (n := n) ?_
    exact (Function.update_self n m s.nodes).symm
  rw [hsend, converged_update_iff h]
  intro c hc heq
  exact absurd heq (hfresh c (holds_iff.mpr (Or.inr hc)))

omit [DecidableEq ι] in
/-- Two concurrent contexts are merged to what both show, if nothing stands against it. -/
theorem doc_merge_of_isLUB {a x : AviContext} {d : PathDoc String Value}
    (hc : a.vectorClock.partialCmp x.vectorClock = none)
    (hlub : IsLUB {a.data.doc, x.data.doc} d) : (a.merge x).1.data.doc = d := by
  have ha : a.data.doc ≤ d := hlub.1 (Set.mem_insert _ _)
  have hx : x.data.doc ≤ d := hlub.1 (Set.mem_insert_of_mem _ rfl)
  rw [AviContext.doc_merge_none hc]
  unfold AviContext.older AviContext.younger
  -- whichever is the older one
  split_ifs
  · exact (PathDoc.isLUB_onto ha hx).unique hlub
  · rw [Set.pair_comm] at hlub
    exact (PathDoc.isLUB_onto hx ha).unique hlub

/-- A delivery that meets `DeliveryOk` keeps equal clocks equal. -/
theorem converged_deliver {s : Network ι} (h : s.Converged) {n : ι} {x : AviContext}
    (hx : x ∈ s.flight) (hok : DeliveryOk s n x) :
    Converged { s with nodes := Function.update s.nodes n ((s.nodes n).merge x).1 } := by
  have hs := converged_iff_version.mp h
  rw [converged_update_iff h]
  unfold DeliveryOk at hok
  rw [AviContext.version_merge]
  intro c hce hv
  rcases AviContext.merge_cases (s.nodes n) x with ⟨hc, hlt⟩ | ⟨hc, hlt⟩ | ⟨hc, heq⟩ | ⟨hc, -⟩
  · -- replaced by `x`, which was in the system already
    rw [sup_eq_right.mpr hlt.le] at hv
    rw [AviContext.data_merge_lt hc]
    exact hs c x (holds_iff.mpr (Or.inr hce)) (Or.inr hx) hv
  · -- the clock stays, so everybody with this clock held the old document
    rw [sup_eq_left.mpr hlt.le] at hv
    rw [hc] at hok
    have hold : c.data = (s.nodes n).data :=
      hs c (s.nodes n) (holds_iff.mpr (Or.inr hce)) (Or.inl ⟨n, rfl⟩) hv
    have hnothing : ((s.nodes n).merge x).1.data.doc = (s.nodes n).data.doc := by
      rw [AviContext.doc_merge_gt hc]
      exact PathDoc.onto_eq_left_iff.mpr (hok c hce hv)
    rw [hold]
    exact (Value.doc_injective hnothing).symm
  · -- nothing happens
    rw [sup_eq_left.mpr heq.ge] at hv
    rw [AviContext.data_merge_eq hc]
    exact hs c (s.nodes n) (holds_iff.mpr (Or.inr hce)) (Or.inl ⟨n, rfl⟩) hv
  · -- a new document for the joined clock
    rw [hc] at hok
    apply Value.doc_injective
    rcases hok c hce hv with hlub | ⟨hold, hcovers⟩
    · exact (doc_merge_of_isLUB hc hlub).symm
    · rw [AviContext.doc_merge_none hc, PathDoc.onto_eq_left_iff.mpr hcovers, hold]

variable {deviceId : ι ↪ String}

omit [DecidableEq ι] in
/-- A tick of the clock makes a version nobody has seen. -/
theorem ticked_fresh {s : Network ι} (h : s.Inv deviceId) {n : ι} {m : AviContext}
    (hm : m.version = s.abs.ticked deviceId n) : ∀ c, s.Holds c → c.version ≠ m.version := by
  intro c hc heq
  rw [hm] at heq
  exact h.bounded.tick_fresh hc.known n heq.ge

/-- **The step lemma**: a step that meets `StepOk` keeps equal clocks equal. -/
theorem step_converged {s t : Network ι} {l : Label ι}
    (hstep : (network deviceId).step s l = some t) (hok : StepOk s l) (hinv : s.Inv deviceId)
    (h : s.Converged) : t.Converged := by
  cases l with
  | write n w now =>
    -- nobody has seen the new clock yet
    cases hstep
    exact converged_publish h (ticked_fresh hinv (version_write hinv.ownIds hok))
  | sync n =>
    cases hstep
    exact (converged_send_iff rfl).mpr h
  | deliver n x =>
    simp only [network, step] at hstep
    split_ifs at hstep with hx
    cases hstep
    exact converged_deliver h hx hok

/-! ## Whole runs -/

/-- Contexts of fresh nodes hold the same skeleton. -/
theorem init_converged {s : Network ι} (h₀ : (network deviceId).Init s) : s.Converged := by
  rcases h₀ with ⟨hnodes, hflight⟩
  have hdata : ∀ c, s.Holds c → c.data = AviContext.skeleton := by
    rintro c (⟨n, rfl⟩ | hc)
    · rcases hnodes n with ⟨now, hn⟩
      rw [hn]
      rfl
    · rw [hflight] at hc
      cases hc
  intro c d hc hd _
  rw [hdata c hc, hdata d hd]

omit [DecidableEq ι] in
theorem NoOverflow.of_stepOk {s : Network ι} {l : Label ι} (h : StepOk s l) : NoOverflow s l := by
  cases l with
  | write n w now => exact h
  | sync n => exact True.intro
  | deliver n x => exact True.intro

/-- **Convergence**: in a run whose steps all meet `StepOk`, equal clocks mean equal
documents in every state. -/
theorem converged_of_ok {s : Network ι} {ls : List (Label ι)}
    (h₀ : (network deviceId).Init s) (hok : (network deviceId).AllSteps StepOk s ls) :
    (network deviceId).AllStates Converged s ls := by
  have hkeep : ∀ s l t, (network deviceId).step s l = some t → StepOk s l →
      s.Inv deviceId ∧ s.Converged → t.Inv deviceId ∧ t.Converged := by
    intro s l t hstep hl h
    exact ⟨step_inv hstep (NoOverflow.of_stepOk hl) h.1, step_converged hstep hl h.1 h.2⟩
  have hall := (network deviceId).allStates_of_allSteps hkeep
    ⟨init_inv h₀, init_converged h₀⟩ hok
  exact Machine.AllStates.mono _ (fun _ h => h.2) hall

/-- The context of `B` after it has written `{"x": false}`, a second later. -/
def contradicted : AviContext :=
  (started.nodes true).commit (.update (.object [("x", .bool false)])) 2

/-- Both have written the same key. -/
def apart : Network Bool := (started.publish false written).publish true contradicted

/-- `B` has heard of `A`. -/
def heardOnce : Network Bool :=
  { apart with nodes := Function.update apart.nodes true ((apart.nodes true).merge written).1 }

/-- Both write the same key, and each hears of the other: the second delivery finds
the joined clock taken. -/
def exchanged : List (Label Bool) :=
  [.write false (.update (.object [("x", .bool true)])) 1,
    .write true (.update (.object [("x", .bool false)])) 2, .deliver true written,
    .deliver false contradicted]

/-- Nobody has the joined clock when `B` hears of `A`. -/
theorem deliveryOk_first : DeliveryOk apart true written := by
  have hcmp : (apart.nodes true).vectorClock.partialCmp written.vectorClock = none := by
    decide +kernel
  unfold DeliveryOk
  rw [hcmp]
  rintro c (⟨k, hk, rfl⟩ | hc) hv
  · cases k with
    | true => exact absurd rfl hk
    | false => exact absurd (congrFun hv "B") (by decide +kernel)
  · simp only [apart, publish, started, List.mem_cons, List.not_mem_nil, or_false] at hc
    rcases hc with rfl | rfl
    · exact absurd (congrFun hv "A") (by decide +kernel)
    · exact absurd (congrFun hv "B") (by decide +kernel)

/-- When `A` hears of `B`, whose value is the younger one, `B` has come to hold the
document of `A`. -/
theorem deliveryOk_second : DeliveryOk heardOnce false contradicted := by
  have hcmp : (heardOnce.nodes false).vectorClock.partialCmp contradicted.vectorClock =
      none := by
    decide +kernel
  have hcovers : ((heardOnce.nodes false).older contradicted).data.doc.Covers
      ((heardOnce.nodes false).younger contradicted).data.doc := by
    rw [← PathDoc.onto_eq_left_iff, ← AviContext.doc_merge_none hcmp]
    have hsame : ((heardOnce.nodes false).merge contradicted).1.data =
        ((heardOnce.nodes false).older contradicted).data := by
      decide +kernel
    rw [hsame]
  unfold DeliveryOk
  rw [hcmp]
  rintro c (⟨k, hk, rfl⟩ | hc) hv
  · cases k with
    | true => exact Or.inr ⟨by decide +kernel, hcovers⟩
    | false => exact absurd rfl hk
  · simp only [heardOnce, apart, publish, started, List.mem_cons, List.not_mem_nil,
      or_false] at hc
    rcases hc with rfl | rfl
    · exact absurd (congrFun hv "A") (by decide +kernel)
    · exact absurd (congrFun hv "B") (by decide +kernel)

theorem stepOk_exchanged : (network twoDevices).AllSteps StepOk started exchanged := by
  have hfirst : NoOverflow started
      (.write false (.update (.object [("x", .bool true)])) 1) := by
    decide +kernel
  have hsecond : NoOverflow (started.publish false written)
      (.write true (.update (.object [("x", .bool false)])) 2) := by
    decide +kernel
  have hmem : written ∈ apart.flight := by
    decide +kernel
  have hheard : (network twoDevices).step apart (.deliver true written) = some heardOnce := by
    simp only [network, step, if_pos hmem]
    rfl
  refine ⟨hfirst, ?_⟩
  rintro t ⟨⟩
  refine ⟨hsecond, ?_⟩
  rintro t ⟨⟩
  refine ⟨deliveryOk_first, ?_⟩
  intro t ht
  have hsame : t = heardOnce := Option.some.inj (ht.symm.trans hheard)
  rw [hsame]
  exact ⟨deliveryOk_second, fun _ _ => True.intro⟩

theorem converged_of_ok_exchanged :
    (network twoDevices).AllStates Converged started exchanged :=
  converged_of_ok started_init stepOk_exchanged

/-! ## A run that diverges -/

/-- The context of `A` after replacing what it has written by `{}`. -/
def cleared : AviContext := written.commit (.replace (.object [])) 2

/-- `A` writes `{"x": true}` and then replaces its document by `{}`; the second
context reaches `B` before the first. -/
def reordered : List (Label Bool) :=
  [.write false (.update (.object [("x", .bool true)])) 1,
    .write false (.replace (.object [])) 2, .deliver true cleared, .deliver true written]

/-- At the end both hold the same clock, but on `B` the key `x` is back. -/
theorem not_converged : ¬ ∀ s ls t, (network twoDevices).Init s →
    (network twoDevices).run s ls = some t → t.Converged := by
  intro h
  have hrun : ((network twoDevices).run started reordered).isSome = true := by
    decide +kernel
  obtain ⟨t, ht⟩ := Option.isSome_iff_exists.mp hrun
  have hcheck : ((network twoDevices).run started reordered).map (fun t =>
      decide ((t.nodes true).vectorClock.partialCmp (t.nodes false).vectorClock = some .eq ∧
        (t.nodes true).data ≠ (t.nodes false).data)) = some true := by
    decide +kernel
  rw [ht, Option.map_some, Option.some.injEq, decide_eq_true_eq] at hcheck
  rcases hcheck with ⟨heq, hne⟩
  exact hne (h _ _ t started_init ht _ _ (Or.inl ⟨true, rfl⟩) (Or.inl ⟨false, rfl⟩) heq)

end AviNet.Network
