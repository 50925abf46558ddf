import AviNet.ClockLattice
import AviNet.MergeOrder

/-!
# MergeLaws — symmetry, redelivery and the flag of a context merge

What a merge does to the document is laying one document over another, so its
laws are those of `PathDoc.onto`:

* `redelivery_harmless`: merging the same context again changes nothing, although the
  second merge usually takes another branch;
* `symmetric_iff`: two concurrent contexts end up the same from either side
  exactly if their timestamps differ or their documents agree;
* `reports_truthfully_iff`: the flag tells whether the data has changed, except
  where the other context differs but has nothing to add.
-/

namespace AviNet.AviContext

variable {s c a b : AviContext}

/-! ## Redelivery -/

/-- A merge after which the receiver has seen all of `c` and holds nothing that
`c` could complete. -/
def Absorbed (s c : AviContext) : Prop :=
  c.version < s.version ∧ s.data.deepMerge c.data true = s.data

theorem Absorbed.merge_eq (h : s.Absorbed c) : (s.merge c).1 = s := by
  rw [merge_gt (VectorClock.partialCmp_eq_some_gt_iff.mpr h.1)]
  show { s with data := s.data.deepMerge c.data true } = s
  rw [h.2]

/-- A document that has been laid over or under another one covers it. -/
theorem deepMerge_deepMerge (v w : Value) (preferSelf : Bool) :
    (v.deepMerge w preferSelf).deepMerge w true = v.deepMerge w preferSelf := by
  apply Value.doc_injective
  rw [Value.doc_deepMerge_true]
  cases preferSelf with
  | true =>
    rw [Value.doc_deepMerge_true]
    exact PathDoc.onto_onto_right v.doc w.doc
  | false =>
    rw [Value.doc_deepMerge_false]
    exact PathDoc.onto_onto_left v.doc w.doc

/-- **Redelivery of a context is harmless.** -/
theorem redelivery_harmless (s c : AviContext) : ((s.merge c).1.merge c).1 = (s.merge c).1 := by
  rcases merge_cases s c with ⟨h, hlt⟩ | ⟨h, hlt⟩ | ⟨h, -⟩ | ⟨h, hnle, -⟩
  · -- replaced: the clocks are equal now
    have hversion : (s.merge c).1.version = c.version := by
      rw [version_merge]
      exact sup_eq_right.mpr hlt.le
    rw [merge_eq (VectorClock.partialCmp_eq_some_eq_iff.mpr hversion)]
  · -- newer: it stays newer
    refine Absorbed.merge_eq ⟨?_, ?_⟩
    · rw [version_merge, sup_eq_left.mpr hlt.le]
      exact hlt
    · rw [merge_gt h]
      exact deepMerge_deepMerge s.data c.data true
  · rw [merge_eq h]
    show (s.merge c).1 = s
    rw [merge_eq h]
  · -- concurrent: the join is strictly newer
    refine Absorbed.merge_eq ⟨?_, ?_⟩
    · rw [version_merge]
      exact right_lt_sup.mpr hnle
    · rw [merge_none h]
      exact deepMerge_deepMerge s.data c.data _

/-! ## Symmetry -/

/-- Merging `b` into `a` and `a` into `b` gives the same data, timestamp and clock. -/
def Symmetric (a b : AviContext) : Prop :=
  (a.merge b).1.data = (b.merge a).1.data ∧
    (a.merge b).1.timestamp = (b.merge a).1.timestamp ∧
    (a.merge b).1.vectorClock.Same (b.merge a).1.vectorClock

theorem Concurrent.symm (h : a.Concurrent b) : b.Concurrent a :=
  concurrent_iff.mpr (concurrent_iff.mp h).symm

theorem vectorClock_merge_comm (a b : AviContext) :
    (a.merge b).1.vectorClock.Same (b.merge a).1.vectorClock := by
  rw [VectorClock.same_iff_version]
  show (a.merge b).1.version = (b.merge a).1.version
  rw [version_merge, version_merge, sup_comm]

/-- The timestamp becomes the older one, on both sides. -/
theorem timestamp_merge_comm (h : a.Concurrent b) :
    (a.merge b).1.timestamp = (b.merge a).1.timestamp := by
  rw [merge_none h, merge_none h.symm]
  show (if a.timestamp ≤ b.timestamp then a.timestamp else b.timestamp) =
    if b.timestamp ≤ a.timestamp then b.timestamp else a.timestamp
  by_cases hab : a.timestamp ≤ b.timestamp
  · by_cases hba : b.timestamp ≤ a.timestamp
    · rw [if_pos hab, if_pos hba]
      exact UInt64.le_antisymm hab hba
    · rw [if_pos hab, if_neg hba]
  · have hba : b.timestamp ≤ a.timestamp := (UInt64.le_total _ _).resolve_left hab
    rw [if_neg hab, if_pos hba]

/-- With different timestamps both sides prefer the same document. -/
theorem older_comm (hne : a.timestamp ≠ b.timestamp) :
    older a b = older b a ∧ younger a b = younger b a := by
  unfold older younger
  by_cases hab : a.timestamp ≤ b.timestamp
  · have hba : ¬ b.timestamp ≤ a.timestamp := fun hba => hne (UInt64.le_antisymm hab hba)
    simp [hab, hba]
  · have hba : b.timestamp ≤ a.timestamp := (UInt64.le_total _ _).resolve_left hab
    simp [hab, hba]

/-- With equal timestamps each side prefers its own document. -/
theorem older_of_tie (heq : a.timestamp = b.timestamp) : older a b = a ∧ younger a b = b := by
  have hle : a.timestamp ≤ b.timestamp := UInt64.le_of_eq heq
  exact ⟨if_pos hle, if_pos hle⟩

/-- **Two concurrent contexts end up the same from either side exactly if their
timestamps differ or their documents agree.** -/
theorem symmetric_iff (h : a.Concurrent b) :
    Symmetric a b ↔ a.timestamp ≠ b.timestamp ∨ a.data.doc.Agree b.data.doc := by
  have hdata : Symmetric a b ↔ (a.merge b).1.data.doc = (b.merge a).1.data.doc := by
    rw [Value.doc_injective.eq_iff]
    exact ⟨fun hs => hs.1,
      fun hd => ⟨hd, timestamp_merge_comm h, vectorClock_merge_comm a b⟩⟩
  rw [hdata, doc_merge_none h, doc_merge_none h.symm]
  by_cases htie : a.timestamp = b.timestamp
  · obtain ⟨hold, hyoung⟩ := older_of_tie htie
    obtain ⟨hold', hyoung'⟩ := older_of_tie htie.symm
    rw [hold, hyoung, hold', hyoung', PathDoc.onto_comm_iff]
    exact (or_iff_right (not_not_intro htie)).symm
  · obtain ⟨hold, hyoung⟩ := older_comm htie
    rw [hold, hyoung]
    exact iff_of_true rfl (Or.inl htie)

theorem symmetric_iff_single :
    Symmetric (single "A" 7 (.object [("k", .bool true)]))
        (single "B" 8 (.object [("k", .bool false)])) ↔
      (single "A" 7 (.object [("k", .bool true)])).timestamp ≠
          (single "B" 8 (.object [("k", .bool false)])).timestamp ∨
        (single "A" 7 (.object [("k", .bool true)])).data.doc.Agree
          (single "B" 8 (.object [("k", .bool false)])).data.doc :=
  symmetric_iff (by unfold Concurrent; decide +kernel)

/-- In the same second each of the two devices keeps its own value. -/
theorem tie_is_asymmetric : ¬ ∀ a b : AviContext, a.Concurrent b → Symmetric a b := by
  intro h
  have hsym := h (single "A" 7 (.object [("k", .bool true)]))
    (single "B" 7 (.object [("k", .bool false)])) (by unfold Concurrent; decide +kernel)
  exact absurd hsym.1 (by decide +kernel)

/-! ## The flag -/

/-- The flag of a merge tells whether it has changed the data. -/
def ReportsTruthfully (s c : AviContext) : Prop :=
  (s.merge c).2 = true ↔ (s.merge c).1.data ≠ s.data

/-- `c` has nothing to add to the document of `s`, in the branch the merge takes:
it is completed from `c`, or laid under `c`. -/
def NothingToAdd (s c : AviContext) : Prop :=
  match s.vectorClock.partialCmp c.vectorClock with
  | some .gt => s.data.doc.Covers c.data.doc
  | none =>
    if s.timestamp ≤ c.timestamp then s.data.doc.Covers c.data.doc
    else c.data.doc ≤ s.data.doc
  | _ => False

theorem deepMerge_true_eq_iff (v w : Value) :
    v.deepMerge w true = v ↔ v.doc.Covers w.doc := by
  rw [← Value.doc_injective.eq_iff, Value.doc_deepMerge_true]
  exact PathDoc.onto_eq_left_iff

theorem deepMerge_false_eq_iff (v w : Value) :
    v.deepMerge w false = v ↔ w.doc ≤ v.doc := by
  rw [← Value.doc_injective.eq_iff, Value.doc_deepMerge_false]
  exact PathDoc.onto_eq_right_iff

/-- A merge that may differ in data and reports so is right unless the document stays. -/
theorem reports_iff {differ : Prop} [Decidable differ] {changed : Prop}
    (hsame : ¬ differ → ¬ changed) :
    (decide differ = true ↔ changed) ↔ ¬ (differ ∧ ¬ changed) := by
  rw [decide_eq_true_iff]
  constructor
  · rintro h ⟨hd, hc⟩
    exact hc (h.mp hd)
  · intro h
    constructor
    · intro hd
      by_contra hc
      exact h ⟨hd, hc⟩
    · intro hc
      by_contra hd
      exact hsame hd hc

/-- **The flag tells whether the data has changed, unless the other document
differs and has nothing to add.** -/
theorem reports_truthfully_iff (s c : AviContext) :
    ReportsTruthfully s c ↔ ¬ (s.data ≠ c.data ∧ NothingToAdd s c) := by
  unfold ReportsTruthfully NothingToAdd
  rcases merge_cases s c with ⟨h, -⟩ | ⟨h, -⟩ | ⟨h, -⟩ | ⟨h, -⟩
  · -- `Less`: the document is replaced
    rw [merge_lt h, h]
    show (decide (s.data ≠ c.data) = true ↔ c.data ≠ s.data) ↔ ¬ (s.data ≠ c.data ∧ False)
    rw [decide_eq_true_iff]
    exact iff_of_true ne_comm fun hbad => hbad.2
  · -- `Greater`: gaps are filled
    rw [merge_gt h, h]
    show (decide (s.data ≠ c.data) = true ↔ s.data.deepMerge c.data true ≠ s.data) ↔ _
    rw [reports_iff, ne_eq (s.data.deepMerge c.data true), not_not, deepMerge_true_eq_iff]
    intro hsame
    rw [not_not] at hsame
    rw [← hsame, not_not]
    exact Value.deepMerge_self s.data true
  · -- `Equal`: nothing changes
    rw [merge_eq h, h]
    simp
  · -- concurrent: the timestamps decide who is on top
    rw [merge_none h, h]
    show (decide (s.data ≠ c.data) = true ↔
      s.data.deepMerge c.data (decide (s.timestamp ≤ c.timestamp)) ≠ s.data) ↔ _
    rw [reports_iff]
    · by_cases ht : s.timestamp ≤ c.timestamp
      · simp only [ht, decide_true, if_true, not_not, deepMerge_true_eq_iff]
      · simp only [ht, decide_false, if_false, not_not, deepMerge_false_eq_iff]
    · intro hsame
      rw [not_not] at hsame
      rw [← hsame, not_not]
      exact Value.deepMerge_self s.data _

/-- A newer device is told that an older, empty document has updated it. -/
theorem stale_context_reported : ¬ ∀ s c : AviContext, ReportsTruthfully s c := by
  intro h
  have hrep := h (single "A" 7 (.object [("k", .bool true)]))
    { deviceId := "B", timestamp := 7, vectorClock := .new, data := .object [] }
  unfold ReportsTruthfully at hrep
  exact absurd (hrep.mp (by decide +kernel)) (by decide +kernel)

end AviNet.AviContext
