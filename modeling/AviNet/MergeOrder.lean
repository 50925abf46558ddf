import AviNet.Context

/-!
# MergeOrder — two concurrent contexts arriving in either order

`s` merges `x` and `y`, all three pairwise concurrent with different timestamps.
After the first merge the clock is a join, so the second context may turn out
to be the older one, and the timestamp may have moved to the older of the two.

* `merge_of_not_le`: what a merge does when the receiver is not below the other
  context, in one formula for the two branches left;
* `sameResult_iff`: the two orders of arrival agree exactly under `OrderFree`;
* `order_matters`: three contexts for which they do not.
-/

namespace AviNet.AviContext

/-- Concurrent clocks. -/
def Concurrent (a b : AviContext) : Prop := a.vectorClock.partialCmp b.vectorClock = none

/-- Merging `x` then `y` and `y` then `x` gives the same data, timestamp and clock. -/
def SameResult (s x y : AviContext) : Prop :=
  let xy := ((s.merge x).1.merge y).1
  let yx := ((s.merge y).1.merge x).1
  xy.data = yx.data ∧ xy.timestamp = yx.timestamp ∧
    ∀ actor, xy.vectorClock.get actor = yx.vectorClock.get actor

/-- The condition for an older context `x` and a younger one `y`. -/
def OldFirst (s x y : AviContext) : Prop :=
  if s.timestamp < x.timestamp then
    s.data.doc.AgreeOff x.data.doc y.data.doc
  else
    ¬ x.version ≤ s.version ⊔ y.version ∧
      if s.timestamp < y.timestamp then x.data.doc.NoShadow s.data.doc y.data.doc
      else x.data.doc.AgreeOff s.data.doc y.data.doc ∧
        x.data.doc.NoShadow y.data.doc s.data.doc

/-- The order of arrival of `x` and `y` at `s` does not matter. -/
def OrderFree (s x y : AviContext) : Prop :=
  if x.timestamp < y.timestamp then OldFirst s x y else OldFirst s y x

/-! ## One merge -/

theorem concurrent_iff {a b : AviContext} :
    a.Concurrent b ↔ ¬ a.version ≤ b.version ∧ ¬ b.version ≤ a.version :=
  VectorClock.partialCmp_eq_none_iff

/-- The receiver `a` keeps its document on top: it has seen all of `b`, or is older. -/
def Keeps (a b : AviContext) : Prop := b.version ≤ a.version ∨ a.timestamp ≤ b.timestamp

/-- The two branches for a receiver that is not below the other context. -/
theorem merge_of_not_le {a b : AviContext} (h : ¬ a.version ≤ b.version) :
    (a.Keeps b → (a.merge b).1.data.doc = a.data.doc.onto b.data.doc ∧
      (a.merge b).1.timestamp = a.timestamp) ∧
    (¬ a.Keeps b → (a.merge b).1.data.doc = b.data.doc.onto a.data.doc ∧
      (a.merge b).1.timestamp = b.timestamp) := by
  unfold Keeps
  rcases merge_cases a b with ⟨-, hlt⟩ | ⟨hc, hlt⟩ | ⟨-, heq⟩ | ⟨hc, -, hnle⟩
  · exact absurd hlt.le h
  · refine ⟨fun _ => ⟨doc_merge_gt hc, ?_⟩, fun hk => absurd (Or.inl hlt.le) hk⟩
    rw [merge_gt hc]
  · exact absurd heq.le h
  · by_cases ht : a.timestamp ≤ b.timestamp
    · refine ⟨fun _ => ⟨?_, ?_⟩, fun hk => absurd (Or.inr ht) hk⟩
      · rw [doc_merge_none hc, older, younger, if_pos ht, if_pos ht]
      · simp [merge_none hc, ht]
    · refine ⟨fun hk => absurd hk (not_or.mpr ⟨hnle, ht⟩), fun _ => ⟨?_, ?_⟩⟩
      · rw [doc_merge_none hc, older, younger, if_neg ht, if_neg ht]
      · simp [merge_none hc, ht]

/-- Where `a` keeps, it goes on top. -/
theorem doc_merge_keeps {a b : AviContext} (h : ¬ a.version ≤ b.version) (hk : a.Keeps b) :
    (a.merge b).1.data.doc = a.data.doc.onto b.data.doc :=
  ((merge_of_not_le h).1 hk).1

theorem timestamp_merge_keeps {a b : AviContext} (h : ¬ a.version ≤ b.version)
    (hk : a.Keeps b) : (a.merge b).1.timestamp = a.timestamp :=
  ((merge_of_not_le h).1 hk).2

/-- Where it yields, `b` does. -/
theorem doc_merge_yields {a b : AviContext} (h : ¬ a.version ≤ b.version) (hk : ¬ a.Keeps b) :
    (a.merge b).1.data.doc = b.data.doc.onto a.data.doc :=
  ((merge_of_not_le h).2 hk).1

theorem timestamp_merge_yields {a b : AviContext} (h : ¬ a.version ≤ b.version)
    (hk : ¬ a.Keeps b) : (a.merge b).1.timestamp = b.timestamp :=
  ((merge_of_not_le h).2 hk).2

/-! ## Two merges -/

section Orders

variable {s x y : AviContext}

/-- The clock never depends on the order. -/
theorem get_merge_comm (s x y : AviContext) (actor : String) :
    ((s.merge x).1.merge y).1.vectorClock.get actor =
      ((s.merge y).1.merge x).1.vectorClock.get actor := by
  apply UInt64.toNat_inj.mp
  have h : ((s.merge x).1.merge y).1.version = ((s.merge y).1.merge x).1.version := by
    simp only [version_merge]
    rw [sup_right_comm]
  exact congrFun h actor

/-- The clocks always agree, so documents and timestamps decide. -/
theorem sameResult_iff_doc : SameResult s x y ↔
    ((s.merge x).1.merge y).1.data.doc = ((s.merge y).1.merge x).1.data.doc ∧
      ((s.merge x).1.merge y).1.timestamp = ((s.merge y).1.merge x).1.timestamp := by
  unfold SameResult
  rw [Value.doc_injective.eq_iff]
  exact ⟨fun h => ⟨h.1, h.2.1⟩, fun h => ⟨h.1, h.2, get_merge_comm s x y⟩⟩

theorem SameResult.symm (h : SameResult s x y) : SameResult s y x :=
  ⟨h.1.symm, h.2.1.symm, fun actor => (h.2.2 actor).symm⟩

/-- After merging `a`, the receiver is still not below `b`. -/
theorem not_le_of_concurrent {a b : AviContext} (h : s.Concurrent b) :
    ¬ (s.merge a).1.version ≤ b.version := by
  rw [version_merge]
  exact fun hle => (concurrent_iff.mp h).1 (le_sup_left.trans hle)

/-- The exact condition when `x` is the older of the two. -/
theorem sameResult_iff_oldFirst (hsx : s.Concurrent x) (hsy : s.Concurrent y)
    (hne : s.timestamp ≠ x.timestamp) (hne' : s.timestamp ≠ y.timestamp)
    (hxy : x.timestamp < y.timestamp) : SameResult s x y ↔ OldFirst s x y := by
  have hs1 := (concurrent_iff.mp hsx).1
  have hs2 := (concurrent_iff.mp hsy).1
  have hn1 := not_le_of_concurrent (a := x) hsy
  have hn2 := not_le_of_concurrent (a := y) hsx
  rw [ne_eq, ← UInt64.toNat_inj] at hne hne'
  rw [UInt64.lt_iff_toNat_lt] at hxy
  rw [sameResult_iff_doc]
  unfold OldFirst
  -- a first merge is decided by the timestamps alone
  have hkx : s.Keeps x ↔ s.timestamp ≤ x.timestamp :=
    or_iff_right (concurrent_iff.mp hsx).2
  have hky : s.Keeps y ↔ s.timestamp ≤ y.timestamp :=
    or_iff_right (concurrent_iff.mp hsy).2
  by_cases hsx' : s.timestamp < x.timestamp
  · -- `s` is the oldest and stays on top throughout
    rw [if_pos hsx']
    rw [UInt64.lt_iff_toNat_lt] at hsx'
    have hk1 : s.Keeps x := hkx.mpr (UInt64.le_iff_toNat_le.mpr (by omega))
    have hk2 : s.Keeps y := hky.mpr (UInt64.le_iff_toNat_le.mpr (by omega))
    have ht1 := timestamp_merge_keeps hs1 hk1
    have ht2 := timestamp_merge_keeps hs2 hk2
    have hk3 : (s.merge x).1.Keeps y :=
      Or.inr (by rw [ht1, UInt64.le_iff_toNat_le]; omega)
    have hk4 : (s.merge y).1.Keeps x :=
      Or.inr (by rw [ht2, UInt64.le_iff_toNat_le]; omega)
    rw [timestamp_merge_keeps hn1 hk3, timestamp_merge_keeps hn2 hk4, ht1, ht2,
      doc_merge_keeps hn1 hk3, doc_merge_keeps hn2 hk4, doc_merge_keeps hs1 hk1,
      doc_merge_keeps hs2 hk2, and_iff_left rfl]
    exact PathDoc.onto_right_comm_iff
  · -- `x` is the oldest: it goes on top at once when it arrives first
    rw [if_neg hsx']
    rw [UInt64.lt_iff_toNat_lt] at hsx'
    have hk1 : ¬ s.Keeps x := by
      rw [hkx, UInt64.le_iff_toNat_le]
      omega
    have ht1 := timestamp_merge_yields hs1 hk1
    have hk3 : (s.merge x).1.Keeps y :=
      Or.inr (by rw [ht1, UInt64.le_iff_toNat_le]; omega)
    rw [timestamp_merge_keeps hn1 hk3, doc_merge_keeps hn1 hk3, doc_merge_yields hs1 hk1, ht1]
    -- the timestamp after merging `y` first is still younger than that of `x`
    have hyoung : ¬ (s.merge y).1.timestamp ≤ x.timestamp := by
      by_cases hk2 : s.Keeps y
      · rw [timestamp_merge_keeps hs2 hk2, UInt64.le_iff_toNat_le]
        omega
      · rw [timestamp_merge_yields hs2 hk2, UInt64.le_iff_toNat_le]
        omega
    by_cases hseen : x.version ≤ s.version ⊔ y.version
    · -- `x` counts as already seen and its timestamp is lost
      have hk4 : (s.merge y).1.Keeps x := Or.inl (by rwa [version_merge])
      rw [timestamp_merge_keeps hn2 hk4]
      refine iff_of_false (fun h => hyoung ?_) (fun h => h.1 hseen)
      rw [← h.2, UInt64.le_iff_toNat_le]
    · have hk4 : ¬ (s.merge y).1.Keeps x := by
        unfold Keeps
        rw [version_merge]
        exact not_or.mpr ⟨hseen, hyoung⟩
      rw [timestamp_merge_yields hn2 hk4, doc_merge_yields hn2 hk4, and_iff_left rfl,
        and_iff_right hseen]
      by_cases hsy' : s.timestamp < y.timestamp
      · rw [if_pos hsy']
        rw [UInt64.lt_iff_toNat_lt] at hsy'
        have hk2 : s.Keeps y := hky.mpr (UInt64.le_iff_toNat_le.mpr (by omega))
        rw [doc_merge_keeps hs2 hk2]
        exact PathDoc.onto_assoc_iff
      · rw [if_neg hsy']
        rw [UInt64.lt_iff_toNat_lt] at hsy'
        have hk2 : ¬ s.Keeps y := by
          rw [hky, UInt64.le_iff_toNat_le]
          omega
        rw [doc_merge_yields hs2 hk2]
        exact PathDoc.onto_exchange_iff

/-- **Order of arrival**: for contexts concurrent to `s`, all with different
timestamps, both orders give the same result exactly under `OrderFree`. -/
theorem sameResult_iff (hsx : s.Concurrent x) (hsy : s.Concurrent y)
    (htx : s.timestamp ≠ x.timestamp) (hty : s.timestamp ≠ y.timestamp)
    (htxy : x.timestamp ≠ y.timestamp) : SameResult s x y ↔ OrderFree s x y := by
  unfold OrderFree
  by_cases hlt : x.timestamp < y.timestamp
  · rw [if_pos hlt]
    exact sameResult_iff_oldFirst hsx hsy htx hty hlt
  · have hgt : y.timestamp < x.timestamp := by
      rw [UInt64.lt_iff_toNat_lt] at hlt ⊢
      rw [ne_eq, ← UInt64.toNat_inj] at htxy
      omega
    rw [if_neg hlt]
    have hsymm : SameResult s x y ↔ SameResult s y x := ⟨SameResult.symm, SameResult.symm⟩
    rw [hsymm]
    exact sameResult_iff_oldFirst hsy hsx hty htx hgt

end Orders

/-! ## Three contexts for which the order matters -/

/-- A context with one update of its own device. -/
def single (deviceId : String) (timestamp : UInt64) (data : Value) : AviContext where
  deviceId := deviceId
  timestamp := timestamp
  vectorClock := VectorClock.new.increment deviceId
  data := data

theorem sameResult_iff_single :
    SameResult (single "S" 1 (.object [])) (single "X" 2 (.object [("k", .bool true)]))
        (single "Y" 3 (.object [("k", .bool false)])) ↔
      OrderFree (single "S" 1 (.object [])) (single "X" 2 (.object [("k", .bool true)]))
        (single "Y" 3 (.object [("k", .bool false)])) :=
  sameResult_iff (by unfold Concurrent; decide +kernel) (by unfold Concurrent; decide +kernel)
    (by decide) (by decide) (by decide)

/-- The oldest context has no `k`, so the first `k` to arrive stays, also the younger one. -/
theorem order_matters : ¬ ∀ s x y : AviContext, s.Concurrent x → s.Concurrent y →
    x.Concurrent y → s.timestamp ≠ x.timestamp → s.timestamp ≠ y.timestamp →
    x.timestamp ≠ y.timestamp → SameResult s x y := by
  intro h
  have hsame := h (single "S" 1 (.object [])) (single "X" 2 (.object [("k", .bool true)]))
    (single "Y" 3 (.object [("k", .bool false)])) (by unfold Concurrent; decide +kernel)
    (by unfold Concurrent; decide +kernel) (by unfold Concurrent; decide +kernel)
    (by decide) (by decide) (by decide)
  exact absurd hsame.1 (by decide +kernel)

end AviNet.AviContext
