import AviNet.DeepMerge
import AviNet.VectorClock

/-!
# Context — `AviContext` and its merge

The shared document of a node with its clock and timestamp, from
`protocols/context.rs`. The system time read by `new`, `apply_patch` and
`replace_data` is an argument (`now`, in seconds).

`merge` has four branches. What they have in common and where they differ:

* `version_merge`: in all four the clock ends up as the join of the two;
* `data_merge_lt`, `doc_merge_gt`, `doc_merge_none`: the document is replaced,
  completed, kept, or merged with the older one on top.
-/

namespace AviNet

/-- `AviContext`. -/
structure AviContext where
  deviceId : String
  timestamp : UInt64
  vectorClock : VectorClock
  data : Value
  deriving DecidableEq

namespace AviContext

/-! ## The code -/

/-- `json!({ "avi": { "device": {} } })`. -/
def skeleton : Value :=
  .object [("avi", .object [("device", .object [])])]

/-- `AviContext::new`. -/
def new (deviceId : String) (now : UInt64) : AviContext where
  deviceId := deviceId
  timestamp := now
  vectorClock := .new
  data := skeleton

/-- `apply_patch`. -/
def applyPatch (self : AviContext) (patch : Value) (now : UInt64) : AviContext :=
  { self with data := self.data.mergeJson patch, timestamp := now }

/-- `replace_data`. -/
def replaceData (self : AviContext) (data : Value) (now : UInt64) : AviContext :=
  { self with data := data, timestamp := now }

/-- `self.vector_clock.increment(&self.device_id)`, as `handle_command` does
after `apply_patch` and `replace_data`. -/
def incrementClock (self : AviContext) : AviContext :=
  { self with vectorClock := self.vectorClock.increment self.deviceId }

/-- The commands that write the own context. -/
inductive ContextWrite where
  /-- `UpdateSelfContext` -/
  | update (patch : Value)
  /-- `ReplaceSelfContext` -/
  | replace (data : Value)
  deriving DecidableEq

/-- What both commands do to the context before it is broadcast. -/
def commit (self : AviContext) (w : ContextWrite) (now : UInt64) : AviContext :=
  match w with
  | .update patch => (self.applyPatch patch now).incrementClock
  | .replace data => (self.replaceData data now).incrementClock

/-- `merge`: the context afterwards, and whether it reports an update. -/
def merge (self other : AviContext) : AviContext × Bool :=
  match self.vectorClock.partialCmp other.vectorClock with
  | some .lt =>
    -- other is strictly newer: replace the data, so that deletions propagate
    let updated := decide (self.data ≠ other.data)
    ({ self with
        data := if self.data ≠ other.data then other.data else self.data
        timestamp := other.timestamp
        vectorClock := self.vectorClock.merge other.vectorClock }, updated)
  | some .gt =>
    -- self is strictly newer: take missing keys, leave clock and timestamp
    if self.data ≠ other.data then
      ({ self with data := self.data.deepMerge other.data true }, true)
    else (self, false)
  | some .eq => (self, false)
  | none =>
    -- concurrent: the older document is preferred
    let preferSelf := decide (self.timestamp ≤ other.timestamp)
    let updated := decide (self.data ≠ other.data)
    ({ self with
        data := if self.data ≠ other.data then self.data.deepMerge other.data preferSelf
          else self.data
        timestamp := if preferSelf then self.timestamp else other.timestamp
        vectorClock := self.vectorClock.merge other.vectorClock }, updated)

/-! ## What the clock says -/

/-- How many updates of each actor the context has seen. -/
def version (c : AviContext) : String → ℕ := c.vectorClock.version

@[simp] theorem deviceId_commit (c : AviContext) (w : ContextWrite) (now : UInt64) :
    (c.commit w now).deviceId = c.deviceId := by
  cases w <;> rfl

theorem vectorClock_commit (c : AviContext) (w : ContextWrite) (now : UInt64) :
    (c.commit w now).vectorClock = c.vectorClock.increment c.deviceId := by
  cases w <;> rfl

/-- A write counts up the own entry, as long as the counter does not run over. -/
theorem version_commit {c : AviContext} (h : c.version c.deviceId + 1 < 2 ^ 64)
    (w : ContextWrite) (now : UInt64) : (c.commit w now).version =
      Function.update c.version c.deviceId (c.version c.deviceId + 1) := by
  unfold version
  rw [vectorClock_commit]
  exact VectorClock.version_increment h

/-! ## The branches of merge -/

section Branches

variable {self other : AviContext}

/-- The four cases of `partial_cmp`, with what they say about the versions. -/
theorem merge_cases (self other : AviContext) :
    (self.vectorClock.partialCmp other.vectorClock = some .lt ∧ self.version < other.version) ∨
    (self.vectorClock.partialCmp other.vectorClock = some .gt ∧ other.version < self.version) ∨
    (self.vectorClock.partialCmp other.vectorClock = some .eq ∧ self.version = other.version) ∨
    (self.vectorClock.partialCmp other.vectorClock = none ∧
      ¬ self.version ≤ other.version ∧ ¬ other.version ≤ self.version) := by
  cases h : self.vectorClock.partialCmp other.vectorClock with
  | none => exact Or.inr (Or.inr (Or.inr ⟨rfl, VectorClock.partialCmp_eq_none_iff.mp h⟩))
  | some o =>
    cases o with
    | lt => exact Or.inl ⟨rfl, VectorClock.partialCmp_eq_some_lt_iff.mp h⟩
    | eq => exact Or.inr (Or.inr (Or.inl ⟨rfl, VectorClock.partialCmp_eq_some_eq_iff.mp h⟩))
    | gt => exact Or.inr (Or.inl ⟨rfl, VectorClock.partialCmp_eq_some_gt_iff.mp h⟩)

/-- An older context is replaced. -/
theorem merge_lt (h : self.vectorClock.partialCmp other.vectorClock = some .lt) :
    self.merge other =
      ({ self with
          data := other.data
          timestamp := other.timestamp
          vectorClock := self.vectorClock.merge other.vectorClock },
        decide (self.data ≠ other.data)) := by
  unfold merge
  rw [h]
  by_cases hd : self.data = other.data
  · simp [hd]
  · simp [hd]

/-- A newer context takes over the missing keys and nothing else. -/
theorem merge_gt (h : self.vectorClock.partialCmp other.vectorClock = some .gt) :
    self.merge other =
      ({ self with data := self.data.deepMerge other.data true },
        decide (self.data ≠ other.data)) := by
  unfold merge
  rw [h]
  by_cases hd : self.data = other.data
  · simp only [hd, ne_eq, not_true_eq_false, if_false, decide_false]
    rw [← hd, Value.deepMerge_self]
  · simp [hd]

/-- Equal clocks leave the context as it is. -/
theorem merge_eq (h : self.vectorClock.partialCmp other.vectorClock = some .eq) :
    self.merge other = (self, false) := by
  unfold merge
  rw [h]

/-- Concurrent contexts are merged, the older document preferred. -/
theorem merge_none (h : self.vectorClock.partialCmp other.vectorClock = none) :
    self.merge other =
      ({ self with
          data := self.data.deepMerge other.data (decide (self.timestamp ≤ other.timestamp))
          timestamp := if self.timestamp ≤ other.timestamp then self.timestamp
            else other.timestamp
          vectorClock := self.vectorClock.merge other.vectorClock },
        decide (self.data ≠ other.data)) := by
  unfold merge
  rw [h]
  by_cases hd : self.data = other.data
  · simp only [hd, ne_eq, not_true_eq_false, if_false, decide_false, decide_eq_true_eq]
    rw [← hd, Value.deepMerge_self]
  · simp [hd]

@[simp] theorem deviceId_merge (self other : AviContext) :
    (self.merge other).1.deviceId = self.deviceId := by
  rcases merge_cases self other with ⟨h, -⟩ | ⟨h, -⟩ | ⟨h, -⟩ | ⟨h, -⟩
  · rw [merge_lt h]
  · rw [merge_gt h]
  · rw [merge_eq h]
  · rw [merge_none h]

/-- In every branch the clock becomes the join. -/
theorem version_merge (self other : AviContext) :
    (self.merge other).1.version = self.version ⊔ other.version := by
  rcases merge_cases self other with ⟨h, -⟩ | ⟨h, hlt⟩ | ⟨h, heq⟩ | ⟨h, -⟩
  · rw [merge_lt h]
    exact VectorClock.version_merge ..
  · rw [merge_gt h]
    exact (sup_eq_left.mpr hlt.le).symm
  · rw [merge_eq h]
    exact (sup_eq_left.mpr heq.ge).symm
  · rw [merge_none h]
    exact VectorClock.version_merge ..

/-! ## The document after a merge -/

/-- The context whose document is preferred by a concurrent merge. -/
def older (self other : AviContext) : AviContext :=
  if self.timestamp ≤ other.timestamp then self else other

/-- The other one. -/
def younger (self other : AviContext) : AviContext :=
  if self.timestamp ≤ other.timestamp then other else self

/-- A newer context is adopted. -/
theorem data_merge_lt (h : self.vectorClock.partialCmp other.vectorClock = some .lt) :
    (self.merge other).1.data = other.data := by
  rw [merge_lt h]

theorem data_merge_eq (h : self.vectorClock.partialCmp other.vectorClock = some .eq) :
    (self.merge other).1.data = self.data := by
  rw [merge_eq h]

/-- An older one fills the gaps. -/
theorem doc_merge_gt (h : self.vectorClock.partialCmp other.vectorClock = some .gt) :
    (self.merge other).1.data.doc = self.data.doc.onto other.data.doc := by
  rw [merge_gt h]
  exact Value.doc_deepMerge_true _ _

/-- Of two concurrent ones the younger fills the gaps of the older. -/
theorem doc_merge_none (h : self.vectorClock.partialCmp other.vectorClock = none) :
    (self.merge other).1.data.doc =
      (older self other).data.doc.onto (younger self other).data.doc := by
  rw [merge_none h]
  unfold older younger
  by_cases ht : self.timestamp ≤ other.timestamp
  · rw [if_pos ht, if_pos ht]
    simpa [ht] using Value.doc_deepMerge_true self.data other.data
  · rw [if_neg ht, if_neg ht]
    simpa [ht] using Value.doc_deepMerge_false self.data other.data

end Branches

end AviContext

end AviNet
