import AviNet.Lib.SortedMap
import Mathlib.Data.String.Basic
import Mathlib.Data.List.Sort
import Mathlib.Data.List.Dedup
import Mathlib.Order.Lattice

/-!
# VectorClock — the logical timestamps of the shared context

`VectorClock` of `protocols/context.rs`, with its `HashMap<String, u64>` as a
finite map (`HashMap` equality is map equality, and every loop over it below
gives the same map in any order).

`version` reads a clock as a function from actors to numbers, a missing actor
counting as 0. Under it the code computes the pointwise order and join:

* `partialCmp_eq_some_lt_iff` and its siblings;
* `version_merge`;
* `version_increment`, as long as the counter does not wrap around.
-/

namespace AviNet

/-- `VectorClock(HashMap<String, u64>)`. -/
structure VectorClock where
  entries : SortedMap String UInt64
  deriving DecidableEq

namespace VectorClock

/-! ## The code -/

/-- `VectorClock::new`. -/
def new : VectorClock := ⟨SortedMap.empty⟩

/-- `self.0.get(actor).unwrap_or(&0)`. -/
def get (self : VectorClock) (actor : String) : UInt64 := (self.entries.get? actor).getD 0

/-- `increment`: `*entry(actor).or_insert(0) += 1`. The sum is taken modulo
`2 ^ 64`, as the release profile does; with overflow checks on, the addition
panics where this definition wraps (`get actor = 2 ^ 64 - 1`). -/
def increment (self : VectorClock) (actor : String) : VectorClock :=
  ⟨self.entries.insert actor (self.get actor + 1)⟩

/-- One turn of the loop of `partial_cmp`, on
`(self_has_greater, other_has_greater)`. -/
def compareKey (self other : VectorClock) (flags : Bool × Bool) (key : String) : Bool × Bool :=
  let v1 := self.get key
  let v2 := other.get key
  if v1 > v2 then (true, flags.2)
  else if v2 > v1 then (flags.1, true)
  else flags

/-- The union of the keys, sorted and without duplicates. -/
def allKeys (self other : VectorClock) : List String :=
  ((self.entries.keys ++ other.entries.keys).insertionSort (· ≤ ·)).dedup

/-- `partial_cmp`. -/
def partialCmp (self other : VectorClock) : Option Ordering :=
  match (allKeys self other).foldl (compareKey self other) (false, false) with
  | (true, true) => none
  | (true, false) => some .gt
  | (false, true) => some .lt
  | (false, false) => some .eq

/-- One turn of the loop of `merge`. -/
def mergeEntry (self : SortedMap String UInt64) (e : String × UInt64) :
    SortedMap String UInt64 :=
  let entry := (self.get? e.1).getD 0
  let self' := self.insert e.1 entry
  if e.2 > entry then self'.insert e.1 e.2 else self'

/-- `merge`: the maximum of each component. -/
def merge (self other : VectorClock) : VectorClock :=
  ⟨other.entries.entries.foldl mergeEntry self.entries⟩

/-! ## Clocks as functions -/

/-- How many updates of each actor a clock has seen. -/
def version (c : VectorClock) (actor : String) : ℕ := (c.get actor).toNat

/-- An increment adds one to the actor's entry, modulo `2 ^ 64`, and leaves the others. -/
theorem get_increment (c : VectorClock) (actor x : String) :
    (c.increment actor).get x = if x = actor then c.get actor + 1 else c.get x := by
  unfold increment get
  rw [SortedMap.get?_insert]
  split_ifs <;> rfl

theorem version_increment_ne (c : VectorClock) {actor x : String} (h : x ≠ actor) :
    (c.increment actor).version x = c.version x := by
  rw [version, get_increment, if_neg h, version]

theorem version_increment_self (c : VectorClock) (actor : String) :
    (c.increment actor).version actor = (c.version actor + 1) % 2 ^ 64 := by
  rw [version, get_increment, if_pos rfl, UInt64.toNat_add, version]
  rfl

/-- Below the last counter value, an increment adds one to the actor's entry. -/
theorem version_increment {c : VectorClock} {actor : String}
    (h : c.version actor + 1 < 2 ^ 64) :
    (c.increment actor).version = Function.update c.version actor (c.version actor + 1) := by
  funext x
  by_cases hx : x = actor
  · rw [hx, version_increment_self, Nat.mod_eq_of_lt h, Function.update_self]
  · rw [version_increment_ne c hx, Function.update_of_ne hx]

/-- The larger of an entry (0 if missing) and an incoming counter. -/
def larger (o : Option UInt64) (v : UInt64) : Option UInt64 :=
  some (if v > o.getD 0 then v else o.getD 0)

/-- One round of the loop of `merge` keeps the larger entry of its key. -/
theorem get?_mergeEntry (acc : SortedMap String UInt64) (k : String) (v : UInt64) (j : String) :
    (mergeEntry acc (k, v)).get? j = if j = k then larger (acc.get? k) v else acc.get? j := by
  unfold mergeEntry larger
  dsimp only
  by_cases hj : j = k
  · rw [if_pos hj, hj]
    split_ifs
    · rw [SortedMap.get?_insert_self]
    · rw [SortedMap.get?_insert_self]
  · rw [if_neg hj]
    split_ifs
    · rw [SortedMap.get?_insert_ne _ _ hj, SortedMap.get?_insert_ne _ _ hj]
    · rw [SortedMap.get?_insert_ne _ _ hj]

/-- `merge` keeps the larger of two entries, and a single one as it is. -/
theorem get?_merge (self other : VectorClock) (k : String) :
    (self.merge other).entries.get? k =
      (other.entries.get? k).elim (self.entries.get? k) (larger (self.entries.get? k)) :=
  SortedMap.get?_foldl_entries (fun j acc => SortedMap.get? acc j) mergeEntry larger
    get?_mergeEntry other.entries self.entries k

/-- `merge` is the pointwise maximum. -/
theorem version_merge (self other : VectorClock) :
    (self.merge other).version = self.version ⊔ other.version := by
  funext k
  show ((self.merge other).get k).toNat = max (self.get k).toNat (other.get k).toNat
  unfold get
  rw [get?_merge]
  cases other.entries.get? k with
  | none => simp
  | some v =>
    simp only [Option.elim_some, larger, Option.getD_some]
    split_ifs with h
    · rw [gt_iff_lt, UInt64.lt_iff_toNat_lt] at h
      omega
    · rw [gt_iff_lt, UInt64.lt_iff_toNat_lt] at h
      omega

/-! ## Comparison -/

/-- The loop collects whether some key is larger on the one or on the other side. -/
theorem foldl_compareKey (self other : VectorClock) (keys : List String) (flags : Bool × Bool) :
    keys.foldl (compareKey self other) flags =
      (flags.1 || keys.any fun k => decide (self.get k > other.get k),
        flags.2 || keys.any fun k => decide (other.get k > self.get k)) := by
  induction keys generalizing flags with
  | nil => simp
  | cons k keys ih =>
    rw [List.foldl_cons, ih]
    unfold compareKey
    dsimp only
    by_cases h1 : self.get k > other.get k
    · -- one key cannot be larger on both sides
      have h2 : ¬ other.get k > self.get k := by
        rw [gt_iff_lt, UInt64.lt_iff_toNat_lt] at h1 ⊢
        omega
      simp [h1, h2]
    · by_cases h2 : other.get k > self.get k
      · simp [h1, h2]
      · simp [h1, h2]

/-- The keys compared are those of either clock. -/
theorem mem_allKeys {self other : VectorClock} {k : String} :
    k ∈ allKeys self other ↔ k ∈ self.entries.keys ∨ k ∈ other.entries.keys := by
  rw [allKeys, List.mem_dedup, List.mem_insertionSort, List.mem_append]

/-- An actor with a non-zero counter has an entry. -/
theorem mem_keys_of_version {c : VectorClock} {k : String} (h : c.version k ≠ 0) :
    k ∈ c.entries.keys := by
  rw [SortedMap.mem_keys]
  unfold version get at h
  cases hk : c.entries.get? k with
  | none => simp [hk] at h
  | some v => rfl

/-- A key on which `self` is ahead exists exactly if `self` is not below `other`. -/
theorem any_allKeys_iff (self other : VectorClock) :
    (allKeys self other).any (fun k => decide (self.get k > other.get k)) = true ↔
      ¬ self.version ≤ other.version := by
  rw [List.any_eq_true, Pi.le_def, not_forall]
  constructor
  · rintro ⟨k, -, hk⟩
    refine ⟨k, ?_⟩
    rw [decide_eq_true_iff, gt_iff_lt, UInt64.lt_iff_toNat_lt] at hk
    exact not_le.mpr hk
  · rintro ⟨k, hk⟩
    rw [not_le] at hk
    refine ⟨k, mem_allKeys.mpr (Or.inl (mem_keys_of_version (by omega))), ?_⟩
    rw [decide_eq_true_iff, gt_iff_lt, UInt64.lt_iff_toNat_lt]
    exact hk

/-- It does not matter which clock's keys come first. -/
theorem allKeys_any_comm (self other : VectorClock) (f : String → Bool) :
    (allKeys self other).any f = (allKeys other self).any f := by
  rw [Bool.eq_iff_iff, List.any_eq_true, List.any_eq_true]
  simp only [mem_allKeys]
  constructor
  · rintro ⟨k, hk, hf⟩
    exact ⟨k, hk.symm, hf⟩
  · rintro ⟨k, hk, hf⟩
    exact ⟨k, hk.symm, hf⟩

open Classical in
/-- What `partial_cmp` computes, in terms of the pointwise order. -/
theorem partialCmp_eq (self other : VectorClock) :
    self.partialCmp other =
      if self.version ≤ other.version then
        if other.version ≤ self.version then some .eq else some .lt
      else if other.version ≤ self.version then some .gt else none := by
  unfold partialCmp
  rw [foldl_compareKey]
  simp only [Bool.false_or]
  have h1 := any_allKeys_iff self other
  have h2 := any_allKeys_iff other self
  rw [allKeys_any_comm] at h2
  by_cases hle : self.version ≤ other.version <;> by_cases hge : other.version ≤ self.version <;>
    simp only [hle, hge, not_true_eq_false, not_false_eq_true, iff_true, iff_false,
      Bool.not_eq_true] at h1 h2 <;>
    simp [h1, h2, hle, hge]

/-- `Equal` means equal at every actor. -/
theorem partialCmp_eq_some_eq_iff {self other : VectorClock} :
    self.partialCmp other = some .eq ↔ self.version = other.version := by
  rw [partialCmp_eq]
  constructor
  · intro h
    split_ifs at h with hle hge <;> first | exact le_antisymm hle hge | cases h
  · intro h
    rw [if_pos h.le, if_pos h.ge]

/-- `Less` means below. -/
theorem partialCmp_eq_some_lt_iff {self other : VectorClock} :
    self.partialCmp other = some .lt ↔ self.version < other.version := by
  rw [partialCmp_eq, lt_iff_le_not_ge]
  split_ifs with hle hge hge <;> simp [hle, hge]

/-- `Greater` means above. -/
theorem partialCmp_eq_some_gt_iff {self other : VectorClock} :
    self.partialCmp other = some .gt ↔ other.version < self.version := by
  rw [partialCmp_eq, lt_iff_le_not_ge]
  split_ifs with hle hge hge <;> simp [hle, hge]

/-- `None` means that neither clock is below the other. -/
theorem partialCmp_eq_none_iff {self other : VectorClock} :
    self.partialCmp other = none ↔
      ¬ self.version ≤ other.version ∧ ¬ other.version ≤ self.version := by
  rw [partialCmp_eq]
  split_ifs with hle hge hge <;> simp [hle, hge]

end VectorClock

end AviNet
