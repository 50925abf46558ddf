import Mathlib.Order.Lattice
import Mathlib.Data.List.Pairwise
import Mathlib.Tactic.Common

/-!
# SortedMap — finite maps with extensional equality

Association lists with strictly increasing keys. The order pins down one list
per finite map, so two maps that answer every lookup alike are equal
(`SortedMap.ext`), and a map is still plain data that evaluates.

* `Assoc`: the operations on raw lists, which a nested inductive type can hold;
* `SortedMap`: a list bundled with its order invariant;
* `get?_foldl_entries`: a loop over the entries of one map that touches, at
  each entry, only that entry's key.
-/

/-! ## Raw association lists -/

namespace Assoc

variable {κ α β : Type*} [LinearOrder κ]

/-- The value stored under `k`. -/
def get? (k : κ) : List (κ × α) → Option α
  | [] => none
  | (j, v) :: rest => if k = j then some v else get? k rest

/-- Store `v` under `k`, keeping the keys in order. -/
def insert (k : κ) (v : α) : List (κ × α) → List (κ × α)
  | [] => [(k, v)]
  | (j, w) :: rest =>
    if k < j then (k, v) :: (j, w) :: rest
    else if k = j then (k, v) :: rest
    else (j, w) :: insert k v rest

/-- Drop the entry of `k`. -/
def erase (k : κ) (l : List (κ × α)) : List (κ × α) :=
  l.filter fun e => decide (e.1 ≠ k)

/-- Keys strictly increase. -/
def Sorted (l : List (κ × α)) : Prop := l.Pairwise fun a b => a.1 < b.1

instance (l : List (κ × α)) : Decidable (Sorted l) :=
  inferInstanceAs (Decidable (l.Pairwise _))

@[simp] theorem get?_nil (k : κ) : get? k ([] : List (κ × α)) = none := rfl

theorem get?_cons (k j : κ) (v : α) (l : List (κ × α)) :
    get? k ((j, v) :: l) = if k = j then some v else get? k l := rfl

/-- Inserting a key sets that key and no other. -/
theorem get?_insert (k j : κ) (v : α) (l : List (κ × α)) :
    get? j (insert k v l) = if j = k then some v else get? j l := by
  induction l with
  | nil => rfl
  | cons e l ih =>
    rcases e with ⟨i, w⟩
    unfold insert
    by_cases h1 : k < i
    · rw [if_pos h1, get?_cons]
    · by_cases h2 : k = i
      · rw [if_neg h1, if_pos h2, get?_cons, get?_cons, ← h2]
        split_ifs <;> rfl
      · rw [if_neg h1, if_neg h2, get?_cons, get?_cons, ih]
        by_cases hj : j = k
        · rw [if_pos hj, if_pos hj, if_neg (hj ▸ h2)]
        · rw [if_neg hj, if_neg hj]

/-- Erasing a key takes that key and no other. -/
theorem get?_erase (k j : κ) (l : List (κ × α)) :
    get? j (erase k l) = if j = k then none else get? j l := by
  induction l with
  | nil => simp [erase]
  | cons e l ih =>
    rcases e with ⟨i, w⟩
    unfold erase at ih ⊢
    rw [List.filter_cons]
    by_cases hik : i = k
    · simp only [hik, ne_eq, not_true_eq_false, decide_false, Bool.false_eq_true, ↓reduceIte, ih]
      split_ifs with hj
      · rfl
      · rw [get?_cons, if_neg hj]
    · simp only [ne_eq, hik, not_false_eq_true, decide_true, ↓reduceIte, get?_cons, ih]
      split_ifs with h1 h2
      · exact absurd (h1.symm.trans h2) hik
      · rfl
      · rfl
      · rfl

theorem mem_of_get? {k : κ} {v : α} {l : List (κ × α)} (h : get? k l = some v) :
    (k, v) ∈ l := by
  induction l with
  | nil => cases h
  | cons e l ih =>
    rcases e with ⟨j, w⟩
    rw [get?_cons] at h
    split_ifs at h with hk
    · injection h with hv
      rw [hk, hv]
      exact List.mem_cons_self
    · exact List.mem_cons_of_mem _ (ih h)

/-- In a sorted list, with its distinct keys, an entry is what is found under its key. -/
theorem get?_of_mem {k : κ} {v : α} {l : List (κ × α)} (hs : Sorted l) (h : (k, v) ∈ l) :
    get? k l = some v := by
  induction l with
  | nil => cases h
  | cons e l ih =>
    rcases e with ⟨j, w⟩
    rcases List.pairwise_cons.mp hs with ⟨hlt, hs'⟩
    rcases List.mem_cons.mp h with heq | hmem
    · rcases Prod.mk.inj heq with ⟨rfl, rfl⟩
      rw [get?_cons, if_pos rfl]
    · have hjk : j < k := hlt _ hmem
      rw [get?_cons, if_neg (ne_of_gt hjk), ih hs' hmem]

/-- The two directions together. -/
theorem get?_eq_some_iff {k : κ} {v : α} {l : List (κ × α)} (hs : Sorted l) :
    get? k l = some v ↔ (k, v) ∈ l :=
  ⟨mem_of_get?, get?_of_mem hs⟩

/-- An entry after an insertion is the new one or was there before. -/
theorem mem_insert {k : κ} {v : α} {l : List (κ × α)} {e : κ × α}
    (h : e ∈ insert k v l) : e = (k, v) ∨ e ∈ l := by
  induction l with
  | nil => exact Or.inl (List.mem_singleton.mp h)
  | cons f l ih =>
    rcases f with ⟨j, w⟩
    unfold insert at h
    split_ifs at h with h1 h2
    · exact List.mem_cons.mp h
    · rcases List.mem_cons.mp h with rfl | hm
      · exact Or.inl rfl
      · exact Or.inr (List.mem_cons_of_mem _ hm)
    · rcases List.mem_cons.mp h with rfl | hm
      · exact Or.inr List.mem_cons_self
      · exact (ih hm).imp_right (List.mem_cons_of_mem _)

/-- An insertion keeps the list sorted. -/
theorem Sorted.insert {k : κ} {v : α} {l : List (κ × α)} (hs : Sorted l) :
    Sorted (Assoc.insert k v l) := by
  induction l with
  | nil => exact List.pairwise_singleton _ _
  | cons e l ih =>
    rcases e with ⟨j, w⟩
    rcases List.pairwise_cons.mp hs with ⟨hlt, hs'⟩
    unfold Assoc.insert
    split_ifs with h1 h2
    · -- in front of the list
      apply List.pairwise_cons.mpr
      refine ⟨?_, hs⟩
      intro e he
      rcases List.mem_cons.mp he with rfl | hm
      · exact h1
      · exact lt_trans h1 (hlt e hm)
    · -- in place of the entry with that key
      apply List.pairwise_cons.mpr
      refine ⟨?_, hs'⟩
      intro e he
      exact h2 ▸ hlt e he
    · -- further back
      apply List.pairwise_cons.mpr
      refine ⟨?_, ih hs'⟩
      intro e he
      rcases mem_insert he with rfl | hm
      · exact lt_of_le_of_ne (not_lt.mp h1) (Ne.symm h2)
      · exact hlt e hm

/-- An erasure keeps the list sorted. -/
theorem Sorted.erase {k : κ} {l : List (κ × α)} (hs : Sorted l) :
    Sorted (Assoc.erase k l) :=
  List.Pairwise.filter _ hs

/-- A sorted list is determined by its lookups: the least key of one side must
be the least key of the other. -/
theorem Sorted.ext {l m : List (κ × α)} (hl : Sorted l) (hm : Sorted m)
    (h : ∀ k, get? k l = get? k m) : l = m := by
  induction l generalizing m with
  | nil =>
    -- the empty list finds nothing
    cases m with
    | nil => rfl
    | cons f m =>
      rcases f with ⟨j, w⟩
      have := h j
      rw [get?_nil, get?_cons, if_pos rfl] at this
      cases this
  | cons e l ih =>
    rcases e with ⟨i, v⟩
    cases m with
    | nil =>
      have := h i
      rw [get?_nil, get?_cons, if_pos rfl] at this
      cases this
    | cons f m =>
      rcases f with ⟨j, w⟩
      rcases List.pairwise_cons.mp hl with ⟨hil, hl'⟩
      rcases List.pairwise_cons.mp hm with ⟨hjm, hm'⟩
      -- each head is found in the other list, so they are the same
      have hi : (i, v) ∈ (j, w) :: m := by
        rw [← get?_eq_some_iff hm, ← h i, get?_cons, if_pos rfl]
      have hj : (j, w) ∈ (i, v) :: l := by
        rw [← get?_eq_some_iff hl, h j, get?_cons, if_pos rfl]
      have hhead : (i, v) = (j, w) := by
        rcases List.mem_cons.mp hi with heq | hi'
        · exact heq
        · rcases List.mem_cons.mp hj with heq | hj'
          · exact heq.symm
          · exact absurd (lt_trans (hjm _ hi') (hil _ hj')) (lt_irrefl _)
      rcases Prod.mk.inj hhead with ⟨rfl, rfl⟩
      have htail : l = m := by
        refine ih hl' hm' fun k => ?_
        by_cases hk : k = i
        · -- the head key occurs in neither tail
          have hnone : ∀ {t : List (κ × α)}, (∀ e ∈ t, i < e.1) → get? i t = none := by
            intro t ht
            cases hg : get? i t with
            | none => rfl
            | some u => exact absurd (ht _ (mem_of_get? hg)) (lt_irrefl _)
          rw [hk, hnone hil, hnone hjm]
        · have := h k
          rwa [get?_cons, get?_cons, if_neg hk, if_neg hk] at this
      rw [htail]

theorem get?_map (f : α → β) (k : κ) (l : List (κ × α)) :
    get? k (l.map fun e => (e.1, f e.2)) = (get? k l).map f := by
  induction l with
  | nil => rfl
  | cons e l ih =>
    rcases e with ⟨j, v⟩
    rw [List.map_cons, get?_cons, get?_cons, ih]
    split_ifs <;> rfl

/-- A map over the values keeps the keys, so the list stays sorted. -/
theorem Sorted.map {f : α → β} {l : List (κ × α)} (hs : Sorted l) :
    Sorted (l.map fun e => (e.1, f e.2)) :=
  List.pairwise_map.mpr hs

/-- A loop over the entries of `l` whose body at `(k, v)` changes the
accumulator only at `k`: in the end each key was treated by its own entry. -/
theorem get?_foldl {γ : Type*} (look : κ → γ → Option β) (step : γ → κ × α → γ)
    (upd : Option β → α → Option β)
    (hstep : ∀ acc k v j, look j (step acc (k, v)) =
      if j = k then upd (look k acc) v else look j acc)
    {l : List (κ × α)} (hs : Sorted l) (acc : γ) (j : κ) :
    look j (l.foldl step acc) = (get? j l).elim (look j acc) (upd (look j acc)) := by
  induction l generalizing acc with
  | nil => rfl
  | cons e l ih =>
    rcases e with ⟨k, v⟩
    rcases List.pairwise_cons.mp hs with ⟨hlt, hs'⟩
    rw [List.foldl_cons, ih hs', get?_cons, hstep]
    by_cases hj : j = k
    · have hnone : get? j l = none := by
        cases hg : get? j l with
        | none => rfl
        | some u => exact absurd (hlt _ (mem_of_get? hg)) (hj ▸ lt_irrefl _)
      rw [hnone, if_pos hj, if_pos hj, hj]
      rfl
    · simp [hj]

end Assoc

/-! ## Bundled maps -/

/-- A finite map: an association list with strictly increasing keys. -/
structure SortedMap (κ α : Type*) [LinearOrder κ] where
  entries : List (κ × α)
  sorted : Assoc.Sorted entries

namespace SortedMap

variable {κ α β : Type*} [LinearOrder κ]

/-- A sorted map is its list of entries. -/
theorem entries_injective :
    Function.Injective (SortedMap.entries : SortedMap κ α → List (κ × α)) := by
  rintro ⟨l, hl⟩ ⟨m, hm⟩ h
  cases (show l = m from h)
  rfl

instance [DecidableEq α] : DecidableEq (SortedMap κ α) := fun m n =>
  decidable_of_iff (m.entries = n.entries) entries_injective.eq_iff

def empty : SortedMap κ α := ⟨[], List.Pairwise.nil⟩

def get? (m : SortedMap κ α) (k : κ) : Option α := Assoc.get? k m.entries

def insert (m : SortedMap κ α) (k : κ) (v : α) : SortedMap κ α :=
  ⟨Assoc.insert k v m.entries, m.sorted.insert⟩

def erase (m : SortedMap κ α) (k : κ) : SortedMap κ α :=
  ⟨Assoc.erase k m.entries, m.sorted.erase⟩

def keys (m : SortedMap κ α) : List κ := m.entries.map Prod.fst

/-- Build a map by inserting the pairs from left to right. -/
def ofList (l : List (κ × α)) : SortedMap κ α :=
  l.foldl (fun m e => m.insert e.1 e.2) empty

@[simp] theorem get?_empty (k : κ) : (empty : SortedMap κ α).get? k = none := rfl

theorem get?_insert (m : SortedMap κ α) (k j : κ) (v : α) :
    (m.insert k v).get? j = if j = k then some v else m.get? j :=
  Assoc.get?_insert k j v m.entries

@[simp] theorem get?_insert_self (m : SortedMap κ α) (k : κ) (v : α) :
    (m.insert k v).get? k = some v := by
  rw [get?_insert, if_pos rfl]

theorem get?_insert_ne (m : SortedMap κ α) {k j : κ} (v : α) (h : j ≠ k) :
    (m.insert k v).get? j = m.get? j := by
  rw [get?_insert, if_neg h]

/-- A lookup that is already known. -/
theorem get?_eq_ite {m : SortedMap κ α} {k : κ} {x : Option α} (h : m.get? k = x) (j : κ) :
    m.get? j = if j = k then x else m.get? j := by
  split_ifs with hj
  · rw [hj, h]
  · rfl

theorem get?_erase (m : SortedMap κ α) (k j : κ) :
    (m.erase k).get? j = if j = k then none else m.get? j :=
  Assoc.get?_erase k j m.entries

/-- Erase a list of keys. -/
theorem get?_foldl_erase (ks : List κ) (m : SortedMap κ α) (j : κ) :
    (ks.foldl erase m).get? j = if j ∈ ks then none else m.get? j := by
  induction ks generalizing m with
  | nil => simp
  | cons k ks ih =>
    rw [List.foldl_cons, ih, get?_erase]
    by_cases hj : j = k
    · simp [hj]
    · simp [hj]

/-- Two maps with the same lookups are equal. -/
@[ext] theorem ext {m n : SortedMap κ α} (h : ∀ k, m.get? k = n.get? k) : m = n :=
  entries_injective (m.sorted.ext n.sorted h)

/-- The entries are what is found under the keys. -/
theorem mem_entries {m : SortedMap κ α} {k : κ} {v : α} :
    (k, v) ∈ m.entries ↔ m.get? k = some v :=
  (Assoc.get?_eq_some_iff m.sorted).symm

/-- No key is listed twice. -/
theorem nodup_keys (m : SortedMap κ α) : m.keys.Nodup := by
  unfold keys
  rw [List.Nodup, List.pairwise_map]
  exact m.sorted.imp fun h => ne_of_lt h

/-- The keys are those under which something is found. -/
theorem mem_keys {m : SortedMap κ α} {k : κ} : k ∈ m.keys ↔ (m.get? k).isSome := by
  rw [Option.isSome_iff_exists]
  constructor
  · intro h
    rcases List.mem_map.mp h with ⟨e, he, rfl⟩
    exact ⟨e.2, mem_entries.mp he⟩
  · rintro ⟨v, hv⟩
    exact List.mem_map.mpr ⟨(k, v), mem_entries.mpr hv, rfl⟩

/-- A list that names no key twice is stored entry by entry. -/
theorem get?_ofList {l : List (κ × α)} (h : (l.map Prod.fst).Nodup) {e : κ × α} (he : e ∈ l) :
    (ofList l).get? e.1 = some e.2 := by
  -- an entry stays while other keys are inserted
  have hkeep : ∀ (l : List (κ × α)) (m : SortedMap κ α) (k : κ), k ∉ l.map Prod.fst →
      (l.foldl (fun m e => m.insert e.1 e.2) m).get? k = m.get? k := by
    intro l
    induction l with
    | nil => exact fun _ _ _ => rfl
    | cons f l ih =>
      intro m k hk
      have hne : k ≠ f.1 := fun heq => hk (heq ▸ List.mem_cons_self)
      have hrest : k ∉ l.map Prod.fst := fun hmem => hk (List.mem_cons_of_mem _ hmem)
      rw [List.foldl_cons, ih _ k hrest, get?_insert_ne m f.2 hne]
  -- an entry is there after its own insertion, and then stays
  have hstored : ∀ (l : List (κ × α)) (m : SortedMap κ α), (l.map Prod.fst).Nodup → e ∈ l →
      (l.foldl (fun m e => m.insert e.1 e.2) m).get? e.1 = some e.2 := by
    intro l
    induction l with
    | nil => intro m _ hmem; cases hmem
    | cons f l ih =>
      intro m hnodup hmem
      have hsplit := List.nodup_cons.mp hnodup
      rw [List.foldl_cons]
      rcases List.mem_cons.mp hmem with rfl | hmem
      · rw [hkeep l _ e.1 hsplit.1, get?_insert_self]
      · exact ih _ hsplit.2 hmem
  exact hstored l empty h he

/-! ### Maps of results -/

/-- The entries whose value `f` accepts, with what it makes of them. -/
def filterMap (f : α → Option β) (m : SortedMap κ α) : SortedMap κ β where
  entries := m.entries.filterMap fun e => (f e.2).map fun b => (e.1, b)
  sorted := by
    refine List.Pairwise.filterMap _ ?_ m.sorted
    intro a a' hlt b hb b' hb'
    obtain ⟨x, -, rfl⟩ := Option.map_eq_some_iff.mp hb
    obtain ⟨y, -, rfl⟩ := Option.map_eq_some_iff.mp hb'
    exact hlt

/-- A `filterMap` over the values decides key by key. -/
theorem get?_filterMap (f : α → Option β) (m : SortedMap κ α) (k : κ) :
    (m.filterMap f).get? k = (m.get? k).bind f := by
  apply Option.ext
  intro b
  rw [← mem_entries, Option.bind_eq_some_iff]
  constructor
  · intro h
    obtain ⟨e, he, hb⟩ := List.mem_filterMap.mp h
    obtain ⟨b', hf, heq⟩ := Option.map_eq_some_iff.mp hb
    obtain ⟨rfl, rfl⟩ := Prod.mk.inj heq
    exact ⟨e.2, mem_entries.mp he, hf⟩
  · rintro ⟨a, ha, hf⟩
    refine List.mem_filterMap.mpr ⟨(k, a), mem_entries.mpr ha, ?_⟩
    rw [hf]
    rfl

/-- What `f` makes of all values, `none` if it refuses one. -/
def traverse (f : α → Option β) (m : SortedMap κ α) : Option (SortedMap κ β) :=
  if m.entries.all fun e => (f e.2).isSome then some (m.filterMap f) else none

/-- A traversal succeeds exactly if it does at every value. -/
theorem isSome_traverse {f : α → Option β} {m : SortedMap κ α} :
    (m.traverse f).isSome = true ↔ ∀ k v, m.get? k = some v → (f v).isSome = true := by
  have hall : (m.traverse f).isSome = m.entries.all fun e => (f e.2).isSome := by
    unfold traverse
    split_ifs with h
    · exact h.symm
    · exact (Bool.eq_false_iff.mpr h).symm
  rw [hall, List.all_eq_true]
  constructor
  · intro h k v hv
    exact h (k, v) (mem_entries.mpr hv)
  · intro h e he
    exact h e.1 e.2 (mem_entries.mp he)

/-- A traversal's result is the map that holds the result of each value. -/
theorem traverse_eq_some_iff {f : α → Option β} {m : SortedMap κ α} {n : SortedMap κ β} :
    m.traverse f = some n ↔ ∀ k, (m.get? k).map f = (n.get? k).map some := by
  constructor
  · -- a success succeeds at every key
    intro h k
    have hsome := isSome_traverse.mp (Option.isSome_iff_exists.mpr ⟨n, h⟩) k
    have hn : n = m.filterMap f := by
      unfold traverse at h
      split_ifs at h
      exact (Option.some.inj h).symm
    rw [hn, get?_filterMap]
    cases hv : m.get? k with
    | none => rfl
    | some v =>
      obtain ⟨b, hb⟩ := Option.isSome_iff_exists.mp (hsome v hv)
      simp [hb]
  · -- and a map with all the results is that success
    intro h
    have hsome : (m.traverse f).isSome = true := by
      refine isSome_traverse.mpr fun k v hv => ?_
      have hk := h k
      rw [hv] at hk
      obtain ⟨b, -, hb⟩ := Option.map_eq_some_iff.mp hk.symm
      rw [← hb]
      rfl
    have hn : m.filterMap f = n := by
      refine ext fun k => ?_
      rw [get?_filterMap]
      have hk := h k
      cases hv : m.get? k with
      | none =>
        rw [hv] at hk
        exact (Option.map_eq_none_iff.mp hk.symm).symm
      | some v =>
        rw [hv] at hk
        obtain ⟨b, hb, hf⟩ := Option.map_eq_some_iff.mp hk.symm
        rw [hb, Option.bind_some, ← hf]
    unfold traverse at hsome ⊢
    split_ifs with hall
    · rw [hn]
    · rw [if_neg hall] at hsome
      cases hsome

/-- The same map with every value replaced. -/
def map (f : α → β) (m : SortedMap κ α) : SortedMap κ β :=
  ⟨m.entries.map fun e => (e.1, f e.2), m.sorted.map⟩

theorem get?_map (f : α → β) (m : SortedMap κ α) (k : κ) :
    (m.map f).get? k = (m.get? k).map f :=
  Assoc.get?_map f k m.entries

/-- The per-key reading of a loop over the entries of `n`. -/
theorem get?_foldl_entries {γ : Type*} (look : κ → γ → Option β) (step : γ → κ × α → γ)
    (upd : Option β → α → Option β)
    (hstep : ∀ acc k v j, look j (step acc (k, v)) =
      if j = k then upd (look k acc) v else look j acc)
    (n : SortedMap κ α) (acc : γ) (j : κ) :
    look j (n.entries.foldl step acc) = (n.get? j).elim (look j acc) (upd (look j acc)) :=
  Assoc.get?_foldl look step upd hstep n.sorted acc j

end SortedMap
