import AviNet.Lib.SortedMap
import Mathlib.Data.String.Basic

/-!
# Json — `serde_json::Value`

A JSON document as the program holds it. An object is a `BTreeMap<String, Value>`:
`Json` is the raw tree with objects as association lists, `Json.Canonical`
asks every object for strictly increasing keys, and `Value` bundles the two, so
that equality of values is `serde_json`'s equality (objects as key/value maps).

Everything after this module works on `Value` through `asObject?` / `ofObject`
and `get?`; the raw tree is only unfolded here and in `DeepMerge`.
-/

namespace AviNet

/-- `serde_json::Number`: `PosInt`, `NegInt` or a finite `f64`. The float is the
rational it denotes, which identifies the two zeros just as `f64` equality does. -/
inductive Number where
  | posInt (n : UInt64)
  | negInt (n : Int64)
  | float (q : Rat)
  deriving DecidableEq

/-- The raw tree of a JSON document. -/
inductive Json where
  | null
  | bool (b : Bool)
  | number (n : Number)
  | string (s : String)
  | array (elems : List Json)
  | object (fields : List (String × Json))

/-! ## Equality of raw trees -/

mutual

def Json.decEq : (a b : Json) → Decidable (a = b)
  | .null, .null => isTrue rfl
  | .bool x, .bool y => decidable_of_iff (x = y) (by rw [Json.bool.injEq])
  | .number x, .number y => decidable_of_iff (x = y) (by rw [Json.number.injEq])
  | .string x, .string y => decidable_of_iff (x = y) (by rw [Json.string.injEq])
  | .array x, .array y =>
    haveI := Json.decEqList x y
    decidable_of_iff (x = y) (by rw [Json.array.injEq])
  | .object x, .object y =>
    haveI := Json.decEqFields x y
    decidable_of_iff (x = y) (by rw [Json.object.injEq])
  | .null, .bool _ | .null, .number _ | .null, .string _ | .null, .array _
  | .null, .object _ | .bool _, .null | .bool _, .number _ | .bool _, .string _
  | .bool _, .array _ | .bool _, .object _ | .number _, .null | .number _, .bool _
  | .number _, .string _ | .number _, .array _ | .number _, .object _ | .string _, .null
  | .string _, .bool _ | .string _, .number _ | .string _, .array _ | .string _, .object _
  | .array _, .null | .array _, .bool _ | .array _, .number _ | .array _, .string _
  | .array _, .object _ | .object _, .null | .object _, .bool _ | .object _, .number _
  | .object _, .string _ | .object _, .array _ => isFalse nofun

def Json.decEqList : (a b : List Json) → Decidable (a = b)
  | [], [] => isTrue rfl
  | [], _ :: _ => isFalse nofun
  | _ :: _, [] => isFalse nofun
  | x :: xs, y :: ys =>
    haveI := Json.decEq x y
    haveI := Json.decEqList xs ys
    decidable_of_iff (x = y ∧ xs = ys) (by rw [List.cons.injEq])

def Json.decEqFields : (a b : List (String × Json)) → Decidable (a = b)
  | [], [] => isTrue rfl
  | [], _ :: _ => isFalse nofun
  | _ :: _, [] => isFalse nofun
  | (k, x) :: xs, (l, y) :: ys =>
    haveI := Json.decEq x y
    haveI := Json.decEqFields xs ys
    decidable_of_iff ((k = l ∧ x = y) ∧ xs = ys) (by rw [List.cons.injEq, Prod.mk.injEq])

end

instance : DecidableEq Json := Json.decEq

/-! ## Values -/

/-- Every object of the tree lists its keys in strictly increasing order. -/
inductive Json.Canonical : Json → Prop
  | null : Canonical .null
  | bool (b : Bool) : Canonical (.bool b)
  | number (n : Number) : Canonical (.number n)
  | string (s : String) : Canonical (.string s)
  | array {es : List Json} : (∀ e ∈ es, Canonical e) → Canonical (.array es)
  | object {fs : List (String × Json)} :
      Assoc.Sorted fs → (∀ e ∈ fs, Canonical e.2) → Canonical (.object fs)

/-- `serde_json::Value`. -/
structure Value where
  json : Json
  canonical : json.Canonical

namespace Value

/-- A value is its JSON. -/
theorem json_injective : Function.Injective Value.json := by
  rintro ⟨a, ha⟩ ⟨b, hb⟩ h
  cases (show a = b from h)
  rfl

instance : DecidableEq Value := fun a b =>
  decidable_of_iff (a.json = b.json) json_injective.eq_iff

def null : Value := ⟨.null, .null⟩

def bool (b : Bool) : Value := ⟨.bool b, .bool b⟩

def number (n : Number) : Value := ⟨.number n, .number n⟩

def string (s : String) : Value := ⟨.string s, .string s⟩

/-- `Value::Object(map)`. -/
def ofObject (m : SortedMap String Value) : Value :=
  ⟨.object (m.entries.map fun e => (e.1, e.2.json)), .object m.sorted.map (by
    intro e he
    rcases List.mem_map.mp he with ⟨f, _, rfl⟩
    exact f.2.canonical)⟩

/-- The document `{ k₁: v₁, ... }`. -/
def object (fields : List (String × Value)) : Value := ofObject (SortedMap.ofList fields)

/-- The members of a canonical object are sorted by their keys. -/
theorem sorted_of_canonical {fs : List (String × Json)} (h : (Json.object fs).Canonical) :
    Assoc.Sorted fs := by
  cases h with
  | object hs _ => exact hs

theorem fields_of_canonical {fs : List (String × Json)} (h : (Json.object fs).Canonical) :
    ∀ e ∈ fs, e.2.Canonical := by
  cases h with
  | object _ hf => exact hf

/-- `as_object`: the map of an object, `none` for any other value. -/
def asObject? : Value → Option (SortedMap String Value)
  | ⟨.object fs, h⟩ =>
    some ⟨fs.pmap (fun e he => (e.1, ⟨e.2, he⟩)) (fields_of_canonical h),
      (sorted_of_canonical h).pmap _ fun _ _ _ _ hlt => hlt⟩
  | _ => none

/-- `is_object`. -/
def isObject (v : Value) : Bool := v.asObject?.isSome

/-- `get` with a string index: `None` unless the value is an object with that key. -/
def get? (v : Value) (k : String) : Option Value := v.asObject?.bind fun m => m.get? k

@[simp] theorem asObject?_ofObject (m : SortedMap String Value) :
    (ofObject m).asObject? = some m := by
  refine congrArg some (SortedMap.entries_injective ?_)
  show List.pmap _ (m.entries.map _) _ = m.entries
  rw [List.pmap_map]
  exact List.pmap_eq_self.mpr fun _ _ => rfl

/-- The map of an object makes up that object. -/
theorem ofObject_asObject? {v : Value} {m : SortedMap String Value} (h : v.asObject? = some m) :
    ofObject m = v := by
  rcases v with ⟨j, hj⟩
  cases j with
  | object fs =>
    injection h with hm
    subst hm
    apply json_injective
    show Json.object (List.map _ (List.pmap _ fs _)) = Json.object fs
    rw [List.map_pmap]
    simp
  | _ => cases h

/-- A value has a map exactly if it is the object of that map. -/
theorem asObject?_eq_some_iff {v : Value} {m : SortedMap String Value} :
    v.asObject? = some m ↔ v = ofObject m :=
  ⟨fun h => (ofObject_asObject? h).symm, fun h => h ▸ asObject?_ofObject m⟩

@[simp] theorem isObject_ofObject (m : SortedMap String Value) : (ofObject m).isObject = true := by
  rw [isObject, asObject?_ofObject]
  rfl

/-- Being an object is being the object of some map. -/
theorem isObject_iff {v : Value} : v.isObject = true ↔ ∃ m, v = ofObject m := by
  rw [isObject, Option.isSome_iff_exists]
  exact exists_congr fun m => asObject?_eq_some_iff

@[simp] theorem get?_ofObject (m : SortedMap String Value) (k : String) :
    (ofObject m).get? k = m.get? k := by
  rw [get?, asObject?_ofObject]
  rfl

/-- Only objects have members. -/
theorem isObject_of_get? {v c : Value} {k : String} (h : v.get? k = some c) :
    v.isObject = true := by
  rcases Option.bind_eq_some_iff.mp h with ⟨m, hm, _⟩
  exact isObject_iff.mpr ⟨m, asObject?_eq_some_iff.mp hm⟩

/-- Anything else has none. -/
theorem get?_of_not_object {v : Value} (h : ¬ v.isObject = true) (k : String) :
    v.get? k = none := by
  cases hg : v.get? k with
  | none => rfl
  | some c => exact absurd (isObject_of_get? hg) h

/-- Two objects with the same members are equal. -/
theorem object_ext {v w : Value} (hv : v.isObject = true) (hw : w.isObject = true)
    (h : ∀ k, v.get? k = w.get? k) : v = w := by
  rcases isObject_iff.mp hv with ⟨m, rfl⟩
  rcases isObject_iff.mp hw with ⟨n, rfl⟩
  simp only [get?_ofObject] at h
  rw [SortedMap.ext h]

/-- A member of an object is a member of its raw tree. -/
theorem get?_mk_object {fs : List (String × Json)} (h : (Json.object fs).Canonical) (k : String) :
    (get? ⟨.object fs, h⟩ k).map json = Assoc.get? k fs := by
  show Option.map json (Assoc.get? k (fs.pmap _ _)) = _
  rw [← Assoc.get?_map json, List.map_pmap]
  simp

/-- Induction over a document: a property of every value follows if it passes
from the members of an object to the object. -/
@[elab_as_elim] theorem induction {P : Value → Prop}
    (leaf : ∀ v, ¬ v.isObject = true → P v)
    (object : ∀ v, v.isObject = true → (∀ k c, v.get? k = some c → P c) → P v) (v : Value) :
    P v := by
  rcases v with ⟨j, hj⟩
  induction hj with
  | object hs hf ih =>
    refine object _ rfl fun k c hc => ?_
    have hraw := get?_mk_object (.object hs hf) k
    rw [hc] at hraw
    exact ih _ (Assoc.mem_of_get? hraw.symm)
  | _ => exact leaf _ (by simp [isObject, asObject?])

end Value

end AviNet
