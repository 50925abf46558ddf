import AviNet.Json
import Mathlib.Logic.Equiv.Defs

/-!
# Serde — data types as JSON values

What the implementations derived by serde make of a type: `Serialize` into a
`serde_json::Value` and `Deserialize` from one. A `Codec` is the pair, built
along the type as the derive builds it; `ReadsBack` says of one value that it
survives the way there and back.

* `integer`, `float`, `option`, `list`, `map`, ..: the types of the language;
* `struct`: a struct, as an object or as an array of its fields;
* `tagged`: an enum whose variant is named by a field;
* `readsBack_*_iff`: a value is read back if its parts are.
-/

namespace AviNet

/-! ## The shape of a value -/

/-- A value by its outermost constructor. -/
inductive Shape where
  | null
  | bool (b : Bool)
  | number (n : Number)
  | string (s : String)
  | array (elems : List Value)
  | object (m : SortedMap String Value)

namespace Value

/-- `Value::Array(vec)`. -/
def array (elems : List Value) : Value :=
  ⟨.array (elems.map json), .array (by
    intro e he
    rcases List.mem_map.mp he with ⟨v, _, rfl⟩
    exact v.canonical)⟩

/-- The elements of a canonical array are canonical. -/
theorem elems_of_canonical {es : List Json} (h : (Json.array es).Canonical) :
    ∀ e ∈ es, e.Canonical := by
  cases h with
  | array he => exact he

def shape : Value → Shape
  | ⟨.null, _⟩ => .null
  | ⟨.bool b, _⟩ => .bool b
  | ⟨.number n, _⟩ => .number n
  | ⟨.string s, _⟩ => .string s
  | ⟨.array es, h⟩ => .array (es.pmap (fun e he => ⟨e, he⟩) (elems_of_canonical h))
  | ⟨.object fs, h⟩ => .object ((asObject? ⟨.object fs, h⟩).getD .empty)

@[simp] theorem shape_null : shape null = .null := rfl

@[simp] theorem shape_bool (b : Bool) : shape (bool b) = .bool b := rfl

@[simp] theorem shape_number (n : Number) : shape (number n) = .number n := rfl

@[simp] theorem shape_string (s : String) : shape (string s) = .string s := rfl

@[simp] theorem shape_array (vs : List Value) : shape (array vs) = .array vs := by
  refine congrArg Shape.array ?_
  rw [List.pmap_map]
  exact List.pmap_eq_self.mpr fun _ _ => rfl

@[simp] theorem shape_ofObject (m : SortedMap String Value) : shape (ofObject m) = .object m := by
  show Shape.object ((asObject? (ofObject m)).getD .empty) = .object m
  rw [asObject?_ofObject, Option.getD_some]

end Value

/-! ## Numbers -/

namespace Number

/-- `Number::from`, for an `i64` or a `u64`. -/
def ofInt (i : ℤ) : Number :=
  if 0 ≤ i then .posInt (UInt64.ofNat i.toNat) else .negInt (Int64.ofInt i)

/-- The integer that a visitor is shown, `none` for a float. -/
def asInt? : Number → Option ℤ
  | .posInt n => some n.toNat
  | .negInt n => some n.toInt
  | .float _ => none

/-- An integer between `i64::MIN` and `u64::MAX` is read back from the number serde_json holds. -/
theorem asInt?_ofInt {i : ℤ} (hlo : -(2 ^ 63 : ℕ) ≤ i) (hhi : i < (2 ^ 64 : ℕ)) :
    (ofInt i).asInt? = some i := by
  unfold ofInt
  split_ifs with h
  · have hn : (UInt64.ofNat i.toNat).toNat = i.toNat := by
      rw [UInt64.toNat_ofNat']
      omega
    show some ((UInt64.ofNat i.toNat).toNat : ℤ) = some i
    rw [hn, Int.toNat_of_nonneg h]
  · show some (Int64.ofInt i).toInt = some i
    rw [Int64.toInt_ofInt_of_le (by omega) (by omega)]

end Number

/-- A float type, as `serde_json` treats it. -/
structure JsonFloat (F : Type) where
  /-- `Number::from_f32`, `Number::from_f64`: `none` for NaN and the infinities -/
  toNumber : F → Option Number
  /-- what a visitor makes of any number -/
  ofNumber : Number → F
  ofNumber_toNumber : ∀ x n, toNumber x = some n → ofNumber n = x

def JsonFloat.IsFinite {F : Type} (J : JsonFloat F) (x : F) : Prop := (J.toNumber x).isSome = true

/-! ## Codecs -/

/-- `Serialize` and `Deserialize` of a type. -/
structure Codec (α : Type) where
  /-- `serde_json::to_value` -/
  toValue : α → Value
  /-- `serde_json::from_value`, `none` for an error -/
  fromValue : Value → Option α
  /-- what is made of a field that the object does not have -/
  missing : Option α := none

namespace Codec

variable {α β : Type}

/-- The value that has been written is read. -/
def ReadsBack (c : Codec α) (a : α) : Prop := c.fromValue (c.toValue a) = some a

/-! ### Scalars -/

def bool : Codec Bool where
  toValue := .bool
  fromValue v :=
    match v.shape with
    | .bool b => some b
    | _ => none

def string : Codec String where
  toValue := .string
  fromValue v :=
    match v.shape with
    | .string s => some s
    | _ => none

/-- An integer type, whose values are those from `lo` up to `hi`. -/
def integer (toInt : α → ℤ) (lo hi : ℤ) (ofInt : ℤ → α) : Codec α where
  toValue a := .number (Number.ofInt (toInt a))
  fromValue v :=
    match v.shape with
    -- the visitor checks the range, and takes no float
    | .number n => n.asInt?.bind fun i => if lo ≤ i ∧ i < hi then some (ofInt i) else none
    | _ => none

def unsigned (toNat : α → ℕ) (bits : ℕ) (ofNat : ℕ → α) : Codec α :=
  integer (fun a => toNat a) 0 (2 ^ bits : ℕ) fun i => ofNat i.toNat

def u8 : Codec UInt8 := unsigned UInt8.toNat 8 UInt8.ofNat

def u16 : Codec UInt16 := unsigned UInt16.toNat 16 UInt16.ofNat

def u32 : Codec UInt32 := unsigned UInt32.toNat 32 UInt32.ofNat

def u64 : Codec UInt64 := unsigned UInt64.toNat 64 UInt64.ofNat

def i8 : Codec Int8 := integer Int8.toInt (-(2 ^ 7 : ℕ)) (2 ^ 7 : ℕ) Int8.ofInt

/-- A float that is not finite is written as `null`; every number is read. -/
def float {F : Type} (J : JsonFloat F) : Codec F where
  toValue x :=
    match J.toNumber x with
    | some n => .number n
    | none => .null
  fromValue v :=
    match v.shape with
    | .number n => some (J.ofNumber n)
    | _ => none

/-- `serde_json::Value` itself. -/
def value : Codec Value where
  toValue := id
  fromValue := some

/-! ### Containers -/

/-- `Option`: `null` for `None`. -/
def option (c : Codec α) : Codec (Option α) where
  toValue
    | some a => c.toValue a
    | none => .null
  fromValue v :=
    match v.shape with
    -- whatever the type itself reads from `null`
    | .null => some none
    | _ => (c.fromValue v).map some
  missing := some none

/-- `Vec`. -/
def list (c : Codec α) : Codec (List α) where
  toValue as := .array (as.map c.toValue)
  fromValue v :=
    match v.shape with
    | .array vs => vs.mapM c.fromValue
    | _ => none

/-- A tuple of two. -/
def pair (c : Codec α) (d : Codec β) : Codec (α × β) where
  toValue p := .array [c.toValue p.1, d.toValue p.2]
  fromValue v :=
    match v.shape with
    | .array [x, y] => do
      let a ← c.fromValue x
      let b ← d.fromValue y
      return (a, b)
    | _ => none

/-- `HashMap<String, _>`. -/
def map (c : Codec α) : Codec (SortedMap String α) where
  toValue m := .ofObject (m.map c.toValue)
  fromValue v :=
    match v.shape with
    | .object m => m.traverse c.fromValue
    | _ => none

/-- An enum of variants without fields: a name, or an object with the name over `null`. -/
def names (name : α → String) (ofName? : String → Option α) : Codec α where
  toValue a := .string (name a)
  fromValue v :=
    match v.shape with
    | .string s => ofName? s
    | .object m =>
      -- exactly one member
      match m.entries with
      | [(s, w)] => if w = .null then ofName? s else none
      | _ => none
    | _ => none

/-- `#[serde(untagged)]`: the first variant that can read the value. -/
def untagged (toValue : α → Value) (variants : List (Value → Option α)) : Codec α where
  toValue := toValue
  fromValue v := variants.findSome? fun read => read v

end Codec

/-! ## Structs -/

/-- The fields of a struct or a variant, with the tuple of their types. -/
inductive Fields : Type → Type 1 where
  | nil : Fields Unit
  | field {α ρ : Type} (name : String) (codec : Codec α) (rest : Fields ρ) : Fields (α × ρ)

namespace Fields

def names : {ρ : Type} → Fields ρ → List String
  | _, .nil => []
  | _, .field name _ rest => name :: rest.names

/-- The members of the object. -/
def toMembers : {ρ : Type} → Fields ρ → ρ → List (String × Value)
  | _, .nil, _ => []
  | _, .field name codec rest, (a, r) => (name, codec.toValue a) :: rest.toMembers r

/-- Each field by its name; other members are ignored. -/
def ofMembers (get? : String → Option Value) : {ρ : Type} → Fields ρ → Option ρ
  | _, .nil => some ()
  | _, .field name codec rest => do
    let a ← (get? name).elim codec.missing codec.fromValue
    let r ← rest.ofMembers get?
    return (a, r)

/-- All fields in their order, and nothing else. -/
def ofElems : {ρ : Type} → Fields ρ → List Value → Option ρ
  | _, .nil, [] => some ()
  | _, .field _ codec rest, v :: vs => do
    let a ← codec.fromValue v
    let r ← rest.ofElems vs
    return (a, r)
  | _, _, _ => none

/-- Every field is read back. -/
def ReadsBack : {ρ : Type} → Fields ρ → ρ → Prop
  | _, .nil, _ => True
  | _, .field _ codec rest, (a, r) => codec.ReadsBack a ∧ rest.ReadsBack r

end Fields

/-- A struct: an object with its fields, or an array of them. -/
def Codec.struct {α ρ : Type} (fields : Fields ρ) (parts : α ≃ ρ) : Codec α where
  toValue a := .object (fields.toMembers (parts a))
  fromValue v :=
    match v.shape with
    | .object m => (fields.ofMembers m.get?).map parts.symm
    | .array vs => (fields.ofElems vs).map parts.symm
    | _ => none

/-! ## Tagged enums -/

/-- The variants of an enum, with the sum of their fields' tuples. -/
inductive Variants : Type → Type 1 where
  | nil : Variants Empty
  | variant {ρ σ : Type} (name : String) (fields : Fields ρ) (rest : Variants σ) : Variants (ρ ⊕ σ)

namespace Variants

def names : {σ : Type} → Variants σ → List String
  | _, .nil => []
  | _, .variant name _ rest => name :: rest.names

/-- The name of the variant and the members of its fields. -/
def toMembers : {σ : Type} → Variants σ → σ → String × List (String × Value)
  | _, .variant name fields _, .inl r => (name, fields.toMembers r)
  | _, .variant _ _ rest, .inr s => rest.toMembers s

def ofMembers (tag : String) (get? : String → Option Value) : {σ : Type} → Variants σ → Option σ
  | _, .nil => none
  | _, .variant name fields rest =>
    if tag = name then (fields.ofMembers get?).map Sum.inl
    else (rest.ofMembers tag get?).map Sum.inr

def ofElems (tag : String) (vs : List Value) : {σ : Type} → Variants σ → Option σ
  | _, .nil => none
  | _, .variant name fields rest =>
    if tag = name then (fields.ofElems vs).map Sum.inl
    else (rest.ofElems tag vs).map Sum.inr

/-- Every field of the variant is read back. -/
def ReadsBack : {σ : Type} → Variants σ → σ → Prop
  | _, .variant _ fields _, .inl r => fields.ReadsBack r
  | _, .variant _ _ rest, .inr s => rest.ReadsBack s

end Variants

/-- `#[serde(tag = ...)]`: the name of the variant is a member beside its fields, or
the first element before them. -/
def Codec.tagged {α σ : Type} (tag : String) (variants : Variants σ) (parts : α ≃ σ) :
    Codec α where
  toValue a :=
    .object ((tag, .string (variants.toMembers (parts a)).1) ::
      (variants.toMembers (parts a)).2)
  fromValue v :=
    match v.shape with
    | .object m => do
      let name ← (m.get? tag).bind Codec.string.fromValue
      -- the fields are read from what is left without the tag
      let s ← variants.ofMembers name (m.erase tag).get?
      return parts.symm s
    | .array (first :: rest) => do
      let name ← Codec.string.fromValue first
      let s ← variants.ofElems name rest
      return parts.symm s
    | _ => none

/-! ## What is read back -/

namespace Codec

variable {α β : Type}

section Scalars

@[simp] theorem readsBack_bool (b : Bool) : bool.ReadsBack b := rfl

@[simp] theorem readsBack_string (s : String) : string.ReadsBack s := rfl

@[simp] theorem readsBack_value (v : Value) : value.ReadsBack v := rfl

/-- An integer codec reads back what lies in its range, if that lies in serde_json's. -/
theorem readsBack_integer {toInt : α → ℤ} {lo hi : ℤ} {ofInt : ℤ → α}
    (hlo : -(2 ^ 63 : ℕ) ≤ lo) (hhi : hi ≤ (2 ^ 64 : ℕ)) {a : α}
    (ha : lo ≤ toInt a ∧ toInt a < hi) (hinv : ofInt (toInt a) = a) :
    (integer toInt lo hi ofInt).ReadsBack a := by
  have hnumber : (Number.ofInt (toInt a)).asInt? = some (toInt a) := by
    apply Number.asInt?_ofInt
    · omega
    · omega
  show (Number.ofInt (toInt a)).asInt?.bind _ = some a
  rw [hnumber, Option.bind_some, if_pos ha, hinv]

/-- The case of the unsigned types, of at most 64 bits. -/
theorem readsBack_unsigned {toNat : α → ℕ} {bits : ℕ} {ofNat : ℕ → α} (hbits : bits ≤ 64)
    {a : α} (ha : toNat a < 2 ^ bits) (hinv : ofNat (toNat a) = a) :
    (unsigned toNat bits ofNat).ReadsBack a := by
  have hwidth : 2 ^ bits ≤ 2 ^ 64 := Nat.pow_le_pow_right (by omega) hbits
  refine readsBack_integer (by omega) (by omega) ?_ ?_
  · constructor
    · omega
    · omega
  · rw [Int.toNat_natCast, hinv]

@[simp] theorem readsBack_u8 (n : UInt8) : u8.ReadsBack n :=
  readsBack_unsigned (by omega) n.toNat_lt UInt8.ofNat_toNat

@[simp] theorem readsBack_u16 (n : UInt16) : u16.ReadsBack n :=
  readsBack_unsigned (by omega) n.toNat_lt UInt16.ofNat_toNat

@[simp] theorem readsBack_u32 (n : UInt32) : u32.ReadsBack n :=
  readsBack_unsigned (by omega) n.toNat_lt UInt32.ofNat_toNat

@[simp] theorem readsBack_u64 (n : UInt64) : u64.ReadsBack n :=
  readsBack_unsigned (by omega) n.toNat_lt UInt64.ofNat_toNat

@[simp] theorem readsBack_i8 (n : Int8) : i8.ReadsBack n := by
  have hlo := n.le_toInt
  have hhi := n.toInt_lt
  refine readsBack_integer (by omega) (by omega) ?_ ?_
  · exact ⟨hlo, hhi⟩
  · exact Int8.ofInt_toInt n

/-- Only a finite float is written as a number. -/
@[simp] theorem readsBack_float_iff {F : Type} (J : JsonFloat F) (x : F) :
    (float J).ReadsBack x ↔ J.IsFinite x := by
  unfold ReadsBack JsonFloat.IsFinite
  cases hx : J.toNumber x with
  | none =>
    -- `null`, which is no number
    have hwritten : (float J).toValue x = .null := by
      simp only [float, hx]
    rw [hwritten]
    simp [float]
  | some n =>
    have hwritten : (float J).toValue x = .number n := by
      simp only [float, hx]
    rw [hwritten]
    simp [float, J.ofNumber_toNumber x n hx]

end Scalars

/-! ### Containers -/

@[simp] theorem readsBack_option_none (c : Codec α) : (option c).ReadsBack none := rfl

/-- `Some` is told from `None` if the type reads nothing from `null`. -/
theorem readsBack_option_some_iff {c : Codec α} (hnull : c.fromValue .null = none) (a : α) :
    (option c).ReadsBack (some a) ↔ c.ReadsBack a := by
  have hread : (option c).fromValue (c.toValue a) =
      if c.toValue a = .null then some none else (c.fromValue (c.toValue a)).map some := by
    unfold option
    split_ifs with h
    · rw [h]
      rfl
    · rcases hv : c.toValue a with ⟨j, hj⟩
      cases j with
      | null => exact absurd hv h
      | _ => rfl
  show (option c).fromValue (c.toValue a) = some (some a) ↔ c.fromValue (c.toValue a) = some a
  rw [hread]
  split_ifs with h
  · rw [h, hnull]
    simp
  · simp

/-- An option is read back if its value is. -/
theorem readsBack_option_iff {c : Codec α} (hnull : c.fromValue .null = none) (o : Option α) :
    (option c).ReadsBack o ↔ ∀ a, o = some a → c.ReadsBack a := by
  cases o with
  | none => simp
  | some a => simp [readsBack_option_some_iff hnull]

/-- A sequence is read element by element; the first refusal refuses the whole. -/
theorem fromValue_list_array (c : Codec α) (vs : List Value) :
    (list c).fromValue (.array vs) = vs.mapM c.fromValue := by
  simp only [list, Value.shape_array]

/-- A sequence is read back exactly if each of its elements is. -/
@[simp] theorem readsBack_list_iff (c : Codec α) (as : List α) :
    (list c).ReadsBack as ↔ ∀ a ∈ as, c.ReadsBack a := by
  unfold ReadsBack
  show (list c).fromValue (.array (as.map c.toValue)) = some as ↔ _
  rw [fromValue_list_array]
  induction as with
  | nil => simp
  | cons a as ih =>
    rw [List.map_cons, List.mapM_cons, List.forall_mem_cons]
    constructor
    · intro h
      obtain ⟨b, hb, hrest⟩ := Option.bind_eq_some_iff.mp h
      obtain ⟨bs, hbs, heq⟩ := Option.bind_eq_some_iff.mp hrest
      obtain ⟨rfl, rfl⟩ := List.cons.inj (Option.some.inj heq)
      exact ⟨hb, ih.mp hbs⟩
    · rintro ⟨ha, has⟩
      have hbs := ih.mpr has
      rw [ha, hbs]
      rfl

/-- A tuple of two is read from an array of two, part by part. -/
theorem fromValue_pair_array (c : Codec α) (d : Codec β) (x y : Value) :
    (pair c d).fromValue (.array [x, y]) =
      (c.fromValue x).bind fun a => (d.fromValue y).bind fun b => some (a, b) := by
  simp only [pair, Value.shape_array]
  rfl

/-- A tuple is read back exactly if both of its parts are. -/
@[simp] theorem readsBack_pair_iff (c : Codec α) (d : Codec β) (p : α × β) :
    (pair c d).ReadsBack p ↔ c.ReadsBack p.1 ∧ d.ReadsBack p.2 := by
  unfold ReadsBack
  show (pair c d).fromValue (.array [c.toValue p.1, d.toValue p.2]) = some p ↔ _
  rw [fromValue_pair_array]
  constructor
  · intro h
    obtain ⟨a, ha, hrest⟩ := Option.bind_eq_some_iff.mp h
    obtain ⟨b, hb, heq⟩ := Option.bind_eq_some_iff.mp hrest
    have hp := Option.some.inj heq
    rw [← hp] at ha hb ⊢
    exact ⟨ha, hb⟩
  · rintro ⟨ha, hb⟩
    rw [ha, hb]
    rfl

/-- A map is read member by member; the first refusal refuses the whole. -/
theorem fromValue_map_ofObject (c : Codec α) (m : SortedMap String Value) :
    (map c).fromValue (.ofObject m) = m.traverse c.fromValue := by
  simp only [map, Value.shape_ofObject]

/-- A map is read back exactly if the value of each of its keys is. -/
@[simp] theorem readsBack_map_iff (c : Codec α) (m : SortedMap String α) :
    (map c).ReadsBack m ↔ ∀ k a, m.get? k = some a → c.ReadsBack a := by
  have hread : (map c).fromValue ((map c).toValue m) = (m.map c.toValue).traverse c.fromValue :=
    fromValue_map_ofObject c _
  unfold ReadsBack
  rw [hread, SortedMap.traverse_eq_some_iff]
  constructor
  · intro h k a ha
    have hk := h k
    rw [SortedMap.get?_map, ha] at hk
    exact Option.some.inj hk
  · intro h k
    rw [SortedMap.get?_map]
    cases ha : m.get? k with
    | none => rfl
    | some a => exact congrArg some (h k a ha)

/-! ### Untagged enums -/

section Untagged

variable {toValue : α → Value} {read : Value → Option α} {reads : List (Value → Option α)}
  {v : Value}

/-- An untagged enum goes on to the next variant where one refuses. -/
theorem fromValue_untagged_of_none (h : read v = none) :
    (untagged toValue (read :: reads)).fromValue v = (untagged toValue reads).fromValue v := by
  show ((read :: reads).findSome? fun read => read v) = reads.findSome? fun read => read v
  rw [List.findSome?_cons, h]

/-- An untagged enum takes the first variant that accepts. -/
theorem fromValue_untagged_of_some {a : α} (h : read v = some a) :
    (untagged toValue (read :: reads)).fromValue v = some a := by
  show ((read :: reads).findSome? fun read => read v) = some a
  rw [List.findSome?_cons, h]

end Untagged

end Codec

/-! ### Structs -/

namespace Fields

attribute [simp] names ReadsBack

/-- A struct is written under the names of its fields, in their order. -/
theorem map_fst_toMembers {ρ : Type} (fields : Fields ρ) (r : ρ) :
    (fields.toMembers r).map Prod.fst = fields.names := by
  induction fields with
  | nil => rfl
  | field name codec rest ih => exact congrArg (name :: ·) (ih r.2)

/-- Fields found under their names are read one by one. -/
theorem ofMembers_eq_some_iff {ρ : Type} {get? : String → Option Value} (fields : Fields ρ)
    {r : ρ} (h : ∀ e ∈ fields.toMembers r, get? e.1 = some e.2) :
    fields.ofMembers get? = some r ↔ fields.ReadsBack r := by
  -- one field at a time: the first is found, the others are by assumption
  induction fields with
  | nil => simp [ofMembers, ReadsBack]
  | field name codec rest ih =>
    rcases r with ⟨a, r⟩
    have hfirst : get? name = some (codec.toValue a) :=
      h (name, codec.toValue a) List.mem_cons_self
    have hrest := ih (r := r) fun e he => h e (List.mem_cons_of_mem _ he)
    unfold ofMembers ReadsBack
    rw [hfirst, ← hrest]
    constructor
    · intro hread
      obtain ⟨a', ha, hread⟩ := Option.bind_eq_some_iff.mp hread
      obtain ⟨r', hr, heq⟩ := Option.bind_eq_some_iff.mp hread
      obtain ⟨rfl, rfl⟩ := Prod.mk.inj (Option.some.inj heq)
      exact ⟨ha, hr⟩
    · rintro ⟨ha, hr⟩
      have ha : codec.fromValue (codec.toValue a) = some a := ha
      rw [Option.elim_some, ha, hr]
      rfl

end Fields

/-- The parts that are read are those of the value that is read. -/
theorem Codec.map_symm_eq_some_iff {α ρ : Type} (parts : α ≃ ρ) {o : Option ρ} {a : α} :
    o.map parts.symm = some a ↔ o = some (parts a) := by
  rw [Option.map_eq_some_iff]
  constructor
  · rintro ⟨r, hr, heq⟩
    have hsame : parts a = r := by
      rw [← heq, Equiv.apply_symm_apply]
    rw [hr, hsame]
  · intro h
    exact ⟨parts a, h, parts.symm_apply_apply a⟩

/-- A struct is read from the members of an object, whatever their order there. -/
theorem Codec.fromValue_struct_ofObject {α ρ : Type} (fields : Fields ρ) (parts : α ≃ ρ)
    (m : SortedMap String Value) : (Codec.struct fields parts).fromValue (.ofObject m) =
      (fields.ofMembers m.get?).map parts.symm := by
  simp only [Codec.struct, Value.shape_ofObject]

/-- A struct is read back if its fields are, which have different names. -/
theorem Codec.readsBack_struct_iff {α ρ : Type} {fields : Fields ρ} (parts : α ≃ ρ)
    (hnames : fields.names.Nodup) (a : α) :
    (Codec.struct fields parts).ReadsBack a ↔ fields.ReadsBack (parts a) := by
  have hread : (Codec.struct fields parts).fromValue ((Codec.struct fields parts).toValue a) =
      (fields.ofMembers (SortedMap.ofList (fields.toMembers (parts a))).get?).map parts.symm :=
    fromValue_struct_ofObject fields parts _
  have hfound : ∀ e ∈ fields.toMembers (parts a),
      (SortedMap.ofList (fields.toMembers (parts a))).get? e.1 = some e.2 := by
    intro e he
    refine SortedMap.get?_ofList ?_ he
    rwa [Fields.map_fst_toMembers]
  unfold ReadsBack
  rw [hread, ← fields.ofMembers_eq_some_iff hfound, map_symm_eq_some_iff]

/-! ### Tagged enums -/

namespace Variants

/-- The fields of each variant have different names, none of them the tag. -/
def Wellformed (tag : String) : {σ : Type} → Variants σ → Prop
  | _, .nil => True
  | _, .variant _ fields rest => (tag :: fields.names).Nodup ∧ rest.Wellformed tag

attribute [simp] names ReadsBack Wellformed

/-- A variant is written under one of the enum's names. -/
theorem mem_names {σ : Type} (variants : Variants σ) (s : σ) :
    (variants.toMembers s).1 ∈ variants.names := by
  induction variants with
  | nil => exact s.elim
  | variant name fields rest ih =>
    rcases s with r | s
    · exact List.mem_cons_self
    · exact List.mem_cons_of_mem _ (ih s)

/-- The tag and the fields of a variant are different members, if the enum is well formed. -/
theorem nodup_toMembers {σ : Type} {tag : String} (variants : Variants σ) (s : σ)
    (h : variants.Wellformed tag) :
    (tag :: (variants.toMembers s).2.map Prod.fst).Nodup := by
  induction variants with
  | nil => exact s.elim
  | variant name fields rest ih =>
    rcases s with r | s
    · show (tag :: (fields.toMembers r).map Prod.fst).Nodup
      rw [Fields.map_fst_toMembers]
      exact h.1
    · exact ih s h.2

/-- The name leads back to the variant. -/
theorem ofMembers_eq_some_iff {σ : Type} {get? : String → Option Value} (variants : Variants σ)
    (hnames : variants.names.Nodup) {s : σ}
    (h : ∀ e ∈ (variants.toMembers s).2, get? e.1 = some e.2) :
    variants.ofMembers (variants.toMembers s).1 get? = some s ↔ variants.ReadsBack s := by
  induction variants with
  | nil => exact s.elim
  | variant name fields rest ih =>
    have hsplit := List.nodup_cons.mp hnames
    rcases s with r | s
    · -- the first variant has this name
      have hread : (variant name fields rest).ofMembers name get? =
          (fields.ofMembers get?).map Sum.inl := if_pos rfl
      show (variant name fields rest).ofMembers name get? = some (Sum.inl r) ↔ fields.ReadsBack r
      rw [hread, ← fields.ofMembers_eq_some_iff h, Option.map_eq_some_iff]
      simp
    · -- a later one has another
      have hne : (rest.toMembers s).1 ≠ name := by
        intro heq
        exact hsplit.1 (heq ▸ rest.mem_names s)
      have hread : (variant name fields rest).ofMembers (rest.toMembers s).1 get? =
          (rest.ofMembers (rest.toMembers s).1 get?).map Sum.inr := if_neg hne
      show (variant name fields rest).ofMembers (rest.toMembers s).1 get? = some (Sum.inr s) ↔
        rest.ReadsBack s
      rw [hread, ← ih hsplit.2 h, Option.map_eq_some_iff]
      simp

end Variants

/-- The name under the tag, then the other members. -/
theorem Codec.fromValue_tagged_ofObject {α σ : Type} {tag : String} (variants : Variants σ)
    (parts : α ≃ σ) {m : SortedMap String Value} {name : String}
    (h : m.get? tag = some (.string name)) :
    (Codec.tagged tag variants parts).fromValue (.ofObject m) =
      (variants.ofMembers name (m.erase tag).get?).map parts.symm := by
  have hname : Codec.string.fromValue (.string name) = some name := rfl
  simp only [Codec.tagged, Value.shape_ofObject, h, Option.bind_some, hname]
  rw [Option.map_eq_bind]
  rfl

/-- A variant is read back if its fields are. -/
theorem Codec.readsBack_tagged_iff {α σ : Type} {tag : String} {variants : Variants σ}
    (parts : α ≃ σ) (hnames : variants.names.Nodup) (hfields : variants.Wellformed tag) (a : α) :
    (Codec.tagged tag variants parts).ReadsBack a ↔ variants.ReadsBack (parts a) := by
  -- the members under the name of the variant
  let name := (variants.toMembers (parts a)).1
  let members := (variants.toMembers (parts a)).2
  let m := SortedMap.ofList ((tag, Value.string name) :: members)
  have hnodup : (tag :: members.map Prod.fst).Nodup := variants.nodup_toMembers (parts a) hfields
  have hkeys : (((tag, Value.string name) :: members).map Prod.fst).Nodup := hnodup
  have hstored : ∀ e ∈ (tag, Value.string name) :: members, m.get? e.1 = some e.2 :=
    fun e he => SortedMap.get?_ofList hkeys he
  have htag : m.get? tag = some (.string name) := hstored _ List.mem_cons_self
  have hfound : ∀ e ∈ members, (m.erase tag).get? e.1 = some e.2 := by
    intro e he
    have hne : e.1 ≠ tag := by
      intro heq
      exact (List.nodup_cons.mp hnodup).1 (heq ▸ List.mem_map_of_mem he)
    rw [SortedMap.get?_erase, if_neg hne]
    exact hstored e (List.mem_cons_of_mem _ he)
  have hread : (Codec.tagged tag variants parts).fromValue
      ((Codec.tagged tag variants parts).toValue a) =
        (variants.ofMembers name (m.erase tag).get?).map parts.symm :=
    fromValue_tagged_ofObject variants parts htag
  unfold ReadsBack
  rw [hread, ← variants.ofMembers_eq_some_iff hnames hfound, map_symm_eq_some_iff]

end AviNet
