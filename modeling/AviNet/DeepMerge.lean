import AviNet.Json
import AviNet.Lib.PathDoc

/-!
# DeepMerge — `deep_merge` and the document a value stands for

1. **Code**: the recursive merge of `protocols/context.rs`, on raw trees and
   lifted to `Value` (it keeps objects canonical).
2. **Reading**: `Value.at?` walks a value along a key path; `Value.doc` is the
   abstract document with one node for each path.
3. **Refinement**: `doc_deepMerge_true`, `doc_deepMerge_false`. The preferred
   side is laid over the other one, so every law of `PathDoc.onto` is a law of
   `deep_merge`.
-/

namespace AviNet

/-! ## The code -/

mutual

/-- `deep_merge(a, b, prefer_a)`, returning the new value of `a`. -/
def Json.deepMerge : Json → Json → Bool → Json
  | .object aObj, .object bObj, preferA => .object (Json.deepMergeFields aObj bObj preferA)
  | aVal, bVal, preferA => if !preferA then bVal else aVal

/-- The loop `for (k, v) in b_obj`. -/
def Json.deepMergeFields (aObj : List (String × Json)) :
    List (String × Json) → Bool → List (String × Json)
  | [], _ => aObj
  | (k, v) :: bObj, preferA =>
    Json.deepMergeFields
      (match Assoc.get? k aObj with
        | some aVal => Assoc.insert k (Json.deepMerge aVal v preferA) aObj
        | none => Assoc.insert k v aObj)
      bObj preferA

end

namespace Json

/-- What one turn of the loop makes of the entry for its key. -/
def mergeEntry (preferA : Bool) : Option Json → Json → Option Json
  | some aVal, v => some (aVal.deepMerge v preferA)
  | none, v => some v

/-- One turn of the loop. -/
def mergeField (preferA : Bool) (acc : List (String × Json)) (e : String × Json) :
    List (String × Json) :=
  match Assoc.get? e.1 acc with
  | some aVal => Assoc.insert e.1 (aVal.deepMerge e.2 preferA) acc
  | none => Assoc.insert e.1 e.2 acc

/-- The loop over the members of the second object is a fold. -/
theorem deepMergeFields_eq_foldl (aObj bObj : List (String × Json)) (preferA : Bool) :
    deepMergeFields aObj bObj preferA = bObj.foldl (mergeField preferA) aObj := by
  induction bObj generalizing aObj with
  | nil => simp only [deepMergeFields, List.foldl_nil]
  | cons e bObj ih =>
    rcases e with ⟨k, v⟩
    rw [deepMergeFields, List.foldl_cons, ih]
    rfl

/-- The merged object, key by key. -/
theorem get?_deepMergeFields (aObj : List (String × Json)) {bObj : List (String × Json)}
    (hb : Assoc.Sorted bObj) (preferA : Bool) (k : String) :
    Assoc.get? k (deepMergeFields aObj bObj preferA) =
      (Assoc.get? k bObj).elim (Assoc.get? k aObj) (mergeEntry preferA (Assoc.get? k aObj)) := by
  rw [deepMergeFields_eq_foldl]
  refine Assoc.get?_foldl (fun j acc => Assoc.get? j acc) _ (mergeEntry preferA) ?_ hb aObj k
  intro acc k v j
  unfold mergeField
  cases hk : Assoc.get? k acc with
  | none => rw [Assoc.get?_insert]; rfl
  | some w => rw [Assoc.get?_insert]; rfl

/-- The merged members stay sorted by their keys. -/
theorem sorted_deepMergeFields {aObj bObj : List (String × Json)} (ha : Assoc.Sorted aObj)
    (preferA : Bool) : Assoc.Sorted (deepMergeFields aObj bObj preferA) := by
  induction bObj generalizing aObj with
  | nil => rwa [deepMergeFields]
  | cons e bObj ih =>
    rcases e with ⟨k, v⟩
    rw [deepMergeFields]
    split
    · exact ih ha.insert
    · exact ih ha.insert

/-- Anything but two objects: the preferred side is the result. -/
theorem deepMerge_eq_ite {a b : Json} (h : ∀ x y, ¬ (a = .object x ∧ b = .object y))
    (preferA : Bool) : a.deepMerge b preferA = if !preferA then b else a := by
  cases a with
  | object x =>
    cases b with
    | object y => exact absurd ⟨rfl, rfl⟩ (h x y)
    | _ => rw [deepMerge]; nofun
  | _ => rw [deepMerge]; nofun

/-- Merging keeps every object canonical. -/
theorem canonical_deepMerge {a b : Json} (ha : a.Canonical) (hb : b.Canonical)
    (preferA : Bool) : (a.deepMerge b preferA).Canonical := by
  induction ha generalizing b with
  | @object aObj has haf ih =>
    -- the members of both objects, key by key
    cases hb with
    | @object bObj hbs hbf =>
      rw [deepMerge]
      refine .object (sorted_deepMergeFields has preferA) fun e he => ?_
      have hget := Assoc.get?_of_mem (sorted_deepMergeFields has preferA) he
      rw [get?_deepMergeFields _ hbs] at hget
      -- a key that only the first has
      cases hv : Assoc.get? e.1 bObj with
      | none =>
        rw [hv] at hget
        exact haf _ (Assoc.mem_of_get? hget)
      | some v =>
        rw [hv] at hget
        have hv' := Assoc.mem_of_get? hv
        -- a key that only the second has, or both
        cases hw : Assoc.get? e.1 aObj with
        | none =>
          rw [hw] at hget
          rw [← Option.some.inj hget]
          exact hbf _ hv'
        | some w =>
          rw [hw] at hget
          rw [← Option.some.inj hget]
          exact ih _ (Assoc.mem_of_get? hw) (hbf _ hv')
    | _ =>
      -- an object against something else
      rw [deepMerge_eq_ite (by simp)]
      split
      · constructor <;> assumption
      · exact .object has haf
  | array hes =>
    rw [deepMerge_eq_ite (by simp)]
    split
    · exact hb
    · exact .array hes
  | _ =>
    rw [deepMerge_eq_ite (by simp)]
    split
    · exact hb
    · constructor

end Json

namespace Value

/-- `deep_merge(a, b, prefer_a)`, returning the new value of `a`. -/
def deepMerge (a b : Value) (preferA : Bool) : Value :=
  ⟨a.json.deepMerge b.json preferA, Json.canonical_deepMerge a.canonical b.canonical preferA⟩

/-- `merge_json(a, b)`, returning the new value of `a`. -/
def mergeJson (a b : Value) : Value := a.deepMerge b false

/-- A value is an object exactly if its JSON is. -/
theorem isObject_eq_json {v : Value} : v.isObject = true ↔ ∃ fs, v.json = .object fs := by
  rcases v with ⟨j, hj⟩
  cases j <;> simp [isObject, asObject?]

/-- A member of an object is found in its JSON under the same key. -/
theorem get?_json (v : Value) {fs : List (String × Json)} (h : v.json = .object fs)
    (k : String) : (v.get? k).map json = Assoc.get? k fs := by
  rcases v with ⟨j, hj⟩
  cases (show j = .object fs from h)
  exact get?_mk_object hj k

/-- Unless both are objects, the preferred side wins whole. -/
theorem deepMerge_of_not_objects {a b : Value} (h : ¬ (a.isObject = true ∧ b.isObject = true))
    (preferA : Bool) : a.deepMerge b preferA = if preferA then a else b := by
  apply json_injective
  show a.json.deepMerge b.json preferA = _
  rw [Json.deepMerge_eq_ite fun x y hxy =>
    h ⟨isObject_eq_json.mpr ⟨x, hxy.1⟩, isObject_eq_json.mpr ⟨y, hxy.2⟩⟩]
  cases preferA <;> rfl

/-- Two objects merge to an object. -/
theorem isObject_deepMerge {a b : Value} (ha : a.isObject = true) (hb : b.isObject = true)
    (preferA : Bool) : (a.deepMerge b preferA).isObject = true := by
  rcases isObject_eq_json.mp ha with ⟨x, hx⟩
  rcases isObject_eq_json.mp hb with ⟨y, hy⟩
  refine isObject_eq_json.mpr ⟨Json.deepMergeFields x y preferA, ?_⟩
  show a.json.deepMerge b.json preferA = _
  rw [hx, hy, Json.deepMerge]

/-- Two objects are merged key by key. -/
theorem get?_deepMerge {a b : Value} (ha : a.isObject = true) (hb : b.isObject = true)
    (preferA : Bool) (k : String) :
    (a.deepMerge b preferA).get? k =
      match a.get? k, b.get? k with
      | some v, some w => some (v.deepMerge w preferA)
      | some v, none => some v
      | none, o => o := by
  rcases isObject_eq_json.mp ha with ⟨x, hx⟩
  rcases isObject_eq_json.mp hb with ⟨y, hy⟩
  have hys : Assoc.Sorted y := sorted_of_canonical (hy ▸ b.canonical)
  have hmerged : (a.deepMerge b preferA).json =
      .object (Json.deepMergeFields x y preferA) := by
    show a.json.deepMerge b.json preferA = _
    rw [hx, hy, Json.deepMerge]
  apply Option.map_injective json_injective
  rw [get?_json _ hmerged, Json.get?_deepMergeFields _ hys, ← get?_json a hx, ← get?_json b hy]
  cases a.get? k <;> cases b.get? k <;> rfl

/-! ## Reading along paths -/

/-- The value a walk along the keys finds. -/
def at? : Value → List String → Option Value
  | v, [] => some v
  | v, k :: ks => (v.get? k).bind fun c => c.at? ks

@[simp] theorem at?_nil (v : Value) : v.at? [] = some v := rfl

theorem at?_cons (v : Value) (k : String) (ks : List String) :
    v.at? (k :: ks) = (v.get? k).bind fun c => c.at? ks := rfl

/-- Walking two paths one after the other is walking the joined path. -/
theorem at?_append (v : Value) (p q : List String) :
    v.at? (p ++ q) = (v.at? p).bind fun w => w.at? q := by
  induction p generalizing v with
  | nil => rfl
  | cons k p ih =>
    rw [List.cons_append, at?_cons, at?_cons, Option.bind_assoc]
    exact Option.bind_congr fun c _ => ih c

/-- What a found value counts as in the abstract document. -/
def kind (v : Value) : Node Value := if v.isObject then .branch else .leaf v

def nodeAt (v : Value) (p : List String) : Node Value :=
  match v.at? p with
  | some w => w.kind
  | none => .absent

theorem kind_ne_absent (v : Value) : v.kind ≠ .absent := by
  unfold kind
  split <;> simp

/-- The document has a node exactly where the walk finds a value. -/
theorem nodeAt_ne_absent_iff {v : Value} {p : List String} :
    v.nodeAt p ≠ .absent ↔ (v.at? p).isSome := by
  unfold nodeAt
  cases v.at? p with
  | none => simp
  | some w => simp [kind_ne_absent]

/-- The abstract document of a value. -/
def doc (v : Value) : PathDoc String Value where
  node := v.nodeAt
  root := v.kind_ne_absent
  closed := by
    intro p k h
    rw [nodeAt_ne_absent_iff, at?_append] at h
    unfold nodeAt
    cases hp : v.at? p with
    | none => simp [hp] at h
    | some w =>
      rw [hp, Option.bind_some, at?_cons] at h
      obtain ⟨c, hc⟩ := Option.isSome_iff_exists.mp h
      rcases Option.bind_eq_some_iff.mp hc with ⟨d, hd, -⟩
      have hw : w.isObject = true := isObject_of_get? hd
      simp [kind, hw]

theorem doc_node_nil (v : Value) : v.doc.node [] = v.kind := rfl

/-- Below a key the document is that of the member, if there is one. -/
theorem doc_node_cons (v : Value) (k : String) (p : List String) :
    v.doc.node (k :: p) = match v.get? k with
      | some c => c.doc.node p
      | none => .absent := by
  show v.nodeAt (k :: p) = _
  rw [nodeAt, at?_cons]
  cases v.get? k with
  | none => rfl
  | some c => rfl

/-- The document of a value has a node exactly where the walk finds one. -/
theorem doc_ne_absent_iff {v : Value} {p : List String} :
    v.doc.node p ≠ .absent ↔ (v.at? p).isSome :=
  nodeAt_ne_absent_iff

/-- It has none exactly where the walk fails. -/
theorem doc_eq_absent_iff {v : Value} {p : List String} :
    v.doc.node p = .absent ↔ v.at? p = none := by
  rw [← not_iff_not]
  exact nodeAt_ne_absent_iff.trans Option.isSome_iff_ne_none

/-- A value is its document. -/
theorem doc_injective : Function.Injective Value.doc := by
  intro v
  induction v using Value.induction with
  | leaf v hv =>
    -- a leaf shows itself at the root
    intro w h
    have hroot : v.kind = w.kind := congrArg (fun d => PathDoc.node d []) h
    unfold kind at hroot
    rw [if_neg hv] at hroot
    split at hroot
    · cases hroot
    · exact Node.leaf.inj hroot
  | object v hv ih =>
    -- an object shows its members below it
    intro w h
    have hroot : v.kind = w.kind := congrArg (fun d => PathDoc.node d []) h
    have hw : w.isObject = true := by
      unfold kind at hroot
      rw [if_pos hv] at hroot
      by_contra hw
      rw [if_neg hw] at hroot
      cases hroot
    refine object_ext hv hw fun k => ?_
    have hk : ∀ p, v.doc.node (k :: p) = w.doc.node (k :: p) := fun p => by rw [h]
    simp only [doc_node_cons] at hk
    -- a key that one of them lacks would show
    cases hvk : v.get? k with
    | none =>
      cases hwk : w.get? k with
      | none => rfl
      | some d =>
        have := hk []
        simp only [hvk, hwk] at this
        exact absurd this.symm d.kind_ne_absent
    | some c =>
      cases hwk : w.get? k with
      | none =>
        have := hk []
        simp only [hvk, hwk] at this
        exact absurd this c.kind_ne_absent
      | some d =>
        simp only [hvk, hwk] at hk
        rw [ih k c hvk (PathDoc.ext hk)]

/-- A leaf below a key is one of the member. -/
theorem get?_of_leaf {v w : Value} {k : String} {q : List String}
    (h : v.doc.node (k :: q) = .leaf w) : ∃ c, v.get? k = some c ∧ c.doc.node q = .leaf w := by
  rw [doc_node_cons] at h
  cases hc : v.get? k with
  | none => simp [hc] at h
  | some c =>
    rw [hc] at h
    exact ⟨c, rfl, h⟩

/-- The walk towards a path stops for lack of a key either here or below. -/
theorem doc_open_cons {v : Value} {k : String} {p : List String} :
    v.doc.Open (k :: p) ↔ v.isObject = true ∧ ∀ c, v.get? k = some c → c.doc.Open p := by
  constructor
  · -- an open path leads through members
    intro h
    have hv : v.isObject = true := by
      by_contra hv
      exact h.not_leaf List.nil_prefix v (by rw [doc_node_nil, kind, if_neg hv])
    refine ⟨hv, fun c hc => ⟨?_, ?_⟩⟩
    · have := h.1
      rwa [doc_node_cons, hc] at this
    · rintro ⟨q, w, hq, hw⟩
      refine h.2 ⟨k :: q, w, List.cons_prefix_cons.mpr ⟨rfl, hq⟩, ?_⟩
      rw [doc_node_cons, hc]
      exact hw
  · -- and nothing but members stands on the way
    rintro ⟨hv, h⟩
    refine ⟨?_, ?_⟩
    · rw [doc_node_cons]
      cases hc : v.get? k with
      | none => rfl
      | some c => exact (h c hc).1
    · rintro ⟨q, w, hq, hw⟩
      cases q with
      | nil =>
        rw [doc_node_nil, kind, if_pos hv] at hw
        cases hw
      | cons j q =>
        rcases List.cons_prefix_cons.mp hq with ⟨rfl, hq'⟩
        rcases get?_of_leaf hw with ⟨c, hc, hw'⟩
        exact (h c hc).2 ⟨q, w, hq', hw'⟩

/-- The root of a value is never open. -/
theorem not_doc_open_nil (v : Value) : ¬ v.doc.Open [] := fun h => v.doc.root h.1

/-! ## Refinement -/

/-- Merging with the first side preferred lays its document over the other. -/
theorem doc_deepMerge_true (a b : Value) : (a.deepMerge b true).doc = a.doc.onto b.doc := by
  induction a using Value.induction generalizing b with
  | leaf a ha =>
    -- a leaf keeps everything
    rw [deepMerge_of_not_objects (fun h => ha h.1), if_pos rfl]
    ext p
    refine (PathDoc.onto_not_open fun h => ?_).symm
    exact h.not_leaf List.nil_prefix a (by rw [doc_node_nil, kind, if_neg ha])
  | object a ha ih =>
    -- an object, member by member
    ext p
    by_cases hb : b.isObject = true
    · cases p with
      | nil =>
        rw [PathDoc.onto_not_open a.not_doc_open_nil, doc_node_nil, doc_node_nil, kind, kind,
          if_pos ha, if_pos (isObject_deepMerge ha hb true)]
      | cons k p =>
        rw [doc_node_cons, get?_deepMerge ha hb]
        -- a key the first lacks is open
        cases hak : a.get? k with
        | none =>
          have ho : a.doc.Open (k :: p) :=
            doc_open_cons.mpr ⟨ha, fun c hc => by rw [hak] at hc; cases hc⟩
          rw [PathDoc.onto_open ho, doc_node_cons]
        | some v =>
          -- a key it has: the question passes to the member
          have ho : a.doc.Open (k :: p) ↔ v.doc.Open p := by
            rw [doc_open_cons, hak]
            exact ⟨fun h => h.2 v rfl, fun h => ⟨ha, fun c hc => Option.some.inj hc ▸ h⟩⟩
          cases hbk : b.get? k with
          | none =>
            by_cases hv : v.doc.Open p
            · rw [PathDoc.onto_open (ho.mpr hv), doc_node_cons, hbk]
              exact hv.1
            · rw [PathDoc.onto_not_open (fun h => hv (ho.mp h)), doc_node_cons, hak]
          | some w =>
            show (v.deepMerge w true).doc.node p = _
            rw [ih k v hak]
            by_cases hv : v.doc.Open p
            · rw [PathDoc.onto_open (ho.mpr hv), PathDoc.onto_open hv, doc_node_cons, hbk]
            · rw [PathDoc.onto_not_open (fun h => hv (ho.mp h)), PathDoc.onto_not_open hv,
                doc_node_cons, hak]
    · -- an object keeps everything against a non-object
      rw [deepMerge_of_not_objects (fun h => hb h.2), if_pos rfl]
      by_cases ho : a.doc.Open p
      · rw [PathDoc.onto_open ho]
        cases p with
        | nil => exact absurd ho a.not_doc_open_nil
        | cons k p => rw [doc_node_cons b, get?_of_not_object hb, ho.1]
      · rw [PathDoc.onto_not_open ho]

/-- Preferring the second side is preferring the first with the sides exchanged. -/
theorem deepMerge_false_eq (a b : Value) : a.deepMerge b false = b.deepMerge a true := by
  induction a using Value.induction generalizing b with
  | leaf a ha =>
    rw [deepMerge_of_not_objects (fun h => ha h.1), deepMerge_of_not_objects (fun h => ha h.2)]
    rfl
  | object a ha ih =>
    by_cases hb : b.isObject = true
    · refine object_ext (isObject_deepMerge ha hb _) (isObject_deepMerge hb ha _) fun k => ?_
      rw [get?_deepMerge ha hb, get?_deepMerge hb ha]
      cases hak : a.get? k with
      | none => cases b.get? k <;> rfl
      | some v =>
        cases b.get? k with
        | none => rfl
        | some w => exact congrArg some (ih k v hak w)
    · rw [deepMerge_of_not_objects (fun h => hb h.2), deepMerge_of_not_objects (fun h => hb h.1)]
      rfl

/-- Merging with the second side preferred lays the other document over the first. -/
theorem doc_deepMerge_false (a b : Value) : (a.deepMerge b false).doc = b.doc.onto a.doc := by
  rw [deepMerge_false_eq, doc_deepMerge_true]

/-- A value merged into itself stays as it is. -/
theorem deepMerge_self (a : Value) (preferA : Bool) : a.deepMerge a preferA = a := by
  apply doc_injective
  cases preferA
  · rw [doc_deepMerge_false, PathDoc.onto_self]
  · rw [doc_deepMerge_true, PathDoc.onto_self]

end Value

end AviNet
