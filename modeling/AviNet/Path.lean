import AviNet.DeepMerge
import AviNet.Error
import AviNet.Lib.PathEdit

/-!
# Path — reading, writing and deleting at a dotted path

`set_nested_value` and `delete_nested_value` of `protocols/context.rs` and the
walk of `AviP2pHandle::get_ctx`. The first two change the document in place
and may fail half way, so they return the document together with the result.

* `doc_setNestedValue`, `doc_deleteNestedValue`: on success they are
  `PathDoc.put` and `PathDoc.cut`;
* `clear_of_setNestedValue`, `clear_of_deleteNestedValue`: what success says
  about the document before;
* `getCtx_eq_ok_iff`: the walk is `Value.at?`.
-/

namespace AviNet

/-! ## Paths -/

/-- `split('.')` on characters. -/
def splitDots : List Char → List (List Char)
  | [] => [[]]
  | c :: cs =>
    if c = '.' then [] :: splitDots cs
    else match splitDots cs with
      | [] => [[c]]
      | w :: ws => (c :: w) :: ws

/-- `path.split('.').collect()`. -/
def splitPath (path : String) : List String := (splitDots path.toList).map String.ofList

/-- The keys a path stands for; the empty path is the root. -/
def segments (path : String) : List String := if path = "" then [] else splitPath path

/-- Splitting leaves at least one segment, an empty one for an empty text. -/
theorem splitDots_ne_nil (cs : List Char) : splitDots cs ≠ [] := by
  cases cs with
  | nil => simp [splitDots]
  | cons c cs =>
    unfold splitDots
    split_ifs
    · simp
    · split
      · simp
      · simp

/-- It leaves a single empty segment only for the empty text. -/
theorem splitDots_eq_iff (cs : List Char) : splitDots cs = [[]] ↔ cs = [] := by
  cases cs with
  | nil => simp [splitDots]
  | cons c cs =>
    unfold splitDots
    split_ifs
    · simp [splitDots_ne_nil]
    · split
      · simp
      · simp

theorem splitPath_ne_nil (path : String) : splitPath path ≠ [] := by
  simp [splitPath, splitDots_ne_nil]

/-- Only the empty path splits into one empty key. -/
theorem splitPath_eq_iff (path : String) : splitPath path = [""] ↔ path = "" := by
  have hempty : ("" : String) = String.ofList [] := rfl
  constructor
  · intro h
    unfold splitPath at h
    rcases List.map_eq_singleton_iff.mp h with ⟨w, hw, hw'⟩
    have hnil : w = [] := by
      rw [hempty] at hw'
      exact String.ofList_injective hw'
    rw [hnil, splitDots_eq_iff] at hw
    rw [← String.ofList_toList (s := path), hw, hempty]
  · rintro rfl
    rfl

/-- A path splits at every dot. -/
theorem splitDots_append (a b : List Char) :
    splitDots (a ++ '.' :: b) = splitDots a ++ splitDots b := by
  induction a with
  | nil => exact if_pos rfl
  | cons c a ih =>
    simp only [List.cons_append, splitDots, ih]
    split_ifs with hc
    · rfl
    · cases h : splitDots a with
      | nil => exact absurd h (splitDots_ne_nil a)
      | cons w ws => rfl

/-- What has no dot is one key. -/
theorem splitDots_of_not_mem {a : List Char} (h : '.' ∉ a) : splitDots a = [a] := by
  induction a with
  | nil => rfl
  | cons c a ih =>
    have hc : c ≠ '.' := fun hc => h (hc ▸ List.mem_cons_self)
    have ha : '.' ∉ a := fun ha => h (List.mem_cons_of_mem c ha)
    unfold splitDots
    rw [if_neg hc, ih ha]

/-- Two paths joined by a dot split into the segments of the first, then those of the second. -/
theorem splitPath_append (a b : String) :
    splitPath (a ++ "." ++ b) = splitPath a ++ splitPath b := by
  have hlist : (a ++ "." ++ b).toList = a.toList ++ '.' :: b.toList := by
    rw [String.toList_append, String.toList_append, List.append_assoc]
    rfl
  unfold splitPath
  rw [hlist, splitDots_append, List.map_append]

/-- A text without a dot is one segment. -/
theorem splitPath_of_not_mem {a : String} (h : '.' ∉ a.toList) : splitPath a = [a] := by
  unfold splitPath
  rw [splitDots_of_not_mem h, List.map_singleton, String.ofList_toList]

/-- A number is one key. -/
theorem splitPath_toString (n : ℕ) : splitPath (toString n) = [toString n] := by
  apply splitPath_of_not_mem
  intro h
  have hlist : (toString n).toList = Nat.toDigits 10 n := String.toList_ofList
  rw [hlist] at h
  have hdigit := Nat.isDigit_of_mem_toDigits (by decide) (by decide) h
  cases hdigit

/-- Different numbers have different decimal texts. -/
theorem toString_injective : Function.Injective (toString : ℕ → String) := by
  intro m n h
  have hdigits : Nat.toDigits 10 m = Nat.toDigits 10 n := String.ofList_injective h
  rw [← Nat.ofDigitChars_toDigits (b := 10) (n := m) (by decide) (by decide), hdigits,
    Nat.ofDigitChars_toDigits (by decide) (by decide)]

namespace Value

/-! ## The code -/

/-- `Value::Object(Map::new())`. -/
def emptyObject : Value := ofObject SortedMap.empty

/-- `as_object_mut` and `insert`: no effect unless the value is an object. -/
def setMember (v : Value) (key : String) (c : Value) : Value :=
  match v.asObject? with
  | some m => ofObject (m.insert key c)
  | none => v

/-- `as_object_mut` and `remove`. -/
def removeMember (v : Value) (key : String) : Value :=
  match v.asObject? with
  | some m => ofObject (m.erase key)
  | none => v

/-- The loop of `set_nested_value`. -/
def setKeys : Value → List String → Value → Value × Except AviP2pError Unit
  | current, [], _ => (current, .error (.invalidPath "Unexpected end of path"))
  | current, [key], newValue =>
    if current.isObject then (current.setMember key newValue, .ok ())
    else (current, .error (.invalidPath "Parent is not an object"))
  | current, key :: next :: rest, newValue =>
    -- a missing object on the way is created
    let current :=
      if (current.get? key).isNone then current.setMember key emptyObject else current
    match current.get? key with
    | some child =>
      let (child, res) := setKeys child (next :: rest) newValue
      (current.setMember key child, res)
    | none => (current, .error (.invalidPath ("Failed to navigate to key: " ++ key)))

/-- `set_nested_value`: the document afterwards and the result. -/
def setNestedValue (data : Value) (path : String) (newValue : Value) :
    Value × Except AviP2pError Unit :=
  let keys := splitPath path
  if keys = [] ∨ keys = [""] then (newValue, .ok ())
  else setKeys (if data.isObject then data else emptyObject) keys newValue

/-- The loop of `delete_nested_value`. -/
def deleteKeys : Value → List String → Value × Except AviP2pError Unit
  | current, [] => (current, .error (.invalidPath "Unexpected end of path"))
  | current, [key] =>
    if current.isObject then (current.removeMember key, .ok ())
    else (current, .error (.invalidPath "Parent is not an object"))
  | current, key :: next :: rest =>
    match current.get? key with
    | some child =>
      let (child, res) := deleteKeys child (next :: rest)
      (current.setMember key child, res)
    | none => (current, .error (.invalidPath ("Failed to navigate to key: " ++ key)))

/-- `delete_nested_value`: the document afterwards and the result. -/
def deleteNestedValue (data : Value) (path : String) : Value × Except AviP2pError Unit :=
  let keys := splitPath path
  if keys = [] ∨ keys = [""] then (emptyObject, .ok ())
  else deleteKeys data keys

/-- The loop of `get_ctx`. -/
def walk : Value → List String → Except AviP2pError Value
  | current, [] => .ok current
  | current, key :: rest =>
    match current.get? key with
    | some child => walk child rest
    | none => .error (.serialization ("Key '" ++ key ++ "' not found in context"))

/-- `get_ctx`, once the document has been fetched. -/
def getCtx (data : Value) (path : String) : Except AviP2pError Value :=
  if path = "" then .ok data else walk data (splitPath path)

/-- `has_ctx`, once the document has been fetched. -/
def hasCtx (data : Value) (path : String) : Bool :=
  match data.getCtx path with
  | .ok _ => true
  | .error _ => false

/-! ## Reading -/

/-- The walk of `get_nested_value` succeeds exactly where the value has something at the keys. -/
theorem walk_eq_ok_iff {v w : Value} {keys : List String} :
    v.walk keys = .ok w ↔ v.at? keys = some w := by
  induction keys generalizing v with
  | nil => simp [walk]
  | cons key rest ih =>
    unfold walk
    rw [at?_cons]
    cases v.get? key with
    | none => simp
    | some c => exact ih

/-- The walk finds what stands at the keys of the path. -/
theorem getCtx_eq_ok_iff {v w : Value} {path : String} :
    v.getCtx path = .ok w ↔ v.at? (segments path) = some w := by
  unfold getCtx segments
  split_ifs
  · simp
  · exact walk_eq_ok_iff

/-- `has_ctx` says yes exactly where the document has a node. -/
theorem hasCtx_iff {v : Value} {path : String} :
    v.hasCtx path = true ↔ v.doc.node (segments path) ≠ .absent := by
  rw [doc_ne_absent_iff, Option.isSome_iff_exists]
  unfold hasCtx
  cases h : v.getCtx path with
  | ok w => exact iff_of_true rfl ⟨w, getCtx_eq_ok_iff.mp h⟩
  | error e =>
    refine iff_of_false (by simp) ?_
    rintro ⟨w, hw⟩
    rw [getCtx_eq_ok_iff.mpr hw] at h
    cases h

/-- What stands at a path is what the document shows there and below. -/
theorem below_doc {v w : Value} {p : List String} (h : v.at? p = some w) :
    v.doc.below p = w.doc.node := by
  funext r
  show v.nodeAt (p ++ r) = w.nodeAt r
  rw [nodeAt, at?_append, h]
  rfl

/-- A value sits at a path exactly if it is what the document shows below it. -/
theorem at?_eq_some_iff {v w : Value} {p : List String} :
    v.at? p = some w ↔ v.doc.below p = w.doc.node := by
  refine ⟨below_doc, ?_⟩
  intro h
  cases hv : v.at? p with
  | none =>
    have habs := congrFun (PathDoc.below_absent (doc_eq_absent_iff.mpr hv)) []
    rw [h] at habs
    exact absurd habs w.doc.root
  | some u =>
    rw [below_doc hv] at h
    rw [doc_injective (PathDoc.ext (congrFun h))]

/-- Two documents hold the same at a path. -/
theorem at?_eq_iff {v w : Value} {p : List String} :
    v.at? p = w.at? p ↔ v.doc.below p = w.doc.below p := by
  cases hw : w.at? p with
  | some u => rw [at?_eq_some_iff, below_doc hw]
  | none =>
    have habs := doc_eq_absent_iff.mpr hw
    rw [← doc_eq_absent_iff, PathDoc.below_absent habs]
    refine ⟨PathDoc.below_absent, ?_⟩
    intro h
    have heq : v.doc.below p = w.doc.below p := by rw [h, PathDoc.below_absent habs]
    exact (PathDoc.below_self heq).trans habs

/-! ## Members -/

section Members

variable {v c : Value} {key : String}

/-- On an object, setting a member is an insertion into its map. -/
theorem setMember_eq (h : v.isObject = true) (key : String) (c : Value) : ∃ m, v = ofObject m ∧
    v.setMember key c = ofObject (m.insert key c) := by
  rcases isObject_iff.mp h with ⟨m, rfl⟩
  refine ⟨m, rfl, ?_⟩
  rw [setMember, asObject?_ofObject]

/-- Setting a member leaves an object. -/
theorem isObject_setMember (h : v.isObject = true) : (v.setMember key c).isObject = true := by
  obtain ⟨m, -, hm⟩ := setMember_eq h key c
  rw [hm, isObject_ofObject]

/-- Setting a member sets that member and no other. -/
theorem get?_setMember (h : v.isObject = true) (k : String) :
    (v.setMember key c).get? k = if k = key then some c else v.get? k := by
  obtain ⟨m, rfl, hm⟩ := setMember_eq h key c
  rw [hm, get?_ofObject, get?_ofObject, SortedMap.get?_insert]

/-- On anything but an object nothing is set. -/
theorem setMember_of_not_object (h : ¬ v.isObject = true) : v.setMember key c = v := by
  unfold setMember
  cases hv : v.asObject? with
  | none => rfl
  | some m => exact absurd (isObject_iff.mpr ⟨m, asObject?_eq_some_iff.mp hv⟩) h

theorem isObject_removeMember (h : v.isObject = true) :
    (v.removeMember key).isObject = true := by
  rcases isObject_iff.mp h with ⟨m, rfl⟩
  rw [removeMember, asObject?_ofObject]
  exact isObject_ofObject _

/-- Removing a member takes that member and no other. -/
theorem get?_removeMember (h : v.isObject = true) (k : String) :
    (v.removeMember key).get? k = if k = key then none else v.get? k := by
  rcases isObject_iff.mp h with ⟨m, rfl⟩
  rw [removeMember, asObject?_ofObject]
  show (ofObject _).get? k = _
  rw [get?_ofObject, get?_ofObject, SortedMap.get?_erase]

/-- An object is a branch of the document. -/
theorem doc_root_of_object (h : v.isObject = true) : v.doc.node [] = .branch := by
  rw [doc_node_nil, kind, if_pos h]

/-- No leaf stands above `key :: p` if the value is an object and none stands
above `p` in the member. -/
theorem clear_cons {p : List String} : v.doc.Clear (key :: p) ↔
    v.isObject = true ∧ ∀ c, v.get? key = some c → c.doc.Clear p := by
  constructor
  · intro h
    constructor
    · by_contra hv
      refine h [] v List.nil_prefix (by simp) ?_
      rw [doc_node_nil, kind, if_neg hv]
    · intro c hc q w hq hne hw
      refine h (key :: q) w (List.cons_prefix_cons.mpr ⟨rfl, hq⟩) (by simpa using hne) ?_
      rw [doc_node_cons, hc]
      exact hw
  · rintro ⟨hv, h⟩ q w hq hne hw
    cases q with
    | nil =>
      rw [doc_root_of_object hv] at hw
      cases hw
    | cons j q =>
      rcases List.cons_prefix_cons.mp hq with ⟨rfl, hq'⟩
      rcases get?_of_leaf hw with ⟨c, hc, hw'⟩
      exact h c hc q w hq' (by simpa using hne) hw'

end Members

/-! ## Writing -/

/-- The step into a key: the member found there, or a new empty object. -/
def childOrNew (v : Value) (key : String) : Value := (v.get? key).getD emptyObject

theorem get?_emptyObject (k : String) : emptyObject.get? k = none := by
  rw [emptyObject, get?_ofObject, SortedMap.get?_empty]

theorem isObject_emptyObject : emptyObject.isObject = true := isObject_ofObject _

/-- On an object the loop goes on in the member, on anything else it stops. -/
theorem setKeys_cons {v : Value} (h : v.isObject = true) (key next : String)
    (rest : List String) (newValue : Value) : ∃ v' : Value, v'.isObject = true ∧
      (∀ k, k ≠ key → v'.get? k = v.get? k) ∧
      setKeys v (key :: next :: rest) newValue =
        (v'.setMember key (setKeys (v.childOrNew key) (next :: rest) newValue).1,
          (setKeys (v.childOrNew key) (next :: rest) newValue).2) := by
  rw [setKeys]
  unfold childOrNew
  cases hk : v.get? key with
  | some c =>
    refine ⟨v, h, fun _ _ => rfl, ?_⟩
    simp [hk]
  | none =>
    refine ⟨v.setMember key emptyObject, isObject_setMember h, ?_, ?_⟩
    · intro k hne
      rw [get?_setMember h, if_neg hne]
    · simp [get?_setMember h]

/-- The write stops with an error where it meets a value it cannot enter. -/
theorem setKeys_cons_of_not_object {v : Value} {key next : String} {rest : List String}
    {newValue : Value} (h : ¬ v.isObject = true) :
    setKeys v (key :: next :: rest) newValue =
      (v, .error (.invalidPath ("Failed to navigate to key: " ++ key))) := by
  unfold setKeys
  simp [get?_of_not_object h, setMember_of_not_object h]

/-- A child that is missing is created empty, and stands in no write's way. -/
theorem childOrNew_clear {v : Value} {key : String} {p : List String} :
    (v.childOrNew key).doc.Clear p ↔ ∀ c, v.get? key = some c → c.doc.Clear p := by
  unfold childOrNew
  cases v.get? key with
  | some c => simp
  | none =>
    refine iff_of_true ?_ (by simp)
    intro q w _ _ hw
    rw [Option.getD_none] at hw
    cases q with
    | nil =>
      rw [doc_root_of_object isObject_emptyObject] at hw
      cases hw
    | cons k q =>
      rw [doc_node_cons, get?_emptyObject] at hw
      cases hw

/-- The write succeeds exactly if no leaf stands above the path. -/
theorem setKeys_ok_iff {v : Value} {keys : List String} {newValue : Value} (hne : keys ≠ []) :
    (setKeys v keys newValue).2 = .ok () ↔ v.doc.Clear keys := by
  induction keys generalizing v with
  | nil => exact absurd rfl hne
  | cons key keys ih =>
    rw [clear_cons]
    cases keys with
    | nil =>
      have hnil : ∀ c : Value, c.doc.Clear [] := fun c q w hq hne =>
        absurd (List.prefix_nil.mp hq) hne
      unfold setKeys
      by_cases hv : v.isObject = true
      · simp [hv, hnil]
      · simp [hv]
    | cons next rest =>
      by_cases hv : v.isObject = true
      · rcases setKeys_cons hv key next rest newValue
          with ⟨v', -, -, heq⟩
        rw [heq, ← childOrNew_clear]
        exact (ih (by simp)).trans (and_iff_right hv).symm
      · rw [setKeys_cons_of_not_object hv]
        simp [hv]

/-- A successful write puts the new value at the path. -/
theorem doc_setKeys {v : Value} {keys : List String} {newValue : Value} (hne : keys ≠ [])
    (hok : v.doc.Clear keys) :
    (setKeys v keys newValue).1.doc = v.doc.put keys newValue.doc := by
  induction keys generalizing v with
  | nil => exact absurd rfl hne
  | cons key keys ih =>
    rcases clear_cons.mp hok with ⟨hv, hclear⟩
    -- the member at `key` after the write
    have hset : ∃ v' c : Value, v'.isObject = true ∧ (∀ k, k ≠ key → v'.get? k = v.get? k) ∧
        (setKeys v (key :: keys) newValue).1 = v'.setMember key c ∧
        c.doc = (v.childOrNew key).doc.put keys newValue.doc := by
      cases keys with
      | nil =>
        refine ⟨v, newValue, hv, fun _ _ => rfl, ?_, (PathDoc.put_nil _ _).symm⟩
        simp [setKeys, hv]
      | cons next rest =>
        rcases setKeys_cons hv key next rest newValue
          with ⟨v', hv', hother, heq⟩
        refine ⟨v', _, hv', hother, by rw [heq], ?_⟩
        exact ih (by simp) (childOrNew_clear.mpr hclear)
    rcases hset with ⟨v', c, hv', hother, heq, hc⟩
    rw [heq]
    ext p
    cases p with
    | nil =>
      -- the root stays an object
      rw [doc_root_of_object (isObject_setMember hv'), PathDoc.put_above List.nil_prefix (by simp)]
    | cons k p =>
      rw [doc_node_cons, get?_setMember hv']
      -- below the key that was written
      by_cases hk : k = key
      · rw [if_pos hk, hk]
        show c.doc.node p = _
        rw [hc]
        refine (PathDoc.put_cons (fun r hr => ?_) keys p).symm
        rw [doc_node_cons]
        unfold childOrNew
        cases v.get? key with
        | some d => rfl
        | none =>
          cases r with
          | nil => exact absurd rfl hr
          | cons j r =>
            show emptyObject.doc.node (j :: r) = _
            rw [doc_node_cons, get?_emptyObject]
      · -- the other keys
        have hdiv : PathDoc.Diverge (key :: keys) (k :: p) :=
          ⟨fun h => hk (List.cons_prefix_cons.mp h).1.symm,
            fun h => hk (List.cons_prefix_cons.mp h).1⟩
        rw [if_neg hk, hother k hk, PathDoc.put_diverging hdiv, doc_node_cons]

/-- Only the empty path has no segments. -/
theorem segments_eq_nil_iff (path : String) : segments path = [] ↔ path = "" := by
  unfold segments
  split_ifs with h
  · simp [h]
  · simp [h, splitPath_ne_nil]

theorem segments_ne_nil {path : String} (hpath : path ≠ "") : segments path ≠ [] :=
  mt (segments_eq_nil_iff path).mp hpath

/-- The two tests for the root path are one. -/
theorem root_iff (path : String) :
    (splitPath path = [] ∨ splitPath path = [""]) ↔ path = "" := by
  rw [or_iff_right (splitPath_ne_nil path), splitPath_eq_iff]

/-- `set_nested_value` on a document that is not an object starts from an empty one,
which differs in the root only. -/
theorem put_emptyObject {v : Value} (h : ¬ v.isObject = true) (p : List String)
    (d : PathDoc String Value) : emptyObject.doc.put p d = v.doc.put p d := by
  refine PathDoc.put_congr fun q hq => ?_
  cases q with
  | nil => exact absurd rfl hq
  | cons k q => rw [doc_node_cons, doc_node_cons, get?_emptyObject, get?_of_not_object h]

/-- An empty object stands in no write's way. -/
theorem emptyObject_clear (p : List String) : emptyObject.doc.Clear p := by
  intro q w _ _ hw
  cases q with
  | nil =>
    rw [doc_root_of_object isObject_emptyObject] at hw
    cases hw
  | cons k q =>
    rw [doc_node_cons, get?_emptyObject] at hw
    cases hw

/-- When `set_nested_value` succeeds. -/
theorem setNestedValue_ok_iff {data newValue : Value} {path : String} :
    (data.setNestedValue path newValue).2 = .ok () ↔
      path = "" ∨ ¬ data.isObject = true ∨ data.doc.Clear (segments path) := by
  unfold setNestedValue segments
  simp only [root_iff]
  split_ifs with hpath hobj
  · simp [hpath]
  · rw [setKeys_ok_iff (splitPath_ne_nil path)]
    simp [hpath, hobj]
  · rw [setKeys_ok_iff (splitPath_ne_nil path)]
    simp [hobj, emptyObject_clear]

/-- **`set_nested_value` is a write at the path.** -/
theorem doc_setNestedValue {data newValue : Value} {path : String}
    (h : (data.setNestedValue path newValue).2 = .ok ()) :
    (data.setNestedValue path newValue).1.doc = data.doc.put (segments path) newValue.doc := by
  rw [setNestedValue_ok_iff] at h
  unfold setNestedValue segments at *
  simp only [root_iff]
  split_ifs at h ⊢ with hpath hobj
  · rw [PathDoc.put_nil]
  · exact doc_setKeys (splitPath_ne_nil path) (by simpa [hpath, hobj] using h)
  · rw [doc_setKeys (splitPath_ne_nil path) (emptyObject_clear _), put_emptyObject hobj]

/-! ## Deleting -/

/-- Deleting succeeds exactly if the parent is an object; then nothing above is a leaf. -/
theorem doc_deleteKeys {v : Value} {keys : List String} (hne : keys ≠ [])
    (hok : (deleteKeys v keys).2 = .ok ()) :
    v.doc.Clear keys ∧ (deleteKeys v keys).1.doc = v.doc.cut keys := by
  induction keys generalizing v with
  | nil => exact absurd rfl hne
  | cons key keys ih =>
    -- the member at `key` after the deletion, if any
    have hdel : v.isObject = true ∧ (∀ c, v.get? key = some c → c.doc.Clear keys) ∧
        (deleteKeys v (key :: keys)).1.isObject = true ∧
        (∀ k, k ≠ key → (deleteKeys v (key :: keys)).1.get? k = v.get? k) ∧
        ∀ p, (deleteKeys v (key :: keys)).1.doc.node (key :: p) =
          (v.doc.cut (key :: keys)).node (key :: p) := by
      cases keys with
      | nil =>
        -- the last segment: the member is removed
        unfold deleteKeys at hok ⊢
        split_ifs at hok ⊢ with hv
        refine ⟨hv, fun c _ q w hq hne => absurd (List.prefix_nil.mp hq) hne,
          isObject_removeMember hv, fun k hk => ?_, fun p => ?_⟩
        · show (v.removeMember key).get? k = _
          rw [get?_removeMember hv, if_neg hk]
        · show (v.removeMember key).doc.node _ = _
          rw [doc_node_cons, get?_removeMember hv, if_pos rfl]
          exact (congrFun (PathDoc.below_cut v.doc (p := [key]) (by simp)) p).symm
      | cons next rest =>
        -- a segment on the way: the member is replaced
        unfold deleteKeys at hok ⊢
        cases hc : v.get? key with
        | none =>
          rw [hc] at hok
          cases hok
        | some c =>
          rw [hc] at hok
          have hv : v.isObject = true := isObject_of_get? hc
          rcases ih (by simp) hok with ⟨hclear, hdoc⟩
          refine ⟨hv, fun d hd => Option.some.inj hd ▸ hclear, isObject_setMember hv,
            fun k hk => ?_, fun p => ?_⟩
          · show (v.setMember key _).get? k = _
            rw [get?_setMember hv, if_neg hk]
          · show (v.setMember key _).doc.node _ = _
            rw [doc_node_cons, get?_setMember hv, if_pos rfl]
            show (deleteKeys c (next :: rest)).1.doc.node p = _
            rw [hdoc]
            refine (PathDoc.cut_cons (fun r => ?_) (by simp) p).symm
            rw [doc_node_cons, hc]
    rcases hdel with ⟨hv, hclear, hobj, hother, hkey⟩
    refine ⟨clear_cons.mpr ⟨hv, hclear⟩, ?_⟩
    ext p
    cases p with
    | nil =>
      -- the root stays an object
      rw [doc_root_of_object hobj, PathDoc.cut_outside (by simp), doc_root_of_object hv]
    | cons k p =>
      -- below the key that was cut, and the other keys
      by_cases hk : k = key
      · rw [hk, hkey]
      · have hnot : ¬ key :: keys <+: k :: p := fun h => hk (List.cons_prefix_cons.mp h).1.symm
        rw [PathDoc.cut_outside hnot, doc_node_cons, hother k hk, doc_node_cons]

/-- **`delete_nested_value` is a removal at the path.** -/
theorem doc_deleteNestedValue {data : Value} {path : String}
    (h : (data.deleteNestedValue path).2 = .ok ()) (hpath : path ≠ "") :
    data.doc.Clear (segments path) ∧
      (data.deleteNestedValue path).1.doc = data.doc.cut (segments path) := by
  unfold deleteNestedValue segments at *
  simp only [root_iff] at h ⊢
  rw [if_neg hpath] at h ⊢
  rw [if_neg hpath]
  exact doc_deleteKeys (splitPath_ne_nil path) h

end Value

end AviNet
