import Mathlib.Data.List.Basic
import Mathlib.Tactic.Common

/-!
# Reader — reading a value from the front of the input

A reader takes a value off the front of a list, or fails. `Reads p xs a` says
that `p` takes exactly `xs` off and gives `a`, whatever follows. The rules
compose readers as they are written: what `p >>= f` takes off is what `p` takes
off followed by what `f a` does.

A reader is `Local` if more input changes nothing about what it has read. Then
`xs` cannot be cut short: on a part of it the reader fails (`Reads.fails`).
-/

/-- Take a value off the front of the input; `none` for an error. -/
abbrev Reader (τ : Type) (α : Type) := StateT (List τ) Option α

namespace Reader

variable {τ α β : Type} {p : Reader τ α} {f : α → Reader τ β} {xs ys : List τ} {a : α} {b : β}

/-- One symbol. -/
def next : Reader τ τ
  | [] => none
  | x :: rest => some (x, rest)

/-- So many symbols. -/
def take (n : ℕ) : Reader τ (List τ) := fun input =>
  if n ≤ input.length then some (input.take n, input.drop n) else none

/-- A value that has to be in the domain of `f`. -/
def check (o : Option α) : Reader τ α := fun input => o.map fun a => (a, input)

/-- The value at the front of the input; what follows is not looked at. -/
def front (p : Reader τ α) (input : List τ) : Option α := (p input).map Prod.fst

/-- `p` takes `xs` off the front and gives `a`. -/
def Reads (p : Reader τ α) (xs : List τ) (a : α) : Prop :=
  ∀ rest, p (xs ++ rest) = some (a, rest)

theorem reads_pure (a : α) : Reads (pure a : Reader τ α) [] a := fun _ => rfl

theorem reads_next (x : τ) : Reads next [x] x := fun _ => rfl

theorem reads_take (xs : List τ) : Reads (take xs.length) xs xs := by
  intro rest
  have hle : xs.length ≤ (xs ++ rest).length := by
    rw [List.length_append]
    omega
  unfold take
  rw [if_pos hle, List.take_left, List.drop_left]

theorem reads_check {o : Option α} (h : o = some a) : Reads (check o : Reader τ α) [] a := by
  intro rest
  rw [check, h]
  rfl

/-- What is read one after the other is read from the inputs joined. -/
theorem Reads.bind (hp : Reads p xs a) (hf : Reads (f a) ys b) :
    Reads (p >>= f) (xs ++ ys) b := by
  intro rest
  have hstep : (p >>= f) (xs ++ (ys ++ rest)) =
      (p (xs ++ (ys ++ rest))).bind fun r => f r.1 r.2 := rfl
  rw [List.append_assoc, hstep, hp]
  exact hf rest

/-- One symbol, and what follows it. -/
theorem Reads.cons {f : τ → Reader τ β} {x : τ} (hf : Reads (f x) ys b) :
    Reads (next >>= f) (x :: ys) b :=
  (reads_next x).bind hf

/-- The last part of a value: nothing is read after it. -/
theorem Reads.last (hp : Reads p xs a) (hf : f a = pure b) : Reads (p >>= f) xs b := by
  have hrest : Reads (f a) [] b := by
    rw [hf]
    exact reads_pure b
  have h := hp.bind hrest
  rwa [List.append_nil] at h

/-! ## Input that is cut short -/

/-- What follows the input has no part in what is read from it. -/
def Local (p : Reader τ α) : Prop :=
  ∀ ⦃input rest : List τ⦄ ⦃a : α⦄, p input = some (a, rest) →
    ∀ more, p (input ++ more) = some (a, rest ++ more)

theorem local_pure (a : α) : Local (pure a : Reader τ α) := by
  intro input rest b h more
  cases h
  rfl

theorem local_next : Local (next : Reader τ τ) := by
  intro input rest x h more
  cases input with
  | nil => cases h
  | cons y ys =>
    cases h
    rfl

theorem local_take (n : ℕ) : Local (take n : Reader τ (List τ)) := by
  intro input rest xs h more
  unfold take at h ⊢
  split_ifs at h with hle
  cases h
  have hle' : n ≤ (input ++ more).length := by
    rw [List.length_append]
    omega
  rw [if_pos hle', List.take_append_of_le_length hle, List.drop_append_of_le_length hle]

theorem local_check (o : Option α) : Local (check o : Reader τ α) := by
  intro input rest a h more
  unfold check at h ⊢
  cases o with
  | none => cases h
  | some b =>
    cases h
    rfl

/-- Two local readers one after the other are local. -/
theorem Local.bind (hp : Local p) (hf : ∀ a, Local (f a)) : Local (p >>= f) := by
  intro input rest b h more
  have hstep : ∀ input, (p >>= f) input = (p input).bind fun r => f r.1 r.2 := fun _ => rfl
  rw [hstep] at h ⊢
  obtain ⟨⟨a, mid⟩, hread, hrest⟩ := Option.bind_eq_some_iff.mp h
  rw [hp hread more]
  exact hf a hrest more

/-- A local reader fails on every part of what it would have to take off. -/
theorem Reads.fails (hp : Reads p xs a) (hlocal : Local p) {ys : List τ} (hys : ys <+: xs)
    (hne : ys ≠ xs) : p ys = none := by
  obtain ⟨more, rfl⟩ := hys
  rw [Option.eq_none_iff_forall_ne_some]
  rintro ⟨b, rest⟩ hread
  have hwhole := hlocal hread more
  have hexact := hp []
  rw [List.append_nil, hwhole] at hexact
  have hnil : rest ++ more = [] := congrArg Prod.snd (Option.some.inj hexact)
  have hmore : more = [] := (List.append_eq_nil_iff.mp hnil).2
  apply hne
  rw [hmore, List.append_nil]

/-- Reading all of an input gives the value at its front. -/
theorem Reads.front (hp : Reads p xs a) : front p xs = some a := by
  have h := hp []
  rw [List.append_nil] at h
  rw [Reader.front, h]
  rfl

/-- However much is cut off, no other value is read. -/
theorem Reads.front_take (hp : Reads p xs a) (hlocal : Local p) {n : ℕ} {b : α}
    (h : Reader.front p (xs.take n) = some b) : b = a := by
  by_cases hcut : xs.take n = xs
  · rw [hcut, hp.front] at h
    exact (Option.some.inj h).symm
  · rw [Reader.front, hp.fails hlocal (List.take_prefix n xs) hcut] at h
    cases h

end Reader
