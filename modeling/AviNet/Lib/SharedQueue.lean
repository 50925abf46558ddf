import Mathlib.Data.List.Basic
import Mathlib.Logic.Function.Basic

/-!
# SharedQueue — one queue for several clients

Clients put items into one first-in-first-out queue and take them out again.
The queue does not know whose items it holds; here each item is tagged with the
client that put it there, and for each client the items accepted from it and
the items it has taken are recorded.

A client is *served* while it has taken its own items, in order, and the rest is
pending. Putting an item serves every client (`put_served`), taking one exactly
if it is an item of the client that takes it (`take_served_iff`).
-/

/-- The queue, and what the clients have put in and taken out. -/
structure SharedQueue (ι α : Type*) where
  queue : List (ι × α)
  accepted : ι → List α
  taken : ι → List α

namespace SharedQueue

variable {ι α : Type*} [DecidableEq ι]

def empty : SharedQueue ι α := ⟨[], fun _ => [], fun _ => []⟩

/-- The items of `i` in the queue, in order. -/
def pending (s : SharedQueue ι α) (i : ι) : List α :=
  (s.queue.filter fun e => decide (e.1 = i)).map Prod.snd

/-- The client `i` puts an item in. -/
def put (s : SharedQueue ι α) (i : ι) (a : α) : SharedQueue ι α where
  queue := s.queue ++ [(i, a)]
  accepted := Function.update s.accepted i (s.accepted i ++ [a])
  taken := s.taken

/-- The client `i` takes the oldest item out. -/
def take (s : SharedQueue ι α) (i : ι) : Option (SharedQueue ι α) :=
  match s.queue with
  | [] => none
  | e :: rest => some {
    queue := rest
    accepted := s.accepted
    taken := Function.update s.taken i (s.taken i ++ [e.2]) }

/-- The client has taken its own items, in order and once each, and the rest is pending. -/
def Served (s : SharedQueue ι α) (i : ι) : Prop := s.accepted i = s.taken i ++ s.pending i

theorem empty_served (i : ι) : (empty : SharedQueue ι α).Served i := rfl

theorem pending_eq_nil_iff {s : SharedQueue ι α} {i : ι} :
    s.pending i = [] ↔ ∀ e ∈ s.queue, e.1 ≠ i := by
  unfold pending
  rw [List.map_eq_nil_iff, List.filter_eq_nil_iff]
  simp only [decide_eq_true_eq, ne_eq]

theorem put_inj {s : SharedQueue ι α} {i : ι} {a b : α} (h : s.put i a = s.put i b) : a = b := by
  have hqueue : s.queue ++ [(i, a)] = s.queue ++ [(i, b)] := congrArg SharedQueue.queue h
  have hlast : [(i, a)] = [(i, b)] := List.append_cancel_left hqueue
  exact congrArg Prod.snd (List.singleton_inj.mp hlast)

theorem pending_put (s : SharedQueue ι α) (i : ι) (a : α) (j : ι) :
    (s.put i a).pending j = if j = i then s.pending j ++ [a] else s.pending j := by
  unfold pending put
  dsimp only
  rw [List.filter_append, List.map_append]
  by_cases hj : j = i
  · rw [if_pos hj, hj]
    simp
  · have hne : i ≠ j := fun h => hj h.symm
    rw [if_neg hj]
    simp [hne]

/-- An item that is put in serves everybody. -/
theorem put_served {s : SharedQueue ι α} (h : ∀ j, s.Served j) (i : ι) (a : α) (j : ι) :
    (s.put i a).Served j := by
  unfold Served
  rw [pending_put]
  show Function.update s.accepted i (s.accepted i ++ [a]) j = s.taken j ++ _
  by_cases hj : j = i
  · subst hj
    have hserved : s.accepted j = s.taken j ++ s.pending j := h j
    rw [Function.update_self, if_pos rfl, hserved, List.append_assoc]
  · rw [Function.update_of_ne hj, if_neg hj]
    exact h j

/-- What is pending before the oldest item is taken. -/
theorem pending_cons {s : SharedQueue ι α} {e : ι × α} {rest : List (ι × α)}
    (h : s.queue = e :: rest) {t : SharedQueue ι α} (ht : t.queue = rest) (j : ι) :
    s.pending j = if e.1 = j then e.2 :: t.pending j else t.pending j := by
  unfold pending
  rw [h, ht, List.filter_cons]
  by_cases hj : e.1 = j
  · simp [hj]
  · simp [hj]

/-- What is left in the queue was there before. -/
theorem mem_of_take {s t : SharedQueue ι α} {i : ι} (ht : s.take i = some t) {e : ι × α}
    (he : e ∈ t.queue) : e ∈ s.queue := by
  unfold take at ht
  cases hq : s.queue with
  | nil =>
    rw [hq] at ht
    cases ht
  | cons e' rest =>
    rw [hq] at ht
    cases ht
    exact List.mem_cons_of_mem e' he

/-- The oldest item serves everybody exactly if it is taken by the client that put
it in: another one would take an item it has not put in. -/
theorem take_served_iff {s t : SharedQueue ι α} {i : ι} (ht : s.take i = some t)
    (h : ∀ j, s.Served j) : (∀ j, t.Served j) ↔ ∀ e ∈ s.queue.head?, e.1 = i := by
  unfold take at ht
  cases hq : s.queue with
  | nil =>
    rw [hq] at ht
    cases ht
  | cons e rest =>
    rw [hq] at ht
    cases ht
    have hcons := pending_cons hq (t := ⟨rest, s.accepted,
      Function.update s.taken i (s.taken i ++ [e.2])⟩) rfl
    constructor
    · rintro hserved e' ⟨⟩
      by_contra hne
      -- the taker has one item more than before, and no item less to come
      have hafter := hserved i
      have hbefore := h i
      unfold Served at hafter hbefore
      rw [hcons, if_neg hne] at hbefore
      dsimp only at hafter
      rw [Function.update_self, hbefore] at hafter
      have hlength := congrArg List.length hafter
      simp only [List.length_append, List.length_singleton] at hlength
      omega
    · -- the owner takes its own item
      intro hown j
      have hi : e.1 = i := hown e rfl
      have hbefore := h j
      unfold Served at hbefore ⊢
      dsimp only
      rw [hcons] at hbefore
      rw [hbefore]
      by_cases hj : j = i
      · subst hj
        rw [if_pos hi, Function.update_self, List.append_assoc]
        rfl
      · have hne : e.1 ≠ j := fun heq => hj (heq.symm.trans hi)
        rw [if_neg hne, Function.update_of_ne hj]

end SharedQueue
