import Mathlib.Data.List.Basic
import Mathlib.Tactic.Common

/-!
# Broadcast — a channel that overwrites what nobody has read in time

A bounded ring of the last `cap` values sent, which each receiver reads at its
own position. A receiver whose position has been overwritten is told how many
values it has missed and continues with the oldest one kept.

* `Represents`: the ring holds the end of the list of all values sent;
* `recv_eq`: what a receiver gets, in terms of that list.
-/

/-- The last values sent, at most `cap`, and how many came before them. -/
structure Broadcast (α : Type*) (cap : ℕ) where
  kept : List α
  lost : ℕ
  bound : kept.length ≤ cap

/-- What a receiver gets. -/
inductive Received (α : Type*) where
  | value (a : α)
  | lagged (missed : ℕ)
  | empty

namespace Broadcast

variable {α : Type*} {cap : ℕ}

/-- A new channel. -/
def empty : Broadcast α cap := ⟨[], 0, Nat.zero_le cap⟩

/-- The position behind the last value. -/
def total (r : Broadcast α cap) : ℕ := r.lost + r.kept.length

/-- Send a value, in place of the oldest one if there is no room. -/
def send (r : Broadcast α cap) (a : α) : Broadcast α cap :=
  if h : r.kept.length < cap then
    { kept := r.kept ++ [a]
      lost := r.lost
      bound := by
        rw [List.length_append, List.length_singleton]
        exact h }
  else
    { kept := (r.kept ++ [a]).tail
      lost := r.lost + 1
      bound := by
        rw [List.length_tail, List.length_append, List.length_singleton]
        exact r.bound }

/-- Receive at a position: what comes and the next position. -/
def recv (r : Broadcast α cap) (next : ℕ) : Received α × ℕ :=
  if next < r.lost then (.lagged (r.lost - next), r.lost)
  else
    match r.kept[next - r.lost]? with
    | some a => (.value a, next + 1)
    | none => (.empty, next)

/-- The ring holds the end of `history`, the list of all values sent. -/
structure Represents (r : Broadcast α cap) (history : List α) : Prop where
  lost : r.lost = history.length - cap
  kept : r.kept = history.drop r.lost

theorem represents_empty : (empty : Broadcast α cap).Represents [] := ⟨(Nat.zero_sub cap).symm, rfl⟩

theorem Represents.total {r : Broadcast α cap} {history : List α} (h : r.Represents history) :
    r.total = history.length := by
  have hlost := h.lost
  unfold Broadcast.total
  rw [h.kept, List.length_drop]
  omega

theorem Represents.send {r : Broadcast α cap} {history : List α} (h : r.Represents history)
    (a : α) : (r.send a).Represents (history ++ [a]) := by
  have hlost := h.lost
  have hlen : r.kept.length = history.length - r.lost := by
    rw [h.kept, List.length_drop]
  unfold Broadcast.send
  split_ifs with hroom
  · constructor
    · dsimp only
      rw [List.length_append, List.length_singleton]
      omega
    · dsimp only
      rw [h.kept, List.drop_append_of_le_length (by omega)]
  · -- the oldest value goes
    have hbound := r.bound
    constructor
    · dsimp only
      rw [List.length_append, List.length_singleton]
      omega
    · dsimp only
      rw [h.kept, ← List.drop_append_of_le_length (by omega), List.tail_drop]

/-- What a receiver gets at a position in the history. -/
theorem recv_eq {r : Broadcast α cap} {history : List α} (h : r.Represents history) {next : ℕ}
    (hnext : next ≤ history.length) : r.recv next =
      if cap < history.length - next then
        (.lagged (history.length - cap - next), history.length - cap)
      else
        match history[next]? with
        | some a => (.value a, next + 1)
        | none => (.empty, next) := by
  have hlost := h.lost
  unfold recv
  by_cases hlag : cap < history.length - next
  · rw [if_pos hlag, if_pos (by omega), hlost]
  · rw [if_neg hlag, if_neg (by omega), h.kept, List.getElem?_drop]
    have hpos : r.lost + (next - r.lost) = next := by omega
    rw [hpos]

end Broadcast
