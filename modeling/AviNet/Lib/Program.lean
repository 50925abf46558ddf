import Mathlib.Logic.Basic
import Mathlib.Tactic.Common

/-!
# Program — tasks that call a server and wait for the answer

A task with a state of its own runs by itself until it calls the server, and
goes on with whatever the server answers. `Program` is the code of such a task,
`Caller` where it stands between two of its stops.

* `Stays I C`: the program is in states of `I` whenever it stops, and issues
  commands of `C` only;
* `Along R`: across every call of the program, whatever the answer, the states
  before and after are related by `R`;
* `Follows R`: the same for what is left of a task; `Along.stop` and
  `Follows.answer` keep it while the task runs;
* `CallsOnce cmd post`: the program is a single call;
* `exec serve`: the program from its start to its end, with nothing in between.
-/

/-- A program ends, or calls the server and goes on with the answer; in both
cases it leaves its state as it is at that moment. -/
inductive Program (σ c r : Type*) where
  | done (s : σ)
  | call (s : σ) (cmd : c) (k : r → Program σ c r)

/-- A task between two stops. -/
inductive Caller (σ c r : Type*) where
  | idle
  /-- the program is to be run up to its next stop -/
  | ready (p : Program σ c r)
  /-- the answer is outstanding -/
  | waiting (cmd : c) (k : r → Program σ c r)

namespace Caller

variable {σ c r : Type*}

def isIdle : Caller σ c r → Bool
  | .idle => true
  | .ready _ | .waiting _ _ => false

theorem eq_idle {t : Caller σ c r} (h : t.isIdle = true) : t = .idle := by
  cases t with
  | idle => rfl
  | ready p => cases h
  | waiting cmd k => cases h

end Caller

namespace Program

variable {σ c r : Type*}

/-- The state at the first stop. -/
def state : Program σ c r → σ
  | .done s | .call s _ _ => s

/-- The task at the first stop. -/
def stop : Program σ c r → Caller σ c r
  | .done _ => .idle
  | .call _ cmd k => .waiting cmd k

/-- The state satisfies `I` at every stop, and every command `C`. -/
def Stays (I : σ → Prop) (C : c → Prop) : Program σ c r → Prop
  | .done s => I s
  | .call s cmd k => I s ∧ C cmd ∧ ∀ a, (k a).Stays I C

/-- The states on both sides of every call are related. -/
def Along (R : σ → c → r → σ → Prop) : Program σ c r → Prop
  | .done _ => True
  | .call s cmd k => ∀ a, R s cmd a (k a).state ∧ (k a).Along R

/-- The program calls the server once, with `cmd`, and ends in a state that `post`
allows for the answer. -/
def CallsOnce (p : Program σ c r) (cmd : c) (post : r → σ → Prop) : Prop :=
  ∃ s k, p = .call s cmd k ∧ ∀ a, ∃ t, k a = .done t ∧ post a t

/-- The whole program, with a server in the states `ρ` that answers each call at once. -/
def exec {ρ : Type*} (serve : ρ → c → Option (ρ × r)) : Program σ c r → ρ → Option (σ × ρ)
  | .done s, server => some (s, server)
  | .call _ cmd k, server => (serve server cmd).bind fun a => (k a.2).exec serve a.1

/-- A call that is served goes on with its result. -/
theorem exec_call {ρ : Type*} {serve : ρ → c → Option (ρ × r)} {server server' : ρ} {s : σ}
    {cmd : c} {k : r → Program σ c r} {res : r} (h : serve server cmd = some (server', res)) :
    (Program.call s cmd k).exec serve server = (k res).exec serve server' := by
  rw [exec, h]
  rfl

theorem Stays.state {I : σ → Prop} {C : c → Prop} {p : Program σ c r} (h : p.Stays I C) :
    I p.state := by
  cases p with
  | done s => exact h
  | call s cmd k => exact h.1

/-- What a program keeps it keeps under weaker conditions. -/
theorem Stays.imp {I I' : σ → Prop} {C C' : c → Prop} (hI : ∀ s, I s → I' s)
    (hC : ∀ cmd, C cmd → C' cmd) {p : Program σ c r} (h : p.Stays I C) : p.Stays I' C' := by
  induction p with
  | done s => exact hI s h
  | call s cmd k ih => exact ⟨hI s h.1, hC cmd h.2.1, fun a => ih a (h.2.2 a)⟩

theorem Stays.mono {I : σ → Prop} {C C' : c → Prop} (hC : ∀ cmd, C cmd → C' cmd)
    {p : Program σ c r} (h : p.Stays I C) : p.Stays I C' := by
  induction p with
  | done s => exact h
  | call s cmd k ih => exact ⟨h.1, hC cmd h.2.1, fun a => ih a (h.2.2 a)⟩

end Program

namespace Caller

variable {σ c r : Type*} {R : σ → c → r → σ → Prop}

/-- What is left of the task, which stands in the state `s`, relates the states
on both sides of every call. -/
def Follows (R : σ → c → r → σ → Prop) (s : σ) : Caller σ c r → Prop
  | .idle => True
  | .ready p => p.Along R
  | .waiting cmd k => (Program.call s cmd k).Along R

/-- The task has a call outstanding. -/
def IsWaiting : Caller σ c r → Prop
  | .waiting _ _ => True
  | .idle | .ready _ => False

/-- How many calls are outstanding. -/
def outstanding : Caller σ c r → ℕ
  | .waiting _ _ => 1
  | .idle | .ready _ => 0

/-- A caller waits for one call at most. -/
theorem outstanding_le_one (t : Caller σ c r) : t.outstanding ≤ 1 := by
  cases t with
  | waiting cmd k => exact Nat.le_refl 1
  | idle => exact Nat.zero_le 1
  | ready p => exact Nat.zero_le 1

instance : DecidablePred (IsWaiting (σ := σ) (c := c) (r := r))
  | .waiting _ _ => isTrue True.intro
  | .idle | .ready _ => isFalse id

end Caller

theorem Program.Along.stop {σ c r : Type*} {R : σ → c → r → σ → Prop} {p : Program σ c r}
    (h : p.Along R) : p.stop.Follows R p.state := by
  cases p with
  | done s => exact True.intro
  | call s cmd k => exact h

/-- Each answer takes a step that `R` allows, and the rest goes on following. -/
theorem Caller.Follows.answer {σ c r : Type*} {R : σ → c → r → σ → Prop} {s : σ} {cmd : c}
    {k : r → Program σ c r} (h : (Caller.waiting cmd k).Follows R s) (a : r) :
    R s cmd a (k a).state ∧ (Caller.ready (k a)).Follows R s := h a
