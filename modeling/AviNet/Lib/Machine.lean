import Mathlib.Logic.Basic
import Mathlib.Tactic.Common

/-!
# Machine — labelled machines, their runs, and the rules over runs

A machine steps deterministically once its label is known: every choice of the
environment (who moves, what is delivered, what a call answers) is part of the
label, and a label that is not enabled gives `none`. Runs are therefore lists
of labels and can be executed.

The rules, each one induction over a run:

* `run_invariant`: what every step preserves holds in the last state;
* `allStates_of_allSteps`: the same for every state on the way, when each step
  meets a side condition;
* `allSteps_and_allStates_iff`, `allStates_iff_allSteps`, `allStates_iff_of_invariant`:
  when a step preserves a property *exactly* if it meets the condition, a whole
  run keeps the property exactly if all its steps meet the condition;
* `run_simulates`: a step-wise simulation carries whole runs.
-/

/-- Initial states and labelled steps. -/
structure Machine (σ ℓ : Type*) where
  Init : σ → Prop
  step : σ → ℓ → Option σ

namespace Machine

variable {σ ℓ τ m : Type*} (M : Machine σ ℓ)

/-- Execute a list of labels; `none` if one of them is not enabled. -/
def run : σ → List ℓ → Option σ
  | s, [] => some s
  | s, l :: ls => (M.step s l).bind fun t => run t ls

/-- The states that runs from an initial state end in. -/
def Reachable (t : σ) : Prop := ∃ s ls, M.Init s ∧ M.run s ls = some t

/-- `P` holds in every state the run `ls` from `s` goes through, ends included. -/
def AllStates (P : σ → Prop) : σ → List ℓ → Prop
  | s, [] => P s
  | s, l :: ls => P s ∧ ∀ t, M.step s l = some t → AllStates P t ls

/-- Every step of the run `ls` from `s` meets `Ok`, judged in the state before it. -/
def AllSteps (Ok : σ → ℓ → Prop) : σ → List ℓ → Prop
  | _, [] => True
  | s, l :: ls => Ok s l ∧ ∀ t, M.step s l = some t → AllSteps Ok t ls

/-- Side conditions that can be evaluated can be evaluated along a run. -/
instance decidableAllSteps (Ok : σ → ℓ → Prop) [∀ s l, Decidable (Ok s l)] :
    ∀ s ls, Decidable (M.AllSteps Ok s ls)
  | _, [] => isTrue True.intro
  | s, l :: ls =>
    match h : M.step s l with
    | none => decidable_of_iff (Ok s l) (by simp [AllSteps, h])
    | some t =>
      haveI := decidableAllSteps Ok t ls
      decidable_of_iff (Ok s l ∧ M.AllSteps Ok t ls) (by simp [AllSteps, h])

theorem run_cons (s : σ) (l : ℓ) (ls : List ℓ) :
    M.run s (l :: ls) = (M.step s l).bind fun t => M.run t ls := rfl

theorem run_cons_eq_some {s u : σ} {l : ℓ} {ls : List ℓ} :
    M.run s (l :: ls) = some u ↔ ∃ t, M.step s l = some t ∧ M.run t ls = some u := by
  rw [run_cons, Option.bind_eq_some_iff]

/-- A run in two parts ends where the second part, run from the end of the first, does. -/
theorem run_append (s : σ) (ls ks : List ℓ) :
    M.run s (ls ++ ks) = (M.run s ls).bind fun t => M.run t ks := by
  induction ls generalizing s with
  | nil => rfl
  | cons l ls ih =>
    rw [List.cons_append, run_cons, run_cons]
    cases M.step s l with
    | none => rfl
    | some t => exact ih t

theorem run_append_eq_some {s u : σ} {ls ks : List ℓ} :
    M.run s (ls ++ ks) = some u ↔ ∃ t, M.run s ls = some t ∧ M.run t ks = some u := by
  rw [run_append, Option.bind_eq_some_iff]

/-! ## Side conditions along a run -/

/-- A condition on the labels alone. -/
theorem AllSteps.of_mem {Ok : σ → ℓ → Prop} {ls : List ℓ} (h : ∀ l ∈ ls, ∀ s, Ok s l) (s : σ) :
    M.AllSteps Ok s ls := by
  induction ls generalizing s with
  | nil => exact True.intro
  | cons l ls ih =>
    constructor
    · exact h l List.mem_cons_self s
    · intro t _
      apply ih
      intro k hk
      exact h k (List.mem_cons_of_mem l hk)

theorem AllSteps.mono {Ok Ok' : σ → ℓ → Prop} (h : ∀ s l, Ok s l → Ok' s l) {s : σ}
    {ls : List ℓ} (hs : M.AllSteps Ok s ls) : M.AllSteps Ok' s ls := by
  induction ls generalizing s with
  | nil => exact True.intro
  | cons l ls ih => exact ⟨h s l hs.1, fun t ht => ih (hs.2 t ht)⟩

theorem AllSteps.and {Ok Ok' : σ → ℓ → Prop} {s : σ} {ls : List ℓ} (h : M.AllSteps Ok s ls)
    (h' : M.AllSteps Ok' s ls) : M.AllSteps (fun s l => Ok s l ∧ Ok' s l) s ls := by
  induction ls generalizing s with
  | nil => exact True.intro
  | cons l ls ih => exact ⟨⟨h.1, h'.1⟩, fun t ht => ih (h.2 t ht) (h'.2 t ht)⟩

/-- Steps that are all right in two parts are all right in the whole. -/
theorem AllSteps.append {Ok : σ → ℓ → Prop} {s t : σ} {ls ks : List ℓ} (h : M.AllSteps Ok s ls)
    (ht : M.run s ls = some t) (hk : M.AllSteps Ok t ks) : M.AllSteps Ok s (ls ++ ks) := by
  induction ls generalizing s with
  | nil =>
    cases ht
    exact hk
  | cons l ls ih =>
    rcases M.run_cons_eq_some.mp ht with ⟨u, hu, hrun⟩
    refine ⟨h.1, ?_⟩
    intro v hv
    have hvu : v = u := Option.some.inj (hv.symm.trans hu)
    rw [hvu]
    exact ih (h.2 u hu) hrun

/-- A condition that every state meets. -/
theorem AllStates.of_forall {P : σ → Prop} (h : ∀ s, P s) (s : σ) (ls : List ℓ) :
    M.AllStates P s ls := by
  induction ls generalizing s with
  | nil => exact h s
  | cons l ls ih => exact ⟨h s, fun t _ => ih t⟩

/-- What holds in all states holds in the first. -/
theorem AllStates.head {P : σ → Prop} {s : σ} {ls : List ℓ} (h : M.AllStates P s ls) : P s := by
  cases ls with
  | nil => exact h
  | cons l ls => exact h.1

/-- `AllStates` talks about each state the run reaches. -/
theorem AllStates.at_cut {P : σ → Prop} {s t : σ} {ls ks : List ℓ}
    (h : M.AllStates P s (ls ++ ks)) (ht : M.run s ls = some t) : P t := by
  induction ls generalizing s with
  | nil =>
    cases ht
    exact AllStates.head M h
  | cons k ls ih =>
    rcases M.run_cons_eq_some.mp ht with ⟨u, hu, hrun⟩
    exact ih (h.2 u hu) hrun

/-- What holds of the states of a run, as a condition on its steps. -/
theorem AllStates.allSteps {P : σ → Prop} {s : σ} {ls : List ℓ} (h : M.AllStates P s ls) :
    M.AllSteps (fun s l => ∀ t, M.step s l = some t → P t) s ls := by
  induction ls generalizing s with
  | nil => exact True.intro
  | cons l ls ih =>
    constructor
    · intro t ht
      exact AllStates.head M (h.2 t ht)
    · intro t ht
      exact ih (h.2 t ht)

/-- A step leads to the states of the rest of the run. -/
theorem AllStates.cons {P : σ → Prop} {s t : σ} {l : ℓ} {ls : List ℓ} (h : P s)
    (ht : M.step s l = some t) (hs : M.AllStates P t ls) : M.AllStates P s (l :: ls) := by
  refine ⟨h, ?_⟩
  intro u hu
  rw [ht] at hu
  exact Option.some.inj hu ▸ hs

/-- The states of two runs, one after the other. -/
theorem AllStates.append {P : σ → Prop} {s t : σ} {ls ks : List ℓ} (h : M.AllStates P s ls)
    (ht : M.run s ls = some t) (hk : M.AllStates P t ks) : M.AllStates P s (ls ++ ks) := by
  induction ls generalizing s with
  | nil =>
    cases ht
    exact hk
  | cons l ls ih =>
    rcases M.run_cons_eq_some.mp ht with ⟨u, hu, hrun⟩
    refine ⟨h.1, ?_⟩
    intro v hv
    have hvu : v = u := Option.some.inj (hv.symm.trans hu)
    rw [hvu]
    exact ih (h.2 u hu) hrun

theorem AllStates.mono {P Q : σ → Prop} (h : ∀ s, P s → Q s) {s : σ} {ls : List ℓ}
    (hs : M.AllStates P s ls) : M.AllStates Q s ls := by
  induction ls generalizing s with
  | nil => exact h s hs
  | cons l ls ih => exact ⟨h s hs.1, fun t ht => ih (hs.2 t ht)⟩

/-! ## Invariant rules -/

/-- What every step that meets `Ok` preserves holds in every state of a run
whose steps meet `Ok`. -/
theorem allStates_of_allSteps {Inv : σ → Prop} {Ok : σ → ℓ → Prop}
    (hstep : ∀ s l t, M.step s l = some t → Ok s l → Inv s → Inv t)
    {s : σ} {ls : List ℓ} (h₀ : Inv s) (hok : M.AllSteps Ok s ls) : M.AllStates Inv s ls := by
  induction ls generalizing s with
  | nil => exact h₀
  | cons l ls ih =>
    exact ⟨h₀, fun t ht => ih (hstep s l t ht hok.1 h₀) (hok.2 t ht)⟩

/-- The last state of such a run. -/
theorem run_invariant_of {Inv : σ → Prop} {Ok : σ → ℓ → Prop}
    (hstep : ∀ s l t, M.step s l = some t → Ok s l → Inv s → Inv t)
    {s t : σ} {ls : List ℓ} (hrun : M.run s ls = some t) (h₀ : Inv s)
    (hok : M.AllSteps Ok s ls) : Inv t := by
  have h := M.allStates_of_allSteps hstep h₀ hok
  rw [← List.append_nil ls] at h
  exact AllStates.at_cut M h hrun

/-- Invariant induction over a run. -/
theorem run_invariant {Inv : σ → Prop}
    (hstep : ∀ s l t, M.step s l = some t → Inv s → Inv t)
    {s t : σ} {ls : List ℓ} (hrun : M.run s ls = some t) (h₀ : Inv s) : Inv t := by
  have hall : M.AllSteps (fun _ _ => True) s ls :=
    AllSteps.of_mem M (fun _ _ _ => True.intro) s
  exact M.run_invariant_of (fun s l t hs _ => hstep s l t hs) hrun h₀ hall

/-- Invariant induction for what depends on the labels so far. -/
theorem run_history {Inv : List ℓ → σ → Prop} {Ok : σ → ℓ → Prop}
    (hstep : ∀ ks s l t, M.step s l = some t → Ok s l → Inv ks s → Inv (ks ++ [l]) t)
    {s t : σ} {ls : List ℓ} (hrun : M.run s ls = some t) (h₀ : Inv [] s)
    (hok : M.AllSteps Ok s ls) : Inv ls t := by
  have hrest : ∀ ls s ks, M.run s ls = some t → Inv ks s → M.AllSteps Ok s ls →
      Inv (ks ++ ls) t := by
    intro ls
    induction ls with
    | nil =>
      intro s ks hrun h _
      cases hrun
      rw [List.append_nil]
      exact h
    | cons l ls ih =>
      intro s ks hrun h hok
      rcases M.run_cons_eq_some.mp hrun with ⟨u, hu, hrun'⟩
      rw [List.append_cons]
      exact ih u (ks ++ [l]) hrun' (hstep ks s l u hu hok.1 h) (hok.2 u hu)
  exact hrest ls s [] hrun h₀ hok

/-- The exact rule, for a property `P` of states and a property `D` of steps: if,
under an invariant `J` of the steps that meet `S` and `Ok`, a step that meets
`S` has `D` and keeps `P` exactly when it meets `Ok`, then all steps of a run of
such steps have `D`, and all its states `P`, exactly when all its steps meet `Ok`. -/
theorem allSteps_and_allStates_iff {J P : σ → Prop} {S D Ok : σ → ℓ → Prop}
    (hJ : ∀ s l t, M.step s l = some t → S s l → J s → P s → Ok s l → J t)
    (hP : ∀ s l t, M.step s l = some t → S s l → J s → P s → (D s l ∧ P t ↔ Ok s l))
    {s t : σ} {ls : List ℓ} (hrun : M.run s ls = some t) (hS : M.AllSteps S s ls)
    (hJ₀ : J s) (hP₀ : P s) :
    M.AllSteps D s ls ∧ M.AllStates P s ls ↔ M.AllSteps Ok s ls := by
  induction ls generalizing s with
  | nil => exact iff_of_true ⟨True.intro, hP₀⟩ True.intro
  | cons l ls ih =>
    rcases M.run_cons_eq_some.mp hrun with ⟨u, hu, hrun'⟩
    have hstep : D s l ∧ P u ↔ Ok s l := hP s l u hu hS.1 hJ₀ hP₀
    -- the step leads to `u` only
    have honly : ∀ {Q : σ → Prop}, (∀ t, M.step s l = some t → Q t) ↔ Q u := by
      intro Q
      constructor
      · intro h
        exact h u hu
      · intro h t ht
        rw [hu] at ht
        exact Option.some.inj ht ▸ h
    constructor
    · rintro ⟨hD, hall⟩
      have htail : M.AllStates P u ls := honly.mp hall.2
      have hp : P u := AllStates.head M htail
      have hok : Ok s l := hstep.mp ⟨hD.1, hp⟩
      have hJu : J u := hJ s l u hu hS.1 hJ₀ hP₀ hok
      exact ⟨hok, honly.mpr ((ih hrun' (hS.2 u hu) hJu hp).mp ⟨honly.mp hD.2, htail⟩)⟩
    · intro h
      obtain ⟨hd, hp⟩ := hstep.mpr h.1
      have hJu : J u := hJ s l u hu hS.1 hJ₀ hP₀ h.1
      obtain ⟨hD, hall⟩ := (ih hrun' (hS.2 u hu) hJu hp).mpr (honly.mp h.2)
      exact ⟨⟨hd, honly.mpr hD⟩, hP₀, honly.mpr hall⟩

/-- The rule for states alone: under an invariant `J` of the steps that meet `S`,
if such a step keeps `P` exactly when it meets `Ok`, then a run of such steps keeps
`P` in all its states exactly when all its steps meet `Ok`. -/
theorem allStates_iff_allSteps {J P : σ → Prop} {S Ok : σ → ℓ → Prop}
    (hJ : ∀ s l t, M.step s l = some t → S s l → J s → J t)
    (hP : ∀ s l t, M.step s l = some t → S s l → J s → P s → (P t ↔ Ok s l))
    {s t : σ} {ls : List ℓ} (hrun : M.run s ls = some t) (hS : M.AllSteps S s ls)
    (hJ₀ : J s) (hP₀ : P s) : M.AllStates P s ls ↔ M.AllSteps Ok s ls := by
  have hall : M.AllSteps (fun _ _ => True) s ls :=
    AllSteps.of_mem M (fun _ _ _ => True.intro) s
  have hiff : M.AllSteps (fun _ _ => True) s ls ∧ M.AllStates P s ls ↔ M.AllSteps Ok s ls := by
    apply M.allSteps_and_allStates_iff (S := S) (J := J) _ _ hrun hS hJ₀ hP₀
    · intro s l t hs hS hJ' _ _
      exact hJ s l t hs hS hJ'
    · intro s l t hs hS hJ' hP'
      exact (and_iff_right True.intro).trans (hP s l t hs hS hJ' hP')
  exact (and_iff_right hall).symm.trans hiff

/-- The rule for a machine whose every step keeps the invariant `J`. -/
theorem allStates_iff_of_invariant {J P : σ → Prop} {Ok : σ → ℓ → Prop}
    (hJ : ∀ s l t, M.step s l = some t → J s → J t)
    (hP : ∀ s l t, M.step s l = some t → J s → P s → (P t ↔ Ok s l))
    {s t : σ} {ls : List ℓ} (hrun : M.run s ls = some t) (hJ₀ : J s) (hP₀ : P s) :
    M.AllStates P s ls ↔ M.AllSteps Ok s ls := by
  have hall : M.AllSteps (fun _ _ => True) s ls :=
    AllSteps.of_mem M (fun _ _ _ => True.intro) s
  exact M.allStates_iff_allSteps (fun s l t hs _ => hJ s l t hs)
    (fun s l t hs _ => hP s l t hs) hrun hall hJ₀ hP₀

/-- Two conditions on steps that say the same under an invariant `J`, which
the second keeps, say the same about whole runs. -/
theorem allSteps_iff_allSteps {J : σ → Prop} {A B : σ → ℓ → Prop}
    (hJ : ∀ s l t, M.step s l = some t → B s l → J s → J t)
    (hAB : ∀ s l, J s → (A s l ↔ B s l)) {s : σ} (h₀ : J s) (ls : List ℓ) :
    M.AllSteps A s ls ↔ M.AllSteps B s ls := by
  induction ls generalizing s with
  | nil => exact Iff.rfl
  | cons l ls ih =>
    constructor
    · intro h
      have hB : B s l := (hAB s l h₀).mp h.1
      exact ⟨hB, fun t ht => (ih (hJ s l t ht hB h₀)).mp (h.2 t ht)⟩
    · intro h
      exact ⟨(hAB s l h₀).mpr h.1, fun t ht => (ih (hJ s l t ht h.1 h₀)).mpr (h.2 t ht)⟩

/-! ## Simulation -/

/-- A step-wise simulation of the steps that meet `Ok` carries whole runs of
them: each step of `M` is answered by a run of `N` between related states. -/
theorem run_simulates {N : Machine τ m} {R : σ → τ → Prop} {Ok : σ → ℓ → Prop}
    (hstep : ∀ s l t s', M.step s l = some t → Ok s l → R s s' →
      ∃ ks t', N.run s' ks = some t' ∧ R t t')
    {s t : σ} {s' : τ} {ls : List ℓ} (hrun : M.run s ls = some t) (hok : M.AllSteps Ok s ls)
    (hR : R s s') : ∃ ks t', N.run s' ks = some t' ∧ R t t' := by
  induction ls generalizing s s' with
  | nil =>
    cases hrun
    exact ⟨[], s', rfl, hR⟩
  | cons l ls ih =>
    rcases M.run_cons_eq_some.mp hrun with ⟨u, hu, hrun'⟩
    rcases hstep s l u s' hu hok.1 hR with ⟨ks, u', hks, hRu⟩
    rcases ih hrun' (hok.2 u hu) hRu with ⟨js, t', hjs, hRt⟩
    exact ⟨ks ++ js, t', N.run_append_eq_some.mpr ⟨u', hks, hjs⟩, hRt⟩

/-- The same when the steps of `N` have to meet a condition of their own. -/
theorem run_simulates_steps {N : Machine τ m} {R : σ → τ → Prop} {Ok : σ → ℓ → Prop}
    {Ok' : τ → m → Prop}
    (hstep : ∀ s l t s', M.step s l = some t → Ok s l → R s s' →
      ∃ ks t', N.run s' ks = some t' ∧ N.AllSteps Ok' s' ks ∧ R t t')
    {s t : σ} {s' : τ} {ls : List ℓ} (hrun : M.run s ls = some t) (hok : M.AllSteps Ok s ls)
    (hR : R s s') : ∃ ks t', N.run s' ks = some t' ∧ N.AllSteps Ok' s' ks ∧ R t t' := by
  induction ls generalizing s s' with
  | nil =>
    cases hrun
    exact ⟨[], s', rfl, True.intro, hR⟩
  | cons l ls ih =>
    rcases M.run_cons_eq_some.mp hrun with ⟨u, hu, hrun'⟩
    rcases hstep s l u s' hu hok.1 hR with ⟨ks, u', hks, hksok, hRu⟩
    rcases ih hrun' (hok.2 u hu) hRu with ⟨js, t', hjs, hjsok, hRt⟩
    exact ⟨ks ++ js, t', N.run_append_eq_some.mpr ⟨u', hks, hjs⟩,
      AllSteps.append N hksok hks hjsok, hRt⟩

end Machine
