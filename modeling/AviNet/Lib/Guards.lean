import AviNet.Lib.Machine

/-!
# Guards — code that waits for locks while it holds others

One task takes guards of read-write locks, nested like its calls, and asks other
tasks for answers in between. No other task holds any of the locks, but others may
be queued for writing behind the guards of this one: then a further read of the
same lock is not granted either, and whoever waits for a lock that it holds
itself waits for ever.

* `Completes`: whatever is answered and whoever is queued at each moment, the task
  never waits for a lock and comes to its end;
* `completes_iff`: it does exactly if no lock is taken under a guard of the same
  lock, except for reading under reading guards when nobody can be queued.
-/

/-- How a lock is taken. -/
inductive GuardMode where
  | read
  | write
  deriving DecidableEq

/-- Code over the locks `L`, commands `C` and answers `R`. -/
inductive Guarded (L C R : Type*) where
  | done
  /-- send a command and go on with the answer -/
  | ask (cmd : C) (k : R → Guarded L C R)
  /-- take a lock, run `body` under the guard, release it and run `rest` -/
  | hold (l : L) (mode : GuardMode) (body rest : Guarded L C R)

namespace Guarded

variable {L C R : Type*}

/-- One after the other. -/
def seq : Guarded L C R → Guarded L C R → Guarded L C R
  | .done, next => next
  | .ask cmd k, next => .ask cmd fun r => (k r).seq next
  | .hold l mode body rest, next => .hold l mode body (rest.seq next)

/-- All of them, in order. -/
def all (codes : List (Guarded L C R)) : Guarded L C R := codes.foldr seq .done

/-- A task: the guards it holds, the innermost first, each with the code that follows its
release, and what is left to run under them. -/
structure Task (L C R : Type*) where
  frames : List (L × GuardMode × Guarded L C R)
  code : Guarded L C R

/-- The guards held. -/
def Task.held (t : Task L C R) : List (L × GuardMode) := t.frames.map fun f => (f.1, f.2.1)

/-- The lock is granted: the task holds no guard of it, or it holds reading guards, reads
again, and nobody is queued for writing. -/
def Granted (held : List (L × GuardMode)) (queued : L → Bool) (l : L) (mode : GuardMode) : Prop :=
  ∀ g ∈ held, g.1 = l → mode = .read ∧ g.2 = .read ∧ queued l = false

instance [DecidableEq L] (held : List (L × GuardMode)) (queued : L → Bool) (l : L)
    (mode : GuardMode) : Decidable (Granted held queued l mode) :=
  inferInstanceAs (Decidable (∀ g ∈ held, g.1 = l → mode = .read ∧ g.2 = .read ∧ queued l = false))

/-- What the other tasks do at one moment: the locks they are queued for, and the answer
to a command. -/
structure Moment (L R : Type*) where
  queued : L → Bool
  answer : R

/-- A step of the task; `none` if it waits, or has ended. -/
def step [DecidableEq L] (t : Task L C R) (now : Moment L R) : Option (Task L C R) :=
  match t.code with
  | .done =>
    match t.frames with
    | [] => none
    | f :: frames => some ⟨frames, f.2.2⟩
  | .ask _ k => some ⟨t.frames, k now.answer⟩
  | .hold l mode body rest =>
    if Granted t.held now.queued l mode then some ⟨(l, mode, rest) :: t.frames, body⟩ else none

end Guarded

/-- The machine of a task that starts without a guard. -/
def guarded (L C R : Type*) [DecidableEq L] :
    Machine (Guarded.Task L C R) (Guarded.Moment L R) where
  Init t := t.frames = []
  step := Guarded.step

namespace Guarded

variable {L C R : Type*} [DecidableEq L] {mayQueue : L → Bool}

/-- At this moment nobody is queued but for locks in `mayQueue`. -/
def Moment.Within (mayQueue : L → Bool) (now : Moment L R) : Prop :=
  ∀ l, now.queued l = true → mayQueue l = true

/-- The task comes to its end after finitely many steps, none of which is a wait. -/
def Completes (mayQueue : L → Bool) (t : Task L C R) : Prop :=
  ∀ history : ℕ → Moment L R, (∀ n, (history n).Within mayQueue) →
    ∃ n, (guarded L C R).run t ((List.range n).map history) = some ⟨[], .done⟩

/-- The code takes no lock that it, or `held`, holds already, except for reading under
reading guards when nobody can be queued. -/
def Disjoint (mayQueue : L → Bool) (held : List (L × GuardMode)) : Guarded L C R → Prop
  | .done => True
  | .ask _ k => ∀ r, (k r).Disjoint mayQueue held
  | .hold l mode body rest =>
    Granted held mayQueue l mode ∧ body.Disjoint mayQueue ((l, mode) :: held) ∧
      rest.Disjoint mayQueue held

omit [DecidableEq L] in
theorem Granted.mono {held : List (L × GuardMode)} {l : L} {mode : GuardMode}
    {now : Moment L R} (h : Granted held mayQueue l mode) (hnow : now.Within mayQueue) :
    Granted held now.queued l mode := by
  intro g hg hl
  rcases h g hg hl with ⟨hmode, hread, hfree⟩
  refine ⟨hmode, hread, ?_⟩
  by_contra hqueued
  rw [hnow l (Bool.not_eq_false _ ▸ hqueued)] at hfree
  cases hfree

/-! ## Sequences -/

variable {held : List (L × GuardMode)}

omit [DecidableEq L] in
theorem disjoint_seq [Nonempty R] (a b : Guarded L C R) :
    (a.seq b).Disjoint mayQueue held ↔ a.Disjoint mayQueue held ∧ b.Disjoint mayQueue held := by
  induction a with
  | done => exact (and_iff_right True.intro).symm
  | ask cmd k ih =>
    show (∀ r, ((k r).seq b).Disjoint mayQueue held) ↔ _
    simp only [ih]
    constructor
    · intro h
      rcases (inferInstance : Nonempty R) with ⟨r⟩
      exact ⟨fun r => (h r).1, (h r).2⟩
    · rintro ⟨hk, hb⟩ r
      exact ⟨hk r, hb⟩
  | hold l mode body rest _ ih =>
    show Granted held mayQueue l mode ∧ _ ∧ (rest.seq b).Disjoint mayQueue held ↔ _
    rw [ih, Disjoint]
    tauto

omit [DecidableEq L] in
theorem disjoint_all [Nonempty R] (codes : List (Guarded L C R)) :
    (all codes).Disjoint mayQueue held ↔ ∀ code ∈ codes, code.Disjoint mayQueue held := by
  induction codes with
  | nil => exact iff_of_true True.intro nofun
  | cons code codes ih =>
    show (code.seq (all codes)).Disjoint mayQueue held ↔ _
    rw [disjoint_seq, ih, List.forall_mem_cons]

/-! ## Completion -/

/-- One more moment in front of a history. -/
theorem map_range_succ {α : Type*} (f : ℕ → α) (n : ℕ) :
    (List.range (n + 1)).map f = f 0 :: (List.range n).map fun i => f (i + 1) := by
  rw [List.range_succ_eq_map, List.map_cons, List.map_map]
  rfl

/-- **Unfolding** of completion: the task has ended, or goes on at every moment to a
task that completes. -/
theorem completes_step_iff {t : Task L C R} (hrunning : t ≠ ⟨[], .done⟩) :
    Completes mayQueue t ↔ ∀ now : Moment L R, now.Within mayQueue →
      ∃ t', (guarded L C R).step t now = some t' ∧ Completes mayQueue t' := by
  constructor
  · intro h now hnow
    -- the first step does not depend on what comes after it
    have hfirst : ∃ t', (guarded L C R).step t now = some t' := by
      rcases h (fun _ => now) fun _ => hnow with ⟨n, hn⟩
      cases n with
      | zero => exact absurd (Option.some.inj hn) hrunning
      | succ n =>
        rw [map_range_succ] at hn
        rcases (guarded L C R).run_cons_eq_some.mp hn with ⟨t', hstep, -⟩
        exact ⟨t', hstep⟩
    rcases hfirst with ⟨t', hstep⟩
    refine ⟨t', hstep, ?_⟩
    intro history hwithin
    -- a future of the next task is one of this task, a moment later
    let longer : ℕ → Moment L R := fun i => Nat.casesOn i now history
    have hlonger : ∀ i, (longer i).Within mayQueue := by
      rintro (_ | i)
      · exact hnow
      · exact hwithin i
    rcases h longer hlonger with ⟨n, hn⟩
    cases n with
    | zero => exact absurd (Option.some.inj hn) hrunning
    | succ n =>
      rw [map_range_succ] at hn
      rcases (guarded L C R).run_cons_eq_some.mp hn with ⟨u, hu, hrun⟩
      have hsame : u = t' := Option.some.inj (hu.symm.trans hstep)
      rw [hsame] at hrun
      exact ⟨n, hrun⟩
  · -- the other way round: one step, then what is left
    intro h history hwithin
    rcases h (history 0) (hwithin 0) with ⟨t', hstep, hrest⟩
    rcases hrest (fun i => history (i + 1)) fun i => hwithin (i + 1) with ⟨n, hn⟩
    refine ⟨n + 1, ?_⟩
    rw [map_range_succ]
    exact (guarded L C R).run_cons_eq_some.mpr ⟨t', hstep, hn⟩

/-- Code under the guards of `frames` completes exactly if it takes no lock twice and what
follows it completes. -/
theorem completes_frames_iff [Nonempty R] (code : Guarded L C R)
    (frames : List (L × GuardMode × Guarded L C R)) :
    Completes mayQueue ⟨frames, code⟩ ↔
      code.Disjoint mayQueue (Task.held ⟨frames, code⟩) ∧ Completes mayQueue ⟨frames, .done⟩ := by
  rcases (inferInstance : Nonempty R) with ⟨answer⟩
  -- the worst moment: everyone is queued who can be
  have hworst : (⟨mayQueue, answer⟩ : Moment L R).Within mayQueue := fun _ => id
  induction code generalizing frames with
  | done => exact (and_iff_right True.intro).symm
  | ask cmd k ih =>
    rw [completes_step_iff (by simp)]
    constructor
    · intro h
      have hnext : ∀ r, Completes mayQueue ⟨frames, k r⟩ := by
        intro r
        rcases h ⟨mayQueue, r⟩ hworst with ⟨t', hstep, hrest⟩
        cases hstep
        exact hrest
      exact ⟨fun r => ((ih r frames).mp (hnext r)).1, ((ih answer frames).mp (hnext answer)).2⟩
    · rintro ⟨hk, hdone⟩ now -
      exact ⟨_, rfl, (ih now.answer frames).mpr ⟨hk now.answer, hdone⟩⟩
  | hold l mode body rest ihbody ihrest =>
    -- the guard is released when the body has been run
    have hrelease : Completes mayQueue ⟨(l, mode, rest) :: frames, .done⟩ ↔
        Completes mayQueue ⟨frames, rest⟩ := by
      rw [completes_step_iff (by simp)]
      constructor
      · intro h
        rcases h ⟨mayQueue, answer⟩ hworst with ⟨t', hstep, hrest⟩
        cases hstep
        exact hrest
      · intro h now _
        exact ⟨_, rfl, h⟩
    have hbody := (ihbody ((l, mode, rest) :: frames)).trans
      (and_congr_right fun _ => hrelease.trans (ihrest frames))
    rw [completes_step_iff (by simp), Disjoint]
    constructor
    · intro h
      rcases h ⟨mayQueue, answer⟩ hworst with ⟨t', hstep, hrest⟩
      simp only [guarded, step] at hstep
      split_ifs at hstep with hgranted
      cases hstep
      rcases hbody.mp hrest with ⟨hinside, hafter, hdone⟩
      exact ⟨⟨hgranted, hinside, hafter⟩, hdone⟩
    · rintro ⟨⟨hgranted, hinside, hafter⟩, hdone⟩ now hnow
      refine ⟨⟨(l, mode, rest) :: frames, body⟩, ?_, hbody.mpr ⟨hinside, hafter, hdone⟩⟩
      simp only [guarded, step]
      rw [if_pos (hgranted.mono hnow)]

/-- **Completion**: a task that starts without a guard never waits for a lock and comes to
its end, whatever the others do, exactly if it takes no lock twice. -/
theorem completes_iff [Nonempty R] (code : Guarded L C R) :
    Completes mayQueue ⟨[], code⟩ ↔ code.Disjoint mayQueue [] := by
  have hended : Completes mayQueue (⟨[], .done⟩ : Task L C R) := fun _ _ => ⟨0, rfl⟩
  rw [completes_frames_iff]
  exact and_iff_left hended

end Guarded
