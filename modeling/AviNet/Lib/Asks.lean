import AviNet.Lib.Guards

/-!
# Asks — what code asks for, whatever it is answered

Code with guards, seen by those whom it sends its commands. `Allows cmd r` says
that the command may be answered by `r`.

* `Always`: on every way that the answers allow, all commands meet `Ok`;
* `Surely`: on every such way to the end there is a command that meets `Ok`.

Both pass from the code of a task to what is left of it after a step.
-/

namespace Guarded

variable {L C R : Type*} {Allows : C → R → Prop} {Ok Ok' : C → Prop}

/-- All commands meet `Ok`. -/
def Always (Allows : C → R → Prop) (Ok : C → Prop) : Guarded L C R → Prop
  | .done => True
  | .ask cmd k => Ok cmd ∧ ∀ r, Allows cmd r → (k r).Always Allows Ok
  | .hold _ _ body rest => body.Always Allows Ok ∧ rest.Always Allows Ok

/-- Some command meets `Ok` before the end. -/
def Surely (Allows : C → R → Prop) (Ok : C → Prop) : Guarded L C R → Prop
  | .done => False
  | .ask cmd k => Ok cmd ∨ ∀ r, Allows cmd r → (k r).Surely Allows Ok
  | .hold _ _ body rest => body.Surely Allows Ok ∨ rest.Surely Allows Ok

/-! ## Sequences -/

/-- Code run one after the other asks for what each part asks for. -/
theorem Always.seq {a b : Guarded L C R} (ha : a.Always Allows Ok) (hb : b.Always Allows Ok) :
    (a.seq b).Always Allows Ok := by
  induction a with
  | done => exact hb
  | ask cmd k ih => exact ⟨ha.1, fun r hr => ih r (ha.2 r hr)⟩
  | hold l mode body rest ihbody ihrest => exact ⟨ha.1, ihrest ha.2⟩

theorem Always.all {codes : List (Guarded L C R)} (h : ∀ a ∈ codes, a.Always Allows Ok) :
    (Guarded.all codes).Always Allows Ok := by
  induction codes with
  | nil => exact True.intro
  | cons a codes ih =>
    exact (h a List.mem_cons_self).seq (ih fun b hb => h b (List.mem_cons_of_mem a hb))

theorem Surely.seq_left {a : Guarded L C R} (h : a.Surely Allows Ok) (b : Guarded L C R) :
    (a.seq b).Surely Allows Ok := by
  induction a with
  | done => exact h.elim
  | ask cmd k ih =>
    rcases h with h | h
    · exact Or.inl h
    · exact Or.inr fun r hr => ih r (h r hr)
  | hold l mode body rest ihbody ihrest =>
    rcases h with h | h
    · exact Or.inl h
    · exact Or.inr (ihrest h)

/-! ## Tasks -/

/-- All that is left for a task to do. -/
def Task.Always (Allows : C → R → Prop) (Ok : C → Prop) (t : Task L C R) : Prop :=
  t.code.Always Allows Ok ∧ ∀ f ∈ t.frames, f.2.2.Always Allows Ok

def Task.Surely (Allows : C → R → Prop) (Ok : C → Prop) (t : Task L C R) : Prop :=
  t.code.Surely Allows Ok ∨ ∃ f ∈ t.frames, f.2.2.Surely Allows Ok

namespace Task

variable {frames : List (L × GuardMode × Guarded L C R)} {f : L × GuardMode × Guarded L C R}
  {cmd : C} {k : R → Guarded L C R} {r : R} {l : L} {mode : GuardMode} {body rest : Guarded L C R}

/-- The innermost guard is released. -/
theorem Always.release (h : Task.Always Allows Ok ⟨f :: frames, .done⟩) :
    Task.Always Allows Ok ⟨frames, f.2.2⟩ :=
  ⟨h.2 f List.mem_cons_self, fun g hg => h.2 g (List.mem_cons_of_mem f hg)⟩

/-- A guard is taken. -/
theorem Always.take (h : Task.Always Allows Ok ⟨frames, .hold l mode body rest⟩) :
    Task.Always Allows Ok ⟨(l, mode, rest) :: frames, body⟩ := by
  refine ⟨h.1.1, ?_⟩
  intro g hg
  rcases List.mem_cons.mp hg with rfl | hg
  · exact h.1.2
  · exact h.2 g hg

/-- A command is answered. -/
theorem Always.answer (h : Task.Always Allows Ok ⟨frames, .ask cmd k⟩) (hr : Allows cmd r) :
    Task.Always Allows Ok ⟨frames, k r⟩ := ⟨h.1.2 r hr, h.2⟩

theorem not_surely_end : ¬ Task.Surely Allows Ok (⟨[], .done⟩ : Task L C R) := by
  rintro (h | ⟨f, hf, -⟩)
  · exact h
  · cases hf

theorem Surely.release (h : Task.Surely Allows Ok ⟨f :: frames, .done⟩) :
    Task.Surely Allows Ok ⟨frames, f.2.2⟩ := by
  rcases h with h | ⟨g, hg, h⟩
  · exact h.elim
  · rcases List.mem_cons.mp hg with rfl | hg
    · exact Or.inl h
    · exact Or.inr ⟨g, hg, h⟩

theorem Surely.take (h : Task.Surely Allows Ok ⟨frames, .hold l mode body rest⟩) :
    Task.Surely Allows Ok ⟨(l, mode, rest) :: frames, body⟩ := by
  rcases h with h | ⟨g, hg, h⟩
  · rcases h with h | h
    · exact Or.inl h
    · exact Or.inr ⟨_, List.mem_cons_self, h⟩
  · exact Or.inr ⟨g, List.mem_cons_of_mem _ hg, h⟩

/-- A question has been answered rightly, or the right one is still to come. -/
theorem Surely.answer (h : Task.Surely Allows Ok ⟨frames, .ask cmd k⟩) (hr : Allows cmd r) :
    Ok cmd ∨ Task.Surely Allows Ok ⟨frames, k r⟩ := by
  rcases h with h | h
  · rcases h with h | h
    · exact Or.inl h
    · exact Or.inr (Or.inl (h r hr))
  · exact Or.inr (Or.inr h)

end Task

end Guarded
