import AviNet.Embedded.CApi
import AviNet.Lib.Machine
import AviNet.Lib.SharedQueue

/-!
# Embedded.Instances — instances of the C API and their command queue

Each instance is polled on its own, but the commands of all instances go
through one static queue, and a poll runs every command it finds there on the
instance that is polled. Tasks may call the API while another one polls.

* `served_iff`: each instance runs its own commands, in order and once each, as
  long as a poll takes commands of its own instance only and no instance is
  freed before its commands have run;
* `run_on_another`: two instances, a command on the one and a poll of the other.
-/

namespace AviNet.Embedded

/-- `AviWrapper`: an instance, and whether a poll has borrowed its `avi`. -/
structure AviWrapper where
  deviceId : UInt64
  borrowed : Bool
  deriving DecidableEq

/-- The instances by their handle, and `COMMAND_QUEUE` with the handle that each
command was issued on, the commands accepted and the commands run. -/
structure Instances where
  commands : SharedQueue ℕ AviCommand
  wrapper : ℕ → Option AviWrapper
  created : ℕ

namespace Instances

/-! ## Model layer -/

/-- `QUEUE_SIZE`. -/
def queueSize : ℕ := 16

inductive Label where
  /-- `avi_embedded_new` -/
  | new (deviceId : UInt64)
  /-- `avi_embedded_free` -/
  | free (w : ℕ)
  /-- a call of the API, on `none` for a null pointer -/
  | call (avi : Option ℕ) (c : ApiCall)
  /-- `avi_embedded_poll` up to its loop -/
  | beginPoll (w : ℕ)
  /-- one turn of the loop: the oldest command is received and run on the instance -/
  | receive (w : ℕ)
  /-- the rest of the poll, from an empty queue on -/
  | endPoll (w : ℕ)

/-- `send_command`. -/
def sendCommand (s : Instances) (w : ℕ) (cmd : AviCommand) : Instances × Int32 :=
  if s.commands.queue.length < queueSize then ({ s with commands := s.commands.put w cmd }, 0)
  else (s, queueFull)

/-- A call of the API with its answer. A handle that is not null is that of an
instance. -/
def call (s : Instances) (avi : Option ℕ) (c : ApiCall) : Option (Instances × Int32) :=
  match avi with
  | none => some (s, invalid)
  | some w => (s.wrapper w).map fun wrapper =>
    match c.command wrapper.deviceId with
    | .ok cmd => s.sendCommand w cmd
    | .error code => (s, code)

/-- Put the instance `w` in another state. -/
def setWrapper (s : Instances) (w : ℕ) (wrapper : Option AviWrapper) : Instances :=
  { s with wrapper := Function.update s.wrapper w wrapper }

def step (s : Instances) : Label → Option Instances
  | .new deviceId =>
    some { s.setWrapper s.created (some ⟨deviceId, false⟩) with created := s.created + 1 }
  | .free w =>
    match s.wrapper w with
    | some ⟨_, false⟩ => some (s.setWrapper w none)
    | _ => none
  | .call avi c => (s.call avi c).map Prod.fst
  | .beginPoll w =>
    match s.wrapper w with
    | some ⟨deviceId, false⟩ => some (s.setWrapper w (some ⟨deviceId, true⟩))
    | _ => none
  | .receive w =>
    match s.wrapper w with
    | some ⟨_, true⟩ => (s.commands.take w).map fun commands => { s with commands := commands }
    | _ => none
  | .endPoll w =>
    match s.wrapper w, s.commands.queue with
    | some ⟨deviceId, true⟩, [] => some (s.setWrapper w (some ⟨deviceId, false⟩))
    | _, _ => none

/-- No instance has been made. -/
def start : Instances := ⟨.empty, fun _ => none, 0⟩

end Instances

open Instances in
/-- The machine of all instances. -/
def instances : Machine Instances Label where
  Init s := s = start
  step := step

namespace Instances

/-- Each instance has run the commands accepted on it, in order and once each, but
for those that are pending, and none is pending for an instance that is gone. -/
def Served (s : Instances) : Prop :=
  ∀ w, s.commands.Served w ∧ (s.wrapper w = none → s.commands.pending w = [])

/-- The command that a call hands to `send_command`. -/
def Sends (s : Instances) (avi : Option ℕ) (c : ApiCall) (w : ℕ) (cmd : AviCommand) : Prop :=
  avi = some w ∧ ∃ wrapper, s.wrapper w = some wrapper ∧ c.command wrapper.deviceId = .ok cmd

/-- A call answers `-2` exactly when its arguments are valid and the queue is full,
`0` exactly when its command has been queued, and otherwise queues nothing. -/
def Answered (s : Instances) : Label → Prop
  | .call avi c => ∀ t code, s.call avi c = some (t, code) →
    (code = queueFull ↔ queueSize ≤ s.commands.queue.length ∧ ∃ w cmd, s.Sends avi c w cmd) ∧
    (code = 0 → ∃ w cmd, s.Sends avi c w cmd ∧ t = { s with commands := s.commands.put w cmd }) ∧
    (code ≠ 0 → t = s)
  | _ => True

/-- A poll takes a command of its own instance, and an instance is freed when none
of its commands is queued. -/
def Own (s : Instances) : Label → Prop
  | .receive w => ∀ e ∈ s.commands.queue.head?, e.1 = w
  | .free w => ∀ e ∈ s.commands.queue, e.1 ≠ w
  | _ => True

/-! ## Answers -/

theorem call_answered (s : Instances) (l : Label) : s.Answered l := by
  cases l with
  | call avi c =>
    intro t code h
    cases avi with
    | none =>
      -- a null handle
      cases h
      refine ⟨iff_of_false (by decide) ?_, ?_, fun _ => rfl⟩
      · rintro ⟨-, w, cmd, hw, -⟩
        cases hw
      · intro hcode
        exact absurd hcode (by decide)
    | some w =>
      obtain ⟨wrapper, hwrapper, hcall⟩ := Option.map_eq_some_iff.mp h
      cases hcmd : c.command wrapper.deviceId with
      | error e =>
        have hinvalid : e = invalid := rejects_command _ c e hcmd
        simp only [hcmd, Prod.mk.injEq] at hcall
        rcases hcall with ⟨rfl, rfl⟩
        rw [hinvalid]
        refine ⟨iff_of_false (by decide) ?_, ?_, fun _ => rfl⟩
        · rintro ⟨-, w', cmd, ⟨⟩, wrapper', hwrapper', hsends⟩
          cases hwrapper.symm.trans hwrapper'
          cases hcmd.symm.trans hsends
        · intro hcode
          exact absurd hcode (by decide)
      | ok cmd =>
        have hsends : s.Sends (some w) c w cmd := ⟨rfl, wrapper, hwrapper, hcmd⟩
        simp only [hcmd, sendCommand] at hcall
        split_ifs at hcall with hroom
        · -- the command is queued
          cases hcall
          refine ⟨iff_of_false (by decide) ?_, ?_, ?_⟩
          · rintro ⟨hfull, -⟩
            omega
          · intro _
            exact ⟨w, cmd, hsends, rfl⟩
          · intro hcode
            exact absurd rfl hcode
        · -- the queue is full
          cases hcall
          refine ⟨iff_of_true rfl ⟨by omega, w, cmd, hsends⟩, ?_, fun _ => rfl⟩
          intro hcode
          exact absurd hcode (by decide)
  | _ => exact True.intro

/-! ## Steps -/

/-- A live instance that stays alive changes nobody's account. -/
theorem setWrapper_served {s : Instances} (h : s.Served) (w : ℕ) (wrapper : AviWrapper) :
    (s.setWrapper w (some wrapper)).Served := by
  intro j
  refine ⟨(h j).1, ?_⟩
  intro hnone
  unfold setWrapper at hnone
  dsimp only at hnone
  by_cases hj : j = w
  · rw [hj, Function.update_self] at hnone
    cases hnone
  · rw [Function.update_of_ne hj] at hnone
    exact (h j).2 hnone

/-- An instance that is freed leaves nothing behind exactly if none of its commands
is queued. -/
theorem free_served_iff {s : Instances} (h : s.Served) (w : ℕ) :
    (s.setWrapper w none).Served ↔ s.Own (.free w) := by
  constructor
  · intro hserved
    apply SharedQueue.pending_eq_nil_iff.mp
    apply (hserved w).2
    exact Function.update_self ..
  · intro hown j
    refine ⟨(h j).1, ?_⟩
    intro hnone
    by_cases hj : j = w
    · rw [hj]
      exact SharedQueue.pending_eq_nil_iff.mpr hown
    · have hsame : (s.setWrapper w none).wrapper j = s.wrapper j :=
        Function.update_of_ne hj _ s.wrapper
      exact (h j).2 (hsame.symm.trans hnone)

/-- A call serves everybody, whatever it answers. -/
theorem call_served {s t : Instances} (h : s.Served) {avi : Option ℕ} {c : ApiCall} {code : Int32}
    (hcall : s.call avi c = some (t, code)) : t.Served := by
  obtain ⟨-, hzero, hother⟩ := call_answered s (.call avi c) t code hcall
  by_cases hcode : code = 0
  · obtain ⟨w, cmd, ⟨-, wrapper, hwrapper, -⟩, hput⟩ := hzero hcode
    rw [hput]
    intro j
    refine ⟨SharedQueue.put_served (fun i => (h i).1) w cmd j, ?_⟩
    intro hnone
    dsimp only at hnone ⊢
    -- the instance that has issued the command is there
    have hj : j ≠ w := by
      rintro rfl
      rw [hwrapper] at hnone
      cases hnone
    rw [SharedQueue.pending_put, if_neg hj]
    exact (h j).2 hnone
  · rw [hother hcode]
    exact h

/-- A poll that takes a command serves everybody exactly if the command is its own. -/
theorem receive_served_iff {s : Instances} (h : s.Served) {w : ℕ}
    {commands : SharedQueue ℕ AviCommand} (htake : s.commands.take w = some commands) :
    ({ s with commands := commands } : Instances).Served ↔ s.Own (.receive w) := by
  have hiff := SharedQueue.take_served_iff htake fun j => (h j).1
  constructor
  · intro hserved
    apply hiff.mp
    intro j
    exact (hserved j).1
  · intro hown j
    refine ⟨hiff.mpr hown j, ?_⟩
    intro hnone
    have hpending := SharedQueue.pending_eq_nil_iff.mp ((h j).2 hnone)
    apply SharedQueue.pending_eq_nil_iff.mpr
    intro e he
    exact hpending e (SharedQueue.mem_of_take htake he)

theorem step_served_iff (s : Instances) (l : Label) (t : Instances)
    (hstep : instances.step s l = some t) (h : s.Served) : t.Served ↔ s.Own l := by
  cases l with
  | new deviceId =>
    -- a new wrapper has nothing queued
    cases hstep
    exact iff_of_true (setWrapper_served h s.created ⟨deviceId, false⟩) True.intro
  | free w =>
    -- freeing drops what is queued for all
    simp only [instances, step] at hstep
    split at hstep
    · cases hstep
      exact free_served_iff h w
    · cases hstep
  | call avi c =>
    -- a call queues one command, or none
    obtain ⟨⟨u, code⟩, hcall, rfl⟩ := Option.map_eq_some_iff.mp hstep
    exact iff_of_true (call_served h hcall) True.intro
  | beginPoll w =>
    simp only [instances, step] at hstep
    split at hstep
    · cases hstep
      exact iff_of_true (setWrapper_served h w _) True.intro
    · cases hstep
  | receive w =>
    -- the receiver takes from the front, whoever queued it
    simp only [instances, step] at hstep
    split at hstep
    · obtain ⟨commands, htake, rfl⟩ := Option.map_eq_some_iff.mp hstep
      exact receive_served_iff h htake
    · cases hstep
  | endPoll w =>
    simp only [instances, step] at hstep
    split at hstep
    · cases hstep
      exact iff_of_true (setWrapper_served h w _) True.intro
    · cases hstep

/-! ## Runs -/

/-- **Commands run where they were issued**: in every run, with any calls, polls
and frees on any number of instances, each instance runs the commands accepted
on it, in order and once each, and each call is answered as it should be, if
and only if every command that a poll takes was issued on the polled instance
and every instance that is freed has none of its commands in the queue. -/
theorem served_iff (s t : Instances) (h₀ : instances.Init s) (ls : List Label)
    (hrun : instances.run s ls = some t) :
    (instances.AllStates Served s ls ∧ instances.AllSteps Answered s ls) ↔
      instances.AllSteps Own s ls := by
  have hserved : s.Served := by
    intro w
    rw [show s = start from h₀]
    exact ⟨SharedQueue.empty_served w, fun _ => rfl⟩
  have hanswered : instances.AllSteps Answered s ls :=
    Machine.AllSteps.of_mem _ (fun l _ s => call_answered s l) s
  have hiff := instances.allStates_iff_of_invariant (J := fun _ => True)
    (fun _ _ _ _ _ => True.intro) (fun s l t hs _ => step_served_iff s l t hs) hrun
    True.intro hserved
  exact (and_iff_left hanswered).trans hiff

/-! ## Two instances -/

/-- An instance is made, connects and is polled. -/
def connects : List Label :=
  [.new 7, .call (some 0) .connect, .beginPoll 0, .receive 0, .endPoll 0]

theorem served_iff_connects :
    (instances.AllStates Served start connects ∧ instances.AllSteps Answered start connects) ↔
      instances.AllSteps Own start connects := by
  have hrun : (instances.run start connects).isSome = true := by
    decide +kernel
  obtain ⟨t, ht⟩ := Option.isSome_iff_exists.mp hrun
  exact served_iff start t rfl connects ht

/-- Two instances are made, the first one connects, and the second one is polled. -/
def pollsAnother : List Label :=
  [.new 7, .new 8, .call (some 0) .connect, .beginPoll 1, .receive 1, .endPoll 1]

/-- The second instance runs the command of the first one. -/
theorem run_on_another : ¬ ∀ (s t : Instances) ls, instances.Init s →
    instances.run s ls = some t →
      instances.AllStates Served s ls ∧ instances.AllSteps Answered s ls := by
  intro h
  have hview : (instances.run start pollsAnother).map
      (fun t => (t.commands.accepted 1, t.commands.taken 1, t.commands.queue)) =
        some ([], [.connect 7], []) := by
    decide +kernel
  obtain ⟨t, ht, hview⟩ := Option.map_eq_some_iff.mp hview
  simp only [Prod.mk.injEq] at hview
  rcases hview with ⟨haccepted, htaken, hqueue⟩
  have hall := (h start t pollsAnother rfl ht).1
  rw [← List.append_nil pollsAnother] at hall
  have hserved : t.Served := Machine.AllStates.at_cut _ hall ht
  have hone := (hserved 1).1
  unfold SharedQueue.Served at hone
  rw [haccepted, htaken] at hone
  cases hone

end Instances

end AviNet.Embedded
