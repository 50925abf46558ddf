import AviNet.Lib.Machine
import AviNet.Lib.Program
import AviNet.Runtime.Frames

/-!
# Runtime.Pipeline — the runtime, the event queues and the event loop

The four tasks between the swarm and the user's callbacks: the runtime, which
emits events one by one while it runs a handler; the forwarder, which holds one
event at a time; the event loop of the device, which handles one event at a
time and calls back into the runtime; and everybody else with a handle.

* `no_circular_wait`: as long as all events of a handler fit into the event
  queue whenever the loop has a command that the runtime has not taken, the
  runtime is never suspended on a full queue while the loop waits for such a
  command; and a run that breaks the condition can be continued to that state;
* `deadlock_stays`: once the two queues are full as well, nobody ever moves;
* `callback_deadlock`: one callback that asks for the context while 202 more
  events come in.
-/

namespace AviNet

/-- Capacity of the command queue and of the two event queues. -/
def queueCapacity : ℕ := 100

/-- Who has issued a command. -/
inductive Client where
  /-- the event loop of the device -/
  | loop
  | other
  deriving DecidableEq

/-- The tasks and the queues between them. -/
structure Pipeline (Peer : Type) [LinearOrder Peer] where
  rt : Runtime Peer
  /-- what is left of the handler of the runtime -/
  pending : List (Effect Peer)
  /-- who is to get its answer -/
  asker : Client
  /-- the commands issued and not taken, the oldest first; those beyond the
  capacity are with their senders, who wait in this order -/
  commands : List (Client × Command)
  eventQueue : List AviEvent
  /-- the event the forwarder is about to pass on -/
  held : Option AviEvent
  userQueue : List AviEvent
  loop : Caller Unit Command Reply

namespace Pipeline

variable {Peer : Type} [LinearOrder Peer]

/-! ## Model layer -/

inductive Label (Peer : Type) where
  /-- the runtime begins to handle a swarm event -/
  | swarm (env : Env Peer) (event : SwarmEvent Peer)
  /-- the heartbeat of the runtime -/
  | tick (env : Env Peer)
  /-- the runtime takes the next command -/
  | take (env : Env Peer)
  /-- the next effect of the handler -/
  | emit
  /-- the forwarder takes an event -/
  | forwardTake
  /-- the forwarder passes its event on -/
  | forwardPut
  /-- the loop takes an event; `p` is what `handle_event` and the callbacks do with it -/
  | next (p : Program Unit Command Reply)
  /-- the loop runs up to its next call -/
  | run
  /-- somebody else issues a command -/
  | issue (cmd : Command)

/-- The answer `r` reaches whoever has asked. -/
def answer (s : Pipeline Peer) (r : Reply) : Pipeline Peer :=
  match s.asker, s.loop with
  | .loop, .waiting _ k => { s with asker := .other, loop := .ready (k r) }
  | _, _ => s

/-- The next effect: an event needs room in the queue. -/
def emitOne (s : Pipeline Peer) : Option (Pipeline Peer) :=
  match s.pending with
  | [] => none
  | .event e :: rest =>
    if s.eventQueue.length < queueCapacity then
      some { s with pending := rest, eventQueue := s.eventQueue ++ [e] }
    else none
  | .reply r :: rest => some (answer { s with pending := rest } r)
  | _ :: rest => some { s with pending := rest }

def step (lib : External Peer) (s : Pipeline Peer) : Label Peer → Option (Pipeline Peer)
  | .swarm env event =>
    match s.pending with
    | [] =>
      let (rt, effects) := s.rt.handleSwarmEvent lib env event
      some { s with rt := rt, pending := effects, asker := .other }
    | _ :: _ => none
  | .tick env =>
    match s.pending with
    | [] => some { s with pending := s.rt.heartbeat env, asker := .other }
    | _ :: _ => none
  | .take env =>
    match s.pending, s.commands with
    | [], (client, cmd) :: rest =>
      let (rt, effects) := s.rt.handleCommand lib env cmd
      some { s with rt := rt, pending := effects, asker := client, commands := rest }
    | _, _ => none
  | .emit => s.emitOne
  | .forwardTake =>
    match s.held, s.eventQueue with
    | none, e :: rest => some { s with held := some e, eventQueue := rest }
    | _, _ => none
  | .forwardPut =>
    match s.held with
    | some e =>
      if s.userQueue.length < queueCapacity then
        some { s with held := none, userQueue := s.userQueue ++ [e] }
      else none
    | none => none
  | .next p =>
    match s.loop, s.userQueue with
    | .idle, _ :: rest => some { s with userQueue := rest, loop := .ready p }
    | _, _ => none
  | .run =>
    match s.loop with
    | .ready (.done _) => some { s with loop := .idle }
    | .ready (.call _ cmd k) =>
      some { s with loop := .waiting cmd k, commands := s.commands ++ [(.loop, cmd)] }
    | _ => none
  | .issue cmd => some { s with commands := s.commands ++ [(.other, cmd)] }

/-- Everything has just been started. -/
def booted (rt : Runtime Peer) : Pipeline Peer :=
  ⟨rt, [], .other, [], [], none, [], .idle⟩

end Pipeline

open Pipeline in
/-- The machine of the four tasks. -/
def pipeline {Peer : Type} [LinearOrder Peer] (lib : External Peer) :
    Machine (Pipeline Peer) (Pipeline.Label Peer) where
  Init s := ∃ rt, s = booted rt
  step := step lib

namespace Pipeline

variable {Peer : Type} [LinearOrder Peer]

/-- The runtime is suspended on the full event queue. -/
def Suspended (s : Pipeline Peer) : Prop :=
  (∃ e rest, s.pending = .event e :: rest) ∧ s.eventQueue.length = queueCapacity

instance decidableEventFirst : ∀ l : List (Effect Peer), Decidable (∃ e rest, l = .event e :: rest)
  | .event e :: rest => isTrue ⟨e, rest, rfl⟩
  | [] | .reply _ :: _ | .send _ _ :: _ | .respond :: _ | .published _ _ :: _ | .bootstrap :: _
  | .addAddress _ _ :: _ | .dial _ :: _ | .closeCommands :: _ => isFalse nofun

instance (s : Pipeline Peer) : Decidable s.Suspended :=
  inferInstanceAs (Decidable (_ ∧ _))

/-- The loop waits for the answer to a command that the runtime has not taken. -/
def Untaken (s : Pipeline Peer) : Prop :=
  s.loop.IsWaiting ∧ ∃ entry ∈ s.commands, entry.1 = .loop

instance (s : Pipeline Peer) : Decidable s.Untaken :=
  inferInstanceAs (Decidable (_ ∧ _))

def CircularWait (s : Pipeline Peer) : Prop := s.Suspended ∧ s.Untaken

/-- The same, when the forwarder cannot help either. -/
def Deadlock (s : Pipeline Peer) : Prop :=
  s.CircularWait ∧ s.held.isSome = true ∧ s.userQueue.length = queueCapacity

instance (s : Pipeline Peer) : Decidable s.Deadlock :=
  inferInstanceAs (Decidable ((_ ∧ _) ∧ _ ∧ _))

/-- The events in the queue and those the running handler has still to emit. -/
def load (s : Pipeline Peer) : ℕ := s.eventQueue.length + (Runtime.eventsOf s.pending).length

/-- The events of a handler fit into the queue if the loop has a command
outstanding that is not taken. -/
def HasRoom (lib : External Peer) (s : Pipeline Peer) : Label Peer → Prop
  | .swarm env event => s.Untaken → s.eventQueue.length +
      (Runtime.eventsOf (s.rt.handleSwarmEvent lib env event).2).length ≤ queueCapacity
  | .run =>
    match s.loop with
    | .ready (.call _ _ _) => s.load ≤ queueCapacity
    | _ => True
  | _ => True

instance (lib : External Peer) (s : Pipeline Peer) : ∀ l, Decidable (s.HasRoom lib l)
  | .swarm _ _ => inferInstanceAs (Decidable (_ → _))
  | .run =>
    match h : s.loop with
    | .ready (.call _ _ _) => decidable_of_iff (s.load ≤ queueCapacity) (by simp only [HasRoom, h])
    | .ready (.done _) | .idle | .waiting _ _ => isTrue (by simp only [HasRoom, h])
  | .tick _ | .take _ | .emit | .forwardTake | .forwardPut | .next _ | .issue _ => isTrue True.intro

/-! ## Invariants -/

/-- The commands of the loop that are under way. -/
def asking (s : Pipeline Peer) : ℕ :=
  (s.commands.countP fun entry => entry.1 = .loop) + if s.asker = .loop then 1 else 0

/-- The event queue does not overflow, and the loop has one command under way at most. -/
structure Wf (s : Pipeline Peer) : Prop where
  queue : s.eventQueue.length ≤ queueCapacity
  asking : s.asking ≤ s.loop.outstanding

/-- What `HasRoom` keeps. -/
def Roomy (s : Pipeline Peer) : Prop := s.Untaken → s.load ≤ queueCapacity

section Steps

variable {lib : External Peer} {s t : Pipeline Peer}

theorem Untaken.pos (h : s.Untaken) : 0 < s.commands.countP fun entry => entry.1 = .loop :=
  List.countP_pos_iff.mpr (h.2.imp fun _ he => ⟨he.1, decide_eq_true he.2⟩)

/-- While a command of the loop is not taken, answers go to others. -/
theorem Wf.asker_of_untaken (h : s.Wf) (hu : s.Untaken) : s.asker = .other := by
  have hasking := h.asking
  have hpos := hu.pos
  have hone := s.loop.outstanding_le_one
  unfold Pipeline.asking at hasking
  cases hs : s.asker with
  | other => rfl
  | loop =>
    rw [hs, if_pos rfl] at hasking
    omega

theorem answer_of_other (h : s.asker = .other) (r : Reply) : s.answer r = s := by
  unfold answer
  rw [h]

/-- **Inversion**: an event goes into the queue, an answer to its asker, and
everything else leaves the pipeline. -/
theorem emitOne_cases (h : s.emitOne = some t) :
    (∃ e rest, s.pending = .event e :: rest ∧ s.eventQueue.length < queueCapacity ∧
      t = { s with pending := rest, eventQueue := s.eventQueue ++ [e] }) ∨
    ∃ effect rest, s.pending = effect :: rest ∧
      Runtime.eventsOf s.pending = Runtime.eventsOf rest ∧
      (t = { s with pending := rest } ∨ ∃ r, t = answer { s with pending := rest } r) := by
  unfold emitOne at h
  cases hp : s.pending with
  | nil =>
    rw [hp] at h
    cases h
  | cons effect rest =>
    rw [hp] at h
    cases effect with
    | event e =>
      -- an event needs room in the queue
      dsimp only at h
      split_ifs at h with hlt
      cases h
      exact Or.inl ⟨e, rest, rfl, hlt, rfl⟩
    | reply r =>
      -- an answer goes to the caller that waits
      cases h
      exact Or.inr ⟨_, rest, rfl, rfl, Or.inr ⟨r, rfl⟩⟩
    | _ =>
      -- anything else just leaves
      cases h
      exact Or.inr ⟨_, rest, rfl, rfl, Or.inl rfl⟩

/-- Only an event can be held up. -/
theorem suspended_of_emitOne {effect : Effect Peer} {rest : List (Effect Peer)}
    (hp : s.pending = effect :: rest) (h : s.emitOne = none) :
    ∃ e, effect = .event e ∧ queueCapacity ≤ s.eventQueue.length := by
  unfold emitOne at h
  rw [hp] at h
  cases effect with
  | event e =>
    dsimp only at h
    split_ifs at h with hlt
    exact ⟨e, rfl, not_lt.mp hlt⟩
  | _ => cases h

@[simp] theorem pending_answer (r : Reply) : (s.answer r).pending = s.pending := by
  unfold answer
  split <;> rfl

@[simp] theorem eventQueue_answer (r : Reply) : (s.answer r).eventQueue = s.eventQueue := by
  unfold answer
  split <;> rfl

theorem length_pending_emitOne (h : s.emitOne = some t) :
    t.pending.length + 1 = s.pending.length := by
  rcases emitOne_cases h with ⟨e, rest, hp, -, rfl⟩ | ⟨effect, rest, hp, -, rfl | ⟨r, rfl⟩⟩
  · rw [hp, List.length_cons]
  · rw [hp, List.length_cons]
  · rw [hp, List.length_cons, pending_answer]

/-- Emitting an event moves it, emitting anything else does not touch the events. -/
theorem load_emitOne (h : s.emitOne = some t) : t.load = s.load := by
  unfold load
  rcases emitOne_cases h with ⟨e, rest, hp, -, rfl⟩ | ⟨effect, rest, -, hevents, ht⟩
  · rw [hp]
    simp only [Runtime.eventsOf, List.filterMap_cons, List.length_append, List.length_cons,
      List.length_nil]
    omega
  · rw [hevents]
    rcases ht with rfl | ⟨r, rfl⟩ <;> simp

/-- A command of the loop that is not taken is not answered by the running handler. -/
theorem untaken_emitOne (h : s.emitOne = some t) (hwf : s.Wf) (hu : s.Untaken) : t.Untaken := by
  rcases emitOne_cases h with ⟨e, rest, -, -, rfl⟩ | ⟨effect, rest, -, -, rfl | ⟨r, rfl⟩⟩
  · exact hu
  · exact hu
  · have hother : ({ s with pending := rest } : Pipeline Peer).asker = .other :=
      hwf.asker_of_untaken hu
    rw [answer_of_other hother]
    exact hu

/-- Emitting takes no command out of the queue. -/
theorem untaken_of_emitOne (h : s.emitOne = some t) (hu : t.Untaken) : s.Untaken := by
  rcases emitOne_cases h with ⟨e, rest, -, -, rfl⟩ | ⟨effect, rest, -, -, rfl | ⟨r, rfl⟩⟩
  · exact hu
  · exact hu
  · unfold answer at hu
    split at hu
    · exact hu.1.elim
    · exact hu

/-- Emitting keeps the queues within their capacities. -/
theorem Wf.emitOne (hwf : s.Wf) (h : s.emitOne = some t) : t.Wf := by
  rcases emitOne_cases h with ⟨e, rest, -, hlt, rfl⟩ | ⟨effect, rest, -, -, rfl | ⟨r, rfl⟩⟩
  · refine ⟨?_, hwf.asking⟩
    rw [List.length_append]
    exact hlt
  · exact ⟨hwf.queue, hwf.asking⟩
  · refine ⟨by rw [eventQueue_answer]; exact hwf.queue, ?_⟩
    have hasking := hwf.asking
    unfold answer
    split
    · -- the answer to the loop: nothing is under way any more
      rename_i hasker hloop
      unfold Pipeline.asking at hasking ⊢
      simp only at hasker hloop
      rw [if_pos hasker, hloop] at hasking
      simp only [Caller.outstanding, reduceCtorEq, if_false] at hasking ⊢
      omega
    · exact hasking

/-- Who moves, when, and what is different afterwards. -/
inductive Step (lib : External Peer) (s : Pipeline Peer) : Label Peer → Pipeline Peer → Prop
  | swarm {env : Env Peer} {event : SwarmEvent Peer} (hp : s.pending = []) :
      Step lib s (.swarm env event) { s with
        rt := (s.rt.handleSwarmEvent lib env event).1
        pending := (s.rt.handleSwarmEvent lib env event).2
        asker := .other }
  | tick {env : Env Peer} (hp : s.pending = []) :
      Step lib s (.tick env) { s with pending := s.rt.heartbeat env, asker := .other }
  | take {env : Env Peer} {client : Client} {cmd : Command} {rest : List (Client × Command)}
      (hp : s.pending = []) (hcommands : s.commands = (client, cmd) :: rest) :
      Step lib s (.take env) { s with
        rt := (s.rt.handleCommand lib env cmd).1
        pending := (s.rt.handleCommand lib env cmd).2
        asker := client
        commands := rest }
  | emit {t : Pipeline Peer} (h : s.emitOne = some t) : Step lib s .emit t
  | forwardTake {e : AviEvent} {rest : List AviEvent} (hheld : s.held = none)
      (hqueue : s.eventQueue = e :: rest) :
      Step lib s .forwardTake { s with held := some e, eventQueue := rest }
  | forwardPut {e : AviEvent} (hheld : s.held = some e)
      (huser : s.userQueue.length < queueCapacity) :
      Step lib s .forwardPut { s with held := none, userQueue := s.userQueue ++ [e] }
  | next {p : Program Unit Command Reply} {e : AviEvent} {rest : List AviEvent}
      (hloop : s.loop = .idle) (huser : s.userQueue = e :: rest) :
      Step lib s (.next p) { s with userQueue := rest, loop := .ready p }
  | finish {u : Unit} (hloop : s.loop = .ready (.done u)) :
      Step lib s .run { s with loop := .idle }
  | call {u : Unit} {cmd : Command} {k : Reply → Program Unit Command Reply}
      (hloop : s.loop = .ready (.call u cmd k)) :
      Step lib s .run
        { s with loop := .waiting cmd k, commands := s.commands ++ [(.loop, cmd)] }
  | issue (cmd : Command) :
      Step lib s (.issue cmd) { s with commands := s.commands ++ [(.other, cmd)] }

/-- **Inversion** of a step. -/
theorem step_cases {l : Label Peer} (h : (pipeline lib).step s l = some t) : Step lib s l t := by
  cases l with
  | emit => exact .emit h
  | issue cmd =>
    cases h
    exact .issue cmd
  | swarm env event =>
    -- the runtime takes something new when all is emitted
    simp only [pipeline, step] at h
    split at h
    · rename_i hp
      cases h
      exact .swarm hp
    · cases h
  | tick env =>
    simp only [pipeline, step] at h
    split at h
    · rename_i hp
      cases h
      exact .tick hp
    · cases h
  | take env =>
    simp only [pipeline, step] at h
    split at h
    · rename_i client cmd rest hp hcommands
      cases h
      exact .take hp hcommands
    · cases h
  | forwardTake =>
    -- the forwarder takes an event, and passes it on when there is room
    simp only [pipeline, step] at h
    split at h
    · rename_i e rest hheld hqueue
      cases h
      exact .forwardTake hheld hqueue
    · cases h
  | forwardPut =>
    simp only [pipeline, step] at h
    split at h
    · rename_i e hheld
      split_ifs at h with huser
      cases h
      exact .forwardPut hheld huser
    · cases h
  | next p =>
    -- the loop takes its next event
    simp only [pipeline, step] at h
    split at h
    · rename_i e rest hloop huser
      cases h
      exact .next hloop huser
    · cases h
  | run =>
    -- its callback ends, or asks the runtime
    simp only [pipeline, step] at h
    split at h
    · rename_i u hloop
      cases h
      exact .finish hloop
    · rename_i u cmd k hloop
      cases h
      exact .call hloop
    · cases h

/-- The queue and the command of the loop after any step. -/
theorem step_wf (s : Pipeline Peer) (l : Label Peer) (t : Pipeline Peer)
    (hstep : (pipeline lib).step s l = some t) (h : s.Wf) : t.Wf := by
  have hasking := h.asking
  have hlen := h.queue
  unfold Pipeline.asking at hasking
  cases step_cases hstep with
  | swarm | tick =>
    -- nobody waits for the effects
    refine ⟨hlen, ?_⟩
    unfold Pipeline.asking
    simp only [reduceCtorEq, if_false]
    omega
  | take hp hcommands =>
    -- a command that is taken is still under way
    refine ⟨hlen, ?_⟩
    rw [hcommands, List.countP_cons] at hasking
    unfold Pipeline.asking
    simp only [decide_eq_true_eq] at hasking ⊢
    omega
  | emit hemit => exact h.emitOne hemit
  | forwardTake hheld hqueue =>
    rw [hqueue, List.length_cons] at hlen
    exact ⟨Nat.le_of_succ_le hlen, h.asking⟩
  | forwardPut => exact ⟨hlen, h.asking⟩
  | next hloop | finish hloop =>
    rw [hloop] at hasking
    exact ⟨hlen, hasking⟩
  | call hloop =>
    -- the loop had nothing under way before
    rw [hloop] at hasking
    refine ⟨hlen, ?_⟩
    unfold Pipeline.asking
    simp only [List.countP_append, List.countP_singleton, decide_true, if_true,
      Caller.outstanding] at hasking ⊢
    omega
  | issue cmd =>
    refine ⟨hlen, ?_⟩
    unfold Pipeline.asking
    simp only [List.countP_append, List.countP_singleton, reduceCtorEq, decide_false,
      Bool.false_eq_true, if_false]
    omega

/-- One step with room for its events. -/
theorem step_roomy {l : Label Peer} (hstep : (pipeline lib).step s l = some t)
    (hroom : s.HasRoom lib l) (hwf : s.Wf) (h : s.Roomy) : t.Roomy := by
  intro hu
  cases step_cases hstep with
  | swarm => exact hroom hu
  | tick =>
    unfold load
    rw [Runtime.eventsOf_heartbeat]
    exact hwf.queue
  | take =>
    unfold load
    rw [Runtime.eventsOf_handleCommand]
    exact hwf.queue
  | emit hemit =>
    rw [load_emitOne hemit]
    exact h (untaken_of_emitOne hemit hu)
  | forwardTake hheld hqueue =>
    have hload := h hu
    unfold load at hload ⊢
    rw [hqueue, List.length_cons] at hload
    dsimp only
    omega
  | forwardPut => exact h hu
  | next | finish =>
    -- the loop is not waiting
    exact hu.1.elim
  | call hloop =>
    simp only [HasRoom, hloop] at hroom
    exact hroom
  | issue cmd =>
    -- a command of somebody else
    rcases hu with ⟨hwait, entry, hentry, hclient⟩
    rcases List.mem_append.mp hentry with hold | hnew
    · exact h ⟨hwait, entry, hold, hclient⟩
    · rw [List.mem_singleton.mp hnew] at hclient
      cases hclient

/-- With more events under way than the queue takes, the runtime runs into the
full queue before it gets to the next command. -/
theorem overload (n : ℕ) (hn : s.pending.length = n) (hwf : s.Wf) (hu : s.Untaken)
    (hload : queueCapacity < s.load) :
    ∃ ks u, (pipeline lib).run s ks = some u ∧ u.CircularWait := by
  induction n generalizing s with
  | zero =>
    have hlen := hwf.queue
    unfold load at hload
    rw [List.length_eq_zero_iff.mp hn] at hload
    simp only [Runtime.eventsOf, List.filterMap_nil, List.length_nil] at hload
    omega
  | succ n ih =>
    rcases List.exists_cons_of_length_eq_add_one hn with ⟨effect, rest, hp⟩
    cases hnext : s.emitOne with
    | some t =>
      -- the effect is executed
      have hlen : t.pending.length = n := Nat.succ.inj ((length_pending_emitOne hnext).trans hn)
      rcases ih hlen (hwf.emitOne hnext) (untaken_emitOne hnext hwf hu)
        (load_emitOne hnext ▸ hload) with ⟨ks, u, hrun, hwait⟩
      exact ⟨.emit :: ks, u, (pipeline lib).run_cons_eq_some.mpr ⟨t, hnext, hrun⟩, hwait⟩
    | none =>
      -- an event that finds the queue full
      obtain ⟨e, he, hfull⟩ := suspended_of_emitOne hp hnext
      exact ⟨[], s, rfl, ⟨⟨e, rest, he ▸ hp⟩, le_antisymm hwf.queue hfull⟩, hu⟩

end Steps

/-! ## Circular waits -/

/-- Where the queues have room nobody waits in a circle. -/
theorem not_circularWait {s : Pipeline Peer} (h : s.Roomy) : ¬ s.CircularWait := by
  rintro ⟨⟨⟨e, rest, hp⟩, hfull⟩, hu⟩
  have hload := h hu
  unfold load at hload
  rw [hp, hfull] at hload
  simp only [Runtime.eventsOf, List.filterMap_cons, List.length_cons] at hload
  omega

/-- The state after a step without room is overloaded. -/
theorem overloaded {lib : External Peer} {s t : Pipeline Peer} {l : Label Peer}
    (hstep : (pipeline lib).step s l = some t) (hfull : ¬ s.HasRoom lib l) :
    t.Untaken ∧ queueCapacity < t.load := by
  cases step_cases hstep with
  | swarm =>
    simp only [HasRoom, Classical.not_imp, not_le] at hfull
    exact hfull
  | finish hloop => simp only [HasRoom, hloop, not_true] at hfull
  | @call u cmd k hloop =>
    simp only [HasRoom, hloop, not_le] at hfull
    have hmem : (Client.loop, cmd) ∈ s.commands ++ [(.loop, cmd)] :=
      List.mem_append_right _ (List.mem_singleton_self _)
    exact ⟨⟨True.intro, _, hmem, rfl⟩, hfull⟩
  | _ => exact absurd True.intro hfull

/-- **No circular wait**: in a run whose handlers find room for their events
whenever the loop has a command that is not taken, the runtime is never
suspended on the full event queue while the loop waits for such a command; and
a run with a handler or a call that breaks this can be continued to that state. -/
theorem no_circular_wait (lib : External Peer) (s : Pipeline Peer) (h₀ : (pipeline lib).Init s)
    (ls : List (Label Peer)) (hroom : (pipeline lib).AllSteps (HasRoom lib) s ls) :
    (pipeline lib).AllStates (fun s => ¬ s.CircularWait) s ls ∧
      ∀ t l u, (pipeline lib).run s ls = some t → ¬ t.HasRoom lib l →
        (pipeline lib).step t l = some u →
        ∃ ks v, (pipeline lib).run u ks = some v ∧ v.CircularWait := by
  have hinit : s.Wf ∧ s.Roomy := by
    rcases h₀ with ⟨rt, rfl⟩
    exact ⟨⟨Nat.zero_le _, le_rfl⟩, fun hu => hu.1.elim⟩
  have hstep : ∀ s l t, (pipeline lib).step s l = some t → s.HasRoom lib l → s.Wf ∧ s.Roomy →
      t.Wf ∧ t.Roomy := fun s l t hs hr h => ⟨step_wf s l t hs h.1, step_roomy hs hr h.1 h.2⟩
  constructor
  · exact Machine.AllStates.mono _ (fun _ h => not_circularWait h.2)
      ((pipeline lib).allStates_of_allSteps hstep hinit hroom)
  · intro t l u hrun hfull hlast
    have hwf : t.Wf := ((pipeline lib).run_invariant_of hstep hrun hinit hroom).1
    obtain ⟨hu, hload⟩ := overloaded hlast hfull
    exact overload _ rfl (step_wf t l u hlast hwf) hu hload

/-- Nobody gets out of it: others may issue commands, and that is all. -/
theorem deadlock_stays {lib : External Peer} {s t : Pipeline Peer} {l : Label Peer}
    (hstep : (pipeline lib).step s l = some t) (h : s.Deadlock) : t.Deadlock := by
  rcases h with ⟨⟨⟨⟨e, rest, hp⟩, hfull⟩, hwait, entry, hentry, hclient⟩, hheld, huser⟩
  cases step_cases hstep with
  | swarm hnil | tick hnil | take hnil =>
    rw [hp] at hnil
    cases hnil
  | emit hemit =>
    rcases emitOne_cases hemit with ⟨-, -, -, hlt, -⟩ | ⟨effect, rest', hp', hevents, -⟩
    · omega
    · -- the next effect is an event
      rw [hp] at hp' hevents
      cases hp'
      exact absurd (congrArg List.length hevents) (Nat.succ_ne_self _)
  | forwardTake hnone =>
    rw [hnone] at hheld
    cases hheld
  | forwardPut _ hlt => omega
  | next hloop | finish hloop | call hloop =>
    rw [hloop] at hwait
    exact hwait.elim
  | issue cmd =>
    exact ⟨⟨⟨⟨e, rest, hp⟩, hfull⟩, hwait, entry, List.mem_append_left _ hentry, hclient⟩,
      hheld, huser⟩

/-! ## A callback that asks for the context -/

/-- A message from a peer comes in. -/
def message : Label String := .swarm (.calm String) (.gossip "peer" "news" [])

/-- The first message reaches the loop, whose callback asks for the context. -/
def callback : List (Label String) :=
  [message, .emit, .forwardTake, .forwardPut,
    .next (.call () (.getPeerContext none) fun _ => .done ()), .run]

/-- A node that has just started. -/
def started : Pipeline String := booted (.new External.plain "me" 0)

/-- The runtime takes the command and answers before anything else comes in. -/
theorem no_circular_wait_callback : (pipeline External.plain).AllStates
    (fun s => ¬ s.CircularWait) started (callback ++ [.take (.calm String), .emit, .run]) :=
  (no_circular_wait External.plain started ⟨_, rfl⟩ _ (by decide +kernel)).1

/-- 202 more messages fill the queues before the runtime takes the command. -/
def flood : List (Label String) :=
  (List.replicate 100 [message, .emit, .forwardTake, .forwardPut]).flatten ++
    [message, .emit, .forwardTake] ++ (List.replicate 100 [message, .emit]).flatten ++ [message]

/-- A callback that calls back into the node can close the circle. -/
theorem callback_deadlock : ¬ ∀ (s : Pipeline String) ls, (pipeline External.plain).Init s →
    (pipeline External.plain).AllStates (fun s => ¬ s.CircularWait) s ls := by
  intro h
  have hall := h started (callback ++ flood ++ []) ⟨_, rfl⟩
  have hdead : ((pipeline External.plain).run started (callback ++ flood)).map
      (fun t => decide t.Deadlock) = some true := by
    decide +kernel
  rcases Option.map_eq_some_iff.mp hdead with ⟨t, ht, hd⟩
  exact Machine.AllStates.at_cut _ hall ht (of_decide_eq_true hd).1

end Pipeline

end AviNet
