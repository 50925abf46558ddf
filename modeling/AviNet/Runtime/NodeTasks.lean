import AviNet.Runtime.Pipeline
import AviNet.Runtime.Turns

/-!
# Runtime.NodeTasks — a node from its start to its shutdown

The tasks that `AviP2p::start` spawns: the runtime behind its command queue,
which `shutdown` cancels wherever it is suspended, and the forwarder between the
two event queues. Around them all the handles that issue commands and the user
who takes events.

* `calls_linearize`: the calls are answered as one sequential runtime answers
  them in the order of the queue, once each, and a call that the shutdown has
  caught fails without an effect;
* `events_in_order`: the user gets the events of that sequential runtime in its
  order, none lost, none twice, with at most 201 on the way;
* `shutdown_completes`: whatever state a node is in, a shutdown answers every
  call, and the events emitted before it still reach the user.
-/

namespace AviNet

/-- What a method of `AviP2pHandle` returns if its command is not answered. -/
def Command.channelClosed : Command → Reply
  | .requestStream _ _ => .stream (.error .channelClosed)
  | .getConnectedPeers => .peers (.error .channelClosed)
  | .getPeerContext _ => .value (.error .channelClosed)
  | _ => .done (.error .channelClosed)

/-! ## Model layer -/

/-- The tasks of a node and the queues between them, with what has gone by. -/
structure NodeTasks (Peer : Type) [LinearOrder Peer] where
  rt : Runtime Peer
  /-- what is left of the handler of the runtime -/
  pending : List (Effect Peer)
  /-- the runtime task has ended -/
  ended : Bool
  /-- the command queue takes nothing more -/
  closed : Bool
  commands : List Command
  eventQueue : List AviEvent
  /-- the event the forwarder is about to pass on -/
  forwarding : Option AviEvent
  userQueue : List AviEvent
  /-- the user has dropped the receiver -/
  userGone : Bool
  /-- the turns taken by the runtime -/
  turns : List (Env Peer × Runtime.Label Peer)
  /-- their effects, as far as they have taken place -/
  effects : List (Effect Peer)
  /-- those of them that never will -/
  cancelled : List (Effect Peer)
  /-- the commands ever put into the queue -/
  accepted : List Command
  /-- the commands that the end of the runtime has dropped -/
  dropped : List Command
  /-- what the callers of the accepted commands have got -/
  answers : List Reply
  /-- the events given to `event_broadcast` -/
  broadcast : List AviEvent
  /-- the events taken by the user -/
  taken : List AviEvent

namespace NodeTasks

variable {Peer : Type} [LinearOrder Peer]

inductive Label (Peer : Type) where
  /-- some handle puts a command into the queue -/
  | call (cmd : Command)
  /-- the last handle is dropped -/
  | dropHandles
  /-- the runtime takes the next command -/
  | take (env : Env Peer)
  /-- the runtime begins to handle a swarm event -/
  | swarm (env : Env Peer) (event : SwarmEvent Peer)
  /-- the heartbeat of the runtime -/
  | tick (env : Env Peer)
  /-- the next effect of the handler -/
  | emit
  /-- `command_rx.recv` returns `None` -/
  | finish
  /-- `AviP2p::shutdown`, or the node is dropped -/
  | stop
  /-- the forwarder takes an event and broadcasts it -/
  | forward
  /-- the forwarder passes its event on -/
  | pass
  /-- the user takes an event -/
  | receive
  /-- the user drops the receiver -/
  | leave

/-- The runtime begins the turn `l`. -/
def begin (lib : External Peer) (s : NodeTasks Peer) (env : Env Peer) (l : Runtime.Label Peer) :
    NodeTasks Peer :=
  { s with
    rt := (s.rt.turn lib env l).1
    pending := (s.rt.turn lib env l).2
    turns := s.turns ++ [(env, l)] }

/-- The runtime is at the `select!` of `run`. -/
def Selects (s : NodeTasks Peer) : Prop := s.ended = false ∧ s.pending = []

instance (s : NodeTasks Peer) : Decidable s.Selects :=
  inferInstanceAs (Decidable (s.ended = false ∧ s.pending = []))

/-- The next effect: an event needs room in the queue. -/
def emitOne (s : NodeTasks Peer) : Option (NodeTasks Peer) :=
  match s.pending with
  | [] => none
  | .event e :: rest =>
    if s.eventQueue.length < queueCapacity then
      some { s with
        pending := rest
        effects := s.effects ++ [.event e]
        eventQueue := s.eventQueue ++ [e] }
    else none
  | .reply r :: rest =>
    some { s with
      pending := rest
      effects := s.effects ++ [.reply r]
      answers := s.answers ++ [r] }
  | .closeCommands :: rest =>
    some { s with
      pending := rest
      effects := s.effects ++ [.closeCommands]
      closed := true }
  | effect :: rest => some { s with pending := rest, effects := s.effects ++ [effect] }

/-- The runtime ends: what it has not done it never will, and dropping the
queue drops the reply channels in it. -/
def endRuntime (s : NodeTasks Peer) : NodeTasks Peer :=
  { s with
    ended := true
    pending := []
    cancelled := s.pending
    commands := []
    dropped := s.commands
    answers := s.answers ++ s.commands.map Command.channelClosed }

/-- A select can drop the future of `run` where it waits: at its own `select!`,
or at `event_tx.send`. -/
def Suspended : List (Effect Peer) → Bool
  | [] => true
  | .event _ :: _ => true
  | _ => false

def step (lib : External Peer) (s : NodeTasks Peer) : Label Peer → Option (NodeTasks Peer)
  | .call cmd =>
    -- a call that finds the queue full waits, one that finds it closed fails at once
    if s.ended = false ∧ s.closed = false ∧ s.commands.length < queueCapacity then
      some { s with commands := s.commands ++ [cmd], accepted := s.accepted ++ [cmd] }
    else none
  | .dropHandles => some { s with closed := true }
  | .take env =>
    match s.commands with
    | cmd :: rest =>
      if s.Selects then some { s.begin lib env (.command cmd) with commands := rest } else none
    | [] => none
  | .swarm env event => if s.Selects then some (s.begin lib env (.swarm event)) else none
  | .tick env => if s.Selects then some (s.begin lib env .tick) else none
  | .emit => if s.ended then none else s.emitOne
  | .finish => if s.Selects ∧ s.closed = true ∧ s.commands = [] then some s.endRuntime else none
  | .stop => if s.ended = false ∧ Suspended s.pending then some s.endRuntime else none
  | .forward =>
    match s.forwarding, s.eventQueue with
    | none, e :: rest =>
      some { s with forwarding := some e, eventQueue := rest, broadcast := s.broadcast ++ [e] }
    | _, _ => none
  | .pass =>
    match s.forwarding with
    | some e =>
      if s.userGone then some { s with forwarding := none }
      else if s.userQueue.length < queueCapacity then
        some { s with forwarding := none, userQueue := s.userQueue ++ [e] }
      else none
    | none => none
  | .receive =>
    match s.userQueue with
    | e :: rest => some { s with userQueue := rest, taken := s.taken ++ [e] }
    | [] => none
  | .leave => some { s with userGone := true, userQueue := [] }

/-- All tasks have just been spawned. -/
def spawned (rt : Runtime Peer) : NodeTasks Peer :=
  ⟨rt, [], false, false, [], [], none, [], false, [], [], [], [], [], [], [], []⟩

end NodeTasks

open NodeTasks in
/-- The machine of the tasks. -/
def nodeTasks {Peer : Type} [LinearOrder Peer] (lib : External Peer) :
    Machine (NodeTasks Peer) (NodeTasks.Label Peer) where
  Init s := ∃ rt, s = spawned rt
  step := step lib

/-! ## Invariants -/

namespace NodeTasks

variable {Peer : Type} [LinearOrder Peer]

/-- What has gone by, against the turns of one runtime that began as `rt₀`. -/
structure Inv (lib : External Peer) (rt₀ : Runtime Peer) (s : NodeTasks Peer) : Prop where
  served : rt₀.serve lib s.turns = (s.rt, s.effects ++ s.pending ++ s.cancelled)
  commands : s.accepted = Runtime.commandsOf s.turns ++ s.dropped ++ s.commands
  answers : s.answers = Runtime.repliesOf s.effects ++ s.dropped.map Command.channelClosed
  events : s.broadcast ++ s.eventQueue = Runtime.eventsOf s.effects
  user : s.userGone = false → s.broadcast = s.taken ++ s.userQueue ++ s.forwarding.toList
  taken : s.taken ++ s.userQueue <+: s.broadcast
  running : s.ended = false → s.dropped = [] ∧ s.cancelled = []
  ended : s.ended = true → s.commands = [] ∧ s.pending = []
  oneKind : Runtime.repliesOf s.pending = [] ∨ Runtime.eventsOf s.pending = []
  unanswered : Runtime.repliesOf s.cancelled = []
  room : s.commands.length ≤ queueCapacity ∧ s.eventQueue.length ≤ queueCapacity ∧
    s.userQueue.length ≤ queueCapacity

section Steps

variable {lib : External Peer} {rt₀ : Runtime Peer} {s t : NodeTasks Peer}

/-- A node that has just been spawned owes nothing. -/
theorem spawned_inv (rt₀ : Runtime Peer) : (spawned rt₀).Inv lib rt₀ where
  served := rfl
  commands := rfl
  answers := rfl
  events := rfl
  user _ := rfl
  taken := List.prefix_refl []
  running _ := ⟨rfl, rfl⟩
  ended h := absurd h Bool.false_ne_true
  oneKind := Or.inl rfl
  unanswered := rfl
  room := ⟨Nat.zero_le _, Nat.zero_le _, Nat.zero_le _⟩

omit [LinearOrder Peer] in
theorem commandsOf_concat (turns : List (Env Peer × Runtime.Label Peer)) (env : Env Peer)
    (l : Runtime.Label Peer) : Runtime.commandsOf (turns ++ [(env, l)]) =
      Runtime.commandsOf turns ++ Runtime.commandsOf [(env, l)] := List.filterMap_append

/-- A turn takes the commands `taken` off the queue. -/
theorem Inv.begin (h : s.Inv lib rt₀) (hs : s.Selects) {env : Env Peer} {l : Runtime.Label Peer}
    {rest : List Command} (hrest : s.commands = Runtime.commandsOf [(env, l)] ++ rest) :
    Inv lib rt₀ { s.begin lib env l with commands := rest } := by
  have hrunning := h.running hs.1
  have hserved := h.served
  rw [hs.2, hrunning.2, List.append_nil, List.append_nil] at hserved
  refine ⟨?_, ?_, h.answers, h.events, h.user, h.taken, h.running, ?_, ?_, h.unanswered, ?_⟩
  · -- the new effects are all pending
    show rt₀.serve lib (s.turns ++ [(env, l)]) =
      ((s.rt.turn lib env l).1, s.effects ++ (s.rt.turn lib env l).2 ++ s.cancelled)
    rw [Runtime.serve_concat, hserved, hrunning.2, List.append_nil]
  · show s.accepted = Runtime.commandsOf (s.turns ++ [(env, l)]) ++ s.dropped ++ rest
    rw [h.commands, hrest, hrunning.1, commandsOf_concat]
    simp only [List.append_nil, List.append_assoc]
  · intro hended
    have hfalse : s.ended = false := hs.1
    exact absurd (hfalse.symm.trans hended) Bool.false_ne_true
  · exact Runtime.repliesOf_or_eventsOf lib env s.rt l
  · have hlength := h.room.1
    rw [hrest, List.length_append] at hlength
    exact ⟨Nat.le_trans (Nat.le_add_left _ _) hlength, h.room.2⟩

/-- **Inversion**: an effect is done; an event needs room and goes into the
queue, an answer goes out, and closing the queue closes it. -/
theorem emitOne_cases (h : s.emitOne = some t) : ∃ effect rest, s.pending = effect :: rest ∧
    ((∃ e, effect = .event e ∧ s.eventQueue.length < queueCapacity ∧ t = { s with
        pending := rest, effects := s.effects ++ [effect], eventQueue := s.eventQueue ++ [e] }) ∨
      (∃ r, effect = .reply r ∧ t = { s with
        pending := rest, effects := s.effects ++ [effect], answers := s.answers ++ [r] }) ∨
      (∃ closed, Runtime.eventsOf [effect] = [] ∧ Runtime.repliesOf [effect] = [] ∧ t = { s with
        pending := rest, effects := s.effects ++ [effect], closed := closed })) := by
  unfold emitOne at h
  cases hp : s.pending with
  | nil =>
    rw [hp] at h
    cases h
  | cons effect rest =>
    rw [hp] at h
    refine ⟨effect, rest, rfl, ?_⟩
    cases effect with
    | event e =>
      -- an event needs room in the queue
      dsimp only at h
      split_ifs at h with hlt
      cases h
      exact Or.inl ⟨e, rfl, hlt, rfl⟩
    | reply r =>
      -- an answer goes to its caller
      cases h
      exact Or.inr (Or.inl ⟨r, rfl, rfl⟩)
    | closeCommands =>
      -- shutdown closes the queue of commands
      cases h
      exact Or.inr (Or.inr ⟨true, rfl, rfl, rfl⟩)
    | _ =>
      cases h
      exact Or.inr (Or.inr ⟨s.closed, rfl, rfl, rfl⟩)

/-- Emitting one effect moves it from what is pending to what is done. -/
theorem Inv.emitOne (h : s.Inv lib rt₀) (hs : s.ended = false) (hstep : s.emitOne = some t) :
    t.Inv lib rt₀ := by
  have hrunning := h.running hs
  rcases emitOne_cases hstep with ⟨effect, rest, hp, hcases⟩
  have hserved : rt₀.serve lib s.turns = (s.rt, s.effects ++ [effect] ++ rest ++ s.cancelled) := by
    have hserved := h.served
    rw [hp] at hserved
    rw [hserved, List.append_assoc s.effects [effect] rest]
    rfl
  have hnotEnded : s.ended = true → s.commands = [] ∧ rest = [] := by
    intro hended
    exact absurd (hs.symm.trans hended) Bool.false_ne_true
  -- the rest of a handler has no more kinds of effects than the whole
  have honeKind : Runtime.repliesOf rest = [] ∨ Runtime.eventsOf rest = [] := by
    have hkind := h.oneKind
    rw [hp] at hkind
    rcases hkind with hnone | hnone
    · left
      have happend := (Runtime.repliesOf_append [effect] rest).symm.trans hnone
      exact (List.append_eq_nil_iff.mp happend).2
    · right
      exact (List.append_eq_nil_iff.mp
        ((List.filterMap_append (l := [effect])).symm.trans hnone)).2
  have hanswers : s.answers = Runtime.repliesOf s.effects := by
    rw [h.answers, hrunning.1]
    exact List.append_nil _
  rcases hcases with ⟨e, rfl, hroom, rfl⟩ | ⟨r, rfl, rfl⟩ | ⟨closed, hevents, hreplies, rfl⟩
  · -- an event
    refine ⟨hserved, h.commands, ?_, ?_, h.user, h.taken, h.running, hnotEnded, honeKind,
      h.unanswered, h.room.1, ?_, h.room.2.2⟩
    · show s.answers = Runtime.repliesOf (s.effects ++ [.event e]) ++ _
      rw [Runtime.repliesOf_append, h.answers]
      simp [Runtime.repliesOf]
    · show s.broadcast ++ (s.eventQueue ++ [e]) = Runtime.eventsOf (s.effects ++ [.event e])
      rw [Runtime.eventsOf_append, ← h.events, List.append_assoc]
      rfl
    · show (s.eventQueue ++ [e]).length ≤ queueCapacity
      rw [List.length_append]
      exact hroom
  · -- an answer
    refine ⟨hserved, h.commands, ?_, ?_, h.user, h.taken, h.running, hnotEnded, honeKind,
      h.unanswered, h.room⟩
    · show s.answers ++ [r] = Runtime.repliesOf (s.effects ++ [.reply r]) ++ _
      rw [Runtime.repliesOf_append, hanswers, hrunning.1]
      exact (List.append_nil _).symm
    · show s.broadcast ++ s.eventQueue = Runtime.eventsOf (s.effects ++ [.reply r])
      rw [Runtime.eventsOf_append, h.events]
      exact (List.append_nil _).symm
  · -- anything else
    refine ⟨hserved, h.commands, ?_, ?_, h.user, h.taken, h.running, hnotEnded, honeKind,
      h.unanswered, h.room⟩
    · show s.answers = Runtime.repliesOf (s.effects ++ [effect]) ++ _
      rw [Runtime.repliesOf_append, hreplies, List.append_nil]
      exact h.answers
    · show s.broadcast ++ s.eventQueue = Runtime.eventsOf (s.effects ++ [effect])
      rw [Runtime.eventsOf_append, hevents, List.append_nil]
      exact h.events

/-- A handler is not dropped before it has answered. -/
theorem Inv.unanswered_of_suspended (h : s.Inv lib rt₀) (hs : Suspended s.pending = true) :
    Runtime.repliesOf s.pending = [] := by
  rcases h.oneKind with hnone | hnone
  · exact hnone
  · unfold Suspended at hs
    split at hs
    · rename_i hp
      rw [hp]
      rfl
    · rename_i e rest hp
      rw [hp] at hnone
      cases hnone
    · cases hs

/-- A runtime that ends drops what it has not emitted, and answers nobody any more. -/
theorem Inv.endRuntime (h : s.Inv lib rt₀) (hs : s.ended = false)
    (hsuspended : Suspended s.pending = true) : s.endRuntime.Inv lib rt₀ := by
  have hrunning := h.running hs
  refine ⟨?_, ?_, ?_, h.events, h.user, h.taken, ?_, ?_, ?_, ?_, ?_, h.room.2⟩
  · show rt₀.serve lib s.turns = (s.rt, s.effects ++ [] ++ s.pending)
    rw [h.served, hrunning.2, List.append_nil, List.append_nil]
  · show s.accepted = Runtime.commandsOf s.turns ++ s.commands ++ []
    rw [h.commands, hrunning.1, List.append_nil, List.append_nil]
  · show s.answers ++ s.commands.map Command.channelClosed = _
    rw [h.answers, hrunning.1]
    exact congrArg (· ++ _) (List.append_nil _)
  · intro hended
    cases hended
  · intro _
    exact ⟨rfl, rfl⟩
  · exact Or.inl rfl
  · exact h.unanswered_of_suspended hsuspended
  · exact Nat.zero_le _

/-- A command is accepted. -/
theorem Inv.call (h : s.Inv lib rt₀) {cmd : Command}
    (hstep : (nodeTasks lib).step s (.call cmd) = some t) : t.Inv lib rt₀ := by
  simp only [nodeTasks, step] at hstep
  split_ifs at hstep with hopen
  cases hstep
  refine ⟨h.served, ?_, h.answers, h.events, h.user, h.taken, h.running, ?_, h.oneKind,
    h.unanswered, ?_, h.room.2⟩
  · show s.accepted ++ [cmd] = Runtime.commandsOf s.turns ++ s.dropped ++ (s.commands ++ [cmd])
    rw [h.commands, List.append_assoc _ s.commands]
  · intro hended
    exact absurd (hopen.1.symm.trans hended) Bool.false_ne_true
  · show (s.commands ++ [cmd]).length ≤ queueCapacity
    rw [List.length_append]
    exact hopen.2.2

/-- The forwarder takes the oldest event, and the broadcast channel has it. -/
theorem Inv.forward (h : s.Inv lib rt₀) (hstep : (nodeTasks lib).step s .forward = some t) :
    t.Inv lib rt₀ := by
  simp only [nodeTasks, step] at hstep
  split at hstep
  · rename_i e rest hnone hqueue
    cases hstep
    refine ⟨h.served, h.commands, h.answers, ?_, ?_, ?_, h.running, h.ended, h.oneKind,
      h.unanswered, h.room.1, ?_, h.room.2.2⟩
    · show s.broadcast ++ [e] ++ rest = Runtime.eventsOf s.effects
      rw [← h.events, hqueue, List.append_assoc]
      rfl
    · intro hgone
      show s.broadcast ++ [e] = s.taken ++ s.userQueue ++ [e]
      have huser := h.user hgone
      rw [hnone] at huser
      rw [huser]
      exact congrArg (· ++ [e]) (List.append_nil _)
    · exact h.taken.trans (List.prefix_append _ _)
    · have hroom := h.room.2.1
      rw [hqueue, List.length_cons] at hroom
      show rest.length ≤ queueCapacity
      omega
  · cases hstep

/-- It passes the event to the queue of the application. -/
theorem Inv.pass (h : s.Inv lib rt₀) (hstep : (nodeTasks lib).step s .pass = some t) :
    t.Inv lib rt₀ := by
  simp only [nodeTasks, step] at hstep
  split at hstep
  · rename_i e hforwarding
    split_ifs at hstep with hgone hroom
    · -- nobody is there to take it
      cases hstep
      refine ⟨h.served, h.commands, h.answers, h.events, ?_, h.taken, h.running, h.ended,
        h.oneKind, h.unanswered, h.room⟩
      intro hstays
      exact absurd (hstays.symm.trans hgone) Bool.false_ne_true
    · -- the queue has room
      cases hstep
      have huser : s.broadcast = s.taken ++ s.userQueue ++ [e] := by
        rw [h.user (Bool.eq_false_iff.mpr hgone), hforwarding]
        rfl
      have hpassed : s.taken ++ (s.userQueue ++ [e]) = s.broadcast := by
        rw [huser, List.append_assoc]
      refine ⟨h.served, h.commands, h.answers, h.events, ?_, ?_, h.running, h.ended,
        h.oneKind, h.unanswered, h.room.1, h.room.2.1, ?_⟩
      · intro _
        exact hpassed.symm.trans (List.append_nil _).symm
      · exact hpassed ▸ List.prefix_refl _
      · show (s.userQueue ++ [e]).length ≤ queueCapacity
        rw [List.length_append]
        exact hroom
  · cases hstep

/-- The application takes an event off its queue. -/
theorem Inv.receive (h : s.Inv lib rt₀) (hstep : (nodeTasks lib).step s .receive = some t) :
    t.Inv lib rt₀ := by
  simp only [nodeTasks, step] at hstep
  split at hstep
  · rename_i e rest hqueue
    cases hstep
    have hsame : s.taken ++ [e] ++ rest = s.taken ++ s.userQueue := by
      rw [hqueue, List.append_assoc]
      rfl
    refine ⟨h.served, h.commands, h.answers, h.events, ?_, ?_, h.running, h.ended,
      h.oneKind, h.unanswered, h.room.1, h.room.2.1, ?_⟩
    · intro hgone
      show s.broadcast = s.taken ++ [e] ++ rest ++ s.forwarding.toList
      rw [hsame]
      exact h.user hgone
    · show s.taken ++ [e] ++ rest <+: s.broadcast
      rw [hsame]
      exact h.taken
    · have hroom := h.room.2.2
      rw [hqueue, List.length_cons] at hroom
      show rest.length ≤ queueCapacity
      omega
  · cases hstep

/-- The application drops its queue with all that is in it. -/
theorem Inv.leave (h : s.Inv lib rt₀) (hstep : (nodeTasks lib).step s .leave = some t) :
    t.Inv lib rt₀ := by
  cases hstep
  refine ⟨h.served, h.commands, h.answers, h.events, ?_, ?_, h.running, h.ended,
    h.oneKind, h.unanswered, h.room.1, h.room.2.1, Nat.zero_le _⟩
  · intro hgone
    cases hgone
  · show s.taken ++ [] <+: s.broadcast
    rw [List.append_nil]
    exact (List.prefix_append _ _).trans h.taken

/-- **The step lemma**: one case for each kind of step. -/
theorem step_inv (s : NodeTasks Peer) (l : Label Peer) (t : NodeTasks Peer)
    (hstep : (nodeTasks lib).step s l = some t) (h : s.Inv lib rt₀) : t.Inv lib rt₀ := by
  cases l with
  | call cmd => exact h.call hstep
  | dropHandles =>
    -- no part of the invariant is about the handles
    cases hstep
    exact ⟨h.served, h.commands, h.answers, h.events, h.user, h.taken, h.running, h.ended,
      h.oneKind, h.unanswered, h.room⟩
  | take env =>
    -- a turn begins with the oldest command
    simp only [nodeTasks, step] at hstep
    split at hstep
    · rename_i cmd rest hcommands
      split_ifs at hstep with hs
      cases hstep
      exact h.begin hs hcommands
    · cases hstep
  | swarm env event =>
    -- or with an event of the swarm, and takes no command
    have hnone : s.commands =
        Runtime.commandsOf [(env, Runtime.Label.swarm event)] ++ s.commands := rfl
    simp only [nodeTasks, step] at hstep
    split_ifs at hstep with hs
    cases hstep
    exact h.begin hs hnone
  | tick env =>
    have hnone : s.commands = Runtime.commandsOf [(env, .tick)] ++ s.commands := rfl
    simp only [nodeTasks, step] at hstep
    split_ifs at hstep with hs
    cases hstep
    exact h.begin hs hnone
  | emit =>
    simp only [nodeTasks, step] at hstep
    split_ifs at hstep with hs
    exact h.emitOne (Bool.eq_false_iff.mpr hs) hstep
  | finish =>
    -- a handler that has nothing more to do is suspended as well
    simp only [nodeTasks, step] at hstep
    split_ifs at hstep with hs
    cases hstep
    apply h.endRuntime hs.1.1
    rw [hs.1.2]
    rfl
  | stop =>
    simp only [nodeTasks, step] at hstep
    split_ifs at hstep with hs
    cases hstep
    exact h.endRuntime hs.1 hs.2
  | forward => exact h.forward hstep
  | pass => exact h.pass hstep
  | receive => exact h.receive hstep
  | leave => exact h.leave hstep

/-- The invariant holds in every state of a run. -/
theorem run_inv {ls : List (Label Peer)} (hrun : (nodeTasks lib).run (spawned rt₀) ls = some t) :
    t.Inv lib rt₀ :=
  (nodeTasks lib).run_invariant step_inv hrun (spawned_inv rt₀)

/-- The answers given, with those the running handler has still to give. -/
theorem Inv.answered (h : s.Inv lib rt₀) : s.answers ++ Runtime.repliesOf s.pending =
    Runtime.repliesOf (rt₀.serve lib s.turns).2 ++ s.dropped.map Command.channelClosed := by
  rw [h.served, h.answers, Runtime.repliesOf_append, Runtime.repliesOf_append, h.unanswered,
    List.append_nil]
  rcases hended : s.ended with _ | _
  · -- nothing is dropped yet
    rw [(h.running hended).1]
    simp
  · -- nothing is left of the last handler
    rw [(h.ended hended).2]
    simp [Runtime.repliesOf]

/-- Every accepted command is answered, about to be, or still queued. -/
theorem Inv.length_accepted (h : s.Inv lib rt₀) :
    s.answers.length + (Runtime.repliesOf s.pending).length + s.commands.length =
      s.accepted.length := by
  have hanswers := congrArg List.length h.answered
  have hcommands := congrArg List.length h.commands
  simp only [List.length_append, List.length_map, Runtime.length_repliesOf_serve]
    at hanswers hcommands
  omega

end Steps

/-! ## Calls -/

section Runs

variable (lib : External Peer) (rt₀ : Runtime Peer) {t : NodeTasks Peer} {ls : List (Label Peer)}

/-- **Linearization**: in every state of a node, whoever has called and whatever
the swarm has brought, the commands accepted are those of the turns taken, in
order, then those a shutdown has dropped or those still in the queue; their
callers have got, in order, what one runtime that takes these turns answers, once
each, and the dropped ones `ChannelClosed`, which did nothing to the runtime. -/
theorem calls_linearize (hrun : (nodeTasks lib).run (spawned rt₀) ls = some t) :
    t.accepted = Runtime.commandsOf t.turns ++ t.dropped ++ t.commands ∧
    t.answers ++ Runtime.repliesOf t.pending =
      Runtime.repliesOf (rt₀.serve lib t.turns).2 ++ t.dropped.map Command.channelClosed ∧
    t.answers.length + (Runtime.repliesOf t.pending).length + t.commands.length =
      t.accepted.length ∧
    t.rt = (rt₀.serve lib t.turns).1 ∧ (t.ended = false → t.dropped = []) ∧
    (t.ended = true → t.commands = [] ∧ t.pending = []) := by
  have h : t.Inv lib rt₀ := run_inv hrun
  refine ⟨h.commands, h.answered, h.length_accepted, ?_, fun hs => (h.running hs).1, h.ended⟩
  rw [h.served]

/-! ## Events -/

/-- **The user's events**: the events of the turns are, in order, those the user
has taken, those on the way to the user, those the last handler has still to emit
and those a shutdown has cancelled; at most 201 are on the way. Whether the user
is there or not, what is broadcast is all that is emitted, in the same order. -/
theorem events_in_order (hrun : (nodeTasks lib).run (spawned rt₀) ls = some t) :
    Runtime.eventsOf (rt₀.serve lib t.turns).2 = t.broadcast ++ t.eventQueue ++
      Runtime.eventsOf t.pending ++ Runtime.eventsOf t.cancelled ∧
    t.taken <+: t.broadcast ∧ t.eventQueue.length ≤ 100 ∧
    (t.userGone = false → t.broadcast = t.taken ++ t.userQueue ++ t.forwarding.toList ∧
      (Runtime.eventsOf t.effects).length ≤ t.taken.length + 201) ∧
    (t.ended = false → t.cancelled = []) := by
  have h : t.Inv lib rt₀ := run_inv hrun
  refine ⟨?_, ?_, h.room.2.1, ?_, fun hs => (h.running hs).2⟩
  · rw [h.served, Runtime.eventsOf_append, Runtime.eventsOf_append, h.events]
  · exact (List.prefix_append _ _).trans h.taken
  · intro hgone
    refine ⟨h.user hgone, ?_⟩
    have hone : t.forwarding.toList.length ≤ 1 := by
      cases t.forwarding with
      | none => exact Nat.zero_le 1
      | some e => exact Nat.le_refl 1
    have huser := h.room.2.2
    have hqueue := h.room.2.1
    rw [← h.events, h.user hgone]
    simp only [List.length_append]
    unfold queueCapacity at huser hqueue
    omega

/-! ## Shutdown -/

/-- The label moves an event towards the user. -/
def moves : Label Peer → Bool
  | .forward | .pass | .receive => true
  | _ => false

/-- The moves that the events on their way still need. -/
def toMove (s : NodeTasks Peer) : ℕ :=
  3 * s.eventQueue.length + 2 * s.forwarding.toList.length + s.userQueue.length

variable {lib rt₀}

/-- A step of a node whose runtime has ended. -/
theorem step_ended {s t : NodeTasks Peer} {l : Label Peer} (hended : s.ended = true)
    (hstep : (nodeTasks lib).step s l = some t) :
    t.ended = true ∧ t.accepted = s.accepted ∧ t.answers = s.answers ∧ t.effects = s.effects ∧
      t.toMove + (if moves l then 1 else 0) ≤ s.toMove := by
  have hnotRunning : ¬ s.ended = false := fun h => Bool.false_ne_true (h.symm.trans hended)
  have hnotSelects : ¬ s.Selects := fun h => hnotRunning h.1
  cases l with
  | call cmd =>
    -- the closed queue takes no call
    simp only [nodeTasks, step, if_neg (fun h => hnotRunning (And.left h))] at hstep
    cases hstep
  | dropHandles =>
    cases hstep
    exact ⟨hended, rfl, rfl, rfl, Nat.le_refl _⟩
  | take env =>
    -- the runtime is gone, and with it all its steps
    simp only [nodeTasks, step, if_neg hnotSelects] at hstep
    split at hstep <;> cases hstep
  | swarm env event | tick env =>
    simp only [nodeTasks, step, if_neg hnotSelects] at hstep
    cases hstep
  | emit =>
    simp only [nodeTasks, step, if_pos hended] at hstep
    cases hstep
  | finish =>
    simp only [nodeTasks, step, if_neg (fun h => hnotSelects (And.left h))] at hstep
    cases hstep
  | stop =>
    simp only [nodeTasks, step, if_neg (fun h => hnotRunning (And.left h))] at hstep
    cases hstep
  | forward =>
    -- the forwarder empties the queue of events
    simp only [nodeTasks, step] at hstep
    split at hstep
    · rename_i e rest hnone hqueue
      cases hstep
      refine ⟨hended, rfl, rfl, rfl, ?_⟩
      unfold toMove
      rw [hqueue, hnone]
      simp only [moves, if_true, List.length_cons, Option.toList_some, Option.toList_none,
        List.length_nil]
      omega
    · cases hstep
  | pass =>
    -- it passes the event on, or drops it if nobody listens
    simp only [nodeTasks, step] at hstep
    split at hstep
    · rename_i e hforwarding
      split_ifs at hstep
      all_goals
        cases hstep
        refine ⟨hended, rfl, rfl, rfl, ?_⟩
        unfold toMove
        rw [hforwarding]
        simp only [moves, if_true, List.length_append, List.length_cons, Option.toList_some,
          Option.toList_none, List.length_nil]
        omega
    · cases hstep
  | receive =>
    -- the user takes an event
    simp only [nodeTasks, step] at hstep
    split at hstep
    · rename_i e rest hqueue
      cases hstep
      refine ⟨hended, rfl, rfl, rfl, ?_⟩
      unfold toMove
      rw [hqueue, List.length_cons]
      simp only [moves, if_true]
      omega
    · cases hstep
  | leave =>
    -- the user leaves
    cases hstep
    refine ⟨hended, rfl, rfl, rfl, ?_⟩
    unfold toMove
    simp [moves]

/-- After its end the node only empties its queues: each move takes something away. -/
theorem run_ended {s t : NodeTasks Peer} {ls : List (Label Peer)} (hended : s.ended = true)
    (hrun : (nodeTasks lib).run s ls = some t) :
    t.ended = true ∧ t.accepted = s.accepted ∧ t.answers = s.answers ∧ t.effects = s.effects ∧
      t.toMove + ls.countP moves ≤ s.toMove := by
  induction ls generalizing s with
  | nil =>
    cases hrun
    exact ⟨hended, rfl, rfl, rfl, Nat.le_refl _⟩
  | cons l ls ih =>
    rcases (nodeTasks lib).run_cons_eq_some.mp hrun with ⟨u, hu, hrun'⟩
    obtain ⟨hu₁, haccepted, hanswers, heffects, hmoves⟩ := step_ended hended hu
    obtain ⟨ht₁, haccepted', hanswers', heffects', hmoves'⟩ := ih hu₁ hrun'
    refine ⟨ht₁, haccepted'.trans haccepted, hanswers'.trans hanswers,
      heffects'.trans heffects, ?_⟩
    rw [List.countP_cons]
    omega

/-- Only an event can be held up. -/
theorem step_emit (lib : External Peer) {s : NodeTasks Peer} (hs : s.ended = false)
    {effect : Effect Peer} {rest : List (Effect Peer)} (hp : s.pending = effect :: rest)
    (hsuspended : ¬ Suspended s.pending = true) : ∃ t, (nodeTasks lib).step s .emit = some t ∧
      t.ended = false ∧ t.pending = rest ∧ t.accepted = s.accepted := by
  rw [hp] at hsuspended
  simp only [nodeTasks, step, hs, Bool.false_eq_true, if_false, emitOne, hp]
  cases effect with
  | event e => exact absurd rfl hsuspended
  | _ => exact ⟨_, rfl, rfl, rfl, rfl⟩

/-- A handler comes by itself to a point where it can be dropped. -/
theorem exists_stop (lib : External Peer) {pending : List (Effect Peer)} {s : NodeTasks Peer}
    (hs : s.ended = false) (hp : s.pending = pending) : ∃ k ≤ pending.length, ∃ u,
      (nodeTasks lib).run s (List.replicate k .emit ++ [.stop]) = some u ∧ u.ended = true ∧
      u.accepted = s.accepted := by
  induction pending generalizing s with
  | nil =>
    refine ⟨0, Nat.le_refl 0, s.endRuntime, ?_, rfl, rfl⟩
    have hsuspended : Suspended s.pending = true := hp ▸ rfl
    simp only [List.replicate_zero, List.nil_append, Machine.run, nodeTasks, step,
      if_pos (And.intro hs hsuspended), Option.bind_some]
  | cons effect rest ih =>
    by_cases hsuspended : Suspended s.pending = true
    · refine ⟨0, Nat.zero_le _, s.endRuntime, ?_, rfl, rfl⟩
      simp only [List.replicate_zero, List.nil_append, Machine.run, nodeTasks, step,
        if_pos (And.intro hs hsuspended), Option.bind_some]
    · rcases step_emit lib hs hp hsuspended with ⟨v, hv, hvs, hvp, haccepted⟩
      rcases ih hvs hvp with ⟨k, hk, u, hu, hended, hsame⟩
      refine ⟨k + 1, Nat.succ_le_succ hk, u, ?_, hended, hsame.trans haccepted⟩
      rw [List.replicate_succ, List.cons_append]
      exact (nodeTasks lib).run_cons_eq_some.mpr ⟨v, hv, hu⟩

/-- When nothing moves any more the user has everything. -/
theorem Inv.all_taken {s : NodeTasks Peer} (h : s.Inv lib rt₀) (hgone : s.userGone = false)
    (hnone : ∀ l, moves l = true → (nodeTasks lib).step s l = none) :
    s.taken = Runtime.eventsOf s.effects := by
  have huser : s.userQueue = [] := by
    have hreceive := hnone .receive rfl
    simp only [nodeTasks, step] at hreceive
    split at hreceive
    · cases hreceive
    · assumption
  have hforwarding : s.forwarding = none := by
    have hpass := hnone .pass rfl
    simp only [nodeTasks, step] at hpass
    split at hpass
    · -- the user's queue is empty
      have hroom : s.userQueue.length < queueCapacity := by
        rw [huser]
        exact Nat.zero_lt_succ 99
      rw [if_pos hroom] at hpass
      split_ifs at hpass
    · assumption
  have hqueue : s.eventQueue = [] := by
    have hforward := hnone .forward rfl
    simp only [nodeTasks, step] at hforward
    split at hforward
    · cases hforward
    · rename_i hother
      cases hs : s.eventQueue with
      | nil => rfl
      | cons e rest => exact (hother e rest hforwarding hs).elim
  rw [← h.events, h.user hgone, huser, hforwarding, hqueue]
  simp

/-- **Shutdown**: whatever state a node is in, also one where its tasks wait for
each other, the runtime can be stopped after at most the rest of its handler.
Once it has ended every call is answered, nothing more happens to the runtime,
and only so many moves are left before a user who stays has taken all events. -/
theorem shutdown_completes (hrun : (nodeTasks lib).run (spawned rt₀) ls = some t) :
    (t.ended = false → ∃ k ≤ t.pending.length, ∃ u,
      (nodeTasks lib).run t (List.replicate k .emit ++ [.stop]) = some u ∧ u.ended = true ∧
      u.accepted = t.accepted) ∧
    (t.ended = true → t.answers.length = t.accepted.length ∧
      ∀ ks u, (nodeTasks lib).run t ks = some u → u.accepted = t.accepted ∧
        u.answers = t.answers ∧ u.effects = t.effects ∧ u.toMove + ks.countP moves ≤ t.toMove ∧
        (u.userGone = false → (∀ l, moves l = true → (nodeTasks lib).step u l = none) →
          u.taken = Runtime.eventsOf t.effects)) := by
  constructor
  · -- before its end: some emissions, then the stop
    intro hs
    exact exists_stop lib hs rfl
  · -- after it
    intro hended
    have h : t.Inv lib rt₀ := run_inv hrun
    constructor
    · have hlength := h.length_accepted
      rw [(h.ended hended).1, (h.ended hended).2] at hlength
      exact hlength
    · intro ks u hks
      obtain ⟨-, haccepted, hanswers, heffects, hmoves⟩ := run_ended hended hks
      refine ⟨haccepted, hanswers, heffects, hmoves, ?_⟩
      intro hgone hnone
      have hu : u.Inv lib rt₀ := run_inv ((nodeTasks lib).run_append_eq_some.mpr ⟨t, hrun, hks⟩)
      rw [← heffects]
      exact hu.all_taken hgone hnone

end Runs

/-! ## A shutdown between two calls -/

/-- A node that has just started. -/
def fresh : Runtime String := .new External.plain "me" 0

/-- Two calls and a message; the shutdown comes before the second call is taken. -/
def twoCalls : List (Label String) :=
  [.call (.subscribe "news"), .call .getConnectedPeers, .take (.calm String), .emit,
    .swarm (.calm String) (.gossip "peer" "news" []), .emit, .forward, .stop]

theorem run_twoCalls :
    ∃ t, (nodeTasks External.plain).run (spawned fresh) twoCalls = some t ∧ t.ended = true := by
  have hrun : ((nodeTasks External.plain).run (spawned fresh) twoCalls).map (·.ended) =
      some true := by
    decide +kernel
  rcases Option.map_eq_some_iff.mp hrun with ⟨t, ht, hended⟩
  exact ⟨t, ht, hended⟩

/-- The first call is answered by the runtime, the second fails. -/
theorem calls_linearize_stopped :
    ∃ t, (nodeTasks External.plain).run (spawned fresh) twoCalls = some t ∧ t.answers =
      Runtime.repliesOf (fresh.serve External.plain t.turns).2 ++
        t.dropped.map Command.channelClosed := by
  rcases run_twoCalls with ⟨t, ht, hended⟩
  obtain ⟨-, hanswers, -, -, -, hover⟩ := calls_linearize External.plain fresh ht
  rw [(hover hended).2] at hanswers
  exact ⟨t, ht, (List.append_nil _).symm.trans hanswers⟩

theorem events_in_order_stopped :
    ∃ t, (nodeTasks External.plain).run (spawned fresh) twoCalls = some t ∧
      t.taken <+: t.broadcast ∧ t.eventQueue.length ≤ 100 := by
  rcases run_twoCalls with ⟨t, ht, -⟩
  obtain ⟨-, htaken, hqueue, -⟩ := events_in_order External.plain fresh ht
  exact ⟨t, ht, htaken, hqueue⟩

theorem shutdown_completes_stopped :
    ∃ t, (nodeTasks External.plain).run (spawned fresh) twoCalls = some t ∧
      t.answers.length = t.accepted.length := by
  rcases run_twoCalls with ⟨t, ht, hended⟩
  exact ⟨t, ht, ((shutdown_completes ht).2 hended).1⟩

end NodeTasks

end AviNet
