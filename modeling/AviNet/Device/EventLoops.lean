import AviNet.Device.Callbacks
import AviNet.Lib.Asks
import AviNet.Replication.Documents
import AviNet.Runtime.Turns

/-!
# Device.EventLoops — devices with their event loops and applications

Every device has its runtime (`Mesh`), an event loop that takes the events of the
runtime one after the other and runs the callbacks of the application for them, and
any number of tasks in which the application calls the device. They all go on in any
order, each between any two of its commands, while contexts are sent and merged.

* `keeps_code`, `keeps_handleEvent`: code whose calls write only what meets `W`, as
  long as every document that it reads meets `I`;
* `run_kept`: if this holds of all code, and the nodes keep `J` under writes that meet
  `W`, then `J` holds in every state.
-/

namespace AviNet

open AviContext (ContextWrite)

/-- What is left to do of a call or of a callback. -/
abbrev DeviceTask := Guarded.Task DeviceLock Command Reply

/-- A device, as its event loop sees it. -/
structure EventLoop where
  device : AviDevice
  /-- the events that have been emitted and not received -/
  events : List AviEvent
  /-- the event that is being handled, and what is left to do -/
  current : Option (AviEvent × DeviceTask)
  handled : List AviEvent

/-- Devices, and the tasks of their applications. -/
structure Devices (ι Peer : Type) [LinearOrder Peer] where
  net : Mesh ι Peer
  loop : ι → EventLoop
  tasks : List (ι × DeviceTask)

/-- `Started` puts the id into `peer_id`. -/
def AviDevice.note (self : AviDevice) : AviEvent → AviDevice
  | .started localPeerId _ => { self with peerId := some localPeerId }
  | _ => self

namespace Devices

variable {ι Peer : Type} [DecidableEq ι] [LinearOrder Peer]

/-! ## Model layer -/

inductive Label (ι Peer : Type) where
  /-- anything else that the nodes do -/
  | other (l : Mesh.Label ι Peer)
  /-- the application of the node `n` starts a task -/
  | spawn (n : ι) (u : UserCode)
  /-- the `i`th task goes on -/
  | task (i : ℕ) (env : Env Peer) (queued : DeviceLock → Bool)
  /-- the event loop of `n` receives an event; `app` is what its application does then -/
  | receive (n : ι) (app : Reactions)
  /-- the event loop of `n` goes on -/
  | loop (n : ι) (env : Env Peer) (queued : DeviceLock → Bool)

/-- The node that takes a step, and the events that it emits. -/
def emitted (lib : External Peer) (net : Mesh ι Peer) : Mesh.Label ι Peer → ι × List AviEvent
  | .turn n env l => (n, Runtime.eventsOf ((net.rt n).turn lib env l).2)
  | .deliver n env source k =>
    match net.flight[k]? with
    | some p => (n, Runtime.eventsOf ((net.rt n).turn lib env (.swarm (p.event lib source))).2)
    | none => (n, [])

/-- A task on the node `n` goes on: its command is handled and answered, which emits no
event, or it takes or releases a lock. -/
def resume (lib : External Peer) (net : Mesh ι Peer) (n : ι) (env : Env Peer)
    (queued : DeviceLock → Bool) (task : DeviceTask) : Option (Mesh ι Peer × DeviceTask) :=
  match task.code with
  | .ask cmd k =>
    (Runtime.replyOf ((net.rt n).turn lib env (.command cmd)).2).map fun r =>
      (net.act lib n env (.command cmd), ⟨task.frames, k r⟩)
  | _ => (Guarded.step task ⟨queued, .done (.ok ())⟩).map fun task => (net, task)

/-- The event loop of the node `n` is now `l`. -/
def setLoop (s : Devices ι Peer) (n : ι) (l : EventLoop) : Devices ι Peer :=
  { s with loop := Function.update s.loop n l }

def step (lib : External Peer) (peer : ι ↪ Peer) (s : Devices ι Peer) :
    Label ι Peer → Option (Devices ι Peer)
  | .other l => ((mesh lib peer).step s.net l).map fun net =>
    let (n, events) := emitted lib s.net l
    { s with net := net }.setLoop n { s.loop n with events := (s.loop n).events ++ events }
  | .spawn n u => some { s with tasks := s.tasks ++ [(n, ⟨[], u.code⟩)] }
  | .task i env queued =>
    match s.tasks[i]? with
    | some (n, task) => (resume lib s.net n env queued task).map fun r =>
      { s with net := r.1, tasks := s.tasks.set i (n, r.2) }
    | none => none
  | .receive n app =>
    match (s.loop n).current, (s.loop n).events with
    | none, event :: events =>
      let device := (s.loop n).device.note event
      let current := (event, ⟨[], device.handleEvent app event⟩)
      some (s.setLoop n ⟨device, events, some current, (s.loop n).handled⟩)
    | _, _ => none
  | .loop n env queued =>
    match (s.loop n).current with
    | some (event, ⟨[], .done⟩) =>
      -- the event has been handled
      let handled := (s.loop n).handled ++ [event]
      some (s.setLoop n { s.loop n with current := none, handled := handled })
    | some (event, task) => (resume lib s.net n env queued task).map fun r =>
      { s with net := r.1 }.setLoop n { s.loop n with current := some (event, r.2) }
    | none => none

/-- Devices that have just been made, with event loops that have not received anything. -/
def Init (lib : External Peer) (peer : ι ↪ Peer) (s : Devices ι Peer) : Prop :=
  (mesh lib peer).Init s.net ∧ s.tasks = [] ∧ ∀ n, (s.loop n).device.peerId = none ∧
    (s.loop n).events = [] ∧ (s.loop n).current = none ∧ (s.loop n).handled = []

end Devices

open Devices in
/-- The machine of the devices with these peer ids. -/
def devices {ι Peer : Type} [DecidableEq ι] [LinearOrder Peer] (lib : External Peer)
    (peer : ι ↪ Peer) : Machine (Devices ι Peer) (Devices.Label ι Peer) where
  Init := Init lib peer
  step := step lib peer

/-! ## Code whose writes meet `W` -/

/-- How a command can be answered if every document that is read meets `I`. -/
def Fetches (I : Value → Prop) : Command → Reply → Prop
  | .getPeerContext _, r => ∃ d, r = .value (.ok d) ∧ I d
  | _, _ => True

/-- The command writes only what meets `W`. -/
def Sends {Peer : Type} (lib : External Peer) (W : ContextWrite → Prop) (cmd : Command) : Prop :=
  Runtime.PublishesNone lib (.command cmd) ∧
    ∀ w, Runtime.contextWrite (.command cmd : Runtime.Label Peer) = some w → W w

/-- All writes of the code meet `W` if every document that is read meets `I`. -/
abbrev DeviceCode.Keeps {Peer : Type} (lib : External Peer) (I : Value → Prop)
    (W : ContextWrite → Prop) (code : DeviceCode) : Prop :=
  code.Always (Fetches I) (Sends lib W)

/-- The same for all that is left of a task. -/
abbrev DeviceTask.Keeps {Peer : Type} (lib : External Peer) (I : Value → Prop)
    (W : ContextWrite → Prop) (task : DeviceTask) : Prop :=
  task.Always (Fetches I) (Sends lib W)

/-- The writes of the call meet `W` if every document that is read meets `I`. -/
def DeviceCall.Meets {Peer : Type} (lib : External Peer) (I : Value → Prop)
    (W : ContextWrite → Prop) : DeviceCall → Prop
  | .updateCtx path value => ∀ d w, I d → (PathOp.update path value).edit d = .ok w → W w
  | .replaceCtx path value => ∀ d w, I d → (PathOp.replace path value).edit d = .ok w → W w
  | .deleteCtx path => ∀ d w, I d → (PathOp.delete path).edit d = .ok w → W w
  | .clearCtx => W (.replace (.object []))
  | .publish topic data => topic = Runtime.contextTopic → lib.decodeContext data = none
  | _ => True

/-- Every call in the code, those of its factories included, has the property. -/
def UserCode.All (P : DeviceCall → Prop) : UserCode → Prop
  | .done => True
  | .call c next => P c ∧ next.All P
  | .requestStream _ _ _ createHandler next => createHandler.All P ∧ next.All P

/-- The code is among the callbacks, factories and handlers of the application. -/
inductive Reactions.Runs (app : Reactions) : UserCode → Prop
  | onStarted (u : UserCode) : app.onStarted = some u → app.Runs u
  | onPeerDiscovered (u : UserCode) : app.onPeerDiscovered = some u → app.Runs u
  | onPeerConnected (u : UserCode) : app.onPeerConnected = some u → app.Runs u
  | onPeerDisconnected (u : UserCode) : app.onPeerDisconnected = some u → app.Runs u
  | subscriptionHandler (topic : String) (u : UserCode) :
      u ∈ app.subscriptionHandlers topic → app.Runs u
  | createHandler (reason : String) (u onAccepted : UserCode) :
      app.factories reason = some (u, onAccepted) → app.Runs u
  | onAccepted (reason : String) (createHandler u : UserCode) :
      app.factories reason = some (createHandler, u) → app.Runs u
  | activeHandler (streamId : StreamId) (u : UserCode) :
      app.activeHandlers streamId = some u → app.Runs u

section Keeps

variable {Peer : Type} {lib : External Peer} {I : Value → Prop} {W : ContextWrite → Prop}

/-- A command that is neither a context command nor a publication. -/
theorem sends_of_silent {cmd : Command} (hpublish : ∀ topic data, cmd ≠ .publish topic data)
    (hwrite : Runtime.contextWrite (.command cmd : Runtime.Label Peer) = none) :
    Sends lib W cmd := by
  constructor
  · cases cmd with
    | publish topic data => exact absurd rfl (hpublish topic data)
    | _ => exact True.intro
  · intro w hw
    rw [hwrite] at hw
    cases hw

/-- The command of a write that meets `W` sends only that. -/
theorem sends_toCommand {w : ContextWrite} (h : W w) : Sends lib W w.toCommand := by
  cases w with
  | update patch =>
    refine ⟨True.intro, ?_⟩
    rintro w ⟨⟩
    exact h
  | replace data =>
    refine ⟨True.intro, ?_⟩
    rintro w ⟨⟩
    exact h

/-- Code that sends one such command keeps the discipline. -/
theorem keeps_send {cmd : Command} (h : Sends lib W cmd) : (DeviceCode.send cmd).Keeps lib I W :=
  ⟨h, fun _ _ => True.intro⟩

/-- The document is read, and the rest of the code has a part of it. -/
theorem keeps_getCtx {path : String} {k : Except AviP2pError Value → DeviceCode}
    (h : ∀ d, I d → (k (d.getCtx path)).Keeps lib I W) :
    (DeviceCode.getCtx path k).Keeps lib I W := by
  refine ⟨sends_of_silent (fun _ _ h => by cases h) rfl, ?_⟩
  rintro r ⟨d, rfl, hd⟩
  exact h d hd

/-- So does a path operation whose result meets `W` on every document that meets `I`. -/
theorem keeps_edit {op : PathOp} (h : ∀ d w, I d → op.edit d = .ok w → W w) :
    (DeviceCode.edit op).Keeps lib I W := by
  apply keeps_getCtx
  intro d hd
  have hroot : d.getCtx "" = .ok d := rfl
  rw [hroot]
  dsimp only
  cases hedit : op.edit d with
  | error e => exact True.intro
  | ok w => exact keeps_send (sends_toCommand (h d w hd hedit))

/-- So does every call that meets it. -/
theorem keeps_call {c : DeviceCall} (h : c.Meets lib I W) : c.code.Keeps lib I W := by
  -- the kinds of code a call can be: a silent command, a read, a registration
  have hsilent : ∀ cmd, (∀ topic data, cmd ≠ Command.publish topic data) →
      Runtime.contextWrite (.command cmd : Runtime.Label Peer) = none →
      (DeviceCode.send cmd).Keeps lib I W := by
    intro cmd hpublish hwrite
    exact keeps_send (sends_of_silent hpublish hwrite)
  have hfetch : ∀ path, (DeviceCode.getCtx path fun _ => .done).Keeps lib I W :=
    fun path => keeps_getCtx fun _ _ => True.intro
  have hstore : ∀ l, (DeviceCode.store l).Keeps lib I W := fun _ => ⟨True.intro, True.intro⟩
  cases c with
  | publish topic data =>
    refine keeps_send ⟨h, ?_⟩
    intro w hw
    cases hw
  | subscribe topic | subscribeAsync topic =>
    exact ⟨True.intro, hsilent _ (fun _ _ h => by cases h) rfl⟩
  -- the three path operations
  | updateCtx path value => exact keeps_edit h
  | replaceCtx path value => exact keeps_edit h
  | deleteCtx path => exact keeps_edit h
  -- `clear_ctx` replaces the document by an empty one
  | clearCtx => exact keeps_send (sends_toCommand (w := .replace (.object [])) h)
  | hasCtx path => exact hfetch path
  | getCtx path => exact hfetch path
  | executeQuery => exact hfetch "avi.device.caps"
  | registerStreamHandler reason => exact hstore _
  | onStarted | onPeerDiscovered | onPeerConnected | onPeerDisconnected => exact hstore _
  | getPeers => exact hsilent _ (fun _ _ h => by cases h) rfl
  | closeStream streamId => exact hsilent _ (fun _ _ h => by cases h) rfl
  | sendStreamData streamId data => exact hsilent _ (fun _ _ h => by cases h) rfl

/-- **Code of an application** writes what its calls write. -/
theorem keeps_code {u : UserCode} (h : u.All (DeviceCall.Meets lib I W)) :
    u.code.Keeps lib I W := by
  induction u with
  | done => exact True.intro
  | call c next ih => exact (keeps_call h.1).seq (ih h.2)
  | requestStream peerId reason factory createHandler next ihcreate ihnext =>
    refine ⟨?_, ihnext h.2⟩
    cases factory with
    | false => exact True.intro
    | true =>
      refine ⟨sends_of_silent (fun _ _ h => by cases h) rfl, ?_⟩
      intro r _
      dsimp only
      split
      · exact (ihcreate h.1).seq ⟨True.intro, True.intro⟩
      · exact True.intro

/-- Application code whose calls satisfy a predicate satisfies every weaker one. -/
theorem UserCode.All.mono {P Q : DeviceCall → Prop} {u : UserCode} (h : u.All P)
    (hPQ : ∀ c, P c → Q c) : u.All Q := by
  induction u with
  | done => exact True.intro
  | call c next ih => exact ⟨hPQ c h.1, ih h.2⟩
  | requestStream peerId reason factory createHandler next ihcreate ihnext =>
    exact ⟨ihcreate h.1, ihnext h.2⟩

/-- So do callbacks run one after the other. -/
theorem keeps_runs {us : List UserCode} (h : ∀ u ∈ us, u.code.Keeps lib I W) :
    (runs us).Keeps lib I W := by
  apply Guarded.Always.all
  intro code hcode
  obtain ⟨u, hu, rfl⟩ := List.mem_map.mp hcode
  exact h u hu

/-- A callback that may not be set, under a guard. -/
theorem keeps_callback {l : DeviceLock} {mode : GuardMode} {o : Option UserCode}
    (h : ∀ u, o = some u → u.code.Keeps lib I W) :
    DeviceCode.Keeps lib I W (.hold l mode (runs o.toList) .done) := by
  refine ⟨keeps_runs ?_, True.intro⟩
  intro u hu
  exact h u (Option.mem_toList.mp hu)

/-- **The event loop** writes what the device announces and what callbacks write. -/
theorem keeps_handleEvent {self : AviDevice} {own : PeerId} {app : Reactions} {event : AviEvent}
    (hcaps : (self.updateCapabilities own).Keeps lib I W)
    (hcore : (self.announceCore own).Keeps lib I W)
    (hpeer : ∀ id, self.peerId = some id → id = own)
    (hevent : ∀ id addresses, event = .started id addresses → id = own)
    (happ : ∀ u, app.Runs u → u.code.Keeps lib I W) :
    (self.handleEvent app event).Keeps lib I W := by
  -- the callbacks of an active handler
  have hhandler : ∀ streamId, (AviDevice.withHandler app streamId).Keeps lib I W :=
    fun streamId => keeps_callback fun u hu => happ u (.activeHandler streamId u hu)
  cases event with
  | started id addresses =>
    cases hevent id addresses rfl
    -- announce, then call back
    exact ⟨True.intro, hcaps.seq (hcore.seq
      (keeps_callback fun u hu => happ u (.onStarted u hu)))⟩
  | peerDiscovered id => exact keeps_callback fun u hu => happ u (.onPeerDiscovered u hu)
  | peerConnected id address =>
    refine ⟨True.intro, Guarded.Always.seq ?_
      (keeps_callback fun u hu => happ u (.onPeerConnected u hu))⟩
    -- the capabilities are sent again once the device knows its own id
    cases hid : self.peerId with
    | none => exact True.intro
    | some id =>
      cases hpeer id hid
      exact hcaps
  | peerDisconnected id => exact keeps_callback fun u hu => happ u (.onPeerDisconnected u hu)
  | message source topic data =>
    exact ⟨keeps_runs fun u hu => happ u (.subscriptionHandler topic u hu), True.intro⟩
  | contextUpdated id doc => exact True.intro
  | streamRequested source reason streamId =>
    -- rejected without a factory
    refine ⟨?_, True.intro⟩
    cases hfactory : app.factories reason with
    | none => exact keeps_send (sends_of_silent (fun _ _ h => by cases h) rfl)
    | some f =>
      refine ⟨sends_of_silent (fun _ _ h => by cases h) rfl, ?_⟩
      -- accepted: two callbacks follow
      intro r _
      dsimp only
      split
      · refine Guarded.Always.seq (keeps_runs ?_) ⟨True.intro, True.intro⟩
        intro u hu
        rcases List.mem_cons.mp hu with rfl | hu
        · exact happ _ (.createHandler reason _ f.2 hfactory)
        · rw [List.mem_singleton.mp hu]
          exact happ _ (.onAccepted reason f.1 _ hfactory)
      · exact True.intro
  | streamAccepted id streamId => exact hhandler streamId
  | streamRejected id streamId reason => exact hhandler streamId
  | streamData id streamId data => exact hhandler streamId
  | streamClosed id streamId reason => exact hhandler streamId

end Keeps

/-! ## Steps of a task -/

namespace Devices

variable {ι Peer : Type} [DecidableEq ι] [LinearOrder Peer] {lib : External Peer}
  {peer : ι ↪ Peer} {net net' : Mesh ι Peer} {n : ι} {env : Env Peer}
  {queued : DeviceLock → Bool} {task task' : DeviceTask}

/-- **Inversion**: a command is handled and answered, a lock is released, or taken. -/
theorem resume_cases (h : resume lib net n env queued task = some (net', task')) :
    (∃ cmd k r, task = ⟨task.frames, .ask cmd k⟩ ∧
      Runtime.replyOf ((net.rt n).turn lib env (.command cmd)).2 = some r ∧
      net' = net.act lib n env (.command cmd) ∧ task' = ⟨task.frames, k r⟩) ∨
    (∃ f frames, task = ⟨f :: frames, .done⟩ ∧ net' = net ∧ task' = ⟨frames, f.2.2⟩) ∨
    ∃ l mode body rest, task = ⟨task.frames, .hold l mode body rest⟩ ∧ net' = net ∧
      task' = ⟨(l, mode, rest) :: task.frames, body⟩ := by
  rcases task with ⟨frames, code⟩
  cases code with
  | ask cmd k =>
    -- a command goes to the runtime
    obtain ⟨r, hr, heq⟩ := Option.map_eq_some_iff.mp h
    cases heq
    exact Or.inl ⟨cmd, k, r, rfl, hr, rfl, rfl⟩
  | done =>
    -- the end of a guard's body
    cases frames with
    | nil => cases h
    | cons f frames =>
      cases h
      exact Or.inr (Or.inl ⟨f, frames, rfl, rfl, rfl⟩)
  | hold l mode body rest =>
    -- a lock is taken
    simp only [resume, Guarded.step] at h
    split_ifs at h
    · cases h
      exact Or.inr (Or.inr ⟨l, mode, body, rest, rfl, rfl, rfl⟩)
    · cases h

omit [DecidableEq ι] in
/-- How a read of the document is answered. -/
theorem reads_replyOf {I : Value → Prop} (hread : I (net.rt n).localContext.data) {cmd : Command}
    {r : Reply}
    (h : Runtime.replyOf ((net.rt n).turn lib env (.command cmd)).2 = some r) :
    Fetches I cmd r := by
  cases cmd with
  | getPeerContext peerId =>
    cases h
    exact ⟨_, rfl, hread⟩
  | _ => exact True.intro

/-- **The step lemma** of tasks: what is sent meets `W`, and so will the rest. -/
theorem resume_keeps {I : Value → Prop} {W : ContextWrite → Prop}
    (hread : I (net.rt n).localContext.data) (htask : task.Keeps lib I W)
    (h : resume lib net n env queued task = some (net', task')) :
    task'.Keeps lib I W ∧
      (net' = net ∨ ∃ cmd, Sends lib W cmd ∧ net' = net.act lib n env (.command cmd)) := by
  rcases resume_cases h with ⟨cmd, k, r, heq, hr, hnet, rfl⟩ | ⟨f, frames, rfl, hnet, rfl⟩ |
    ⟨l, mode, body, rest, heq, hnet, rfl⟩
  · -- a command
    rw [heq] at htask
    exact ⟨htask.answer (reads_replyOf hread hr), Or.inr ⟨cmd, htask.1.1, hnet⟩⟩
  · -- a release
    exact ⟨htask.release, Or.inl hnet⟩
  · -- a lock is taken
    rw [heq] at htask
    exact ⟨htask.take, Or.inl hnet⟩

/-- What a task will surely send is sent, or still surely to come. -/
theorem resume_surely {I : Value → Prop} {Ok : Command → Prop}
    (hread : I (net.rt n).localContext.data) (htask : task.Surely (Fetches I) Ok)
    (h : resume lib net n env queued task = some (net', task')) :
    task'.Surely (Fetches I) Ok ∨
      ∃ cmd, Ok cmd ∧ net' = net.act lib n env (.command cmd) := by
  rcases resume_cases h with ⟨cmd, k, r, heq, hr, hnet, rfl⟩ | ⟨f, frames, rfl, hnet, rfl⟩ |
    ⟨l, mode, body, rest, heq, hnet, rfl⟩
  · rw [heq] at htask
    rcases htask.answer (reads_replyOf hread hr) with hok | hrest
    · exact Or.inr ⟨cmd, hok, hnet⟩
    · exact Or.inl hrest
  · exact Or.inl htask.release
  · rw [heq] at htask
    exact Or.inl htask.take

/-! ## Event loops -/

theorem loop_setLoop_self (s : Devices ι Peer) (n : ι) (l : EventLoop) :
    (s.setLoop n l).loop n = l := by
  show Function.update s.loop n l n = l
  rw [Function.update_self]

theorem loop_setLoop_of_ne (s : Devices ι Peer) {m : ι} (hm : m ≠ n) {l : EventLoop} :
    (s.setLoop n l).loop m = s.loop m := by
  show Function.update s.loop n l m = s.loop m
  rw [Function.update_of_ne hm]

variable {s t : Devices ι Peer}

/-- A step of a task of the application. -/
theorem step_task_inv {i : ℕ} (hstep : (devices lib peer).step s (.task i env queued) = some t) :
    ∃ n task r, s.tasks[i]? = some (n, task) ∧
      resume lib s.net n env queued task = some r ∧
      t = { s with net := r.1, tasks := s.tasks.set i (n, r.2) } := by
  simp only [devices, step] at hstep
  cases hi : s.tasks[i]? with
  | none =>
    rw [hi] at hstep
    cases hstep
  | some entry =>
    rw [hi] at hstep
    obtain ⟨r, hr, rfl⟩ := Option.map_eq_some_iff.mp hstep
    exact ⟨entry.1, entry.2, r, rfl, hr, rfl⟩

/-- An event is received when none is being handled. -/
theorem step_receive_inv {app : Reactions}
    (hstep : (devices lib peer).step s (.receive n app) = some t) :
    ∃ event events, (s.loop n).current = none ∧ (s.loop n).events = event :: events ∧
      t = s.setLoop n ⟨(s.loop n).device.note event, events,
        some (event, ⟨[], ((s.loop n).device.note event).handleEvent app event⟩),
        (s.loop n).handled⟩ := by
  simp only [devices, step] at hstep
  cases hcurrent : (s.loop n).current with
  | some c =>
    rw [hcurrent] at hstep
    cases hstep
  | none =>
    cases hevents : (s.loop n).events with
    | nil =>
      rw [hcurrent, hevents] at hstep
      cases hstep
    | cons event events =>
      rw [hcurrent, hevents] at hstep
      cases hstep
      exact ⟨event, events, rfl, rfl, rfl⟩

/-- A step of an event loop: the event has been handled, or its handling goes on. -/
theorem step_loop_inv (hstep : (devices lib peer).step s (.loop n env queued) = some t) :
    (∃ event, (s.loop n).current = some (event, ⟨[], .done⟩) ∧
      t = s.setLoop n
        { s.loop n with current := none, handled := (s.loop n).handled ++ [event] }) ∨
    ∃ event task r, (s.loop n).current = some (event, task) ∧
      resume lib s.net n env queued task = some r ∧
      t = { s with net := r.1 }.setLoop n { s.loop n with current := some (event, r.2) } := by
  simp only [devices, step] at hstep
  cases hcurrent : (s.loop n).current with
  | none =>
    rw [hcurrent] at hstep
    cases hstep
  | some c =>
    rcases c with ⟨event, frames, code⟩
    rw [hcurrent] at hstep
    cases frames with
    | cons f frames =>
      -- under a guard
      obtain ⟨r, hr, rfl⟩ := Option.map_eq_some_iff.mp hstep
      exact Or.inr ⟨event, _, r, rfl, hr, rfl⟩
    | nil =>
      cases code with
      | done =>
        -- the event has been handled
        cases hstep
        exact Or.inl ⟨event, rfl, rfl⟩
      | ask cmd k =>
        obtain ⟨r, hr, rfl⟩ := Option.map_eq_some_iff.mp hstep
        exact Or.inr ⟨event, _, r, rfl, hr, rfl⟩
      | hold l mode body rest =>
        obtain ⟨r, hr, rfl⟩ := Option.map_eq_some_iff.mp hstep
        exact Or.inr ⟨event, _, r, rfl, hr, rfl⟩

/-! ## The nodes -/

/-- A turn never changes the identity of a node. -/
theorem localPeerId_act (l : Runtime.Label Peer) (m : ι) :
    ((net.act lib n env l).rt m).localPeerId = (net.rt m).localPeerId := by
  show (Function.update net.rt n ((net.rt n).turn lib env l).1 m).localPeerId = _
  by_cases hm : m = n
  · rw [hm, Function.update_self, Runtime.localPeerId_turn]
  · rw [Function.update_of_ne hm]

/-- Nor does any step of the mesh. -/
theorem localPeerId_step {l : Mesh.Label ι Peer} (h : (mesh lib peer).step net l = some net')
    (m : ι) : (net'.rt m).localPeerId = (net.rt m).localPeerId := by
  cases l with
  | turn n env l =>
    simp only [mesh, Mesh.step] at h
    split_ifs at h
    cases h
    exact localPeerId_act l m
  | deliver n env source k =>
    obtain ⟨p, -, rfl⟩ := Option.map_eq_some_iff.mp h
    exact localPeerId_act _ m

omit [DecidableEq ι] in
/-- `Started` carries the id of the node. -/
theorem started_of_mem_emitted {l : Mesh.Label ι Peer} {id : PeerId} {addresses : List String}
    (h : .started id addresses ∈ (emitted lib net l).2) :
    id = lib.peerId (net.rt (emitted lib net l).1).localPeerId := by
  cases l with
  | turn n env l => exact Runtime.started_of_mem_turn h
  | deliver n env source k =>
    simp only [emitted] at h ⊢
    cases hk : net.flight[k]? with
    | none =>
      rw [hk] at h
      cases h
    | some p =>
      rw [hk] at h
      exact Runtime.started_of_mem_turn h

/-! ## The rule -/

/-- The nodes keep `J` under writes that meet `W` while their contexts are read back, and
every document that is read then meets `I`, so that what the devices announce meets `W`. -/
structure Discipline (lib : External Peer) (peer : ι ↪ Peer) (J : Mesh ι Peer → Prop)
    (I : Value → Prop) (W : ContextWrite → Prop) (Room : AviContext → Prop)
    (device : ι → AviDevice) : Prop where
  read : ∀ net, J net → ∀ n, I (net.rt n).localContext.data
  step : ∀ net l net', (mesh lib peer).step net l = some net' → net'.ReadsBack lib →
    net.WritesMeet lib (fun c w _ => W w ∧ Room c) l → J net → J net'
  caps : ∀ n, ((device n).updateCapabilities (lib.peerId (peer n))).Keeps lib I W
  core : ∀ n, ((device n).announceCore (lib.peerId (peer n))).Keeps lib I W

/-- What applications and other tasks write meets `W`, and the contexts have room. -/
def Allowed (lib : External Peer) (I : Value → Prop) (W : ContextWrite → Prop)
    (Room : AviContext → Prop) (s : Devices ι Peer) : Label ι Peer → Prop
  | .other l => s.net.WritesMeet lib (fun c w _ => W w ∧ Room c) l
  | .spawn _ u => u.code.Keeps lib I W
  | .task i _ _ => ∀ t, s.tasks[i]? = some t → Room (s.net.rt t.1).localContext
  | .receive _ app => ∀ u, app.Runs u → u.code.Keeps lib I W
  | .loop n _ _ => Room (s.net.rt n).localContext

variable {J : Mesh ι Peer → Prop} {I : Value → Prop} {W : ContextWrite → Prop}
  {Room : AviContext → Prop} {device : ι → AviDevice} {s t : Devices ι Peer}

/-- The nodes keep `J`, the devices are the ones they were, up to their own ids, and all that
is left to do meets `W`. -/
structure Kept (lib : External Peer) (peer : ι ↪ Peer) (J : Mesh ι Peer → Prop)
    (I : Value → Prop) (W : ContextWrite → Prop) (device : ι → AviDevice)
    (s : Devices ι Peer) : Prop where
  net : J s.net
  localId : ∀ n, (s.net.rt n).localPeerId = peer n
  device : ∀ n, (s.loop n).device = device n ∨
    (s.loop n).device = { device n with peerId := some (lib.peerId (peer n)) }
  own : ∀ n id addresses, .started id addresses ∈ (s.loop n).events → id = lib.peerId (peer n)
  current : ∀ n event task, (s.loop n).current = some (event, task) → task.Keeps lib I W
  tasks : ∀ t ∈ s.tasks, t.2.Keeps lib I W

/-- Loops that have handled nothing keep everything. -/
theorem init_kept (h₀ : Init lib peer s) (hJ : J s.net) :
    s.Kept lib peer J I W fun n => (s.loop n).device := by
  rcases h₀ with ⟨hnet, htasks, hloops⟩
  refine ⟨hJ, ?_, fun n => Or.inl rfl, ?_, ?_, ?_⟩
  · intro n
    rcases hnet.1 n with ⟨now, hn⟩
    rw [hn]
    rfl
  · intro n id addresses h
    rw [(hloops n).2.1] at h
    cases h
  · intro n event task h
    rw [(hloops n).2.2.1] at h
    cases h
  · intro t ht
    rw [htasks] at ht
    cases ht

/-- The nodes take a step. -/
theorem Kept.net_step (hd : Discipline lib peer J I W Room device)
    (h : s.Kept lib peer J I W device) {l : Mesh.Label ι Peer} (hkeeps : net.ReadsBack lib)
    (hstep : (mesh lib peer).step s.net l = some net)
    (hok : s.net.WritesMeet lib (fun c w _ => W w ∧ Room c) l) :
    Kept lib peer J I W device { s with net := net } := by
  refine ⟨hd.step _ _ _ hstep hkeeps hok h.net, ?_, h.device, h.own, h.current, h.tasks⟩
  intro n
  exact (localPeerId_step hstep n).trans (h.localId n)

/-- A task goes on. -/
theorem Kept.resume (hd : Discipline lib peer J I W Room device)
    (h : s.Kept lib peer J I W device) (htask : task.Keeps lib I W)
    (hroom : Room (s.net.rt n).localContext) (hkeeps : net.ReadsBack lib)
    (hresume : resume lib s.net n env queued task = some (net, task')) :
    Kept lib peer J I W device { s with net := net } ∧ task'.Keeps lib I W := by
  rcases resume_keeps (hd.read _ h.net n) htask hresume with ⟨htask', rfl | ⟨cmd, hsends, rfl⟩⟩
  · exact ⟨h, htask'⟩
  · refine ⟨h.net_step hd (l := .turn n env (.command cmd)) hkeeps rfl ⟨hsends.1, ?_⟩, htask'⟩
    intro w hw
    exact ⟨hsends.2 w hw, hroom⟩

/-- An event loop moves on to `l`. -/
theorem Kept.setLoop (h : s.Kept lib peer J I W device) {l : EventLoop}
    (hdevice : l.device = device n ∨
      l.device = { device n with peerId := some (lib.peerId (peer n)) })
    (hown : ∀ id addresses, .started id addresses ∈ l.events → id = lib.peerId (peer n))
    (hcurrent : ∀ event task, l.current = some (event, task) → task.Keeps lib I W) :
    (s.setLoop n l).Kept lib peer J I W device := by
  refine ⟨h.net, h.localId, ?_, ?_, ?_, h.tasks⟩
  · -- the devices
    intro m
    by_cases hm : m = n
    · rw [hm, loop_setLoop_self]
      exact hdevice
    · rw [loop_setLoop_of_ne s hm]
      exact h.device m
  · -- the events
    intro m
    by_cases hm : m = n
    · rw [hm, loop_setLoop_self]
      exact hown
    · rw [loop_setLoop_of_ne s hm]
      exact h.own m
  · -- the code that runs
    intro m
    by_cases hm : m = n
    · rw [hm, loop_setLoop_self]
      exact hcurrent
    · rw [loop_setLoop_of_ne s hm]
      exact h.current m

/-- The code that handles an event of the node. -/
theorem Kept.handleEvent (hd : Discipline lib peer J I W Room device)
    (hfresh : (device n).peerId = none) (h : s.Kept lib peer J I W device)
    {event : AviEvent} {app : Reactions} (hevent : event ∈ (s.loop n).events)
    (happ : ∀ u, app.Runs u → u.code.Keeps lib I W) :
    (((s.loop n).device.note event).handleEvent app event).Keeps lib I W := by
  -- what a device announces does not depend on what it has noted
  have hsame : ((s.loop n).device.note event).updateCapabilities (lib.peerId (peer n)) =
        (device n).updateCapabilities (lib.peerId (peer n)) ∧
      ((s.loop n).device.note event).announceCore (lib.peerId (peer n)) =
        (device n).announceCore (lib.peerId (peer n)) := by
    rcases h.device n with hdevice | hdevice
    · rw [hdevice]
      cases event <;> exact ⟨rfl, rfl⟩
    · rw [hdevice]
      cases event <;> exact ⟨rfl, rfl⟩
  have hcaps := hd.caps n
  have hcore := hd.core n
  rw [← hsame.1] at hcaps
  rw [← hsame.2] at hcore
  -- the id it knows is its own
  have hold : ∀ id, (s.loop n).device.peerId = some id →
      (device n).peerId = some id ∨ id = lib.peerId (peer n) := by
    intro id hid
    rcases h.device n with hdevice | hdevice
    · rw [hdevice] at hid
      exact Or.inl hid
    · rw [hdevice] at hid
      exact Or.inr (Option.some.inj hid).symm
  refine keeps_handleEvent hcaps hcore ?_ ?_ happ
  · intro id hid
    -- `Started` brings the id
    cases event with
    | started id' addresses =>
      cases hid
      exact h.own n _ addresses hevent
    | _ =>
      rcases hold id hid with hnone | hown
      · rw [hfresh] at hnone
        cases hnone
      · exact hown
  · rintro id addresses rfl
    exact h.own n id addresses hevent

/-- **The step lemma**. -/
theorem step_kept (hd : Discipline lib peer J I W Room device)
    (hfresh : ∀ n, (device n).peerId = none) {l : Label ι Peer} (hkeeps : t.net.ReadsBack lib)
    (hstep : (devices lib peer).step s l = some t) (hok : s.Allowed lib I W Room l)
    (h : s.Kept lib peer J I W device) : t.Kept lib peer J I W device := by
  cases l with
  | other l =>
    obtain ⟨net, hnet, rfl⟩ := Option.map_eq_some_iff.mp hstep
    refine (h.net_step hd hkeeps hnet hok).setLoop (h.device _) ?_ (h.current _)
    intro id addresses hmem
    rcases List.mem_append.mp hmem with hmem | hmem
    · exact h.own _ id addresses hmem
    · exact (started_of_mem_emitted hmem).trans (congrArg lib.peerId (h.localId _))
  | spawn n u =>
    cases hstep
    refine ⟨h.net, h.localId, h.device, h.own, h.current, ?_⟩
    intro t ht
    rcases List.mem_append.mp ht with ht | ht
    · exact h.tasks t ht
    · rw [List.mem_singleton.mp ht]
      exact ⟨hok, fun f hf => by cases hf⟩
  | task i env queued =>
    obtain ⟨n, task, r, hi, hr, rfl⟩ := step_task_inv hstep
    obtain ⟨hkept, htask⟩ := h.resume hd (h.tasks _ (List.mem_of_getElem? hi)) (hok _ hi) hkeeps hr
    refine ⟨hkept.net, hkept.localId, h.device, h.own, h.current, ?_⟩
    intro t ht
    rcases List.mem_or_eq_of_mem_set ht with ht | rfl
    · exact h.tasks t ht
    · exact htask
  | receive n app =>
    obtain ⟨event, events, hcurrent, hevents, rfl⟩ := step_receive_inv hstep
    have hmem : event ∈ (s.loop n).events := by
      rw [hevents]
      exact List.mem_cons_self
    apply h.setLoop
    · -- `Started` brings the id of the node
      cases event with
      | started id addresses =>
        right
        rw [h.own n id addresses hmem]
        rcases h.device n with hdevice | hdevice
        · simp only [hdevice, AviDevice.note]
        · simp only [hdevice, AviDevice.note]
      | _ => exact h.device n
    · intro id addresses hin
      apply h.own n id addresses
      rw [hevents]
      exact List.mem_cons_of_mem _ hin
    · rintro event' task ⟨⟩
      exact ⟨h.handleEvent hd (hfresh n) hmem hok, fun f hf => by cases hf⟩
  | loop n env queued =>
    rcases step_loop_inv hstep with ⟨event, hcurrent, rfl⟩ | ⟨event, task, r, hcurrent, hr, rfl⟩
    · -- the event has been handled
      exact h.setLoop (h.device n) (h.own n) fun _ _ hnone => by cases hnone
    · obtain ⟨hkept, hrest⟩ := h.resume hd (h.current n event task hcurrent) hok hkeeps hr
      refine hkept.setLoop (h.device n) (h.own n) ?_
      rintro event' task' ⟨⟩
      exact hrest

/-- **The rule**: in every run in which contexts are read back, and applications and other
tasks write only what meets `W`, the nodes keep `J`. -/
theorem run_kept {ls : List (Label ι Peer)} (h₀ : (devices lib peer).Init s) (hJ : J s.net)
    (hd : Discipline lib peer J I W Room fun n => (s.loop n).device)
    (hrun : (devices lib peer).run s ls = some t)
    (hkeeps : (devices lib peer).AllStates (fun s => s.net.ReadsBack lib) s ls)
    (hok : (devices lib peer).AllSteps (Allowed lib I W Room) s ls) :
    t.Kept lib peer J I W fun n => (s.loop n).device := by
  have hall := Machine.AllSteps.and _ hok (Machine.AllStates.allSteps _ hkeeps)
  exact (devices lib peer).run_invariant_of
    (fun _ _ t hstep hok h => step_kept hd (fun n => (h₀.2.2 n).1) (hok.2 t hstep) hstep hok.1 h)
    hrun (init_kept h₀ hJ) hall

/-! ## What a step does to one event loop and to the nodes -/

/-- **Inversion**: the loop of `n` is left alone, receives an event, goes on, or ends. -/
theorem step_loop_cases {l : Label ι Peer} (hstep : (devices lib peer).step s l = some t)
    (n : ι) :
    ((t.loop n).current = (s.loop n).current ∧ (t.loop n).handled = (s.loop n).handled) ∨
    (∃ app event, event ∈ (s.loop n).events ∧ t.net = s.net ∧
      (t.loop n).current =
        some (event, ⟨[], ((s.loop n).device.note event).handleEvent app event⟩) ∧
      (t.loop n).handled = (s.loop n).handled) ∨
    (∃ env queued event task task', l = .loop n env queued ∧
      (s.loop n).current = some (event, task) ∧
      resume lib s.net n env queued task = some (t.net, task') ∧
      (t.loop n).current = some (event, task') ∧ (t.loop n).handled = (s.loop n).handled) ∨
    ∃ event, (s.loop n).current = some (event, ⟨[], .done⟩) ∧ t.net = s.net ∧
      (t.loop n).current = none ∧ (t.loop n).handled = (s.loop n).handled ++ [event] := by
  cases l with
  | other l =>
    -- the events of a node are only queued
    obtain ⟨net, hnet, heq⟩ := Option.map_eq_some_iff.mp hstep
    rcases hemitted : emitted lib s.net l with ⟨m, events⟩
    simp only [hemitted] at heq
    rw [← heq]
    by_cases hm : n = m
    · rw [hm, loop_setLoop_self]
      exact Or.inl ⟨rfl, rfl⟩
    · rw [loop_setLoop_of_ne _ hm]
      exact Or.inl ⟨rfl, rfl⟩
  | spawn m u =>
    cases hstep
    exact Or.inl ⟨rfl, rfl⟩
  | task i env queued =>
    obtain ⟨m, task, r, -, -, rfl⟩ := step_task_inv hstep
    exact Or.inl ⟨rfl, rfl⟩
  | receive m app =>
    -- the loop of `m` takes its next event
    obtain ⟨event, events, hcurrent, hevents, rfl⟩ := step_receive_inv hstep
    by_cases hm : n = m
    · rw [hm, loop_setLoop_self]
      refine Or.inr (Or.inl ⟨app, event, ?_, rfl, rfl, rfl⟩)
      rw [hevents]
      exact List.mem_cons_self
    · rw [loop_setLoop_of_ne _ hm]
      exact Or.inl ⟨rfl, rfl⟩
  | loop m env queued =>
    by_cases hm : n = m
    · subst hm
      rcases step_loop_inv hstep with ⟨event, hcurrent, rfl⟩ |
        ⟨event, task, r, hcurrent, hr, rfl⟩
      · -- the event is over
        rw [loop_setLoop_self]
        exact Or.inr (Or.inr (Or.inr ⟨event, hcurrent, rfl, rfl, rfl⟩))
      · -- or its code goes on
        rw [loop_setLoop_self]
        exact Or.inr (Or.inr (Or.inl
          ⟨env, queued, event, task, r.2, rfl, hcurrent, hr, rfl, rfl⟩))
    · rcases step_loop_inv hstep with ⟨event, -, rfl⟩ | ⟨event, task, r, -, -, rfl⟩
      · rw [loop_setLoop_of_ne _ hm]
        exact Or.inl ⟨rfl, rfl⟩
      · rw [loop_setLoop_of_ne _ hm]
        exact Or.inl ⟨rfl, rfl⟩

/-- The nodes stay as they are or take a step whose writes meet `W`. -/
theorem Kept.net_cases (hd : Discipline lib peer J I W Room device)
    (h : s.Kept lib peer J I W device) {l : Label ι Peer}
    (hstep : (devices lib peer).step s l = some t) (hok : s.Allowed lib I W Room l) :
    t.net = s.net ∨ ∃ k, (mesh lib peer).step s.net k = some t.net ∧
      s.net.WritesMeet lib (fun c w _ => W w ∧ Room c) k := by
  -- code that keeps the discipline writes what meets `W`
  have hresume : ∀ {n env queued task} {r : Mesh ι Peer × DeviceTask},
      DeviceTask.Keeps lib I W task → Room (s.net.rt n).localContext →
      Devices.resume lib s.net n env queued task = some r →
      r.1 = s.net ∨ ∃ k, (mesh lib peer).step s.net k = some r.1 ∧
        s.net.WritesMeet lib (fun c w _ => W w ∧ Room c) k := by
    intro n env queued task r htask hroom hr
    rcases (resume_keeps (hd.read _ h.net n) htask hr).2 with hnet | ⟨cmd, hsends, hnet⟩
    · exact Or.inl hnet
    · right
      refine ⟨.turn n env (.command cmd), ?_, hsends.1, fun w hw => ⟨hsends.2 w hw, hroom⟩⟩
      rw [hnet]
      rfl
  cases l with
  | other k =>
    obtain ⟨net, hnet, rfl⟩ := Option.map_eq_some_iff.mp hstep
    exact Or.inr ⟨k, hnet, hok⟩
  | spawn n u =>
    cases hstep
    exact Or.inl rfl
  | task i env queued =>
    obtain ⟨n, task, r, hi, hr, rfl⟩ := step_task_inv hstep
    exact hresume (h.tasks _ (List.mem_of_getElem? hi)) (hok _ hi) hr
  | receive n app =>
    obtain ⟨event, events, -, -, rfl⟩ := step_receive_inv hstep
    exact Or.inl rfl
  | loop n env queued =>
    rcases step_loop_inv hstep with ⟨event, -, rfl⟩ | ⟨event, task, r, hcurrent, hr, rfl⟩
    · exact Or.inl rfl
    · exact hresume (h.current n event task hcurrent) hok hr

end Devices

end AviNet
