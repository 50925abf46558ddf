import AviNet.Lib.Guards
import AviNet.Runtime.LocalClients

/-!
# Device.Callbacks — the locks of a device and the callbacks run under them

`AviDevice::handle_event` runs the application's callbacks while it holds a guard
of the lock they are stored under, and the public calls take the same locks. Of
a callback it matters here which calls it awaits, one after the other; what the
application does when an event is handled, its factories and handlers included,
is a `Reactions`.

* `disjoint_code_iff`: when a callback can run under given guards;
* `callbacks_complete_iff`: the event loop gets through all its events exactly if
  no callback makes a call that writes what it runs under, and reads it only if
  no writer can be queued;
* `subscribing_handler_hangs`: a handler that subscribes.
-/

namespace AviNet

/-! ## Model layer -/

/-- The read-write locks of `AviDevice` and its `StreamDispatcher`. -/
inductive DeviceLock where
  | peerId
  | subscriptionHandlers
  | onStarted
  | onPeerDiscovered
  | onPeerConnected
  | onPeerDisconnected
  | factories
  | activeHandlers
  deriving DecidableEq

/-- What a call of the device does: the locks it takes, the commands it sends. -/
abbrev DeviceCode := Guarded DeviceLock Command Reply

namespace DeviceCode

/-- A command after whose answer nothing is left to do. -/
def send (cmd : Command) : DeviceCode := .ask cmd fun _ => .done

/-- `AviP2pHandle::get_ctx`. -/
def getCtx (path : String) (k : Except AviP2pError Value → DeviceCode) : DeviceCode :=
  .ask (.getPeerContext none) fun
    | .value (.ok data) => k (data.getCtx path)
    | .value (.error e) => k (.error e)
    | _ => k (.error .channelClosed)

/-- `update_ctx`, `replace_ctx` and `delete_ctx`: `get_ctx("")`, an edit of the copy, and
the command that sends it back. -/
def edit (op : PathOp) : DeviceCode :=
  getCtx "" fun
    | .ok currentCtx =>
      match op.edit currentCtx with
      | .ok w => send w.toCommand
      | .error _ => .done
    | .error _ => .done

/-- Replace what a lock protects. -/
def store (l : DeviceLock) : DeviceCode := .hold l .write .done .done

/-- `subscribe` and `subscribe_async`: the handler is pushed in a block of its own. -/
def register (topic : String) : DeviceCode :=
  .hold .subscriptionHandlers .write .done (send (.subscribe topic))

end DeviceCode

open DeviceCode

/-- The public calls of `AviDevice`, but for `request_stream`, which runs code of the
application itself, and for `get_id` and `get_core_id`, which may panic. -/
inductive DeviceCall where
  | getPeers
  | publish (topic : String) (data : Bytes)
  | subscribe (topic : String)
  | subscribeAsync (topic : String)
  | updateCtx (path : String) (value : Value)
  | replaceCtx (path : String) (value : Value)
  | deleteCtx (path : String)
  | clearCtx
  | hasCtx (path : String)
  | getCtx (path : String)
  | executeQuery
  | registerStreamHandler (reason : String)
  | closeStream (streamId : StreamId)
  /-- `send_stream_data`, and `send` of a `StreamContext` -/
  | sendStreamData (streamId : StreamId) (data : Bytes)
  | onStarted
  | onPeerDiscovered
  | onPeerConnected
  | onPeerDisconnected

def DeviceCall.code : DeviceCall → DeviceCode
  | .getPeers => send .getConnectedPeers
  | .publish topic data => send (.publish topic data)
  | .subscribe topic => register topic
  | .subscribeAsync topic => register topic
  | .updateCtx path value => edit (.update path value)
  | .replaceCtx path value => edit (.replace path value)
  | .deleteCtx path => edit (.delete path)
  | .clearCtx => send (.replaceSelfContext (.object []))
  | .hasCtx path => DeviceCode.getCtx path fun _ => .done
  | .getCtx path => DeviceCode.getCtx path fun _ => .done
  | .executeQuery => DeviceCode.getCtx "avi.device.caps" fun _ => .done
  | .registerStreamHandler _ => store .factories
  | .closeStream streamId => send (.closeStream streamId)
  | .sendStreamData streamId data => send (.sendStreamData streamId data)
  | .onStarted => store .onStarted
  | .onPeerDiscovered => store .onPeerDiscovered
  | .onPeerConnected => store .onPeerConnected
  | .onPeerDisconnected => store .onPeerDisconnected

/-- Code of the application: the calls that it awaits, one after the other. -/
inductive UserCode where
  | done
  | call (c : DeviceCall) (next : UserCode)
  /-- `request_stream`: whether a factory is registered for the reason, and what its
  `create_handler` does -/
  | requestStream (peerId : PeerId) (reason : String) (factory : Bool)
      (createHandler next : UserCode)

def UserCode.code : UserCode → DeviceCode
  | .done => .done
  | .call c next => c.code.seq next.code
  | .requestStream peerId reason factory createHandler next =>
    .hold .factories .read
      (if factory then
        .ask (.requestStream peerId reason) fun
          | .stream (.ok _) => createHandler.code.seq (store .activeHandlers)
          | _ => .done
      else .done)
      next.code

/-- Several callbacks in order. -/
def runs (us : List UserCode) : DeviceCode := Guarded.all (us.map UserCode.code)

/-- `AviDeviceType`. -/
inductive AviDeviceType where
  | core
  | node
  deriving DecidableEq

/-- What `handle_event` reads of a device: its type, its capabilities as JSON, and the
content of `peer_id`. -/
structure AviDevice where
  deviceType : AviDeviceType
  caps : Value
  peerId : Option PeerId

/-- What the application does while an event is handled: its callbacks as far as they are
set, `create_handler` and `on_accepted` of the factory registered for a reason,
and the callback of the handler stored for a stream. -/
structure Reactions where
  onStarted : Option UserCode
  onPeerDiscovered : Option UserCode
  onPeerConnected : Option UserCode
  onPeerDisconnected : Option UserCode
  subscriptionHandlers : String → List UserCode
  factories : String → Option (UserCode × UserCode)
  activeHandlers : StreamId → Option UserCode

namespace AviDevice

/-- `update_capabilities`. -/
def updateCapabilities (self : AviDevice) (localPeerId : PeerId) : DeviceCode :=
  edit (.update ("avi.device.caps." ++ localPeerId.id) self.caps)

/-- The part of `Started` for a core. -/
def announceCore (self : AviDevice) (localPeerId : PeerId) : DeviceCode :=
  if self.deviceType = .core then
    DeviceCode.getCtx "avi.core" fun
      | .ok _ => .done
      | .error _ => edit (.update "avi.core" (.string localPeerId.id))
  else .done

/-- `handle_stream_requested`: the factories stay locked until the handler is stored. -/
def handleStreamRequested (app : Reactions) (streamId : StreamId) (reason : String) :
    DeviceCode :=
  .hold .factories .read
    (match app.factories reason with
      | some (createHandler, onAccepted) =>
        .ask (.acceptStream streamId) fun
          | .done (.ok ()) => (runs [createHandler, onAccepted]).seq (store .activeHandlers)
          | _ => .done
      | none => send (.rejectStream streamId "not_handled"))
    .done

/-- A callback of the handler stored for a stream, if there is one; the handlers stay locked
while it runs. -/
def withHandler (app : Reactions) (streamId : StreamId) : DeviceCode :=
  .hold .activeHandlers .write (runs (app.activeHandlers streamId).toList) .done

/-- `handle_stream_accepted`: `on_accepted`. -/
def handleStreamAccepted (app : Reactions) (streamId : StreamId) : DeviceCode :=
  withHandler app streamId

/-- `handle_stream_rejected`: `on_rejected`, of a handler that has just been taken out. -/
def handleStreamRejected (app : Reactions) (streamId : StreamId) : DeviceCode :=
  withHandler app streamId

/-- `handle_stream_data`: `on_data`. -/
def handleStreamData (app : Reactions) (streamId : StreamId) : DeviceCode :=
  withHandler app streamId

/-- `handle_stream_closed`: `on_closed`, of a handler that has just been taken out. -/
def handleStreamClosed (app : Reactions) (streamId : StreamId) : DeviceCode :=
  withHandler app streamId

/-- `handle_event`. -/
def handleEvent (self : AviDevice) (app : Reactions) : AviEvent → DeviceCode
  | .started localPeerId _ =>
    .hold .peerId .write .done
      ((self.updateCapabilities localPeerId).seq ((self.announceCore localPeerId).seq
        (.hold .onStarted .read (runs app.onStarted.toList) .done)))
  | .peerDiscovered _ => .hold .onPeerDiscovered .read (runs app.onPeerDiscovered.toList) .done
  | .peerConnected _ _ =>
    -- the id is cloned out of its lock before anything else is awaited
    .hold .peerId .read .done
      ((match self.peerId with
        | some localPeerId => self.updateCapabilities localPeerId
        | none => .done).seq
        (.hold .onPeerConnected .read (runs app.onPeerConnected.toList) .done))
  | .peerDisconnected _ =>
    .hold .onPeerDisconnected .read (runs app.onPeerDisconnected.toList) .done
  | .message _ topic _ =>
    .hold .subscriptionHandlers .read (runs (app.subscriptionHandlers topic)) .done
  | .contextUpdated _ _ => .done
  | .streamRequested _ reason streamId => handleStreamRequested app streamId reason
  | .streamAccepted _ streamId => handleStreamAccepted app streamId
  | .streamRejected _ streamId _ => handleStreamRejected app streamId
  | .streamData _ streamId _ => handleStreamData app streamId
  | .streamClosed _ streamId _ => handleStreamClosed app streamId

end AviDevice

/-- An event, the device when it is handled, and what the application does then. -/
structure HandledEvent where
  event : AviEvent
  device : AviDevice
  app : Reactions

/-- `__start_event_loop`, for the events it receives. -/
def eventLoop (events : List HandledEvent) : DeviceCode :=
  Guarded.all (events.map fun e => e.device.handleEvent e.app e.event)

/-! ## What a callback must not do -/

/-- The lock that a call takes for writing. -/
def DeviceCall.writes : DeviceCall → Option DeviceLock
  | .subscribe _ | .subscribeAsync _ => some .subscriptionHandlers
  | .registerStreamHandler _ => some .factories
  | .onStarted => some .onStarted
  | .onPeerDiscovered => some .onPeerDiscovered
  | .onPeerConnected => some .onPeerConnected
  | .onPeerDisconnected => some .onPeerDisconnected
  | _ => none

namespace UserCode

/-- Some call takes the lock for writing; `request_stream` does so for the active handlers if
there is a factory, and for whatever `create_handler` writes. -/
def Writes (l : DeviceLock) : UserCode → Prop
  | .done => False
  | .call c next => c.writes = some l ∨ next.Writes l
  | .requestStream _ _ factory createHandler next =>
    (factory = true ∧ (l = .activeHandlers ∨ createHandler.Writes l)) ∨ next.Writes l

/-- Some call is a `request_stream`, which reads the factories. -/
def Requests : UserCode → Prop
  | .done => False
  | .call _ next => next.Requests
  | .requestStream _ _ _ _ _ => True

/-- The code takes no lock in a way that a guard of `l` forbids; the factories, which are
only ever held for reading while callbacks run, may be read again unless a writer
can be queued. -/
def Avoids (mayQueue : DeviceLock → Bool) (l : DeviceLock) (u : UserCode) : Prop :=
  ¬ u.Writes l ∧ (l = .factories → mayQueue .factories = true → ¬ u.Requests)

/-- Each `create_handler` of a `request_stream`, which runs while the factories are read,
avoids them. -/
def WellNested (mayQueue : DeviceLock → Bool) : UserCode → Prop
  | .done => True
  | .call _ next => next.WellNested mayQueue
  | .requestStream _ _ factory createHandler next =>
    (factory = true → createHandler.WellNested mayQueue ∧
      createHandler.Avoids mayQueue .factories) ∧ next.WellNested mayQueue

/-- The code may run under a guard of the lock. -/
def SafeUnder (mayQueue : DeviceLock → Bool) (l : DeviceLock) (u : UserCode) : Prop :=
  u.WellNested mayQueue ∧ u.Avoids mayQueue l

end UserCode

/-- No callback that the event runs takes the lock that is held over it: a callback does not
set a callback of its own kind, a message handler does not subscribe, a factory
does not register factories and, unless no writer can be queued, does not request
streams, and a stream handler does not request a stream that has a factory. -/
def HandledEvent.Safe (mayQueue : DeviceLock → Bool) (e : HandledEvent) : Prop :=
  match e.event with
  | .started _ _ => ∀ u ∈ e.app.onStarted, u.SafeUnder mayQueue .onStarted
  | .peerDiscovered _ => ∀ u ∈ e.app.onPeerDiscovered, u.SafeUnder mayQueue .onPeerDiscovered
  | .peerConnected _ _ => ∀ u ∈ e.app.onPeerConnected, u.SafeUnder mayQueue .onPeerConnected
  | .peerDisconnected _ =>
    ∀ u ∈ e.app.onPeerDisconnected, u.SafeUnder mayQueue .onPeerDisconnected
  | .message _ topic _ =>
    ∀ u ∈ e.app.subscriptionHandlers topic, u.SafeUnder mayQueue .subscriptionHandlers
  | .contextUpdated _ _ => True
  | .streamRequested _ reason _ =>
    ∀ createHandler onAccepted, e.app.factories reason = some (createHandler, onAccepted) →
      createHandler.SafeUnder mayQueue .factories ∧ onAccepted.SafeUnder mayQueue .factories
  | .streamAccepted _ streamId | .streamRejected _ streamId _ | .streamData _ streamId _
  | .streamClosed _ streamId _ =>
    ∀ u ∈ e.app.activeHandlers streamId, u.SafeUnder mayQueue .activeHandlers

/-- A device that subscribes once it has started. -/
example : (UserCode.call (.subscribe "news") .done).SafeUnder (fun _ => true) .onStarted := by
  simp [UserCode.SafeUnder, UserCode.WellNested, UserCode.Avoids, UserCode.Writes,
    DeviceCall.writes]

/-! ## Code without locks -/

instance nonemptyReply : Nonempty Reply := ⟨.done (.ok ())⟩

section Locks

variable {mayQueue : DeviceLock → Bool} {held : List (DeviceLock × GuardMode)}

theorem disjoint_send (cmd : Command) : (send cmd).Disjoint mayQueue held := fun _ => True.intro

/-- A read of the context takes no lock itself. -/
theorem disjoint_getCtx (path : String) {k : Except AviP2pError Value → DeviceCode}
    (h : ∀ res, (k res).Disjoint mayQueue held) :
    (DeviceCode.getCtx path k).Disjoint mayQueue held := by
  intro r
  dsimp only
  split
  · exact h _
  · exact h _
  · exact h _

/-- A read of the context whose result is only returned. -/
theorem disjoint_fetch (path : String) :
    (DeviceCode.getCtx path fun _ => .done).Disjoint mayQueue held := by
  apply disjoint_getCtx
  intro res
  exact True.intro

/-- A path operation takes none either. -/
theorem disjoint_edit (op : PathOp) : (edit op).Disjoint mayQueue held := by
  apply disjoint_getCtx
  intro res
  split
  · split
    · exact disjoint_send _
    · exact True.intro
  · exact True.intro

/-- Nor does the announcement of the core. -/
theorem disjoint_announceCore (self : AviDevice) (localPeerId : PeerId) :
    (self.announceCore localPeerId).Disjoint mayQueue held := by
  unfold AviDevice.announceCore
  split_ifs
  · apply disjoint_getCtx
    intro res
    split
    · exact True.intro
    · exact disjoint_edit _
  · exact True.intro

/-! ## Calls -/

variable (mayQueue) in
/-- A lock that is written is free of guards. -/
theorem granted_write_iff {l : DeviceLock} :
    Guarded.Granted held mayQueue l .write ↔ ∀ g ∈ held, g.1 ≠ l := by
  constructor
  · intro h g hg hl
    rcases h g hg hl with ⟨hmode, -⟩
    cases hmode
  · intro h g hg hl
    exact absurd hl (h g hg)

/-- Writing a lock's content is safe where that lock is not held. -/
theorem disjoint_store (l : DeviceLock) :
    (store l).Disjoint mayQueue held ↔ ∀ g ∈ held, g.1 ≠ l := by
  rw [← granted_write_iff mayQueue]
  exact and_iff_left ⟨True.intro, True.intro⟩

/-- Registering a subscription is safe where the handlers are not held. -/
theorem disjoint_register (topic : String) :
    (register topic).Disjoint mayQueue held ↔ ∀ g ∈ held, g.1 ≠ .subscriptionHandlers := by
  rw [← granted_write_iff mayQueue]
  exact and_iff_left ⟨True.intro, disjoint_send _⟩

/-- A call can run under all guards but those of the lock that it writes. -/
theorem disjoint_call (c : DeviceCall) :
    c.code.Disjoint mayQueue held ↔ ∀ g ∈ held, c.writes ≠ some g.1 := by
  have hstore : ∀ l : DeviceLock, (∀ g ∈ held, g.1 ≠ l) ↔ ∀ g ∈ held, some l ≠ some g.1 := by
    intro l
    simp only [ne_eq, Option.some.injEq, eq_comm]
  have hfree : ∀ g ∈ held, (none : Option DeviceLock) ≠ some g.1 := fun _ _ => nofun
  cases c with
  | subscribe topic | subscribeAsync topic => exact (disjoint_register topic).trans (hstore _)
  | registerStreamHandler reason => exact (disjoint_store _).trans (hstore _)
  | onStarted | onPeerDiscovered | onPeerConnected | onPeerDisconnected =>
    exact (disjoint_store _).trans (hstore _)
  | updateCtx path value | replaceCtx path value | deleteCtx path =>
    exact iff_of_true (disjoint_edit _) hfree
  | hasCtx path | getCtx path => exact iff_of_true (disjoint_fetch path) hfree
  | executeQuery => exact iff_of_true (disjoint_fetch "avi.device.caps") hfree
  | _ => exact iff_of_true (disjoint_send _) hfree

/-! ## Callbacks -/

/-- A call avoids a lock if it does not write it and the code after it avoids it. -/
theorem avoids_call_iff {c : DeviceCall} {next : UserCode} {l : DeviceLock} :
    (UserCode.call c next).Avoids mayQueue l ↔
      c.writes ≠ some l ∧ next.Avoids mayQueue l := by
  unfold UserCode.Avoids
  rw [UserCode.Writes, UserCode.Requests, not_or, and_assoc]

/-- A request for a stream reads the factories and, with one, writes the active handlers. -/
theorem avoids_requestStream_iff {peerId : PeerId} {reason : String} {factory : Bool}
    {createHandler next : UserCode} {l : DeviceLock} :
    (UserCode.requestStream peerId reason factory createHandler next).Avoids mayQueue l ↔
      (l = .factories → mayQueue .factories = false) ∧
        (factory = true → l ≠ .activeHandlers ∧ createHandler.Avoids mayQueue l) ∧
          next.Avoids mayQueue l := by
  unfold UserCode.Avoids
  rw [UserCode.Writes, UserCode.Requests]
  by_cases hl : l = .factories
  · cases hqueue : mayQueue .factories with
    | true => simp [hl]
    | false => simp [hl]
  · simp [hl]

/-- The body of `request_stream`, under its guard of the factories. -/
theorem disjoint_request_body (peerId : PeerId) (reason : String) (created : DeviceCode) :
    (Guarded.ask (.requestStream peerId reason) fun
      | .stream (.ok _) => created
      | _ => .done : DeviceCode).Disjoint mayQueue held ↔ created.Disjoint mayQueue held := by
  constructor
  · intro h
    exact h (.stream (.ok ⟨0⟩))
  · intro h r
    dsimp only
    split
    · exact h
    · exact True.intro

/-- **Callbacks under guards**: the code can run exactly if all its factories are well nested
and it takes no lock in a way that a guard forbids. -/
theorem disjoint_code_iff (u : UserCode) (held : List (DeviceLock × GuardMode))
    (hread : ∀ g ∈ held, g.1 = .factories → g.2 = .read) :
    u.code.Disjoint mayQueue held ↔
      u.WellNested mayQueue ∧ ∀ g ∈ held, u.Avoids mayQueue g.1 := by
  induction u generalizing held with
  | done =>
    refine iff_of_true True.intro ⟨True.intro, ?_⟩
    intro g _
    exact ⟨id, fun _ _ => id⟩
  | call c next ih =>
    -- a call may write a lock; then the rest
    rw [UserCode.code, Guarded.disjoint_seq, disjoint_call, ih held hread, UserCode.WellNested]
    simp only [avoids_call_iff]
    constructor
    · rintro ⟨hwrites, hnested, hnext⟩
      exact ⟨hnested, fun g hg => ⟨hwrites g hg, hnext g hg⟩⟩
    · rintro ⟨hnested, hall⟩
      exact ⟨fun g hg => (hall g hg).1, hnested, fun g hg => (hall g hg).2⟩
  | requestStream peerId reason factory createHandler next ihcreate ihnext =>
    -- the factories are read, so nobody may write them, nor be queued to
    have hfactories : Guarded.Granted held mayQueue .factories .read ↔
        ∀ g ∈ held, g.1 = .factories → mayQueue .factories = false := by
      constructor
      · intro h g hg hl
        exact (h g hg hl).2.2
      · intro h g hg hl
        exact ⟨rfl, hread g hg hl, h g hg hl⟩
    rw [UserCode.code, Guarded.Disjoint, hfactories, ihnext held hread, UserCode.WellNested]
    simp only [avoids_requestStream_iff]
    -- without a factory nothing is created
    cases factory with
    | false =>
      have hnone : ∀ {P : Prop}, false = true → P := fun h => absurd h Bool.false_ne_true
      constructor
      · rintro ⟨hfree, -, hnested, hnext⟩
        exact ⟨⟨hnone, hnested⟩, fun g hg => ⟨hfree g hg, hnone, hnext g hg⟩⟩
      · rintro ⟨⟨-, hnested⟩, hall⟩
        exact ⟨fun g hg => (hall g hg).1, True.intro, hnested, fun g hg => (hall g hg).2.2⟩
    | true =>
      -- with one `create_handler` runs under the factories
      have hread' : ∀ g ∈ (DeviceLock.factories, GuardMode.read) :: held,
          g.1 = .factories → g.2 = .read :=
        List.forall_mem_cons.mpr ⟨fun _ => rfl, hread⟩
      have hother : DeviceLock.factories ≠ .activeHandlers := by decide
      rw [if_pos rfl, disjoint_request_body, Guarded.disjoint_seq, ihcreate _ hread',
        disjoint_store, List.forall_mem_cons, List.forall_mem_cons]
      constructor
      · rintro ⟨hfree, ⟨⟨hcreate, hunder, hcreateAll⟩, -, hactive⟩, hnested, hnext⟩
        refine ⟨⟨fun _ => ⟨hcreate, hunder⟩, hnested⟩, ?_⟩
        intro g hg
        exact ⟨hfree g hg, fun _ => ⟨hactive g hg, hcreateAll g hg⟩, hnext g hg⟩
      · rintro ⟨⟨hcreate, hnested⟩, hall⟩
        rcases hcreate rfl with ⟨hcreate, hunder⟩
        refine ⟨fun g hg => (hall g hg).1, ⟨⟨hcreate, hunder, ?_⟩, hother, ?_⟩, hnested,
          fun g hg => (hall g hg).2.2⟩
        · intro g hg
          exact ((hall g hg).2.1 rfl).2
        · intro g hg
          exact ((hall g hg).2.1 rfl).1

/-- A callback under the one guard that is held over it. -/
theorem disjoint_under_iff (u : UserCode) {g : DeviceLock × GuardMode}
    (hread : g.1 = .factories → g.2 = .read) :
    u.code.Disjoint mayQueue [g] ↔ u.SafeUnder mayQueue g.1 := by
  rw [disjoint_code_iff u [g] (by simpa using hread), List.forall_mem_singleton]
  exact Iff.rfl

/-- Callbacks one after the other are safe under a guard exactly if each is. -/
theorem disjoint_runs_iff (us : List UserCode) {g : DeviceLock × GuardMode}
    (hread : g.1 = .factories → g.2 = .read) :
    (runs us).Disjoint mayQueue [g] ↔ ∀ u ∈ us, u.SafeUnder mayQueue g.1 := by
  rw [runs, Guarded.disjoint_all, List.forall_mem_map]
  simp only [disjoint_under_iff _ hread]

/-- A lock that is taken when none is held. -/
theorem disjoint_hold_iff {l : DeviceLock} {mode : GuardMode} {body rest : DeviceCode} :
    (Guarded.hold l mode body rest).Disjoint mayQueue [] ↔
      body.Disjoint mayQueue [(l, mode)] ∧ rest.Disjoint mayQueue [] :=
  and_iff_right nofun

/-- Callbacks under one guard, and nothing else. -/
theorem disjoint_guarded_runs {l : DeviceLock} {mode : GuardMode} (us : List UserCode)
    (hread : l = .factories → mode = .read) :
    (Guarded.hold l mode (runs us) .done).Disjoint mayQueue [] ↔
      ∀ u ∈ us, u.SafeUnder mayQueue l := by
  rw [disjoint_hold_iff, disjoint_runs_iff us hread]
  exact and_iff_left True.intro

/-- The same for a callback that may not be set. -/
theorem disjoint_guarded_callback {l : DeviceLock} {mode : GuardMode} (o : Option UserCode)
    (hread : l = .factories → mode = .read) :
    (Guarded.hold l mode (runs o.toList) .done).Disjoint mayQueue [] ↔
      ∀ u ∈ o, u.SafeUnder mayQueue l := by
  rw [disjoint_guarded_runs _ hread]
  simp only [Option.mem_toList, Option.mem_def]

/-! ## Events -/

/-- What runs before the callback of an event takes no lock. -/
theorem disjoint_after_iff {l : DeviceLock} {mode : GuardMode} {before code : DeviceCode}
    (hbefore : before.Disjoint mayQueue []) :
    (Guarded.hold l mode .done (before.seq code)).Disjoint mayQueue [] ↔
      code.Disjoint mayQueue [] := by
  rw [disjoint_hold_iff, Guarded.disjoint_seq, and_iff_right hbefore]
  exact and_iff_right True.intro

/-- A requested stream runs two callbacks under the factories. -/
theorem disjoint_handleStreamRequested (app : Reactions) (streamId : StreamId)
    (reason : String) :
    (AviDevice.handleStreamRequested app streamId reason).Disjoint mayQueue [] ↔
      ∀ createHandler onAccepted, app.factories reason = some (createHandler, onAccepted) →
        createHandler.SafeUnder mayQueue .factories ∧
          onAccepted.SafeUnder mayQueue .factories := by
  rw [AviDevice.handleStreamRequested, disjoint_hold_iff]
  cases hfactory : app.factories reason with
  | none => exact iff_of_true ⟨disjoint_send _, True.intro⟩ nofun
  | some f =>
    rcases f with ⟨createHandler, onAccepted⟩
    have hcallbacks : (runs [createHandler, onAccepted]).Disjoint mayQueue
        [(.factories, .read)] ↔ _ :=
      disjoint_runs_iff [createHandler, onAccepted] fun _ => rfl
    rw [List.forall_mem_cons, List.forall_mem_singleton] at hcallbacks
    constructor
    · rintro ⟨hbody, -⟩ _ _ hsome
      cases hsome
      -- the stream is accepted, so the callbacks run
      have hrun := hbody (.done (.ok ()))
      exact hcallbacks.mp ((Guarded.disjoint_seq _ _).mp hrun).1
    · intro h
      refine ⟨?_, True.intro⟩
      intro r
      dsimp only
      split
      · apply (Guarded.disjoint_seq _ _).mpr
        refine ⟨hcallbacks.mpr (h _ _ rfl), (disjoint_store _).mpr ?_⟩
        exact List.forall_mem_singleton.mpr nofun
      · exact True.intro

/-- **Events**: handling an event takes no lock twice exactly if its callbacks are safe. -/
theorem disjoint_handleEvent (e : HandledEvent) :
    (e.device.handleEvent e.app e.event).Disjoint mayQueue [] ↔ e.Safe mayQueue := by
  rcases e with ⟨event, device, app⟩
  cases event with
  | started localPeerId listenAddresses =>
    -- the write guard of `peer_id` is gone before the callback runs
    refine (disjoint_after_iff (disjoint_edit _)).trans ?_
    rw [Guarded.disjoint_seq, and_iff_right (disjoint_announceCore device localPeerId)]
    exact disjoint_guarded_callback app.onStarted nofun
  | peerDiscovered peerId => exact disjoint_guarded_callback app.onPeerDiscovered nofun
  | peerConnected peerId address =>
    refine (disjoint_after_iff ?_).trans (disjoint_guarded_callback app.onPeerConnected nofun)
    cases device.peerId with
    | some localPeerId => exact disjoint_edit _
    | none => exact True.intro
  | peerDisconnected peerId => exact disjoint_guarded_callback app.onPeerDisconnected nofun
  | message source topic data =>
    exact disjoint_guarded_runs (app.subscriptionHandlers topic) nofun
  | contextUpdated peerId context => exact iff_of_true True.intro True.intro
  | streamRequested source reason streamId =>
    exact disjoint_handleStreamRequested app streamId reason
  | streamAccepted source streamId | streamRejected source streamId reason
  | streamData source streamId data | streamClosed source streamId reason =>
    exact disjoint_guarded_callback (app.activeHandlers streamId) nofun

end Locks

/-- **The event loop and its callbacks.** Whatever the runtime answers, and whichever tasks
are queued at each moment for the locks in `mayQueue`, the loop never waits for a
lock and gets through all its events exactly if each event is safe. -/
theorem callbacks_complete_iff (mayQueue : DeviceLock → Bool) (events : List HandledEvent) :
    Guarded.Completes mayQueue ⟨[], eventLoop events⟩ ↔ ∀ e ∈ events, e.Safe mayQueue := by
  rw [Guarded.completes_iff, eventLoop, Guarded.disjoint_all, List.forall_mem_map]
  simp only [disjoint_handleEvent]

/-! ## A handler that subscribes -/

/-- A handler for every topic that subscribes to another one. -/
def subscribing : Reactions where
  onStarted := none
  onPeerDiscovered := none
  onPeerConnected := none
  onPeerDisconnected := none
  subscriptionHandlers _ := [.call (.subscribe "more") .done]
  factories _ := none
  activeHandlers _ := none

/-- One message, and the loop waits for itself, although no other task is about. -/
theorem subscribing_handler_hangs : ¬ ∀ events : List HandledEvent,
    Guarded.Completes (fun _ => false) ⟨[], eventLoop events⟩ := by
  intro h
  have hdisjoint := (Guarded.completes_iff _).mp
    (h [⟨.message ⟨"peer"⟩ "news" [1], ⟨.node, .object [], none⟩, subscribing⟩])
  rcases hdisjoint with ⟨-, ⟨hgranted, -⟩, -⟩
  exact nomatch (hgranted _ List.mem_cons_self rfl).1

end AviNet
