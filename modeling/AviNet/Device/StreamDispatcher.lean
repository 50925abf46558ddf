import AviNet.Runtime.State

/-!
# Device.StreamDispatcher — handlers of application streams

`src/stream.rs`. A factory is registered for each reason; the dispatcher makes
one handler for each stream that it accepts or opens, passes the events about
the stream on to it, and drops it when the stream ends.

Factories and handlers are objects of the application. Here a handler is the
factory that made it and a serial number, and `calls` lists the callbacks made
on all handlers so far.

* `Balanced`: each handler either holds a stream and has not been finished, or
  holds none and has been finished once;
* `Gained.balanced_iff`: storing a handler keeps that exactly when its id is free;
* `handleEvent_balanced`: an event always does.
-/

namespace AviNet

/-! ## Model layer -/

/-- `StreamContext`, without its handle. -/
structure StreamContext where
  streamId : StreamId
  peerId : PeerId
  deriving DecidableEq

/-- A `Box<dyn StreamHandler>`. -/
structure StreamHandler where
  factory : ℕ
  serial : ℕ
  deriving DecidableEq

/-- The calls of `StreamHandler`. -/
inductive Callback where
  | onAccepted (ctx : StreamContext)
  | onRejected (peerId : PeerId) (streamId : StreamId) (reason : String)
  | onData (ctx : StreamContext) (data : Bytes)
  | onClosed (peerId : PeerId) (streamId : StreamId) (reason : StreamCloseReason)
  deriving DecidableEq

/-- The last call of a handler. -/
def Callback.isTerminal : Callback → Bool
  | .onRejected _ _ _ | .onClosed _ _ _ => true
  | .onAccepted _ | .onData _ _ => false

/-- The errors of the dispatcher. -/
inductive DispatchError where
  /-- `"Failed to accept stream: {}"` -/
  | acceptFailed (e : AviP2pError)
  /-- `"Failed to refuse stream: {}"` -/
  | refuseFailed (e : AviP2pError)
  /-- `"Failed to request stream: {}"` -/
  | requestFailed (e : AviP2pError)
  /-- `"No handler registered for reason: {}"` -/
  | noFactory (reason : String)
  /-- `"No handler found for stream {}"` -/
  | noHandler (streamId : StreamId)
  deriving DecidableEq

/-- An entry of `active_handlers`. -/
structure ActiveHandler where
  reason : String
  peerId : PeerId
  handler : StreamHandler
  deriving DecidableEq

/-- `StreamDispatcher`, without its handle. -/
structure StreamDispatcher where
  factories : SortedMap String ℕ
  activeHandlers : SortedMap UInt64 ActiveHandler
  created : ℕ
  calls : List (StreamHandler × Callback)

namespace StreamDispatcher

/-- `StreamDispatcher::new`. -/
def new : StreamDispatcher := ⟨.empty, .empty, 0, []⟩

/-- `register_handler`. -/
def registerHandler (d : StreamDispatcher) (reason : String) (factory : ℕ) : StreamDispatcher :=
  { d with factories := d.factories.insert reason factory }

/-- A callback on a handler. -/
def call (d : StreamDispatcher) (handler : StreamHandler) (c : Callback) : StreamDispatcher :=
  { d with calls := d.calls ++ [(handler, c)] }

/-- `create_handler` of a factory. -/
def createHandler (d : StreamDispatcher) (factory : ℕ) : StreamHandler × StreamDispatcher :=
  (⟨factory, d.created⟩, { d with created := d.created + 1 })

/-- `active.insert`, over whatever is stored under the id. -/
def setActive (d : StreamDispatcher) (streamId : StreamId) (entry : ActiveHandler) :
    StreamDispatcher :=
  { d with activeHandlers := d.activeHandlers.insert streamId.id entry }

/-- `handle_stream_requested` after `accept_stream` has succeeded. -/
def install (d : StreamDispatcher) (factory : ℕ) (source : PeerId) (streamId : StreamId)
    (reason : String) : StreamDispatcher :=
  let (handler, d) := d.createHandler factory
  let d := d.call handler (.onAccepted ⟨streamId, source⟩)
  d.setActive streamId ⟨reason, source, handler⟩

/-- `request_stream` after the stream has been opened. -/
def store (d : StreamDispatcher) (factory : ℕ) (peerId : PeerId) (streamId : StreamId)
    (reason : String) : StreamDispatcher :=
  let (handler, d) := d.createHandler factory
  d.setActive streamId ⟨reason, peerId, handler⟩

/-- What the event loop is doing. -/
inductive LoopTask where
  | idle
  /-- `accept_stream` is not answered yet -/
  | accepting (factory : ℕ) (source : PeerId) (streamId : StreamId) (reason : String)
  /-- the stream is accepted, and its handler not stored yet -/
  | installing (factory : ℕ) (source : PeerId) (streamId : StreamId) (reason : String)
  /-- `refuse_stream` is not answered yet -/
  | refusing (streamId : StreamId) (reason : String)
  deriving DecidableEq

/-- `handle_stream_requested` up to its command. -/
def handleStreamRequested (d : StreamDispatcher) (source : PeerId) (streamId : StreamId)
    (reason : String) : LoopTask :=
  match d.factories.get? reason with
  | some factory => .accepting factory source streamId reason
  | none => .refusing streamId reason

/-- The command the event loop waits for. -/
def LoopTask.command : LoopTask → Option Command
  | .accepting _ _ streamId _ => some (.acceptStream streamId)
  | .refusing streamId _ => some (.rejectStream streamId "not_handled")
  | .idle | .installing _ _ _ _ => none

/-- `handle_stream_requested` from the answer on: what is left of it, or its result. -/
def LoopTask.answered (task : LoopTask) (reply : Reply) : Except DispatchError LoopTask :=
  match task, reply with
  | .accepting _ _ _ _, .done (.error e) => .error (.acceptFailed e)
  | .accepting factory source streamId reason, _ => .ok (.installing factory source streamId reason)
  | .refusing _ _, .done (.error e) => .error (.refuseFailed e)
  | .refusing _ reason, _ => .error (.noFactory reason)
  | task, _ => .ok task

/-- `request_stream` up to its command. -/
def requestStream (d : StreamDispatcher) (reason : String) : Except DispatchError ℕ :=
  match d.factories.get? reason with
  | some factory => .ok factory
  | none => .error (.noFactory reason)

/-- The answer to the command of `request_stream`. -/
def requestAnswered : Reply → Except DispatchError StreamId
  | .stream (.ok streamId) => .ok streamId
  | .stream (.error e) => .error (.requestFailed e)
  | _ => .error (.requestFailed .channelClosed)

/-- `handle_stream_accepted`. -/
def handleStreamAccepted (d : StreamDispatcher) (peerId : PeerId) (streamId : StreamId) :
    StreamDispatcher × Except DispatchError Unit :=
  match d.activeHandlers.get? streamId.id with
  | some entry =>
    let d := d.setActive streamId { entry with peerId := peerId }
    (d.call entry.handler (.onAccepted ⟨streamId, peerId⟩), .ok ())
  | none => (d, .error (.noHandler streamId))

/-- `handle_stream_data`. -/
def handleStreamData (d : StreamDispatcher) (_source : PeerId) (streamId : StreamId)
    (data : Bytes) : StreamDispatcher × Except DispatchError Unit :=
  match d.activeHandlers.get? streamId.id with
  | some entry => (d.call entry.handler (.onData ⟨streamId, entry.peerId⟩ data), .ok ())
  | none => (d, .error (.noHandler streamId))

/-- The handler of a stream leaves the table with the call `c`. -/
def finish (d : StreamDispatcher) (streamId : StreamId) (c : ActiveHandler → Callback) :
    StreamDispatcher × Except DispatchError Unit :=
  match d.activeHandlers.get? streamId.id with
  | some entry =>
    let d := { d with activeHandlers := d.activeHandlers.erase streamId.id }
    (d.call entry.handler (c entry), .ok ())
  | none => (d, .error (.noHandler streamId))

/-- `handle_stream_rejected`. -/
def handleStreamRejected (d : StreamDispatcher) (peerId : PeerId) (streamId : StreamId)
    (reason : String) : StreamDispatcher × Except DispatchError Unit :=
  d.finish streamId fun _ => .onRejected peerId streamId reason

/-- `handle_stream_closed`. The handler is told the peer that is stored. -/
def handleStreamClosed (d : StreamDispatcher) (_peerId : PeerId) (streamId : StreamId)
    (reason : StreamCloseReason) : StreamDispatcher × Except DispatchError Unit :=
  d.finish streamId fun entry => .onClosed entry.peerId streamId reason

/-- `AviDevice::handle_event`, for the events about streams. -/
def handleEvent (d : StreamDispatcher) : AviEvent → StreamDispatcher × LoopTask
  | .streamRequested source reason streamId => (d, d.handleStreamRequested source streamId reason)
  | .streamAccepted peerId streamId => ((d.handleStreamAccepted peerId streamId).1, .idle)
  | .streamRejected peerId streamId reason =>
    ((d.handleStreamRejected peerId streamId reason).1, .idle)
  | .streamData source streamId data => ((d.handleStreamData source streamId data).1, .idle)
  | .streamClosed peerId streamId reason => ((d.handleStreamClosed peerId streamId reason).1, .idle)
  | _ => (d, .idle)

/-! ## Accounts -/

/-- The serial number of the handler that holds the stream. -/
def holder (d : StreamDispatcher) (id : UInt64) : Option ℕ :=
  (d.activeHandlers.get? id).map fun entry => entry.handler.serial

/-- How often the handler `n` has been finished. -/
def terminals (d : StreamDispatcher) (n : ℕ) : ℕ :=
  d.calls.countP fun c => decide (c.1.serial = n) && c.2.isTerminal

/-- Each handler that was created either holds a stream and has not been finished,
or holds none and has been finished once. -/
def Balanced (d : StreamDispatcher) : Prop :=
  ∀ n < d.created, (d.terminals n = 0 ∧ ∃ id, d.holder id = some n) ∨
    (d.terminals n = 1 ∧ ∀ id, d.holder id ≠ some n)

/-- Handlers are numbered as they are created, and no two streams share one. -/
structure Wf (d : StreamDispatcher) : Prop where
  created : ∀ id n, d.holder id = some n → n < d.created
  apart : ∀ id id' n, d.holder id = some n → d.holder id' = some n → id = id'
  unborn : ∀ n, d.created ≤ n → d.terminals n = 0

variable {d : StreamDispatcher}

/-- A new dispatcher has created no handler. -/
theorem wf_new : Wf new := by
  refine ⟨?_, ?_, fun _ _ => rfl⟩
  · intro id n h
    cases h
  · intro id id' n h
    cases h

/-- So its accounts are balanced. -/
theorem balanced_new : Balanced new := by
  intro n hn
  exact absurd hn (Nat.not_lt_zero n)

/-- No handler holds a stream without an entry. -/
theorem holder_eq_none_iff {id : UInt64} : d.holder id = none ↔ d.activeHandlers.get? id = none :=
  Option.map_eq_none_iff

/-- A callback counts for the handler it is made on, if it is a terminal one. -/
theorem terminals_call (handler : StreamHandler) (c : Callback) (n : ℕ) :
    (d.call handler c).terminals n =
      d.terminals n + if handler.serial = n ∧ c.isTerminal = true then 1 else 0 := by
  simp [terminals, call, List.countP_append, List.countP_singleton]

/-- A call that is not the last leaves the account alone. -/
theorem terminals_call_of_open (handler : StreamHandler) {c : Callback}
    (hc : c.isTerminal = false) (n : ℕ) : (d.call handler c).terminals n = d.terminals n := by
  have hnot : ¬ (handler.serial = n ∧ c.isTerminal = true) := by
    rintro ⟨-, hterminal⟩
    exact Bool.false_ne_true (hc.symm.trans hterminal)
  rw [terminals_call, if_neg hnot, Nat.add_zero]

/-- A new entry gives its stream to its handler and changes no other stream. -/
theorem holder_setActive (streamId : StreamId) (entry : ActiveHandler) (id : UInt64) :
    (d.setActive streamId entry).holder id =
      if id = streamId.id then some entry.handler.serial else d.holder id := by
  have hget := SortedMap.get?_insert d.activeHandlers streamId.id id entry
  unfold holder setActive
  dsimp only
  rw [hget]
  split_ifs with hid
  · rfl
  · rfl

/-! ## A new handler -/

/-- A new handler holds `id`, and nothing else has changed. -/
structure Gained (d d' : StreamDispatcher) (id : UInt64) : Prop where
  created : d'.created = d.created + 1
  terminals : ∀ n, d'.terminals n = d.terminals n
  holder : ∀ j, d'.holder j = if j = id then some d.created else d.holder j

/-- `request_stream` creates the handler of the stream it has opened. -/
theorem gained_store (factory : ℕ) (peerId : PeerId) (streamId : StreamId) (reason : String) :
    Gained d (d.store factory peerId streamId reason) streamId.id where
  created := rfl
  terminals _ := rfl
  holder j := holder_setActive (d := { d with created := d.created + 1 }) streamId _ j

/-- `handle_stream_requested` creates the handler of the stream it has accepted. -/
theorem gained_install (factory : ℕ) (source : PeerId) (streamId : StreamId) (reason : String) :
    Gained d (d.install factory source streamId reason) streamId.id where
  created := rfl
  terminals n := terminals_call_of_open (d := { d with created := d.created + 1 })
    ⟨factory, d.created⟩ (c := .onAccepted ⟨streamId, source⟩) rfl n
  holder j := holder_setActive
    (d := call { d with created := d.created + 1 } ⟨factory, d.created⟩
      (.onAccepted ⟨streamId, source⟩)) streamId _ j

section Gained

variable {d' : StreamDispatcher} {id : UInt64}

/-- A new handler has a number of its own. -/
theorem Gained.wf (h : Gained d d' id) (hwf : d.Wf) : d'.Wf := by
  refine ⟨?_, ?_, ?_⟩
  · intro j n hn
    rw [h.created]
    rw [h.holder] at hn
    split_ifs at hn
    · cases hn
      exact Nat.lt_succ_self d.created
    · have hlt := hwf.created j n hn
      omega
  · intro j j' n hn hn'
    rw [h.holder] at hn hn'
    split_ifs at hn hn' with hj hj' hj'
    · rw [hj, hj']
    · cases hn
      exact absurd (hwf.created j' _ hn') (lt_irrefl _)
    · cases hn'
      exact absurd (hwf.created j _ hn) (lt_irrefl _)
    · exact hwf.apart j j' n hn hn'
  · intro n hn
    rw [h.created] at hn
    rw [h.terminals]
    exact hwf.unborn n (by omega)

/-- The accounts stay balanced when the id was free, and only then: a handler that
loses its stream to the new one is never finished. -/
theorem Gained.balanced_iff (h : Gained d d' id) (hwf : d.Wf) (hbal : d.Balanced) :
    d'.Balanced ↔ d.holder id = none := by
  constructor
  · -- the handler that was there holds nothing now, and was never finished
    intro hbal'
    by_contra hne
    obtain ⟨n, hn⟩ := Option.ne_none_iff_exists'.mp hne
    have hlt : n < d.created := hwf.created id n hn
    have hlost : ∀ j, d'.holder j ≠ some n := by
      intro j hj
      rw [h.holder] at hj
      split_ifs at hj with hid
      · cases hj
        exact lt_irrefl _ hlt
      · exact hid (hwf.apart j id n hj hn)
    have hlt' : n < d'.created := by
      rw [h.created]
      omega
    rcases hbal' n hlt' with ⟨-, j, hj⟩ | ⟨hone, -⟩
    · exact hlost j hj
    · rcases hbal n hlt with ⟨hzero, -⟩ | ⟨-, hnot⟩
      · rw [h.terminals, hzero] at hone
        cases hone
      · exact hnot id hn
  · intro hfree n hn
    rw [h.created] at hn
    rw [h.terminals]
    by_cases hnew : n = d.created
    · -- the new one has had no call yet
      subst hnew
      refine Or.inl ⟨hwf.unborn _ le_rfl, id, ?_⟩
      rw [h.holder, if_pos rfl]
    · have hlt : n < d.created := by omega
      rcases hbal n hlt with ⟨hzero, j, hj⟩ | ⟨hone, hnot⟩
      · refine Or.inl ⟨hzero, j, ?_⟩
        rw [h.holder, if_neg]
        · exact hj
        · intro hid
          rw [hid, hfree] at hj
          cases hj
      · refine Or.inr ⟨hone, ?_⟩
        intro j hj
        rw [h.holder] at hj
        split_ifs at hj
        · exact hnew (Option.some.inj hj).symm
        · exact hnot j hj

end Gained

/-! ## Calls that are not the last -/

/-- The same handlers hold the same streams, and none has been finished. -/
structure Same (d d' : StreamDispatcher) : Prop where
  created : d'.created = d.created
  terminals : ∀ n, d'.terminals n = d.terminals n
  holder : ∀ j, d'.holder j = d.holder j

theorem Same.refl (d : StreamDispatcher) : Same d d := ⟨rfl, fun _ => rfl, fun _ => rfl⟩

/-- `handle_stream_accepted` calls the handler and finishes none. -/
theorem same_accepted (peerId : PeerId) (streamId : StreamId) :
    Same d (d.handleStreamAccepted peerId streamId).1 := by
  unfold handleStreamAccepted
  cases hget : d.activeHandlers.get? streamId.id with
  | none => exact .refl d
  | some entry =>
    -- the entry is written again, with the same handler
    refine ⟨rfl, ?_, ?_⟩
    · intro n
      exact terminals_call_of_open (d := d.setActive streamId { entry with peerId := peerId })
        entry.handler (c := .onAccepted ⟨streamId, peerId⟩) rfl n
    · intro j
      refine (holder_setActive streamId { entry with peerId := peerId } j).trans ?_
      split_ifs with hj
      · unfold holder
        rw [hj, hget]
        rfl
      · rfl

/-- `handle_stream_data` calls the handler and finishes none. -/
theorem same_data (source : PeerId) (streamId : StreamId) (data : Bytes) :
    Same d (d.handleStreamData source streamId data).1 := by
  unfold handleStreamData
  cases d.activeHandlers.get? streamId.id with
  | none => exact .refl d
  | some entry =>
    refine ⟨rfl, ?_, fun _ => rfl⟩
    intro n
    exact terminals_call_of_open entry.handler rfl n

section Same

variable {d' : StreamDispatcher}

/-- What keeps the handlers keeps their numbering. -/
theorem Same.wf (h : Same d d') (hwf : d.Wf) : d'.Wf := by
  refine ⟨?_, ?_, ?_⟩
  · intro j n hn
    rw [h.holder] at hn
    rw [h.created]
    exact hwf.created j n hn
  · intro j j' n hn hn'
    rw [h.holder] at hn hn'
    exact hwf.apart j j' n hn hn'
  · intro n hn
    rw [h.created] at hn
    rw [h.terminals]
    exact hwf.unborn n hn

/-- It keeps the accounts balanced as well. -/
theorem Same.balanced (h : Same d d') (hbal : d.Balanced) : d'.Balanced := by
  intro n hn
  rw [h.created] at hn
  simp only [h.terminals, h.holder]
  exact hbal n hn

end Same

/-! ## The last call -/

section Finish

variable {streamId : StreamId} {c : ActiveHandler → Callback}

/-- A finished stream has no handler any more; the others keep theirs. -/
theorem holder_finish (j : UInt64) : (d.finish streamId c).1.holder j =
    if j = streamId.id then none else d.holder j := by
  unfold finish
  cases hget : d.activeHandlers.get? streamId.id with
  | none =>
    split_ifs with hj
    · rw [hj]
      exact holder_eq_none_iff.mpr hget
    · rfl
  | some entry =>
    have herase := SortedMap.get?_erase d.activeHandlers streamId.id j
    simp only [holder, call]
    rw [herase]
    split_ifs with hj
    · rfl
    · rfl

/-- No handler is created for an end. -/
theorem created_finish : (d.finish streamId c).1.created = d.created := by
  unfold finish
  cases d.activeHandlers.get? streamId.id with
  | none => rfl
  | some entry => rfl

/-- The handler of the stream is finished once more, and no other. -/
theorem terminals_finish (hc : ∀ entry, (c entry).isTerminal = true) (n : ℕ) :
    (d.finish streamId c).1.terminals n =
      d.terminals n + if d.holder streamId.id = some n then 1 else 0 := by
  unfold finish holder
  cases d.activeHandlers.get? streamId.id with
  | none => rfl
  | some entry =>
    have h := terminals_call (d := { d with
      activeHandlers := d.activeHandlers.erase streamId.id }) entry.handler (c entry) n
    refine h.trans ?_
    simp only [hc entry, and_true, Option.map_some, Option.some.injEq]
    rfl

/-- Finishing a stream keeps the numbering. -/
theorem finish_wf (hc : ∀ entry, (c entry).isTerminal = true) (hwf : d.Wf) :
    (d.finish streamId c).1.Wf := by
  refine ⟨?_, ?_, ?_⟩
  · intro j n hn
    rw [holder_finish] at hn
    split_ifs at hn
    rw [created_finish]
    exact hwf.created j n hn
  · intro j j' n hn hn'
    rw [holder_finish] at hn hn'
    split_ifs at hn hn'
    exact hwf.apart j j' n hn hn'
  · intro n hn
    rw [created_finish] at hn
    rw [terminals_finish hc, hwf.unborn n hn, if_neg]
    intro hholder
    have hlt := hwf.created _ n hholder
    omega

/-- Finishing a stream keeps the accounts: its handler goes from one side to the other. -/
theorem finish_balanced (hc : ∀ entry, (c entry).isTerminal = true) (hwf : d.Wf)
    (hbal : d.Balanced) : (d.finish streamId c).1.Balanced := by
  intro n hn
  rw [created_finish] at hn
  rw [terminals_finish hc]
  simp only [holder_finish]
  by_cases hheld : d.holder streamId.id = some n
  · -- it is the one that is finished
    rcases hbal n hn with ⟨hzero, -⟩ | ⟨-, hnot⟩
    · right
      constructor
      · rw [hzero, if_pos hheld]
      · intro j hj
        split_ifs at hj with hid
        exact hid (hwf.apart j _ n hj hheld)
    · exact absurd hheld (hnot _)
  · rw [if_neg hheld]
    rcases hbal n hn with ⟨hzero, j, hj⟩ | ⟨hone, hnot⟩
    · refine Or.inl ⟨hzero, j, ?_⟩
      rw [if_neg]
      · exact hj
      · intro hid
        rw [hid] at hj
        exact hheld hj
    · refine Or.inr ⟨hone, ?_⟩
      intro j hj
      split_ifs at hj
      exact hnot j hj

end Finish

/-! ## Events -/

/-- The stream whose end an event reports. -/
def endedStream : AviEvent → Option UInt64
  | .streamRejected _ streamId _ | .streamClosed _ streamId _ => some streamId.id
  | _ => none

/-- An event finishes the handler of the stream that ends, or finishes none. -/
theorem handleEvent_cases (d : StreamDispatcher) (e : AviEvent) :
    (endedStream e = none ∧ Same d (d.handleEvent e).1) ∨
      ∃ streamId c, endedStream e = some streamId.id ∧
        (∀ entry, Callback.isTerminal (c entry) = true) ∧
        (d.handleEvent e).1 = (d.finish streamId c).1 := by
  cases e with
  | streamRejected peerId streamId reason =>
    exact Or.inr ⟨streamId, _, rfl, fun _ => rfl, rfl⟩
  | streamClosed peerId streamId reason =>
    exact Or.inr ⟨streamId, _, rfl, fun _ => rfl, rfl⟩
  | streamAccepted peerId streamId => exact Or.inl ⟨rfl, same_accepted peerId streamId⟩
  | streamData source streamId data => exact Or.inl ⟨rfl, same_data source streamId data⟩
  | _ => exact Or.inl ⟨rfl, .refl d⟩

/-- Every event keeps the numbering. -/
theorem handleEvent_wf (e : AviEvent) (hwf : d.Wf) : (d.handleEvent e).1.Wf := by
  rcases handleEvent_cases d e with ⟨-, hsame⟩ | ⟨streamId, c, -, hc, heq⟩
  · exact hsame.wf hwf
  · rw [heq]
    exact finish_wf hc hwf

/-- Every event keeps the accounts balanced. -/
theorem handleEvent_balanced (e : AviEvent) (hwf : d.Wf) (hbal : d.Balanced) :
    (d.handleEvent e).1.Balanced := by
  rcases handleEvent_cases d e with ⟨-, hsame⟩ | ⟨streamId, c, -, hc, heq⟩
  · exact hsame.balanced hbal
  · rw [heq]
    exact finish_balanced hc hwf hbal

/-- No event creates a handler by itself: a request waits for `accept_stream`. -/
theorem created_handleEvent (e : AviEvent) : (d.handleEvent e).1.created = d.created := by
  rcases handleEvent_cases d e with ⟨-, hsame⟩ | ⟨streamId, c, -, -, heq⟩
  · exact hsame.created
  · rw [heq]
    exact created_finish

/-- Only the stream that ends loses its handler. -/
theorem holder_handleEvent (e : AviEvent) (id : UInt64) : (d.handleEvent e).1.holder id =
    if endedStream e = some id then none else d.holder id := by
  rcases handleEvent_cases d e with ⟨hended, hsame⟩ | ⟨streamId, c, hended, -, heq⟩
  · rw [hsame.holder, hended, if_neg]
    intro h
    cases h
  · rw [heq, holder_finish, hended]
    by_cases hid : id = streamId.id
    · rw [if_pos hid, if_pos (congrArg some hid.symm)]
    · rw [if_neg hid, if_neg]
      intro h
      exact hid (Option.some.inj h).symm

end StreamDispatcher

end AviNet
