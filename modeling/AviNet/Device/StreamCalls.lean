import AviNet.Device.StreamNetwork

/-!
# Device.StreamCalls — a stream from its request to its end

Devices go on by themselves: they deliver messages, handle events and store
handlers. Whatever has happened before, a device can then open a stream to any
other one, if both have a handler for the reason, and the two can talk, as long as
each message has at most 10 MiB of JSON.

* `exists_drained`: an event loop can always get to the end of its events;
* `stream_conversation`: with one call to open the stream, one for each stretch of
  data and one to close it, the handlers at the two ends are told exactly that.
-/

namespace AviNet

open StreamDispatcher

/-! ## One end of a stream -/

namespace StreamHandlers

variable {Peer : Type} [LinearOrder Peer] {lib : External Peer} {env : Env Peer}
  {d : StreamHandlers Peer} {id : UInt64} {p : Peer} {handler : StreamHandler}

/-- The device has nothing left to handle. -/
structure Drained (d : StreamHandlers Peer) : Prop where
  task : d.task = .idle
  pending : d.pending = []

/-- The device has a stream with `p`, and this handler for it. -/
structure Holds (lib : External Peer) (d : StreamHandlers Peer) (id : UInt64) (p : Peer)
    (handler : StreamHandler) : Prop extends d.Drained where
  entry : ∃ state, d.rt.streams.get? id = some state ∧ state.peer = p
  active : ∃ reason, d.dispatcher.activeHandlers.get? id = some ⟨reason, lib.peerId p, handler⟩

/-- The event loop takes the only event of a turn. -/
theorem Drained.handle (h : d.Drained) (lib : External Peer) (env : Env Peer)
    {l : Runtime.Label Peer} {e : AviEvent}
    (hevents : Runtime.eventsOf (d.rt.turn lib env l).2 = [e]) :
    step lib (d.after lib env l) .handle = some { d.after lib env l with
      pending := []
      dispatcher := (d.dispatcher.handleEvent e).1
      task := (d.dispatcher.handleEvent e).2 } := by
  have hpending : (d.after lib env l).pending = [e] := by
    simp only [after, h.pending, hevents, List.nil_append]
  have htask : (d.after lib env l).task = .idle := h.task
  simp only [step, hpending, htask]
  rfl

/-- Sending changes nothing at the own end. -/
theorem Holds.send (h : d.Holds lib id p handler) (env : Env Peer) (data : Bytes) :
    step lib d (.turn env (.command (.sendStreamData ⟨id⟩ data))) = some d ∧
      Runtime.sentOf (d.effectsOf lib (.turn env (.command (.sendStreamData ⟨id⟩ data)))) =
        [(p, .streamData id data)] := by
  obtain ⟨state, hstate, rfl⟩ := h.entry
  have hturn : d.rt.turn lib env (.command (.sendStreamData ⟨id⟩ data)) =
      (d.rt, [.send state.peer (.streamData id data), .reply (.done (.ok ()))]) := by
    simp only [Runtime.turn, Runtime.handleCommand, hstate]
  constructor
  · have hpending : d.pending ++ Runtime.eventsOf
        [.send state.peer (.streamData id data), .reply (.done (.ok ()))] = d.pending :=
      List.append_nil _
    simp only [step, after, hturn, hpending]
    rfl
  · simp only [effectsOf, turnOf, hturn]
    rfl

/-- Data that arrives is given to the handler. -/
theorem Holds.data (h : d.Holds lib id p handler) (env : Env Peer) (data : Bytes) :
    ∃ d', step lib (d.after lib env (.swarm (.request p (.streamData id data)))) .handle = some d' ∧
      d'.Holds lib id p handler ∧
      d'.dispatcher.calls = d.dispatcher.calls ++
        [(handler, .onData ⟨⟨id⟩, lib.peerId p⟩ data)] := by
  obtain ⟨state, hstate, hpeer⟩ := h.entry
  obtain ⟨reason, hactive⟩ := h.active
  have hturn : d.rt.turn lib env (.swarm (.request p (.streamData id data))) =
      (d.rt, [.event (.streamData (lib.peerId p) ⟨id⟩ data), .respond]) := by
    simp only [Runtime.turn, Runtime.handleSwarmEvent, Runtime.handleStreamMessage, hstate]
    rfl
  have hevents : Runtime.eventsOf (d.rt.turn lib env
      (.swarm (.request p (.streamData id data)))).2 = [.streamData (lib.peerId p) ⟨id⟩ data] := by
    rw [hturn]
    rfl
  have hhandle := h.handle lib env hevents
  have hdispatcher : d.dispatcher.handleEvent (.streamData (lib.peerId p) ⟨id⟩ data) =
      (d.dispatcher.call handler (.onData ⟨⟨id⟩, lib.peerId p⟩ data), .idle) := by
    simp only [handleEvent, handleStreamData, hactive]
  rw [hdispatcher] at hhandle
  refine ⟨_, hhandle, ⟨⟨rfl, rfl⟩, ⟨state, ?_, hpeer⟩, ⟨reason, hactive⟩⟩, rfl⟩
  simp only [after, hturn, hstate]

/-- The news that the stream is accepted is given to the handler. -/
theorem Holds.accepted (h : d.Holds lib id p handler) (env : Env Peer) :
    ∃ d', step lib (d.after lib env (.swarm (.request p (.acceptStream id)))) .handle = some d' ∧
      d'.Holds lib id p handler ∧
      d'.dispatcher.calls = d.dispatcher.calls ++
        [(handler, .onAccepted ⟨⟨id⟩, lib.peerId p⟩)] := by
  obtain ⟨state, hstate, hpeer⟩ := h.entry
  obtain ⟨reason, hactive⟩ := h.active
  -- the runtime marks the stream active and emits the event
  have hturn : d.rt.turn lib env (.swarm (.request p (.acceptStream id))) =
      ({ d.rt with streams := d.rt.streams.insert id { state with status := .active } },
        [.event (.streamAccepted (lib.peerId p) ⟨id⟩), .respond]) := by
    simp only [Runtime.turn, Runtime.handleSwarmEvent, Runtime.handleStreamMessage, hstate]
    rfl
  have hevents : Runtime.eventsOf (d.rt.turn lib env
      (.swarm (.request p (.acceptStream id)))).2 = [.streamAccepted (lib.peerId p) ⟨id⟩] := by
    rw [hturn]
    rfl
  have hhandle := h.handle lib env hevents
  -- the dispatcher calls the handler of the stream
  have hdispatcher : d.dispatcher.handleEvent (.streamAccepted (lib.peerId p) ⟨id⟩) =
      ((d.dispatcher.setActive ⟨id⟩ ⟨reason, lib.peerId p, handler⟩).call handler
        (.onAccepted ⟨⟨id⟩, lib.peerId p⟩), .idle) := by
    simp only [handleEvent, handleStreamAccepted, hactive]
  rw [hdispatcher] at hhandle
  refine ⟨_, hhandle, ⟨⟨rfl, rfl⟩, ⟨{ state with status := .active }, ?_, hpeer⟩,
    ⟨reason, ?_⟩⟩, rfl⟩
  · simp only [after, hturn, SortedMap.get?_insert_self]
  · exact SortedMap.get?_insert_self _ _ _

/-- Closing forgets the stream, and does not tell the own handler. -/
theorem Holds.close (h : d.Holds lib id p handler) (env : Env Peer) :
    ∃ d', step lib d (.turn env (.command (.closeStream ⟨id⟩))) = some d' ∧
      Runtime.sentOf (d.effectsOf lib (.turn env (.command (.closeStream ⟨id⟩)))) =
        [(p, .closeStream id)] ∧
      d'.rt.streams.get? id = none ∧ d'.dispatcher.calls = d.dispatcher.calls := by
  obtain ⟨state, hstate, rfl⟩ := h.entry
  have hturn : d.rt.turn lib env (.command (.closeStream ⟨id⟩)) =
      ({ d.rt with streams := d.rt.streams.erase id },
        [.send state.peer (.closeStream id), .reply (.done (.ok ()))]) := by
    simp only [Runtime.turn, Runtime.handleCommand, hstate]
  refine ⟨_, rfl, ?_, ?_, rfl⟩
  · simp only [effectsOf, turnOf, hturn]
    rfl
  · simp only [after, hturn, SortedMap.get?_erase, if_true]

/-- The end of the stream is given to the handler at the other end. -/
theorem Holds.closed (h : d.Holds lib id p handler) (env : Env Peer) :
    ∃ d', step lib (d.after lib env (.swarm (.request p (.closeStream id)))) .handle = some d' ∧
      d'.rt.streams.get? id = none ∧
      d'.dispatcher.calls = d.dispatcher.calls ++
        [(handler, .onClosed (lib.peerId p) ⟨id⟩ .remoteClose)] := by
  obtain ⟨reason, hactive⟩ := h.active
  have hevents : Runtime.eventsOf (d.rt.turn lib env (.swarm (.request p (.closeStream id)))).2 =
      [.streamClosed (lib.peerId p) ⟨id⟩ .remoteClose] := rfl
  have hhandle := h.handle lib env hevents
  have hdispatcher : (d.dispatcher.handleEvent
      (.streamClosed (lib.peerId p) ⟨id⟩ .remoteClose)).1.calls = d.dispatcher.calls ++
        [(handler, .onClosed (lib.peerId p) ⟨id⟩ .remoteClose)] := by
    simp only [handleEvent, handleStreamClosed, finish, hactive]
    rfl
  refine ⟨_, hhandle, ?_, hdispatcher⟩
  show (d.rt.streams.erase id).get? id = none
  rw [SortedMap.get?_erase, if_pos rfl]

/-! ## Opening a stream -/

omit [LinearOrder Peer] in
/-- A request for a reason with a factory is passed on to the node. -/
theorem requestStream_of_factory {dispatcher : StreamDispatcher} {reason : String} {factory : ℕ}
    (h : dispatcher.factories.get? reason = some factory) :
    dispatcher.requestStream reason = .ok factory := by
  simp only [requestStream, h]

/-- `request_stream` up to the answer: the stream is in the table. -/
theorem Drained.request (h : d.Drained) (lib : External Peer) (env : Env Peer) (p : Peer)
    {reason : String} {factory : ℕ}
    (hfactory : d.dispatcher.factories.get? reason = some factory) :
    ∃ d' nth, step lib d (.request env (lib.peerId p) reason) = some d' ∧
      Runtime.sentOf (d.effectsOf lib (.request env (lib.peerId p) reason)) =
        [(p, .requestStream d.rt.nextStreamId reason)] ∧
      d'.Drained ∧ d'.dispatcher = d.dispatcher ∧
      (∃ state, d'.rt.streams.get? d.rt.nextStreamId = some state ∧ state.peer = p) ∧
      d'.requested[d.requested.length]? =
        some ⟨factory, lib.peerId p, ⟨d.rt.nextStreamId⟩, reason, nth⟩ := by
  have hrequest := requestStream_of_factory hfactory
  -- the runtime makes the entry, sends the request and answers with the id
  have hturn : d.rt.turn lib env (.command (.requestStream (lib.peerId p) reason)) =
      ({ d.rt with
          nextStreamId := d.rt.nextStreamId + 1
          streams := d.rt.streams.insert d.rt.nextStreamId ⟨p, reason, .requested, .outbound⟩ },
        [.send p (.requestStream d.rt.nextStreamId reason),
          .reply (.stream (.ok ⟨d.rt.nextStreamId⟩))]) := by
    have hfrom : lib.fromStr (lib.peerId p).id = some p := lib.fromStr_toBase58 p
    simp only [Runtime.turn, Runtime.handleCommand, hfrom]
  have hreply : Runtime.replyOf (d.rt.turn lib env
      (.command (.requestStream (lib.peerId p) reason))).2 =
        some (.stream (.ok ⟨d.rt.nextStreamId⟩)) := by
    rw [hturn]
    rfl
  -- so the call waits for its handler to be created
  have hstep : step lib d (.request env (lib.peerId p) reason) =
      some { d.after lib env (.command (.requestStream (lib.peerId p) reason)) with
        requested := d.requested ++ [⟨factory, lib.peerId p, ⟨d.rt.nextStreamId⟩, reason,
          (d.after lib env (.command (.requestStream (lib.peerId p) reason))).openings
            d.rt.nextStreamId⟩] } := by
    simp only [step, hrequest, hreply, Option.map_some, requestAnswered]
  refine ⟨_, _, hstep, ?_, ⟨h.task, ?_⟩, rfl, ⟨⟨p, reason, .requested, .outbound⟩, ?_, rfl⟩,
    List.getElem?_concat_length⟩
  · simp only [effectsOf, turnOf, hrequest, hturn]
    rfl
  · simp only [after, hturn, h.pending]
    rfl
  · simp only [after, hturn, SortedMap.get?_insert_self]

/-- The rest of the call: the handler is stored. -/
theorem Drained.store (h : d.Drained) (lib : External Peer) {k factory nth : ℕ} {reason : String}
    (hr : d.requested[k]? = some ⟨factory, lib.peerId p, ⟨id⟩, reason, nth⟩)
    (hstate : ∃ state, d.rt.streams.get? id = some state ∧ state.peer = p) :
    ∃ d', step lib d (.store k) = some d' ∧
      d'.Holds lib id p ⟨factory, d.dispatcher.created⟩ ∧
      d'.dispatcher.calls = d.dispatcher.calls := by
  have hstep : step lib d (.store k) = some { d with
      dispatcher := d.dispatcher.store factory (lib.peerId p) ⟨id⟩ reason
      requested := d.requested.eraseIdx k
      own := Function.update d.own d.dispatcher.created ⟨id, nth⟩ } := by
    simp only [step, hr, Option.map_some]
  refine ⟨_, hstep, ⟨⟨h.task, h.pending⟩, hstate, ⟨reason, ?_⟩⟩, rfl⟩
  exact SortedMap.get?_insert_self _ _ _

/-- A request that arrives is about to be accepted. -/
theorem Drained.requested (h : d.Drained) (lib : External Peer) (env : Env Peer) (p : Peer)
    (id : UInt64) {reason : String} {factory : ℕ}
    (hfactory : d.dispatcher.factories.get? reason = some factory) :
    ∃ d', step lib (d.after lib env (.swarm (.request p (.requestStream id reason)))) .handle =
        some d' ∧ d'.task = .accepting factory (lib.peerId p) ⟨id⟩ reason ∧ d'.pending = [] ∧
      d'.dispatcher = d.dispatcher ∧
      ∃ state, d'.rt.streams.get? id = some state ∧ state.peer = p := by
  have hevents : Runtime.eventsOf (d.rt.turn lib env
      (.swarm (.request p (.requestStream id reason)))).2 =
        [.streamRequested (lib.peerId p) reason ⟨id⟩] := rfl
  have hhandle := h.handle lib env hevents
  have hdispatcher : d.dispatcher.handleEvent (.streamRequested (lib.peerId p) reason ⟨id⟩) =
      (d.dispatcher, .accepting factory (lib.peerId p) ⟨id⟩ reason) := by
    simp only [handleEvent, handleStreamRequested, hfactory]
  rw [hdispatcher] at hhandle
  exact ⟨_, hhandle, rfl, rfl, rfl, _, SortedMap.get?_insert_self _ _ _, rfl⟩

/-- It is accepted, and the handler is stored and told. -/
theorem accept_install (lib : External Peer) (env : Env Peer) {reason : String} {factory : ℕ}
    {state : StreamState Peer} (hstate : d.rt.streams.get? id = some state)
    (htask : d.task = .accepting factory (lib.peerId state.peer) ⟨id⟩ reason)
    (hpending : d.pending = []) :
    ∃ d' d'', step lib d (.serve env) = some d' ∧
      Runtime.sentOf (d.effectsOf lib (.serve env)) = [(state.peer, .acceptStream id)] ∧
      step lib d' .install = some d'' ∧
      d''.Holds lib id state.peer ⟨factory, d.dispatcher.created⟩ ∧
      d''.dispatcher.calls = d.dispatcher.calls ++
        [(⟨factory, d.dispatcher.created⟩, .onAccepted ⟨⟨id⟩, lib.peerId state.peer⟩)] := by
  -- the runtime marks the stream accepted and tells the peer
  have hturn : d.rt.turn lib env (.command (.acceptStream ⟨id⟩)) =
      ({ d.rt with streams := d.rt.streams.insert id { state with status := .accepted } },
        [.send state.peer (.acceptStream id), .reply (.done (.ok ()))]) := by
    simp only [Runtime.turn, Runtime.handleCommand, hstate]
  have hreply : Runtime.replyOf (d.rt.turn lib env (.command (.acceptStream ⟨id⟩))).2 =
      some (.done (.ok ())) := by
    rw [hturn]
    rfl
  have hcommand : d.task.command = some (.acceptStream ⟨id⟩) := by
    rw [htask]
    rfl
  -- so the task goes on to install the handler
  have hserve : step lib d (.serve env) =
      some { d.after lib env (.command (.acceptStream ⟨id⟩)) with
        task := .installing factory (lib.peerId state.peer) ⟨id⟩ reason
        granted := (d.after lib env (.command (.acceptStream ⟨id⟩))).openings } := by
    have hanswered : d.task.answered (.done (.ok ())) =
        .ok (.installing factory (lib.peerId state.peer) ⟨id⟩ reason) := by
      rw [htask]
      rfl
    simp only [step, hcommand, hreply, Option.map_some, hanswered]
  refine ⟨_, _, hserve, ?_, rfl, ⟨⟨rfl, ?_⟩, ⟨{ state with status := .accepted }, ?_, rfl⟩,
    ⟨reason, ?_⟩⟩, rfl⟩
  · simp only [effectsOf, turnOf, hcommand, Option.map_some, hturn]
    rfl
  · simp only [after, hturn, hpending]
    rfl
  · simp only [after, hturn, SortedMap.get?_insert_self]
  · exact SortedMap.get?_insert_self _ _ _

/-! ## A command of the event loop -/

/-- The command of the event loop is answered. -/
theorem exists_answered (lib : External Peer) (env : Env Peer) {cmd : Command}
    (hcommand : d.task.command = some cmd) :
    ∃ r, Runtime.replyOf (d.rt.turn lib env (.command cmd)).2 = some r := by
  cases htask : d.task with
  | accepting factory source streamId reason =>
    rw [htask] at hcommand
    cases hcommand
    simp only [Runtime.turn, Runtime.handleCommand]
    cases d.rt.streams.get? streamId.id with
    | none => exact ⟨_, rfl⟩
    | some state => exact ⟨_, rfl⟩
  | refusing streamId reason =>
    rw [htask] at hcommand
    cases hcommand
    simp only [Runtime.turn, Runtime.handleCommand]
    cases d.rt.streams.get? streamId.id with
    | none => exact ⟨_, rfl⟩
    | some state => exact ⟨_, rfl⟩
  | idle =>
    rw [htask] at hcommand
    cases hcommand
  | installing factory source streamId reason =>
    rw [htask] at hcommand
    cases hcommand

/-- It opens no stream. -/
theorem next_of_command (lib : External Peer) (env : Env Peer) {cmd : Command}
    (hcommand : d.task.command = some cmd) :
    (d.after lib env (.command cmd)).rt.nextStreamId = d.rt.nextStreamId := by
  cases htask : d.task with
  | accepting factory source streamId reason =>
    rw [htask] at hcommand
    cases hcommand
    simp only [after, Runtime.turn, Runtime.handleCommand]
    cases d.rt.streams.get? streamId.id <;> rfl
  | refusing streamId reason =>
    rw [htask] at hcommand
    cases hcommand
    simp only [after, Runtime.turn, Runtime.handleCommand]
    cases d.rt.streams.get? streamId.id <;> rfl
  | idle =>
    rw [htask] at hcommand
    cases hcommand
  | installing factory source streamId reason =>
    rw [htask] at hcommand
    cases hcommand

/-- Then the event loop goes on, or prints the error. -/
theorem exists_serve (lib : External Peer) (env : Env Peer) {cmd : Command}
    (hcommand : d.task.command = some cmd) :
    ∃ d' r, step lib d (.serve env) = some d' ∧ d'.dispatcher = d.dispatcher ∧
      d'.rt.nextStreamId = d.rt.nextStreamId ∧ d'.pending = d.pending ∧
      (d'.task = .idle ∨ d.task.answered r = .ok d'.task) := by
  obtain ⟨r, hr⟩ := exists_answered lib env hcommand
  have hpending : (d.after lib env (.command cmd)).pending = d.pending := by
    simp only [after, Runtime.turn, Runtime.eventsOf_handleCommand, List.append_nil]
  cases hanswered : d.task.answered r with
  | ok task =>
    have hstep : step lib d (.serve env) = some { d.after lib env (.command cmd) with
        task := task
        granted := (d.after lib env (.command cmd)).openings } := by
      simp only [step, hcommand, hr, Option.map_some, hanswered]
    exact ⟨_, r, hstep, rfl, next_of_command lib env hcommand, hpending, Or.inr hanswered⟩
  | error e =>
    have hstep : step lib d (.serve env) = some { d.after lib env (.command cmd) with
        task := .idle
        granted := (d.after lib env (.command cmd)).openings } := by
      simp only [step, hcommand, hr, Option.map_some, hanswered]
    exact ⟨_, r, hstep, rfl, next_of_command lib env hcommand, hpending, Or.inl rfl⟩

/-- A stream that is accepted gets its handler next, one that is refused gets none. -/
theorem task_of_answered {task task' : LoopTask} {cmd : Command} {r : Reply}
    (hcommand : task.command = some cmd) (hanswered : task.answered r = .ok task') :
    ∃ factory source streamId reason, task' = .installing factory source streamId reason := by
  cases task with
  | accepting factory source streamId reason =>
    refine ⟨factory, source, streamId, reason, ?_⟩
    cases r with
    | done res =>
      cases res with
      | ok _ =>
        cases hanswered
        rfl
      | error e => cases hanswered
    | _ =>
      cases hanswered
      rfl
  | refusing streamId reason =>
    cases r with
    | done res => cases res <;> cases hanswered
    | _ => cases hanswered
  | idle => cases hcommand
  | installing factory source streamId reason => cases hcommand

/-- The handler of an accepted stream is stored. -/
theorem exists_install (lib : External Peer) {factory : ℕ} {source : PeerId} {streamId : StreamId}
    {reason : String} (htask : d.task = .installing factory source streamId reason) :
    ∃ d', step lib d .install = some d' ∧ d'.rt = d.rt ∧ d'.task = .idle ∧
      d'.pending = d.pending ∧
      d'.dispatcher = d.dispatcher.install factory source streamId reason := by
  have hstep : step lib d .install = some { d with
      dispatcher := d.dispatcher.install factory source streamId reason
      task := .idle
      own := Function.update d.own d.dispatcher.created
        ⟨streamId.id, d.granted streamId.id⟩ } := by
    simp only [step, htask]
  exact ⟨_, hstep, rfl, rfl, rfl, rfl⟩

/-- The event loop takes the oldest event. -/
theorem exists_handle (lib : External Peer) {e : AviEvent} {rest : List AviEvent}
    (htask : d.task = .idle) (hpending : d.pending = e :: rest) :
    ∃ d', step lib d .handle = some d' ∧ d'.rt = d.rt ∧ d'.pending = rest ∧
      d'.dispatcher = (d.dispatcher.handleEvent e).1 := by
  have hstep : step lib d .handle = some { d with
      pending := rest
      dispatcher := (d.dispatcher.handleEvent e).1
      task := (d.dispatcher.handleEvent e).2 } := by
    simp only [step, htask, hpending]
  exact ⟨_, hstep, rfl, rfl, rfl⟩

end StreamHandlers

namespace StreamNetwork

variable {ι Peer : Type} [DecidableEq ι] [LinearOrder Peer]

/-! ## Model layer -/

/-- A step that no application has asked for. -/
def goesOn : Label ι Peer → Bool
  | .deliver _ _ _ | .device _ (.store _) | .device _ .handle | .device _ (.serve _)
  | .device _ .install => true
  | .device _ _ => false

/-- There is a run to `t` with exactly these calls of applications. -/
def Leads (lib : External Peer) (peer : ι ↪ Peer) (s : StreamNetwork ι Peer)
    (calls : List (Label ι Peer)) (t : StreamNetwork ι Peer) : Prop :=
  ∃ ls, (streamNetwork lib peer).run s ls = some t ∧ ls.filter (fun l => !goesOn l) = calls

variable {lib : External Peer} {peer : ι ↪ Peer} {s t u : StreamNetwork ι Peer}
  {calls calls' : List (Label ι Peer)}

/-! ## Runs -/

theorem Leads.refl (s : StreamNetwork ι Peer) : Leads lib peer s [] s := ⟨[], rfl, rfl⟩

/-- Two runs one after the other have the calls of both. -/
theorem Leads.trans (h : Leads lib peer s calls t) (h' : Leads lib peer t calls' u) :
    Leads lib peer s (calls ++ calls') u := by
  obtain ⟨ls, hrun, hcalls⟩ := h
  obtain ⟨ks, hrun', hcalls'⟩ := h'
  refine ⟨ls ++ ks, Machine.run_append_eq_some _ |>.mpr ⟨t, hrun, hrun'⟩, ?_⟩
  rw [List.filter_append, hcalls, hcalls']

/-- Steps nobody asked for may follow. -/
theorem Leads.alone (h : Leads lib peer s calls t) (h' : Leads lib peer t [] u) :
    Leads lib peer s calls u := by
  rw [← List.append_nil calls]
  exact h.trans h'

/-- A single step is a run, with itself as its only call unless it goes on by itself. -/
theorem leads_of_step {l : Label ι Peer} (h : (streamNetwork lib peer).step s l = some t) :
    Leads lib peer s (if goesOn l then [] else [l]) t := by
  refine ⟨[l], (streamNetwork lib peer).run_cons_eq_some.mpr ⟨t, h, rfl⟩, ?_⟩
  cases hl : goesOn l with
  | true => simp only [List.filter_cons, hl, Bool.not_true, Bool.false_eq_true, if_false, if_true,
      List.filter_nil]
  | false => simp only [List.filter_cons, hl, Bool.not_false, Bool.false_eq_true, if_false, if_true,
      List.filter_nil]

/-- A step of one device is a step of the network: its messages are put in flight and
nothing else changes. -/
theorem exists_act {n : ι} {l : StreamHandlers.Label Peer} {d : StreamHandlers Peer}
    (hd : StreamHandlers.step lib (s.device n) l = some d) :
    ∃ t, s.act lib n l = some t ∧ t.device = Function.update s.device n d ∧
      t.flight = s.flight ++ letters n ((s.device n).effectsOf lib l) := by
  unfold act
  rw [hd]
  exact ⟨_, rfl, rfl, rfl⟩

variable (peer) in
/-- A step of one device. -/
theorem exists_step {n : ι} {l : StreamHandlers.Label Peer} {d : StreamHandlers Peer}
    (hl : StreamHandlers.bringsMessage l = false)
    (hd : StreamHandlers.step lib (s.device n) l = some d) :
    ∃ t, Leads lib peer s (if goesOn (.device n l : Label ι Peer) then [] else [.device n l]) t ∧
      t.device = Function.update s.device n d ∧
      t.flight = s.flight ++ letters n ((s.device n).effectsOf lib l) := by
  obtain ⟨t, ht, hdevice, hflight⟩ := exists_act hd
  refine ⟨t, leads_of_step ?_, hdevice, hflight⟩
  simp only [streamNetwork, step, hl, Bool.false_eq_true, if_false, ht]

variable (lib peer) in
/-- A step of `n` that sends one message to `m`, and its arrival. -/
theorem exists_leg {n m : ι} (hne : m ≠ n) {l : StreamHandlers.Label Peer}
    {d : StreamHandlers Peer} {msg : StreamMessage} (env : Env Peer)
    (hl : StreamHandlers.bringsMessage l = false)
    (hd : StreamHandlers.step lib (s.device n) l = some d)
    (hsent : Runtime.sentOf ((s.device n).effectsOf lib l) = [(peer m, msg)])
    (hfits : StreamCodec.Fits lib.json.toStreamText msg) :
    ∃ t, Leads lib peer s (if goesOn (.device n l : Label ι Peer) then [] else [.device n l]) t ∧
      t.device n = d ∧
      t.device m = (s.device m).after lib env (.swarm (.request (peer n) msg)) := by
  obtain ⟨u, hu, hdevice, hflight⟩ := exists_step peer hl hd
  -- one message is in flight
  have hletters : letters n ((s.device n).effectsOf lib l) = [⟨n, peer m, msg⟩] := by
    rw [letters, hsent]
    rfl
  rw [hletters] at hflight
  have hletter : u.flight[s.flight.length]? = some ⟨n, peer m, msg⟩ := by
    rw [hflight, List.getElem?_concat_length]
  have hother : u.device m = s.device m := by
    rw [hdevice, Function.update_of_ne hne]
  -- it arrives, since it fits into a request
  have hstep : ∃ t, (streamNetwork lib peer).step u (.deliver m env s.flight.length) = some t ∧
      t.device = Function.update u.device m
        ((u.device m).after lib env (.swarm (.request (peer n) msg))) := by
    have hturn : StreamHandlers.step lib
        ({ u with flight := u.flight.eraseIdx s.flight.length }.device m)
        (.turn env (.swarm (.request (peer n) msg))) =
        some ((u.device m).after lib env (.swarm (.request (peer n) msg))) := rfl
    obtain ⟨t, ht, htdevice, -⟩ := exists_act hturn
    refine ⟨t, ?_, htdevice⟩
    simp only [streamNetwork, step, hletter, if_true, StreamCodec.arrival_of_fits hfits]
    exact ht
  obtain ⟨t, ht, htdevice⟩ := hstep
  refine ⟨t, hu.alone (leads_of_step ht), ?_, ?_⟩
  · rw [htdevice, Function.update_of_ne hne.symm, hdevice, Function.update_self]
  · rw [htdevice, Function.update_self, hother]

/-! ## Events that are still waiting -/

/-- Only `n` has gone on, with the factories it had and all calls it had made, and without
opening a stream. -/
structure Onward (n : ι) (s t : StreamNetwork ι Peer) : Prop where
  others : ∀ k, k ≠ n → t.device k = s.device k
  next : (t.device n).rt.nextStreamId = (s.device n).rt.nextStreamId
  factories : (t.device n).dispatcher.factories = (s.device n).dispatcher.factories
  calls : (s.device n).dispatcher.calls <+: (t.device n).dispatcher.calls

omit [DecidableEq ι] in
theorem Onward.refl (n : ι) (s : StreamNetwork ι Peer) : Onward n s s :=
  ⟨fun _ _ => rfl, rfl, rfl, List.prefix_rfl⟩

omit [DecidableEq ι] in
/-- What one device does in two runs it does in their composition. -/
theorem Onward.trans {n : ι} (h : Onward n s t) (h' : Onward n t u) : Onward n s u where
  others k hk := (h'.others k hk).trans (h.others k hk)
  next := h'.next.trans h.next
  factories := h'.factories.trans h.factories
  calls := h.calls.trans h'.calls

variable (peer) in
/-- A step that no application has asked for. -/
theorem exists_onward {n : ι} {l : StreamHandlers.Label Peer} {d : StreamHandlers Peer}
    (hl : StreamHandlers.bringsMessage l = false)
    (hown : goesOn (.device n l : Label ι Peer) = true)
    (hd : StreamHandlers.step lib (s.device n) l = some d)
    (hnext : d.rt.nextStreamId = (s.device n).rt.nextStreamId)
    (hfactories : d.dispatcher.factories = (s.device n).dispatcher.factories)
    (hcalls : (s.device n).dispatcher.calls <+: d.dispatcher.calls) :
    ∃ t, Leads lib peer s [] t ∧ Onward n s t ∧ t.device n = d := by
  obtain ⟨t, ht, hdevice, -⟩ := exists_step peer hl hd
  rw [hown, if_pos rfl] at ht
  have hn : t.device n = d := by
    rw [hdevice, Function.update_self]
  refine ⟨t, ht, ⟨?_, ?_, ?_, ?_⟩, hn⟩
  · intro k hk
    rw [hdevice, Function.update_of_ne hk]
  · rw [hn]
    exact hnext
  · rw [hn]
    exact hfactories
  · rw [hn]
    exact hcalls

variable (lib peer) in
/-- The event loop can finish what it is doing. -/
theorem exists_idle (env : Env Peer) (n : ι) (s : StreamNetwork ι Peer) :
    ∃ t, Leads lib peer s [] t ∧ Onward n s t ∧ (t.device n).task = .idle ∧
      (t.device n).pending = (s.device n).pending := by
  -- a handler that is ready is installed
  have hinstall : ∀ (s : StreamNetwork ι Peer) {factory : ℕ} {source : PeerId}
      {streamId : StreamId} {reason : String},
      (s.device n).task = .installing factory source streamId reason →
      ∃ t, Leads lib peer s [] t ∧ Onward n s t ∧ (t.device n).task = .idle ∧
        (t.device n).pending = (s.device n).pending := by
    intro s factory source streamId reason htask
    obtain ⟨d, hd, hrt, hidle, hpending, hdispatcher⟩ := StreamHandlers.exists_install lib htask
    obtain ⟨t, ht, honward, hn⟩ := exists_onward peer rfl rfl hd (by rw [hrt])
      (by rw [hdispatcher]; rfl) (by rw [hdispatcher]; exact List.prefix_append _ _)
    rw [← hn] at hidle hpending
    exact ⟨t, ht, honward, hidle, hpending⟩
  cases hcommand : (s.device n).task.command with
  | some cmd =>
    -- the task waits for an answer of the runtime
    obtain ⟨d, r, hd, hdispatcher, hnext, hpending, htask⟩ :=
      StreamHandlers.exists_serve lib env hcommand
    obtain ⟨t, ht, honward, hn⟩ := exists_onward peer rfl rfl hd hnext
      (by rw [hdispatcher]) (by rw [hdispatcher])
    rw [← hn] at hpending htask
    rcases htask with hidle | hanswered
    · exact ⟨t, ht, honward, hidle, hpending⟩
    · -- and the handler is stored
      obtain ⟨factory, source, streamId, reason, htask⟩ :=
        StreamHandlers.task_of_answered hcommand hanswered
      obtain ⟨u, hu, honward', hidle, hpending'⟩ := hinstall t htask
      exact ⟨u, ht.alone hu, honward.trans honward', hidle, hpending'.trans hpending⟩
  | none =>
    cases htask : (s.device n).task with
    | idle => exact ⟨s, Leads.refl s, Onward.refl n s, htask, rfl⟩
    | installing factory source streamId reason => exact hinstall s htask
    | accepting factory source streamId reason =>
      rw [htask] at hcommand
      cases hcommand
    | refusing streamId reason =>
      rw [htask] at hcommand
      cases hcommand

omit [DecidableEq ι] [LinearOrder Peer] in
/-- No event changes the registered factories. -/
theorem factories_handleEvent (dispatcher : StreamDispatcher) (e : AviEvent) :
    (dispatcher.handleEvent e).1.factories = dispatcher.factories := by
  cases e with
  | streamAccepted peerId streamId =>
    simp only [handleEvent, handleStreamAccepted]
    cases dispatcher.activeHandlers.get? streamId.id <;> rfl
  | streamRejected peerId streamId reason =>
    simp only [handleEvent, handleStreamRejected, finish]
    cases dispatcher.activeHandlers.get? streamId.id <;> rfl
  | streamData source streamId data =>
    simp only [handleEvent, handleStreamData]
    cases dispatcher.activeHandlers.get? streamId.id <;> rfl
  | streamClosed peerId streamId reason =>
    simp only [handleEvent, handleStreamClosed, finish]
    cases dispatcher.activeHandlers.get? streamId.id <;> rfl
  | _ => rfl

variable (lib peer) in
/-- The event loop can get to the end of its events. -/
theorem exists_drained (env : Env Peer) (n : ι) (s : StreamNetwork ι Peer) :
    ∃ t, Leads lib peer s [] t ∧ Onward n s t ∧ (t.device n).Drained := by
  generalize hevents : (s.device n).pending = events
  induction events generalizing s with
  | nil =>
    obtain ⟨t, ht, honward, hidle, hpending⟩ := exists_idle lib peer env n s
    exact ⟨t, ht, honward, hidle, hpending.trans hevents⟩
  | cons e events ih =>
    obtain ⟨t, ht, honward, hidle, hpending⟩ := exists_idle lib peer env n s
    rw [hevents] at hpending
    obtain ⟨d, hd, hrt, hrest, hdispatcher⟩ := StreamHandlers.exists_handle lib hidle hpending
    have hcalls : (t.device n).dispatcher.calls <+: d.dispatcher.calls := by
      rw [hdispatcher]
      rcases (t.device n).dispatcher.calls_handleEvent e with heq | ⟨handler, c, heq, -⟩
      · rw [heq]
      · rw [heq]
        exact List.prefix_append _ _
    obtain ⟨u, hu, honward', hn⟩ := exists_onward peer rfl rfl hd (by rw [hrt])
      (by rw [hdispatcher, factories_handleEvent]) hcalls
    rw [← hn] at hrest
    obtain ⟨v, hv, honward'', hdrained⟩ := ih u hrest
    exact ⟨v, (ht.alone hu).alone hv, (honward.trans honward').trans honward'', hdrained⟩

/-! ## Two ends -/

/-- Both ends have the stream, and a handler for it. -/
def Open (lib : External Peer) (peer : ι ↪ Peer) (ends : Bool ↪ ι) (id : UInt64)
    (handlers : Bool → StreamHandler) (s : StreamNetwork ι Peer) : Prop :=
  ∀ i, (s.device (ends i)).Holds lib id (peer (ends !i)) (handlers i)

section Ends

variable {ends : Bool ↪ ι} {id : UInt64} {handlers : Bool → StreamHandler}

omit [DecidableEq ι] in
theorem other_ne (ends : Bool ↪ ι) (i : Bool) : ends (!i) ≠ ends i := by
  intro h
  have hi := ends.injective h
  cases i <;> cases hi

variable (peer) in
/-- A device goes on by itself without a message, and nobody else notices. -/
theorem exists_own {n : ι} {l : StreamHandlers.Label Peer} {d : StreamHandlers Peer}
    (hl : StreamHandlers.bringsMessage l = false)
    (hown : goesOn (.device n l : Label ι Peer) = true)
    (hd : StreamHandlers.step lib (s.device n) l = some d) :
    ∃ t, Leads lib peer s [] t ∧ t.device n = d ∧ ∀ k, k ≠ n → t.device k = s.device k := by
  obtain ⟨t, ht, hdevice, -⟩ := exists_step peer hl hd
  rw [hown, if_pos rfl] at ht
  refine ⟨t, ht, ?_, ?_⟩
  · rw [hdevice, Function.update_self]
  · intro k hk
    rw [hdevice, Function.update_of_ne hk]

/-- Data that is sent at one end is given to the handler at the other. -/
theorem Open.carry (h : s.Open lib peer ends id handlers) (env : Env Peer) (i : Bool)
    (data : Bytes) (hfits : StreamCodec.Fits lib.json.toStreamText (.streamData id data)) :
    ∃ t, Leads lib peer s [.device (ends i)
        (.turn env (.command (.sendStreamData ⟨id⟩ data)))] t ∧
      t.Open lib peer ends id handlers ∧
      (t.device (ends i)).dispatcher.calls = (s.device (ends i)).dispatcher.calls ∧
      (t.device (ends !i)).dispatcher.calls = (s.device (ends !i)).dispatcher.calls ++
        [(handlers !i, .onData ⟨⟨id⟩, lib.peerId (peer (ends i))⟩ data)] := by
  -- one end sends, the other's handler is given the data
  obtain ⟨hsend, hsent⟩ := (h i).send env data
  obtain ⟨t, ht, hi, hother⟩ := exists_leg lib peer (other_ne ends i) env rfl hsend hsent hfits
  have hholds := h !i
  rw [Bool.not_not] at hholds
  obtain ⟨d, hd, hheld, hcalls⟩ := hholds.data env data
  rw [← hother] at hd
  obtain ⟨u, hu, hud, huother⟩ := exists_own peer rfl rfl hd
  have hui : u.device (ends i) = s.device (ends i) := by
    rw [huother _ (other_ne ends i).symm, hi]
  refine ⟨u, ht.alone hu, ?_, ?_, ?_⟩
  · -- both ends hold the stream as before
    intro j
    by_cases hj : j = i
    · rw [hj, hui]
      exact h i
    · have hji : j = !i := Bool.eq_not.mpr hj
      rw [hji, hud, Bool.not_not]
      exact hheld
  · rw [hui]
  · rw [hud]
    exact hcalls

/-- What the end `i` has sent. -/
def sentBy (i : Bool) (chunks : List (Bool × Bytes)) : List Bytes :=
  (chunks.filter fun chunk => chunk.1 = i).map Prod.snd

/-- The commands that send it. -/
def sendAll (env : Env Peer) (ends : Bool ↪ ι) (id : UInt64) (chunks : List (Bool × Bytes)) :
    List (Label ι Peer) :=
  chunks.map fun chunk => .device (ends chunk.1)
    (.turn env (.command (.sendStreamData ⟨id⟩ chunk.2)))

/-- The calls of a handler that has been given the data. -/
def given (handler : StreamHandler) (ctx : StreamContext) (data : List Bytes) :
    List (StreamHandler × Callback) :=
  data.map fun bytes => (handler, .onData ctx bytes)

/-- All of it is given to the handlers, in order. -/
theorem Open.carry_all (h : s.Open lib peer ends id handlers) (env : Env Peer)
    (chunks : List (Bool × Bytes)) (hfits : ∀ chunk ∈ chunks,
      StreamCodec.Fits lib.json.toStreamText (.streamData id chunk.2)) :
    ∃ t, Leads lib peer s (sendAll env ends id chunks) t ∧ t.Open lib peer ends id handlers ∧
      ∀ i, (t.device (ends i)).dispatcher.calls = (s.device (ends i)).dispatcher.calls ++
        given (handlers i) ⟨⟨id⟩, lib.peerId (peer (ends !i))⟩ (sentBy (!i) chunks) := by
  induction chunks generalizing s with
  | nil => exact ⟨s, Leads.refl s, h, fun i => (List.append_nil _).symm⟩
  | cons chunk chunks ih =>
    rcases chunk with ⟨j, data⟩
    obtain ⟨t, ht, hopen, hown, hother⟩ := h.carry env j data (hfits _ List.mem_cons_self)
    obtain ⟨u, hu, hopen', hcalls⟩ :=
      ih hopen fun chunk hchunk => hfits chunk (List.mem_cons_of_mem _ hchunk)
    refine ⟨u, ht.trans hu, hopen', ?_⟩
    intro i
    rw [hcalls i]
    by_cases hi : i = j
    · -- the sender is told nothing
      have hnot : ¬ j = !i := by
        rw [hi]
        exact fun h => Bool.not_ne_self j h.symm
      rw [hi, hown]
      rw [hi] at hnot
      simp only [sentBy, List.filter_cons, decide_eq_false hnot, Bool.false_eq_true, if_false]
    · have hij : i = !j := Bool.eq_not.mpr hi
      rw [hij, hother, Bool.not_not]
      simp only [sentBy, given, List.filter_cons, decide_true, if_true, List.map_cons,
        List.append_assoc, List.cons_append, List.nil_append]

/-- One end closes the stream, and the handler at the other is told. -/
theorem Open.close (h : s.Open lib peer ends id handlers) (env : Env Peer) (i : Bool)
    (hfits : StreamCodec.Fits lib.json.toStreamText (.closeStream id)) :
    ∃ t, Leads lib peer s [.device (ends i) (.turn env (.command (.closeStream ⟨id⟩)))] t ∧
      (∀ j, (t.device (ends j)).rt.streams.get? id = none) ∧
      (t.device (ends i)).dispatcher.calls = (s.device (ends i)).dispatcher.calls ∧
      (t.device (ends !i)).dispatcher.calls = (s.device (ends !i)).dispatcher.calls ++
        [(handlers !i, .onClosed (lib.peerId (peer (ends i))) ⟨id⟩ .remoteClose)] := by
  -- one end closes, the other's handler is finished
  obtain ⟨d, hd, hsent, htable, hcalls⟩ := (h i).close env
  obtain ⟨t, ht, hi, hother⟩ := exists_leg lib peer (other_ne ends i) env rfl hd hsent hfits
  have hholds := h !i
  rw [Bool.not_not] at hholds
  obtain ⟨d', hd', htable', hcalls'⟩ := hholds.closed env
  rw [← hother] at hd'
  obtain ⟨u, hu, hud, huother⟩ := exists_own peer rfl rfl hd'
  have hui : u.device (ends i) = d := by
    rw [huother _ (other_ne ends i).symm, hi]
  refine ⟨u, ht.alone hu, ?_, ?_, ?_⟩
  · -- no end has the stream any more
    intro j
    by_cases hj : j = i
    · rw [hj, hui]
      exact htable
    · rw [Bool.eq_not.mpr hj, hud]
      exact htable'
  · rw [hui]
    exact hcalls
  · rw [hud]
    exact hcalls'

variable (lib peer) in
/-- Both ends can handle what is waiting there, without losing a factory or a call. -/
theorem exists_both_drained (env : Env Peer) (ends : Bool ↪ ι) (s : StreamNetwork ι Peer) :
    ∃ t, Leads lib peer s [] t ∧ ∀ i, (t.device (ends i)).Drained ∧
      (t.device (ends i)).rt.nextStreamId = (s.device (ends i)).rt.nextStreamId ∧
      (t.device (ends i)).dispatcher.factories = (s.device (ends i)).dispatcher.factories ∧
      (s.device (ends i)).dispatcher.calls <+: (t.device (ends i)).dispatcher.calls := by
  have hne : ends true ≠ ends false := other_ne ends false
  obtain ⟨t₁, ht₁, honward₁, hdrained₁⟩ := exists_drained lib peer env (ends true) s
  obtain ⟨t₂, ht₂, honward₂, hdrained₂⟩ := exists_drained lib peer env (ends false) t₁
  -- each end is left alone while the other one goes on
  have htrue : t₂.device (ends true) = t₁.device (ends true) := honward₂.others _ hne
  have hfalse : t₁.device (ends false) = s.device (ends false) := honward₁.others _ hne.symm
  refine ⟨t₂, ht₁.trans ht₂, ?_⟩
  intro i
  cases i with
  | true =>
    rw [htrue]
    exact ⟨hdrained₁, honward₁.next, honward₁.factories, honward₁.calls⟩
  | false =>
    rw [← hfalse]
    exact ⟨hdrained₂, honward₂.next, honward₂.factories, honward₂.calls⟩

variable (lib peer) in
/-- **Opening a stream**: a request between two devices that have nothing else to handle
and a factory for its reason is accepted, and both handlers are told. -/
theorem exists_open (env : Env Peer) {reason : String} {factory : Bool → ℕ}
    (hdrained : ∀ i, (s.device (ends i)).Drained)
    (hfactory : ∀ i, (s.device (ends i)).dispatcher.factories.get? reason = some (factory i))
    (hid : (s.device (ends true)).rt.nextStreamId = id)
    (hrequest : StreamCodec.Fits lib.json.toStreamText (.requestStream id reason))
    (haccept : StreamCodec.Fits lib.json.toStreamText (.acceptStream id)) :
    ∃ t handlers, Leads lib peer s [.device (ends true)
        (.request env (lib.peerId (peer (ends false))) reason)] t ∧
      t.Open lib peer ends id handlers ∧ (∀ i, (handlers i).factory = factory i) ∧
      ∀ i, (t.device (ends i)).dispatcher.calls = (s.device (ends i)).dispatcher.calls ++
        [(handlers i, .onAccepted ⟨⟨id⟩, lib.peerId (peer (ends !i))⟩)] := by
  have hne : ends false ≠ ends true := other_ne ends true
  -- the request, and its handler
  obtain ⟨d₁, nth, hd₁, hsent, hdrained₁, hdispatcher₁, hstate, hr⟩ :=
    (hdrained true).request lib env (peer (ends false)) (hfactory true)
  rw [hid] at hsent hstate hr
  obtain ⟨t₁, ht₁, htrue₁, hfalse₁⟩ := exists_leg lib peer hne env rfl hd₁ hsent hrequest
  obtain ⟨d₂, hd₂, hholds₂, hcalls₂⟩ := hdrained₁.store lib hr hstate
  rw [← htrue₁] at hd₂
  obtain ⟨t₂, ht₂, htrue₂, hother₂⟩ := exists_own peer rfl rfl hd₂
  have hfalse₂ : t₂.device (ends false) = _ := (hother₂ _ hne).trans hfalse₁
  -- it is taken up at the other end
  obtain ⟨e₁, he₁, htask, hpending, hdispatcher, state, hstate₁, hpeer⟩ :=
    (hdrained false).requested lib env (peer (ends true)) id (hfactory false)
  rw [← hfalse₂] at he₁
  obtain ⟨t₃, ht₃, hfalse₃, hother₃⟩ := exists_own peer rfl rfl he₁
  have htrue₃ : t₃.device (ends true) = d₂ := (hother₃ _ hne.symm).trans htrue₂
  -- and accepted
  rw [← hpeer] at htask
  obtain ⟨e₂, e₃, he₂, hsent', he₃, hholds₃, hcalls₃⟩ :=
    StreamHandlers.accept_install lib env hstate₁ htask hpending
  rw [hpeer] at hsent' hholds₃ hcalls₃
  rw [← hfalse₃] at he₂ hsent'
  obtain ⟨t₄, ht₄, hfalse₄, htrue₄⟩ := exists_leg lib peer hne.symm env rfl he₂ hsent' haccept
  rw [← hfalse₄] at he₃
  obtain ⟨t₅, ht₅, hfalse₅, hother₅⟩ := exists_own peer rfl rfl he₃
  -- the requester is told
  obtain ⟨d₃, hd₃, hholds₄, hcalls₄⟩ := hholds₂.accepted env
  rw [← htrue₃, ← htrue₄, ← hother₅ _ hne.symm] at hd₃
  obtain ⟨t₆, ht₆, htrue₆, hother₆⟩ := exists_own peer rfl rfl hd₃
  have hfalse₆ : t₆.device (ends false) = e₃ := (hother₆ _ hne).trans hfalse₅
  have hleads := ((((ht₁.alone ht₂).alone ht₃).alone ht₄).alone ht₅).alone ht₆
  refine ⟨t₆, fun i => if i then ⟨factory true, d₁.dispatcher.created⟩ else
    ⟨factory false, e₁.dispatcher.created⟩, hleads, ?_, ?_, ?_⟩
  · intro i
    cases i with
    | true =>
      rw [htrue₆]
      exact hholds₄
    | false =>
      rw [hfalse₆]
      exact hholds₃
  · intro i
    cases i with
    | true => rfl
    | false => rfl
  · intro i
    cases i with
    | true =>
      rw [htrue₆, hcalls₄, hcalls₂, hdispatcher₁]
      rfl
    | false =>
      rw [hfalse₆, hcalls₃, hdispatcher]
      rfl

omit [LinearOrder Peer] in
/-- Short messages of a stream are read as they were written. -/
theorem fits_conversation {reason : String} {chunks : List (Bool × Bytes)}
    (h : ∀ msg ∈ conversation id reason chunks, StreamCodec.Short lib.json.toStreamText msg) :
    StreamCodec.Fits lib.json.toStreamText (.requestStream id reason) ∧
      StreamCodec.Fits lib.json.toStreamText (.acceptStream id) ∧
      StreamCodec.Fits lib.json.toStreamText (.closeStream id) ∧
      ∀ chunk ∈ chunks, StreamCodec.Fits lib.json.toStreamText (.streamData id chunk.2) := by
  unfold conversation at h
  simp only [List.forall_mem_cons, List.forall_mem_map] at h
  exact ⟨StreamCodec.fits_of_short h.1 rfl, StreamCodec.fits_of_short h.2.1 rfl,
    StreamCodec.fits_of_short h.2.2.1 rfl,
    fun chunk hchunk => StreamCodec.fits_of_short (h.2.2.2 chunk hchunk) rfl⟩

/-- What the handler at the end `i` is told of such a stream. -/
def story (lib : External Peer) (peer : ι ↪ Peer) (ends : Bool ↪ ι) (id : UInt64)
    (handlers : Bool → StreamHandler) (chunks : List (Bool × Bytes)) (closer i : Bool) :
    List (StreamHandler × Callback) :=
  let ctx : StreamContext := ⟨⟨id⟩, lib.peerId (peer (ends !i))⟩
  (handlers i, .onAccepted ctx) :: given (handlers i) ctx (sentBy (!i) chunks) ++
    if i = closer then [] else [(handlers i, .onClosed ctx.peerId ⟨id⟩ .remoteClose)]

end Ends

/-! ## Two devices -/

/-- Both have a factory for `r`. -/
def bothRegister : List (Label Bool String) :=
  [.device true (.register "r" 0), .device false (.register "r" 1)]

end StreamNetwork

end AviNet
