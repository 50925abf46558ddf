import AviNet.Device.StreamDispatcher
import AviNet.Runtime.StreamTurn
import Mathlib.Logic.Function.Basic

/-!
# Device.StreamHandlers — the dispatcher over its runtime

A stream that ends by a message or a disconnection is reported by an event,
and the dispatcher finishes its handler. A stream that ends by a local command
is not reported, and a handler that is stored over another one replaces it.
Ids are drawn by both ends, so an id can stand for several streams, one after
the other; a handler is made for one of them.

* `Finished`: each handler is finished once, when its stream has left the table,
  and one that has not been holds its stream, unless an end has still to be handled;
* `finished_iff`: a run keeps that exactly when each handler is stored under a
  free id for a stream that is known, nothing ends or replaces the stream of a
  handler unreported, and no handler is told of the end of an earlier stream;
* `leaked`: `request_stream` and then `close_stream`.
-/

namespace AviNet

open StreamDispatcher

/-- A stream: its id, and how many streams have had that id, this one included. -/
structure Opening where
  id : UInt64
  nth : ℕ
  deriving DecidableEq

/-- A `request_stream` whose stream is open, and whose handler is not stored yet. -/
structure Requested where
  factory : ℕ
  peerId : PeerId
  streamId : StreamId
  reason : String
  /-- of the streams of this id, the one that was opened -/
  nth : ℕ
  deriving DecidableEq

/-- A runtime, the events that the device has still to handle, its dispatcher, its
event loop, and the calls of `request_stream` that are under way. The last three
fields are a record of the run that no step reads but to write it. -/
structure StreamHandlers (Peer : Type) [LinearOrder Peer] where
  rt : Runtime Peer
  pending : List AviEvent
  dispatcher : StreamDispatcher
  task : LoopTask
  requested : List Requested
  /-- how many streams have had the id -/
  openings : UInt64 → ℕ
  /-- `openings` at the last answer to the event loop -/
  granted : UInt64 → ℕ
  /-- the stream that each handler was made for -/
  own : ℕ → Opening

namespace StreamHandlers

variable {Peer : Type} [LinearOrder Peer]

/-! ## Model layer -/

inductive Label (Peer : Type) where
  /-- `register_handler` -/
  | register (reason : String) (factory : ℕ)
  /-- `request_stream` up to the answer of the runtime -/
  | request (env : Env Peer) (peerId : PeerId) (reason : String)
  /-- the rest of one of these calls -/
  | store (n : ℕ)
  /-- the event loop takes the oldest event -/
  | handle
  /-- the runtime handles the command of the event loop -/
  | serve (env : Env Peer)
  /-- the event loop stores the handler of a stream it has accepted -/
  | install
  /-- any other turn of the runtime; `close_stream` is the command `CloseStream` -/
  | turn (env : Env Peer) (l : Runtime.Label Peer)

/-- The runtime takes a turn, and its events are queued. -/
def after (lib : External Peer) (s : StreamHandlers Peer) (env : Env Peer)
    (l : Runtime.Label Peer) : StreamHandlers Peer :=
  { s with
    rt := (s.rt.turn lib env l).1
    pending := s.pending ++ Runtime.eventsOf (s.rt.turn lib env l).2
    openings := fun id =>
      if Runtime.made lib s.rt l = some id then s.openings id + 1 else s.openings id }

def step (lib : External Peer) (s : StreamHandlers Peer) :
    Label Peer → Option (StreamHandlers Peer)
  | .register reason factory =>
    -- the calls under way hold the lock of `factories`
    match s.task, s.requested with
    | .idle, [] => some { s with dispatcher := s.dispatcher.registerHandler reason factory }
    | _, _ => none
  | .request env peerId reason =>
    match s.dispatcher.requestStream reason with
    | .ok factory =>
      let cmd := Command.requestStream peerId reason
      let t := s.after lib env (.command cmd)
      (Runtime.replyOf (s.rt.turn lib env (.command cmd)).2).map fun reply =>
        match requestAnswered reply with
        | .ok streamId => { t with
            requested := s.requested ++
              [⟨factory, peerId, streamId, reason, t.openings streamId.id⟩] }
        | .error _ => t
    | .error _ => some s
  | .store n =>
    (s.requested[n]?).map fun r => { s with
      dispatcher := s.dispatcher.store r.factory r.peerId r.streamId r.reason
      requested := s.requested.eraseIdx n
      own := Function.update s.own s.dispatcher.created ⟨r.streamId.id, r.nth⟩ }
  | .handle =>
    match s.task, s.pending with
    | .idle, e :: pending => some { s with
        pending := pending
        dispatcher := (s.dispatcher.handleEvent e).1
        task := (s.dispatcher.handleEvent e).2 }
    | _, _ => none
  | .serve env =>
    match s.task.command with
    | some cmd =>
      let t := s.after lib env (.command cmd)
      (Runtime.replyOf (s.rt.turn lib env (.command cmd)).2).map fun reply =>
        { t with
          -- `handle_event` prints the error
          task := match s.task.answered reply with
            | .ok task => task
            | .error _ => .idle
          granted := t.openings }
    | none => none
  | .install =>
    match s.task with
    | .installing factory source streamId reason => some { s with
        dispatcher := s.dispatcher.install factory source streamId reason
        task := .idle
        own := Function.update s.own s.dispatcher.created ⟨streamId.id, s.granted streamId.id⟩ }
    | _ => none
  | .turn env l => some (s.after lib env l)

/-- A device that has just started. -/
def new (lib : External Peer) (localPeerId : Peer) (now : UInt64) : StreamHandlers Peer where
  rt := .new lib localPeerId now
  pending := []
  dispatcher := .new
  task := .idle
  requested := []
  openings := fun _ => 0
  granted := fun _ => 0
  own := fun _ => ⟨0, 0⟩

end StreamHandlers

/-- The machine of a device with its dispatcher. -/
def streamHandlers {Peer : Type} [LinearOrder Peer] (lib : External Peer) :
    Machine (StreamHandlers Peer) (StreamHandlers.Label Peer) where
  Init s := ∃ localPeerId now, s = .new lib localPeerId now
  step := StreamHandlers.step lib

namespace StreamHandlers

variable {Peer : Type} [LinearOrder Peer]

/-- The runtime has a stream of this id. -/
def InTable (s : StreamHandlers Peer) (id : UInt64) : Prop :=
  (s.rt.streams.get? id).isSome = true

/-- The runtime has this stream, and no later one of its id. -/
def Alive (s : StreamHandlers Peer) (o : Opening) : Prop :=
  s.InTable o.id ∧ s.openings o.id = o.nth

/-- The end of a stream of this id has been reported and not been handled. -/
def EndPending (s : StreamHandlers Peer) (id : UInt64) : Prop :=
  ∃ e ∈ s.pending, endedStream e = some id

/-- The runtime has the stream, or an end is still to be handled. -/
def Tracked (s : StreamHandlers Peer) (o : Opening) : Prop := s.Alive o ∨ s.EndPending o.id

/-- Every handler is finished exactly once, when its stream has left the table. -/
structure Finished (s : StreamHandlers Peer) : Prop where
  /-- each is finished once and no longer active, or not at all and active -/
  balanced : s.dispatcher.Balanced
  /-- one that is active holds its own stream, and once all events are handled
  the runtime has that stream -/
  active : ∀ id n, s.dispatcher.holder id = some n → (s.own n).id = id ∧ s.Tracked (s.own n)
  /-- one that has been finished has lost its stream -/
  left : ∀ n < s.dispatcher.created, (∀ id, s.dispatcher.holder id ≠ some n) →
    ¬ s.Alive (s.own n)

/-- Once all events are handled, the table keeps no id that the runtime has forgotten. -/
theorem Finished.inTable {s : StreamHandlers Peer} (h : s.Finished) (hpending : s.pending = [])
    {id : UInt64} {n : ℕ} (hn : s.dispatcher.holder id = some n) : s.InTable id := by
  obtain ⟨hid, htracked⟩ := h.active id n hn
  rcases htracked with ⟨htable, -⟩ | ⟨e, he, -⟩
  · rw [hid] at htable
    exact htable
  · rw [hpending] at he
    cases he

/-! ## The condition -/

/-- The turn is a local command that ends the stream. -/
def EndsLocally (id : UInt64) : Runtime.Label Peer → Prop
  | .command (.rejectStream streamId _) | .command (.closeStream streamId) => streamId.id = id
  | _ => False

/-- The stream of a handler is not ended by a local command and not replaced by a
new one of the same id, unless the handler is about to be told of an end anyway. -/
def Spares (lib : External Peer) (s : StreamHandlers Peer) (l : Runtime.Label Peer) : Prop :=
  ∀ id n, s.dispatcher.holder id = some n → EndsLocally id l ∨ Runtime.Makes lib s.rt id l →
    s.Alive (s.own n) → s.EndPending id

/-- No handler is stored under the id, and the stream has not been forgotten. -/
def Free (s : StreamHandlers Peer) (o : Opening) : Prop :=
  s.dispatcher.holder o.id = none ∧ s.Tracked o

/-- The event is not the end of an earlier stream than that of the handler it meets. -/
def Timely (s : StreamHandlers Peer) (e : AviEvent) : Prop :=
  ∀ id n, endedStream e = some id → s.dispatcher.holder id = some n → ¬ s.Alive (s.own n)

/-- No handler is left behind, and none is finished for another stream. -/
def Careful (lib : External Peer) (s : StreamHandlers Peer) : Label Peer → Prop
  | .register _ _ => True
  | .request _ peerId reason => ∀ factory, s.dispatcher.requestStream reason = .ok factory →
    s.Spares lib (.command (.requestStream peerId reason))
  | .store n => ∀ r, s.requested[n]? = some r → s.Free ⟨r.streamId.id, r.nth⟩
  | .handle => ∀ e ∈ s.pending.head?, s.Timely e
  | .serve _ => ∀ cmd, s.task.command = some cmd → s.Spares lib (.command cmd)
  | .install => ∀ factory source streamId reason,
    s.task = .installing factory source streamId reason →
      s.Free ⟨streamId.id, s.granted streamId.id⟩
  | .turn _ l => s.Spares lib l

/-! ## Steps -/

/-- Where the record comes from: what a step notes of a stream was true of it then. -/
structure Noted (s t : StreamHandlers Peer) : Prop where
  openings : ∀ id, s.openings id ≤ t.openings id
  granted : ∀ id, t.granted id = s.granted id ∨ t.granted id = t.openings id
  requested : ∀ r ∈ t.requested, r ∈ s.requested ∨ r.nth = t.openings r.streamId.id
  own : ∀ n, t.own n = s.own n ∨ (∃ r ∈ s.requested, t.own n = ⟨r.streamId.id, r.nth⟩) ∨
    ∃ id, t.own n = ⟨id, s.granted id⟩

/-- The streams of the record have been opened. -/
structure Known (s : StreamHandlers Peer) : Prop where
  granted : ∀ id, s.granted id ≤ s.openings id
  requested : ∀ r ∈ s.requested, r.nth ≤ s.openings r.streamId.id
  own : ∀ n, (s.own n).nth ≤ s.openings (s.own n).id

/-- What a step does, and what it takes for it to leave no handler behind. -/
inductive Change (lib : External Peer) (s t : StreamHandlers Peer) : Prop → Prop
  | quiet (hrt : t.rt = s.rt) (hpending : t.pending = s.pending)
      (hopenings : t.openings = s.openings) (hown : t.own = s.own)
      (hsame : Same s.dispatcher t.dispatcher) : Change lib s t True
  | turn {env : Env Peer} {l : Runtime.Label Peer} (hrt : t.rt = (s.after lib env l).rt)
      (hpending : t.pending = (s.after lib env l).pending)
      (hopenings : t.openings = (s.after lib env l).openings) (hown : t.own = s.own)
      (hdispatcher : t.dispatcher = s.dispatcher) : Change lib s t (s.Spares lib l)
  | gain {o : Opening} (hrt : t.rt = s.rt) (hpending : t.pending = s.pending)
      (hopenings : t.openings = s.openings)
      (hown : t.own = Function.update s.own s.dispatcher.created o)
      (hgained : Gained s.dispatcher t.dispatcher o.id) : Change lib s t (s.Free o)
  | event {e : AviEvent} (hrt : t.rt = s.rt) (hpending : s.pending = e :: t.pending)
      (hopenings : t.openings = s.openings) (hown : t.own = s.own)
      (hdispatcher : t.dispatcher = (s.dispatcher.handleEvent e).1) :
      Change lib s t (s.Timely e)

section Steps

variable {lib : External Peer} {s t : StreamHandlers Peer}

theorem Noted.refl (s : StreamHandlers Peer) : Noted s s where
  openings _ := le_rfl
  granted _ := Or.inl rfl
  requested _ hr := Or.inl hr
  own _ := Or.inl rfl

variable (lib s) in
/-- A turn of the runtime notes the streams it opens. -/
theorem noted_after (env : Env Peer) (l : Runtime.Label Peer) : Noted s (s.after lib env l) where
  openings id := by
    simp only [after]
    split_ifs
    · exact Nat.le_succ _
    · exact le_rfl
  granted _ := Or.inl rfl
  requested _ hr := Or.inl hr
  own _ := Or.inl rfl

/-- What was known stays known. -/
theorem Noted.known (h : Noted s t) (hknown : s.Known) : t.Known where
  granted id := by
    rcases h.granted id with heq | heq
    · rw [heq]
      exact (hknown.granted id).trans (h.openings id)
    · exact heq.le
  requested r hr := by
    rcases h.requested r hr with hmem | heq
    · exact (hknown.requested r hmem).trans (h.openings _)
    · exact heq.le
  own n := by
    rcases h.own n with heq | ⟨r, hr, heq⟩ | ⟨id, heq⟩
    · rw [heq]
      exact (hknown.own n).trans (h.openings _)
    · rw [heq]
      exact (hknown.requested r hr).trans (h.openings _)
    · rw [heq]
      exact (hknown.granted id).trans (h.openings _)

/-- A new dispatcher knows of no stream. -/
theorem known_new (localPeerId : Peer) (now : UInt64) : (new lib localPeerId now).Known where
  granted _ := le_rfl
  requested _ hr := absurd hr List.not_mem_nil
  own _ := le_rfl

omit [LinearOrder Peer] in
/-- A new entry of `own` is the only one. -/
theorem own_update (own : ℕ → Opening) (k : ℕ) (o : Opening) (n : ℕ) :
    Function.update own k o n = own n ∨ Function.update own k o n = o := by
  by_cases hn : n = k
  · subst hn
    exact Or.inr (Function.update_self n o own)
  · exact Or.inl (Function.update_of_ne hn o own)

/-- **Inversion** of the steps. -/
theorem step_change {l : Label Peer} (h : (streamHandlers lib).step s l = some t) :
    Noted s t ∧ ∃ ok, Change lib s t ok ∧ (s.Careful lib l ↔ ok) := by
  cases l with
  | register reason factory =>
    simp only [streamHandlers, step] at h
    split at h
    · cases h
      refine ⟨{ Noted.refl s with }, True, ?_, Iff.rfl⟩
      exact .quiet rfl rfl rfl rfl ⟨rfl, fun _ => rfl, fun _ => rfl⟩
    · cases h
  | request env peerId reason =>
    -- a request leaves a handler to be created, noted with the opening it is for
    simp only [streamHandlers, step] at h
    split at h
    · -- a factory is registered: the runtime takes the command
      rename_i factory hfactory
      have hspares : s.Careful lib (.request env peerId reason) ↔
          s.Spares lib (.command (.requestStream peerId reason)) := by
        simp only [Careful, hfactory, Except.ok.injEq, forall_eq']
      have hnoted : Noted s (s.after lib env (.command (.requestStream peerId reason))) :=
        noted_after lib s env _
      obtain ⟨reply, -, rfl⟩ := Option.map_eq_some_iff.mp h
      split
      · refine ⟨{ hnoted with requested := ?_ }, _, .turn rfl rfl rfl rfl rfl, hspares⟩
        intro r hr
        rcases List.mem_append.mp hr with hmem | hmem
        · exact Or.inl hmem
        · rw [List.mem_singleton.mp hmem]
          exact Or.inr rfl
      · exact ⟨hnoted, _, .turn rfl rfl rfl rfl rfl, hspares⟩
    · -- none is: the call returns at once
      rename_i e he
      cases h
      refine ⟨.refl s, True, .quiet rfl rfl rfl rfl (.refl _), ?_⟩
      simp only [Careful, he, reduceCtorEq, false_imp_iff, implies_true]
  | store n =>
    -- the handler is created for that opening
    obtain ⟨r, hr, rfl⟩ := Option.map_eq_some_iff.mp h
    refine ⟨⟨fun _ => le_rfl, fun _ => Or.inl rfl, ?_, ?_⟩, _,
      .gain rfl rfl rfl rfl (gained_store r.factory r.peerId r.streamId r.reason), ?_⟩
    · intro r' hr'
      exact Or.inl (List.mem_of_mem_eraseIdx hr')
    · intro m
      apply (own_update s.own s.dispatcher.created ⟨r.streamId.id, r.nth⟩ m).imp_right
      intro hm
      exact Or.inl ⟨r, List.mem_of_getElem? hr, hm⟩
    · simp only [Careful, hr, Option.some.injEq, forall_eq']
  | handle =>
    -- an event is handled as it was queued
    simp only [streamHandlers, step] at h
    split at h
    · rename_i e pending htask hpending
      cases h
      refine ⟨{ Noted.refl s with }, _, .event rfl hpending rfl rfl rfl, ?_⟩
      simp only [Careful, hpending, List.head?_cons, Option.mem_some_iff, forall_eq']
    · cases h
  | serve env =>
    -- what is granted now is noted
    simp only [streamHandlers, step] at h
    split at h
    · rename_i cmd hcmd
      have hnoted : Noted s (s.after lib env (.command cmd)) := noted_after lib s env _
      obtain ⟨reply, -, rfl⟩ := Option.map_eq_some_iff.mp h
      refine ⟨{ hnoted with granted := fun _ => Or.inr rfl }, _, .turn rfl rfl rfl rfl rfl, ?_⟩
      simp only [Careful, hcmd, Option.some.injEq, forall_eq']
    · cases h
  | install =>
    -- the handler is installed for the opening that was granted
    simp only [streamHandlers, step] at h
    split at h
    · rename_i factory source streamId reason htask
      cases h
      refine ⟨⟨fun _ => le_rfl, fun _ => Or.inl rfl, fun _ hr => Or.inl hr, ?_⟩, _,
        .gain rfl rfl rfl rfl (gained_install factory source streamId reason), ?_⟩
      · intro m
        apply (own_update s.own s.dispatcher.created
          ⟨streamId.id, s.granted streamId.id⟩ m).imp_right
        intro hm
        exact Or.inr ⟨streamId.id, hm⟩
      · constructor
        · intro hfree
          exact hfree factory source streamId reason htask
        · intro hfree factory' source' streamId' reason' htask'
          rw [htask] at htask'
          cases htask'
          exact hfree
    · cases h
  | turn env l =>
    cases h
    exact ⟨noted_after lib s env l, _, .turn rfl rfl rfl rfl rfl, Iff.rfl⟩

/-- Every step keeps the numbering of the handlers. -/
theorem step_wf (s : StreamHandlers Peer) (l : Label Peer) (t : StreamHandlers Peer)
    (hstep : (streamHandlers lib).step s l = some t) (hwf : s.dispatcher.Wf) :
    t.dispatcher.Wf := by
  obtain ⟨-, ok, hchange, -⟩ := step_change hstep
  cases hchange with
  | quiet _ _ _ _ hsame => exact hsame.wf hwf
  | turn _ _ _ _ hdispatcher =>
    rw [hdispatcher]
    exact hwf
  | gain _ _ _ _ hgained => exact hgained.wf hwf
  | event _ _ _ _ hdispatcher =>
    rw [hdispatcher]
    exact handleEvent_wf _ hwf

/-! ## One turn and one stream -/

variable {env : Env Peer} {id : UInt64}

variable (lib env) in
/-- A stream ends by a local command, or its end is reported. -/
theorem ends_reported (l : Runtime.Label Peer) (hsome : (s.rt.streams.get? id).isSome = true) :
    ((s.rt.turn lib env l).1.streams.get? id).isSome = true ∨ EndsLocally id l ∨
      ∃ e ∈ Runtime.eventsOf (s.rt.turn lib env l).2, endedStream e = some id := by
  -- what the turn does to the stream, and what it emits about it
  have hmove : Runtime.Move lib s.rt id l ((s.rt.turn lib env l).1.streams.get? id)
      (Runtime.eventsAbout id (s.rt.turn lib env l).2) := Runtime.move l
  have hmem : ∀ e ∈ Runtime.eventsAbout id (s.rt.turn lib env l).2,
      e ∈ Runtime.eventsOf (s.rt.turn lib env l).2 := fun e he => (List.mem_filter.mp he).1
  generalize (s.rt.turn lib env l).1.streams.get? id = entry at hmove ⊢
  generalize Runtime.eventsAbout id (s.rt.turn lib env l).2 = events at hmove hmem
  cases hmove with
  | opened hid hpeer => exact Or.inl rfl
  | @command cmd state hcmd hget =>
    cases cmd with
    | rejectStream streamId reason => exact Or.inr (Or.inl (Option.some.inj hcmd))
    | closeStream streamId => exact Or.inr (Or.inl (Option.some.inj hcmd))
    | acceptStream streamId | sendStreamData streamId data => exact Or.inl rfl
    | _ => cases hcmd
  | @message peer msg hmsg =>
    obtain ⟨state, hget⟩ := Option.isSome_iff_exists.mp hsome
    rw [hget] at hmem ⊢
    cases msg with
    | rejectStream i reason =>
      exact Or.inr (Or.inr ⟨_, hmem _ List.mem_cons_self, hmsg⟩)
    | closeStream i =>
      exact Or.inr (Or.inr ⟨_, hmem _ List.mem_cons_self, hmsg⟩)
    | requestStream i reason | acceptStream i | streamData i data => exact Or.inl rfl
    | syncContext ctx => cases hmsg
  -- a lost connection reports the end
  | disconnected hget hpeer => exact Or.inr (Or.inr ⟨_, hmem _ List.mem_cons_self, rfl⟩)
  -- an untouched entry stays
  | untouched _ => exact Or.inl hsome

variable (lib s env) in
/-- A local command that ends a stream leaves none of its id. -/
theorem ended_locally {l : Runtime.Label Peer} (hends : EndsLocally id l) :
    ((s.rt.turn lib env l).1.streams.get? id).isSome = false := by
  rcases l with cmd | event | _
  · rw [← Bool.not_eq_true, Runtime.isSome_turn]
    cases cmd with
    | rejectStream streamId reason =>
      rintro (hmakes | ⟨-, hnot⟩)
      · exact hmakes
      · exact hnot hends
    | closeStream streamId =>
      rintro (hmakes | ⟨-, hnot⟩)
      · exact hmakes
      · exact hnot hends
    | _ => exact hends.elim
  · exact hends.elim
  · exact hends.elim

variable (lib s env) in
/-- No end is reported by a local command, nor with a new stream. -/
theorem silent {l : Runtime.Label Peer}
    (h : EndsLocally id l ∨ Runtime.Makes lib s.rt id l) :
    ∀ e ∈ Runtime.eventsOf (s.rt.turn lib env l).2, endedStream e = none := by
  intro e he
  rcases l with cmd | event | _
  · rw [Runtime.turn, Runtime.eventsOf_handleCommand] at he
    cases he
  · cases event with
    | request peer msg =>
      cases msg with
      | requestStream i reason =>
        have hevents : Runtime.eventsOf (s.rt.turn lib env (.swarm (.request peer
            (.requestStream i reason)))).2 = [.streamRequested (lib.peerId peer) reason ⟨i⟩] := rfl
        rw [hevents] at he
        rw [List.mem_singleton.mp he]
        rfl
      | _ => rcases h with h | h <;> exact h.elim
    | _ => rcases h with h | h <;> exact h.elim
  · rcases h with h | h <;> exact h.elim

/-! ## The accounts -/

/-- A stream that is gone does not come back; one of its id is another stream. -/
theorem not_alive_after {l : Runtime.Label Peer} {o : Opening}
    (hknown : o.nth ≤ s.openings o.id) (hgone : ¬ s.Alive o) : ¬ (s.after lib env l).Alive o := by
  rintro ⟨htable, hnth⟩
  unfold InTable at htable
  simp only [after] at htable hnth
  rcases (Runtime.isSome_turn lib s.rt o.id env l).mp htable with hmakes | ⟨hsome, -⟩
  · -- what the table has now was opened later than `o`
    rw [if_pos (Runtime.made_eq_some_iff.mpr hmakes)] at hnth
    omega
  · split_ifs at hnth
    · omega
    · exact hgone ⟨hsome, hnth⟩

/-- A turn loses sight of a stream exactly if it ends or replaces it behind the
handler's back. -/
theorem tracked_after_iff {l : Runtime.Label Peer} {o : Opening} (h : s.Tracked o) :
    (s.after lib env l).Tracked o ↔
      (EndsLocally o.id l ∨ Runtime.Makes lib s.rt o.id l → s.Alive o → s.EndPending o.id) := by
  have hkept : s.EndPending o.id → (s.after lib env l).EndPending o.id := by
    rintro ⟨e, he, hended⟩
    exact ⟨e, List.mem_append_left _ he, hended⟩
  constructor
  · intro htracked hlost halive
    rcases htracked with ⟨htable, hnth⟩ | ⟨e, he, hended⟩
    · -- `o` itself is gone after such a turn
      exfalso
      rcases hlost with hends | hmakes
      · unfold InTable at htable
        simp only [after] at htable
        rw [ended_locally lib s env hends] at htable
        cases htable
      · simp only [after, if_pos (Runtime.made_eq_some_iff.mpr hmakes)] at hnth
        have hsame : s.openings o.id = o.nth := halive.2
        omega
    · -- and the turn has reported no end, so the one that is pending is an older one
      rcases List.mem_append.mp he with hold | hnew
      · exact ⟨e, hold, hended⟩
      · rw [silent lib s env hlost e hnew] at hended
        cases hended
  · intro hspared
    rcases h with halive | hend
    · by_cases hlost : EndsLocally o.id l ∨ Runtime.Makes lib s.rt o.id l
      · exact Or.inr (hkept (hspared hlost halive))
      · have hnot : ¬ Runtime.made lib s.rt l = some o.id := by
          intro hmade
          exact hlost (Or.inr (Runtime.made_eq_some_iff.mp hmade))
        rcases ends_reported lib env l halive.1 with hstays | hends | ⟨e, he, hended⟩
        · refine Or.inl ⟨hstays, ?_⟩
          simp only [after, if_neg hnot]
          exact halive.2
        · exact absurd (Or.inl hends) hlost
        · exact Or.inr ⟨e, List.mem_append_right _ he, hended⟩
    · exact Or.inr (hkept hend)

/-- Whether a stream is alive depends on the runtime and the openings alone. -/
theorem alive_congr {o : Opening} (hrt : t.rt = s.rt) (hopenings : t.openings = s.openings) :
    t.Alive o ↔ s.Alive o := by
  unfold Alive InTable
  rw [hrt, hopenings]

/-- Whether it is tracked depends on the pending events as well. -/
theorem tracked_congr {o : Opening} (hrt : t.rt = s.rt) (hpending : t.pending = s.pending)
    (hopenings : t.openings = s.openings) : t.Tracked o ↔ s.Tracked o := by
  unfold Tracked EndPending
  rw [alive_congr hrt hopenings, hpending]

/-- Calls that are not the last. -/
theorem finished_quiet (hrt : t.rt = s.rt) (hpending : t.pending = s.pending)
    (hopenings : t.openings = s.openings) (hown : t.own = s.own)
    (hsame : Same s.dispatcher t.dispatcher) (h : s.Finished) : t.Finished where
  balanced := hsame.balanced h.balanced
  active := by
    intro id n hn
    rw [hsame.holder] at hn
    rw [hown, tracked_congr hrt hpending hopenings]
    exact h.active id n hn
  left := by
    intro n hlt hnone
    rw [hsame.created] at hlt
    simp only [hsame.holder] at hnone
    rw [hown, alive_congr hrt hopenings]
    exact h.left n hlt hnone

/-- A turn of the runtime. -/
theorem finished_turn_iff {l : Runtime.Label Peer} (hknown : s.Known)
    (hrt : t.rt = (s.after lib env l).rt) (hpending : t.pending = (s.after lib env l).pending)
    (hopenings : t.openings = (s.after lib env l).openings) (hown : t.own = s.own)
    (hdispatcher : t.dispatcher = s.dispatcher) (h : s.Finished) :
    t.Finished ↔ s.Spares lib l := by
  constructor
  · -- a handler whose stream is lost would stay active
    intro h' id n hn hlost halive
    obtain ⟨hid, htracked⟩ := h.active id n hn
    rw [← hdispatcher] at hn
    have hafter := (h'.active id n hn).2
    rw [hown, tracked_congr hrt hpending hopenings, tracked_after_iff htracked, hid] at hafter
    exact hafter hlost halive
  · intro hspares
    refine ⟨?_, ?_, ?_⟩
    · -- the accounts are those of before
      rw [hdispatcher]
      exact h.balanced
    · -- the active handlers are still tracked
      intro id n hn
      rw [hdispatcher] at hn
      obtain ⟨hid, htracked⟩ := h.active id n hn
      rw [hown, tracked_congr hrt hpending hopenings, tracked_after_iff htracked, hid]
      exact ⟨rfl, hspares id n hn⟩
    · -- the others are still done
      intro n hlt hnone
      rw [hdispatcher] at hlt hnone
      rw [hown, alive_congr hrt hopenings]
      exact not_alive_after (hknown.own n) (h.left n hlt hnone)

/-- A new handler. -/
theorem finished_gain_iff {o : Opening} (hwf : s.dispatcher.Wf) (hrt : t.rt = s.rt)
    (hpending : t.pending = s.pending) (hopenings : t.openings = s.openings)
    (hown : t.own = Function.update s.own s.dispatcher.created o)
    (hgained : Gained s.dispatcher t.dispatcher o.id) (h : s.Finished) :
    t.Finished ↔ s.Free o := by
  have hnew : t.dispatcher.holder o.id = some s.dispatcher.created := by
    rw [hgained.holder, if_pos rfl]
  have hmine : t.own s.dispatcher.created = o := by
    rw [hown, Function.update_self]
  have hothers : ∀ n, n ≠ s.dispatcher.created → t.own n = s.own n := by
    intro n hn
    rw [hown, Function.update_of_ne hn]
  constructor
  · -- the new handler has to be as good as any other
    intro h'
    have htracked := (h'.active _ _ hnew).2
    rw [hmine, tracked_congr hrt hpending hopenings] at htracked
    exact ⟨(hgained.balanced_iff hwf h.balanced).mp h'.balanced, htracked⟩
  · rintro ⟨hfree, htracked⟩
    refine ⟨(hgained.balanced_iff hwf h.balanced).mpr hfree, ?_, ?_⟩
    · intro id n hn
      rw [tracked_congr hrt hpending hopenings]
      by_cases hid : id = o.id
      · rw [hid, hnew] at hn
        cases hn
        rw [hmine]
        exact ⟨hid.symm, htracked⟩
      · rw [hgained.holder, if_neg hid] at hn
        have hlt := hwf.created id n hn
        rw [hothers n (by omega)]
        exact h.active id n hn
    · -- a handler that holds nothing is an old one that held nothing before
      intro n hlt hnone
      have hne : n ≠ s.dispatcher.created := by
        intro heq
        rw [← heq] at hnew
        exact hnone o.id hnew
      rw [hgained.created] at hlt
      rw [hothers n hne, alive_congr hrt hopenings]
      apply h.left n (by omega)
      intro id hn
      apply hnone id
      rw [hgained.holder, if_neg]
      · exact hn
      · intro hid
        rw [hid, hfree] at hn
        cases hn

/-- An event. -/
theorem finished_event_iff {e : AviEvent} (hwf : s.dispatcher.Wf) (hrt : t.rt = s.rt)
    (hpending : s.pending = e :: t.pending) (hopenings : t.openings = s.openings)
    (hown : t.own = s.own) (hdispatcher : t.dispatcher = (s.dispatcher.handleEvent e).1)
    (h : s.Finished) : t.Finished ↔ s.Timely e := by
  have hholder : ∀ id, t.dispatcher.holder id =
      if endedStream e = some id then none else s.dispatcher.holder id := by
    intro id
    rw [hdispatcher, holder_handleEvent]
  have hcreated : t.dispatcher.created = s.dispatcher.created := by
    rw [hdispatcher, created_handleEvent]
  constructor
  · intro h' id n hended hn
    have hlt := hwf.created id n hn
    rw [← hcreated] at hlt
    have hgone := h'.left n hlt
    rw [hown, alive_congr hrt hopenings] at hgone
    apply hgone
    -- the handler had one stream only
    intro j hj
    rw [hholder] at hj
    split_ifs at hj with hej
    have hid : j = id := hwf.apart j id n hj hn
    rw [hid] at hej
    exact hej hended
  · intro htimely
    refine ⟨?_, ?_, ?_⟩
    · rw [hdispatcher]
      exact handleEvent_balanced e hwf h.balanced
    · intro id n hn
      rw [hholder] at hn
      split_ifs at hn with hended
      obtain ⟨hid, htracked⟩ := h.active id n hn
      rw [hown]
      refine ⟨hid, ?_⟩
      rcases htracked with halive | ⟨e', he', hended'⟩
      · exact Or.inl ((alive_congr hrt hopenings).mpr halive)
      · -- the event that was handled is about another stream
        rw [hpending] at he'
        rcases List.mem_cons.mp he' with rfl | hmem
        · rw [hid] at hended'
          exact absurd hended' hended
        · exact Or.inr ⟨e', hmem, hended'⟩
    · intro n hlt hnone
      rw [hcreated] at hlt
      rw [hown, alive_congr hrt hopenings]
      by_cases hheld : ∃ id, s.dispatcher.holder id = some n
      · -- it is the handler that this event has finished
        obtain ⟨id, hn⟩ := hheld
        have hended : endedStream e = some id := by
          by_contra hne
          apply hnone id
          rw [hholder, if_neg hne]
          exact hn
        exact htimely id n hended hn
      · exact h.left n hlt fun id hn => hheld ⟨id, hn⟩

/-- What holds whether or not a handler is left behind. -/
structure Sound (s : StreamHandlers Peer) : Prop where
  wf : s.dispatcher.Wf
  known : s.Known

/-- Every step keeps it, careful or not. -/
theorem step_sound (s : StreamHandlers Peer) (l : Label Peer) (t : StreamHandlers Peer)
    (hstep : (streamHandlers lib).step s l = some t) (h : s.Sound) : t.Sound := by
  constructor
  · exact step_wf s l t hstep h.wf
  · exact (step_change hstep).1.known h.known

/-- A step leaves no handler behind exactly if it is careful. -/
theorem step_finished_iff (s : StreamHandlers Peer) (l : Label Peer) (t : StreamHandlers Peer)
    (hstep : (streamHandlers lib).step s l = some t) (hsound : s.Sound) (h : s.Finished) :
    t.Finished ↔ s.Careful lib l := by
  obtain ⟨-, ok, hchange, hok⟩ := step_change hstep
  rw [hok]
  cases hchange with
  | quiet hrt hpending hopenings hown hsame =>
    exact iff_of_true (finished_quiet hrt hpending hopenings hown hsame h) True.intro
  | turn hrt hpending hopenings hown hdispatcher =>
    exact finished_turn_iff hsound.known hrt hpending hopenings hown hdispatcher h
  | gain hrt hpending hopenings hown hgained =>
    exact finished_gain_iff hsound.wf hrt hpending hopenings hown hgained h
  | event hrt hpending hopenings hown hdispatcher =>
    exact finished_event_iff hsound.wf hrt hpending hopenings hown hdispatcher h

end Steps

/-! ## Runs -/

/-- A new dispatcher has finished all its handlers: it has none. -/
theorem finished_new (lib : External Peer) (localPeerId : Peer) (now : UInt64) :
    (new lib localPeerId now).Finished where
  balanced := balanced_new
  active id n hn := by cases hn
  left n hlt := absurd hlt (Nat.not_lt_zero n)

/-- **Every handler is finished exactly once**: in a run of a device from its
start, with any calls, messages and disconnections in any order, each handler
has at any time been finished once, left the table and lost its stream, or not
at all and holds its own stream, which the runtime has or an end is still to be
handled, if and only if each handler is stored under an id that has none for a
stream that has not been forgotten, no local command ends and no new stream
replaces the stream of a handler, and no handler is told of the end of an
earlier stream of its id. -/
theorem finished_iff (lib : External Peer) (s t : StreamHandlers Peer)
    (h₀ : (streamHandlers lib).Init s) (ls : List (Label Peer))
    (hrun : (streamHandlers lib).run s ls = some t) :
    (streamHandlers lib).AllStates Finished s ls ↔
      (streamHandlers lib).AllSteps (Careful lib) s ls := by
  obtain ⟨localPeerId, now, rfl⟩ := h₀
  have hsound : (new lib localPeerId now).Sound := ⟨wf_new, known_new localPeerId now⟩
  exact (streamHandlers lib).allStates_iff_of_invariant step_sound step_finished_iff hrun hsound
    (finished_new lib localPeerId now)

/-! ## A stream that the application closes -/

/-- A device that has just started. -/
def booted : StreamHandlers String := new External.plain "me" 0

/-- A booted device is an initial state. -/
theorem booted_init : (streamHandlers External.plain).Init booted := ⟨"me", 0, rfl⟩

/-- The application opens a stream for the reason it has registered. -/
def opensStream : List (Label String) :=
  [.register "chat" 0, .request (.calm String) ⟨"peer"⟩ "chat", .store 0]

/-- The peer closes it. -/
def peerCloses : List (Label String) :=
  opensStream ++ [.turn (.calm String) (.swarm (.request "peer" (.closeStream 1))), .handle]

theorem finished_iff_peerCloses :
    (streamHandlers External.plain).AllStates Finished booted peerCloses ↔
      (streamHandlers External.plain).AllSteps (Careful External.plain) booted peerCloses := by
  have hrun : ((streamHandlers External.plain).run booted peerCloses).isSome = true := by
    decide +kernel
  obtain ⟨t, ht⟩ := Option.isSome_iff_exists.mp hrun
  exact finished_iff _ booted t booted_init _ ht

/-- The application closes it. -/
def closesStream : List (Label String) :=
  opensStream ++ [.turn (.calm String) (.command (.closeStream ⟨1⟩))]

/-- Its handler is never told, and stays in the table. -/
theorem leaked : ¬ ∀ (s t : StreamHandlers String) ls, (streamHandlers External.plain).Init s →
    (streamHandlers External.plain).run s ls = some t →
      (streamHandlers External.plain).AllStates Finished s ls := by
  intro h
  have hview : ((streamHandlers External.plain).run booted closesStream).map
      (fun t => (t.pending.isEmpty, t.dispatcher.holder 1, (t.rt.streams.get? 1).isSome)) =
        some (true, some 0, false) := by
    decide +kernel
  obtain ⟨t, ht, hview⟩ := Option.map_eq_some_iff.mp hview
  simp only [Prod.mk.injEq] at hview
  rcases hview with ⟨hpending, hholder, htable⟩
  have hall := h booted t closesStream booted_init ht
  rw [← List.append_nil closesStream] at hall
  have hfinished : t.Finished := Machine.AllStates.at_cut _ hall ht
  have hin : t.InTable 1 := hfinished.inTable (List.isEmpty_iff.mp hpending) hholder
  exact Bool.false_ne_true (htable.symm.trans hin)

end StreamHandlers

end AviNet
