import AviNet.Device.StreamHandlers
import AviNet.Runtime.StreamCodec
import AviNet.Runtime.Turns

/-!
# Device.StreamNetwork — devices that open streams to each other

Any number of devices, each with its runtime, its event loop and its handlers
(`StreamHandlers`), and the stream messages on their way between them. A message
is delivered at most once, in any order with the others, as `AviStreamCodec` reads
it, and its sender is known.

* `Honest`: each event about a message and each callback for one names a device, and
  has a message of its own that was sent to this device, and each stretch of data a
  command;
* `streams_honest`: that holds in every state, however the devices draw their ids
  and whatever their applications do.
-/

namespace AviNet

open StreamDispatcher

/-- A stream message on its way. -/
structure Letter (ι Peer : Type) where
  source : ι
  target : Peer
  msg : StreamMessage
  deriving DecidableEq

/-- Devices and the messages on their way. The last two fields are a record of the
run that no step reads. -/
structure StreamNetwork (ι Peer : Type) [LinearOrder Peer] where
  device : ι → StreamHandlers Peer
  flight : List (Letter ι Peer)
  /-- all messages that have been sent -/
  sent : List (Letter ι Peer)
  /-- all events that the runtimes have emitted -/
  emitted : ι → List AviEvent

/-! ## Model layer -/

namespace StreamHandlers

variable {Peer : Type} [LinearOrder Peer]

/-- The turn of the runtime in a step, if there is one. -/
def turnOf (s : StreamHandlers Peer) : Label Peer → Option (Env Peer × Runtime.Label Peer)
  | .request env peerId reason =>
    match s.dispatcher.requestStream reason with
    | .ok _ => some (env, .command (.requestStream peerId reason))
    | .error _ => none
  | .serve env => s.task.command.map fun cmd => (env, .command cmd)
  | .turn env l => some (env, l)
  | .register _ _ | .store _ | .handle | .install => none

/-- What the runtime does in a step. -/
def effectsOf (lib : External Peer) (s : StreamHandlers Peer) (l : Label Peer) :
    List (Effect Peer) :=
  match s.turnOf l with
  | some (env, l) => (s.rt.turn lib env l).2
  | none => []

/-- A step that handles a stream message. -/
def bringsMessage : Label Peer → Bool
  | .turn _ (.swarm (.request _ _)) => true
  | _ => false

end StreamHandlers

namespace StreamNetwork

variable {ι Peer : Type} [DecidableEq ι] [LinearOrder Peer]

inductive Label (ι Peer : Type) where
  /-- any step of the device `n` that handles no message -/
  | device (n : ι) (l : StreamHandlers.Label Peer)
  /-- the `k`th message on its way reaches the device `n`, which may not be able to read it -/
  | deliver (n : ι) (env : Env Peer) (k : ℕ)

/-- The messages among the effects of the device `n`. -/
def letters (n : ι) (effects : List (Effect Peer)) : List (Letter ι Peer) :=
  (Runtime.sentOf effects).map fun e => ⟨n, e.1, e.2⟩

/-- The device `n` takes a step. -/
def act (lib : External Peer) (s : StreamNetwork ι Peer) (n : ι) (l : StreamHandlers.Label Peer) :
    Option (StreamNetwork ι Peer) :=
  (StreamHandlers.step lib (s.device n) l).map fun d =>
    let effects := (s.device n).effectsOf lib l
    { device := Function.update s.device n d
      flight := s.flight ++ letters n effects
      sent := s.sent ++ letters n effects
      emitted := Function.update s.emitted n (s.emitted n ++ Runtime.eventsOf effects) }

def step (lib : External Peer) (peer : ι ↪ Peer) (s : StreamNetwork ι Peer) :
    Label ι Peer → Option (StreamNetwork ι Peer)
  -- messages come from the flight only
  | .device n l => if StreamHandlers.bringsMessage l then none else s.act lib n l
  | .deliver n env k =>
    match s.flight[k]? with
    | some letter =>
      if letter.target = peer n then
        act lib { s with flight := s.flight.eraseIdx k } n
          (.turn env (.swarm (StreamCodec.arrival lib (peer letter.source) letter.msg)))
      else none
    | none => none

/-- Devices that have just been started. -/
def Init (lib : External Peer) (peer : ι ↪ Peer) (s : StreamNetwork ι Peer) : Prop :=
  (∀ n, (∃ now, s.device n = .new lib (peer n) now) ∧ s.emitted n = []) ∧
    s.flight = [] ∧ s.sent = []

end StreamNetwork

open StreamNetwork in
/-- The machine of the devices with these peer ids. -/
def streamNetwork {ι Peer : Type} [DecidableEq ι] [LinearOrder Peer] (lib : External Peer)
    (peer : ι ↪ Peer) : Machine (StreamNetwork ι Peer) (StreamNetwork.Label ι Peer) where
  Init := Init lib peer
  step := step lib peer

/-! ## Events for messages, callbacks for events -/

/-- The event for a message of `p`. The end of a stream can have another reason, so
that event is left out. -/
def StreamMessage.report {Peer : Type} (lib : External Peer) (p : Peer) :
    StreamMessage → Option AviEvent
  | .requestStream id reason => some (.streamRequested (lib.peerId p) reason ⟨id⟩)
  | .acceptStream id => some (.streamAccepted (lib.peerId p) ⟨id⟩)
  | .rejectStream id reason => some (.streamRejected (lib.peerId p) ⟨id⟩ reason)
  | .streamData id data => some (.streamData (lib.peerId p) ⟨id⟩ data)
  | .closeStream _ | .syncContext _ => none

/-- An event that only a message is reported by. -/
def AviEvent.IsReport : AviEvent → Prop
  | .streamRequested _ _ _ | .streamAccepted _ _ | .streamRejected _ _ _
  | .streamData _ _ _ => True
  | _ => False

/-- The callback tells a handler what the event says. -/
def Callback.Tells (c : Callback) : AviEvent → Prop
  | .streamAccepted peerId streamId => c = .onAccepted ⟨streamId, peerId⟩
  | .streamRejected peerId streamId reason => c = .onRejected peerId streamId reason
  -- the peer is the one that is stored with the handler
  | .streamData _ streamId data => ∃ peerId, c = .onData ⟨streamId, peerId⟩ data
  | .streamClosed _ streamId reason => ∃ peerId, c = .onClosed peerId streamId reason
  | _ => False

/-- **Inversion**: an event makes at most one call, and it tells what the event says. -/
theorem StreamDispatcher.calls_handleEvent (d : StreamDispatcher) (e : AviEvent) :
    (d.handleEvent e).1.calls = d.calls ∨
      ∃ handler c, (d.handleEvent e).1.calls = d.calls ++ [(handler, c)] ∧ c.Tells e := by
  cases e with
  -- no handler is called before the stream is accepted
  | streamRequested source reason streamId => exact Or.inl rfl
  | streamAccepted peerId streamId =>
    -- the other events call the handler of the stream, if it has one
    simp only [handleEvent, handleStreamAccepted]
    cases d.activeHandlers.get? streamId.id with
    | none => exact Or.inl rfl
    | some entry => exact Or.inr ⟨_, _, rfl, rfl⟩
  | streamRejected peerId streamId reason =>
    simp only [handleEvent, handleStreamRejected, finish]
    cases d.activeHandlers.get? streamId.id with
    | none => exact Or.inl rfl
    | some entry => exact Or.inr ⟨_, _, rfl, rfl⟩
  | streamData source streamId data =>
    simp only [handleEvent, handleStreamData]
    cases d.activeHandlers.get? streamId.id with
    | none => exact Or.inl rfl
    | some entry => exact Or.inr ⟨_, _, rfl, _, rfl⟩
  | streamClosed peerId streamId reason =>
    simp only [handleEvent, handleStreamClosed, finish]
    cases d.activeHandlers.get? streamId.id with
    | none => exact Or.inl rfl
    | some entry => exact Or.inr ⟨_, _, rfl, _, rfl⟩
  | _ => exact Or.inl rfl

namespace StreamHandlers

variable {Peer : Type} [LinearOrder Peer] {lib : External Peer} {s t : StreamHandlers Peer}

/-- What a step does to the events and the callbacks. -/
inductive Moves (lib : External Peer) (s t : StreamHandlers Peer) (l : Label Peer) : Prop
  /-- an event is handled -/
  | handled (e : AviEvent) (heffects : s.effectsOf lib l = [])
      (hpending : s.pending = e :: t.pending)
      (hcalls : t.dispatcher.calls = s.dispatcher.calls ∨ ∃ handler c,
        t.dispatcher.calls = s.dispatcher.calls ++ [(handler, c)] ∧ c.Tells e)
  /-- events are emitted, or the handler of a stream that was accepted is told -/
  | other (hpending : t.pending = s.pending ++ Runtime.eventsOf (s.effectsOf lib l))
      (hcalls : t.dispatcher.calls = s.dispatcher.calls ∨ ∃ handler ctx,
        t.dispatcher.calls = s.dispatcher.calls ++ [(handler, .onAccepted ctx)])

/-- Every step of a device handles an event, or adds those of a turn; then at most the handler
of a stream that was accepted is told. -/
theorem moves {l : Label Peer} (h : step lib s l = some t) : Moves lib s t l := by
  cases l with
  | register reason factory =>
    simp only [step] at h
    split at h
    · cases h
      exact .other (List.append_nil _).symm (Or.inl rfl)
    · cases h
  | request env peerId reason =>
    simp only [step] at h
    cases hrequest : s.dispatcher.requestStream reason with
    | ok factory =>
      -- with a factory the runtime takes the command
      have heffects : s.effectsOf lib (.request env peerId reason) =
          (s.rt.turn lib env (.command (.requestStream peerId reason))).2 := by
        simp only [effectsOf, turnOf, hrequest]
      simp only [hrequest] at h
      obtain ⟨reply, -, rfl⟩ := Option.map_eq_some_iff.mp h
      refine .other ?_ ?_
      · rw [heffects]
        cases requestAnswered reply with
        | ok streamId => rfl
        | error e => rfl
      · cases requestAnswered reply with
        | ok streamId => exact Or.inl rfl
        | error e => exact Or.inl rfl
    | error e =>
      -- without one nothing is emitted
      have heffects : s.effectsOf lib (.request env peerId reason) = [] := by
        simp only [effectsOf, turnOf, hrequest]
      simp only [hrequest] at h
      cases h
      refine .other ?_ (Or.inl rfl)
      rw [heffects]
      exact (List.append_nil _).symm
  | store n =>
    obtain ⟨r, -, rfl⟩ := Option.map_eq_some_iff.mp h
    exact .other (List.append_nil _).symm (Or.inl rfl)
  | handle =>
    simp only [step] at h
    split at h
    · rename_i e pending htask hpending
      cases h
      exact .handled e rfl hpending (s.dispatcher.calls_handleEvent e)
    · cases h
  | serve env =>
    simp only [step] at h
    cases hcommand : s.task.command with
    | some cmd =>
      -- the answer the task waits for
      have heffects : s.effectsOf lib (.serve env) = (s.rt.turn lib env (.command cmd)).2 := by
        simp only [effectsOf, turnOf, hcommand, Option.map_some]
      simp only [hcommand] at h
      obtain ⟨reply, -, rfl⟩ := Option.map_eq_some_iff.mp h
      refine .other ?_ (Or.inl rfl)
      rw [heffects]
      rfl
    | none =>
      simp only [hcommand] at h
      cases h
  | install =>
    simp only [step] at h
    split at h
    · cases h
      exact .other (List.append_nil _).symm (Or.inr ⟨_, _, rfl⟩)
    · cases h
  | turn env l =>
    cases h
    exact .other rfl (Or.inl rfl)

end StreamHandlers

namespace Runtime

variable {Peer : Type} [LinearOrder Peer] {lib : External Peer} {env : Env Peer}
  {self : Runtime Peer} {p : Peer} {msg : StreamMessage} {e : AviEvent}

omit [LinearOrder Peer] in
theorem mem_eventsOf {effects : List (Effect Peer)} :
    e ∈ eventsOf effects ↔ Effect.event e ∈ effects := by
  constructor
  · intro he
    rcases List.mem_filterMap.mp he with ⟨effect, heffect, hevent⟩
    cases effect with
    | event e' =>
      cases hevent
      exact heffect
    | _ => cases hevent
  · intro he
    exact List.mem_filterMap.mpr ⟨_, he, rfl⟩

omit [LinearOrder Peer] in
theorem mem_sentOf {effects : List (Effect Peer)} {sent : Peer × StreamMessage} :
    sent ∈ sentOf effects ↔ Effect.send sent.1 sent.2 ∈ effects := by
  constructor
  · intro he
    rcases List.mem_filterMap.mp he with ⟨effect, heffect, hsent⟩
    cases effect with
    | send q m =>
      cases hsent
      exact heffect
    | _ => cases hsent
  · intro he
    exact List.mem_filterMap.mpr ⟨_, he, rfl⟩

/-- Only a turn that handles a message reports one. -/
theorem request_of_report {l : Label Peer} (he : e ∈ eventsOf (self.turn lib env l).2)
    (hreport : e.IsReport) : ∃ p msg, l = .swarm (.request p msg) := by
  have hdoes : Does lib l (.event e) := does_of_mem_turn (mem_eventsOf.mp he)
  cases hdoes with
  | request p msg e _ => exact ⟨p, msg, rfl⟩
  | _ => exact hreport.elim

variable (lib env self p msg) in
/-- A message leads to at most one event, and one about the message is its report. -/
theorem events_of_request :
    (eventsOf (self.turn lib env (.swarm (.request p msg))).2).length ≤ 1 ∧
      ∀ e ∈ eventsOf (self.turn lib env (.swarm (.request p msg))).2, e.IsReport →
        msg.report lib p = some e := by
  have hone : ∀ {events : List AviEvent} {r : AviEvent}, events = [] ∨ events = [r] →
      (r.IsReport → msg.report lib p = some r) →
      events.length ≤ 1 ∧ ∀ e ∈ events, e.IsReport → msg.report lib p = some e := by
    rintro events r (rfl | rfl) hr
    · exact ⟨Nat.zero_le _, fun e he => absurd he List.not_mem_nil⟩
    · refine ⟨le_rfl, ?_⟩
      intro e he
      rw [List.mem_singleton.mp he]
      exact hr
  -- the report of each message
  simp only [turn, handleSwarmEvent]
  cases msg with
  | requestStream id reason => exact hone (Or.inr rfl) fun _ => rfl
  | acceptStream id =>
    simp only [handleStreamMessage]
    cases self.streams.get? id with
    | none => exact hone (r := .streamAccepted (lib.peerId p) ⟨id⟩) (Or.inl rfl) fun _ => rfl
    | some state => exact hone (Or.inr rfl) fun _ => rfl
  | rejectStream id reason =>
    simp only [handleStreamMessage]
    cases self.streams.get? id with
    | none =>
      exact hone (r := .streamRejected (lib.peerId p) ⟨id⟩ reason) (Or.inl rfl) fun _ => rfl
    | some state => exact hone (Or.inr rfl) fun _ => rfl
  | streamData id data =>
    simp only [handleStreamMessage]
    cases self.streams.get? id with
    | none => exact hone (r := .streamData (lib.peerId p) ⟨id⟩ data) (Or.inl rfl) fun _ => rfl
    | some state => exact hone (Or.inr rfl) fun _ => rfl
  | closeStream id => exact hone (Or.inr rfl) fun h => h.elim
  | syncContext ctx =>
    simp only [handleStreamMessage, mergeContext]
    split_ifs
    · exact hone (Or.inr rfl) fun h => h.elim
    · exact hone (r := .peerDiscovered ⟨""⟩) (Or.inl rfl) fun h => h.elim

variable (lib env self p msg) in
/-- The same is true of a message as it is read, or if it cannot be. -/
theorem events_of_arrival :
    (eventsOf (self.turn lib env (.swarm (StreamCodec.arrival lib p msg))).2).length ≤ 1 ∧
      ∀ e ∈ eventsOf (self.turn lib env (.swarm (StreamCodec.arrival lib p msg))).2, e.IsReport →
        msg.report lib p = some e := by
  unfold StreamCodec.arrival
  cases hread : StreamCodec.received lib.json.toStreamText msg with
  | none => exact ⟨Nat.zero_le _, fun e he => absurd he List.not_mem_nil⟩
  | some msg' =>
    obtain ⟨hlength, hreport⟩ := events_of_request lib env self p msg'
    refine ⟨hlength, ?_⟩
    intro e he hise
    rcases StreamCodec.received_cases hread with rfl | ⟨-, hctx⟩
    · exact hreport e he hise
    · -- a context is never reported
      have hnone := hreport e he hise
      cases msg' with
      | syncContext ctx => cases hnone
      | _ => cases hctx

/-- The turn handles a command to send these bytes. -/
def sendsData (id : UInt64) (data : Bytes) : Label Peer → Bool
  | .command cmd => decide (cmd = .sendStreamData ⟨id⟩ data)
  | _ => false

variable (lib env self) in
/-- Data is sent by such a command only, and once. -/
theorem countP_sentOf_data (l : Label Peer) (id : UInt64) (data : Bytes) :
    (sentOf (self.turn lib env l).2).countP (fun sent => sent.2 = .streamData id data) ≤
      if sendsData id data l then 1 else 0 := by
  by_cases hl : sendsData id data l = true
  · rw [if_pos hl]
    rcases l with cmd | event | _
    · rw [of_decide_eq_true hl]
      simp only [turn, handleCommand, streamNotFound]
      refine List.countP_le_length.trans ?_
      cases self.streams.get? id with
      | none => exact Nat.zero_le _
      | some state => exact le_rfl
    · cases hl
    · cases hl
  · rw [if_neg hl, Nat.le_zero, List.countP_eq_zero]
    intro sent hsent hdata
    have hdoes : Does lib l (.send sent.1 sent.2) := does_of_mem_turn (mem_sentOf.mp hsent)
    rw [of_decide_eq_true hdata] at hdoes
    cases hdoes with
    | sendStreamData streamId data target => exact hl (decide_eq_true rfl)

end Runtime

/-! ## The accounts -/

namespace StreamNetwork

variable {ι Peer : Type} [DecidableEq ι] [LinearOrder Peer] {lib : External Peer}
  {peer : ι ↪ Peer} {s t : StreamNetwork ι Peer}

/-- The message is for the device `n`, and its report is one of the events `E`. -/
def carries (lib : External Peer) (peer : ι ↪ Peer) (n : ι) (E : AviEvent → Bool)
    (letter : Letter ι Peer) : Bool :=
  decide (letter.target = peer n) && (letter.msg.report lib (peer letter.source)).any E

/-- The calls of handlers that are among `C`. -/
def callsAmong (s : StreamNetwork ι Peer) (n : ι) (C : Callback → Bool) : ℕ :=
  (s.device n).dispatcher.calls.countP fun call => C call.2

/-- **Inversion** of a step: the device that takes it, the step it takes, and the
message that is used up. -/
theorem step_act {l : Label ι Peer} (hstep : (streamNetwork lib peer).step s l = some t) :
    (∃ n l', l = .device n l' ∧ StreamHandlers.bringsMessage l' = false ∧
      s.act lib n l' = some t) ∨
    ∃ n env k letter, l = .deliver n env k ∧ s.flight[k]? = some letter ∧
      letter.target = peer n ∧ act lib { s with flight := s.flight.eraseIdx k } n
        (.turn env (.swarm (StreamCodec.arrival lib (peer letter.source) letter.msg))) =
          some t := by
  cases l with
  | device n l =>
    simp only [streamNetwork, step] at hstep
    split_ifs at hstep with hl
    exact Or.inl ⟨n, l, rfl, Bool.not_eq_true _ ▸ hl, hstep⟩
  | deliver n env k =>
    simp only [streamNetwork, step] at hstep
    cases hletter : s.flight[k]? with
    | some letter =>
      simp only [hletter] at hstep
      split_ifs at hstep with htarget
      exact Or.inr ⟨n, env, k, letter, rfl, hletter, htarget, hstep⟩
    | none =>
      simp only [hletter] at hstep
      cases hstep

/-- Each message has been sent once for each time it is on its way or reported. -/
def Posted (lib : External Peer) (peer : ι ↪ Peer) (n : ι) (E : AviEvent → Bool)
    (s : StreamNetwork ι Peer) : Prop :=
  (s.emitted n).countP E + s.flight.countP (carries lib peer n E) ≤
    s.sent.countP (carries lib peer n E)

/-- Each event has been emitted once for each time it waits or a handler was told. -/
def Told (n : ι) (C : Callback → Bool) (E : AviEvent → Bool) (s : StreamNetwork ι Peer) : Prop :=
  s.callsAmong n C + (s.device n).pending.countP E ≤ (s.emitted n).countP E

section Steps

variable {n m : ι} {C : Callback → Bool} {E : AviEvent → Bool} {l : StreamHandlers.Label Peer}

/-- Events that are no reports, and all that is sent. -/
theorem Posted.act (h : s.Posted lib peer n E) (hact : s.act lib m l = some t)
    (hquiet : (Runtime.eventsOf ((s.device m).effectsOf lib l)).countP E = 0) :
    t.Posted lib peer n E := by
  obtain ⟨d, -, rfl⟩ := Option.map_eq_some_iff.mp hact
  have hemitted : (Function.update s.emitted m
      (s.emitted m ++ Runtime.eventsOf ((s.device m).effectsOf lib l)) n).countP E =
        (s.emitted n).countP E := by
    by_cases hn : n = m
    · rw [hn, Function.update_self, List.countP_append, hquiet, Nat.add_zero]
    · rw [Function.update_of_ne hn]
  unfold Posted at h ⊢
  simp only [List.countP_append, hemitted]
  omega

omit [DecidableEq ι] [LinearOrder Peer] in
/-- What is taken out of a list is counted no more. -/
theorem countP_eraseIdx {xs : List (Letter ι Peer)} {k : ℕ} {letter : Letter ι Peer}
    (h : xs[k]? = some letter) (P : Letter ι Peer → Bool) :
    xs.countP P = (xs.eraseIdx k).countP P + if P letter then 1 else 0 := by
  obtain ⟨hk, rfl⟩ := List.getElem?_eq_some_iff.mp h
  have hperm : (xs[k] :: xs.eraseIdx k).Perm xs := List.getElem_cons_eraseIdx_perm hk
  rw [← hperm.countP_eq, List.countP_cons]

/-- A message that arrives is reported at most once. -/
theorem Posted.deliver (h : s.Posted lib peer n E) (hE : ∀ e, E e = true → e.IsReport)
    {env : Env Peer} {k : ℕ} {letter : Letter ι Peer} (hletter : s.flight[k]? = some letter)
    (htarget : letter.target = peer m)
    (hact : StreamNetwork.act lib { s with flight := s.flight.eraseIdx k } m
      (.turn env (.swarm (StreamCodec.arrival lib (peer letter.source) letter.msg))) = some t) :
    t.Posted lib peer n E := by
  obtain ⟨d, -, rfl⟩ := Option.map_eq_some_iff.mp hact
  have hcount := countP_eraseIdx hletter (carries lib peer n E)
  obtain ⟨hlength, hreport⟩ := Runtime.events_of_arrival lib env (s.device m).rt
    (peer letter.source) letter.msg
  -- the events, and whether the message was counted
  have hemitted : (Function.update s.emitted m (s.emitted m ++
      Runtime.eventsOf ((s.device m).effectsOf lib
        (.turn env (.swarm (StreamCodec.arrival lib (peer letter.source) letter.msg))))) n).countP
          E ≤
      (s.emitted n).countP E + if carries lib peer n E letter then 1 else 0 := by
    by_cases hn : n = m
    · rw [hn, Function.update_self, List.countP_append]
      apply Nat.add_le_add_left
      by_cases hcarries : carries lib peer m E letter = true
      · rw [if_pos hcarries]
        exact List.countP_le_length.trans hlength
      · rw [if_neg hcarries, Nat.le_zero, List.countP_eq_zero]
        intro e he heE
        apply hcarries
        simp only [carries, htarget, decide_true, Bool.true_and, hreport e he (hE e heE),
          Option.any_some, heE]
    · rw [Function.update_of_ne hn]
      exact Nat.le_add_right _ _
  unfold Posted at h ⊢
  simp only [List.countP_append]
  omega

/-- A callback needs an event of its own. -/
theorem Told.act (h : s.Told n C E) (hC : ∀ c e, c.Tells e → C c = true → E e = true)
    (haccepted : ∀ ctx, C (.onAccepted ctx) = false) (hact : s.act lib m l = some t) :
    t.Told n C E := by
  obtain ⟨d, hd, rfl⟩ := Option.map_eq_some_iff.mp hact
  unfold Told callsAmong at h ⊢
  by_cases hn : n = m
  · subst hn
    simp only [Function.update_self, List.countP_append]
    cases StreamHandlers.moves hd with
    | handled e heffects hpending hcalls =>
      -- the event that is handled pays for the call
      rw [hpending, List.countP_cons] at h
      have hnone : (Runtime.eventsOf ((s.device n).effectsOf lib l)).countP E = 0 := by
        rw [heffects]
        rfl
      rcases hcalls with hcalls | ⟨handler, c, hcalls, htells⟩
      · rw [hcalls]
        omega
      · rw [hcalls, List.countP_append, List.countP_singleton]
        cases hc : C c with
        | true =>
          rw [if_pos (hC c e htells hc)] at h
          simp only [if_true]
          omega
        | false =>
          simp only [Bool.false_eq_true, if_false]
          omega
    | other hpending hcalls =>
      -- no call of that kind is made
      have hsame : d.dispatcher.calls.countP (fun call => C call.2) =
          (s.device n).dispatcher.calls.countP fun call => C call.2 := by
        rcases hcalls with hcalls | ⟨handler, ctx, hcalls⟩
        · rw [hcalls]
        · rw [hcalls, List.countP_append, List.countP_singleton, haccepted ctx]
          rfl
      rw [hsame, hpending, List.countP_append]
      omega
  · -- the other devices have not moved
    simp only [Function.update_of_ne hn]
    exact h

/-- The accounts of a step. -/
theorem accounts_step {l : Label ι Peer} (hE : ∀ e, E e = true → e.IsReport)
    (hC : ∀ c e, c.Tells e → C c = true → E e = true)
    (haccepted : ∀ ctx, C (.onAccepted ctx) = false)
    (hstep : (streamNetwork lib peer).step s l = some t)
    (h : s.Posted lib peer n E ∧ s.Told n C E) : t.Posted lib peer n E ∧ t.Told n C E := by
  rcases step_act hstep with ⟨m, l, -, hl, hact⟩ | ⟨m, env, k, letter, -, hletter, htarget, hact⟩
  · -- a step of a device by itself emits no report
    refine ⟨h.1.act hact ?_, h.2.act hC haccepted hact⟩
    rw [List.countP_eq_zero]
    intro e he heE
    -- a report needs a message
    unfold StreamHandlers.effectsOf at he
    cases hturn : (s.device m).turnOf l with
    | none =>
      rw [hturn] at he
      cases he
    | some turn =>
      rw [hturn] at he
      obtain ⟨p, msg, hrequest⟩ := Runtime.request_of_report he (hE e heE)
      cases l with
      | turn env l =>
        cases hturn
        have hlabel : l = .swarm (.request p msg) := hrequest
        rw [hlabel] at hl
        cases hl
      | request env peerId reason =>
        simp only [StreamHandlers.turnOf] at hturn
        split at hturn
        · cases hturn
          cases hrequest
        · cases hturn
      | serve env =>
        obtain ⟨cmd, -, rfl⟩ := Option.map_eq_some_iff.mp hturn
        cases hrequest
      | _ => cases hturn
  · -- a delivery emits one for each message
    have htold : Told n C E { s with flight := s.flight.eraseIdx k } := h.2
    exact ⟨h.1.deliver hE hletter htarget hact, htold.act hC haccepted hact⟩

/-- Along a run the three counts are ordered: calls told of an event, events emitted,
messages sent. -/
theorem accounts_run {ls : List (Label ι Peer)} (hE : ∀ e, E e = true → e.IsReport)
    (hC : ∀ c e, c.Tells e → C c = true → E e = true)
    (haccepted : ∀ ctx, C (.onAccepted ctx) = false) (h₀ : (streamNetwork lib peer).Init s)
    (hrun : (streamNetwork lib peer).run s ls = some t) :
    t.callsAmong n C ≤ (t.emitted n).countP E ∧
      (t.emitted n).countP E ≤ t.sent.countP (carries lib peer n E) := by
  have hinit : s.Posted lib peer n E ∧ s.Told n C E := by
    obtain ⟨⟨now, hdevice⟩, hemitted⟩ := h₀.1 n
    unfold Posted Told callsAmong
    rw [hdevice, hemitted, h₀.2.1, h₀.2.2]
    exact ⟨le_rfl, le_rfl⟩
  have hend := (streamNetwork lib peer).run_invariant
    (fun _ _ _ hstep h => accounts_step hE hC haccepted hstep h) hrun hinit
  unfold Posted Told at hend
  omega

end Steps

/-! ## Data and commands -/

/-- The step is a command of the device `m` to send these bytes. -/
def sends (m : ι) (id : UInt64) (data : Bytes) : Label ι Peer → Bool
  | .device n (.turn _ l) => decide (n = m) && Runtime.sendsData id data l
  | _ => false

/-- Neither the dispatcher nor the event loop sends data by itself. -/
theorem turn_of_sendsData {d : StreamHandlers Peer} {l : StreamHandlers.Label Peer} {env : Env Peer}
    {l' : Runtime.Label Peer} {id : UInt64} {data : Bytes} (hturn : d.turnOf l = some (env, l'))
    (hsends : Runtime.sendsData id data l' = true) : l = .turn env l' := by
  cases l with
  | turn env l =>
    cases hturn
    rfl
  | request env peerId reason =>
    simp only [StreamHandlers.turnOf] at hturn
    split at hturn
    · cases hturn
      cases hsends
    · cases hturn
  | serve env =>
    obtain ⟨cmd, hcmd, heq⟩ := Option.map_eq_some_iff.mp hturn
    cases heq
    have hdata : cmd = .sendStreamData ⟨id⟩ data := of_decide_eq_true hsends
    rw [hdata] at hcmd
    cases htask : d.task with
    | idle => simp [htask, LoopTask.command] at hcmd
    | accepting factory source streamId reason => simp [htask, LoopTask.command] at hcmd
    | installing factory source streamId reason => simp [htask, LoopTask.command] at hcmd
    | refusing streamId reason => simp [htask, LoopTask.command] at hcmd
  | _ => cases hturn

variable (lib) in
/-- The messages with these bytes that a step of `n` sends. -/
theorem countP_letters (d : StreamHandlers Peer) (n m : ι) (l : StreamHandlers.Label Peer)
    (id : UInt64) (data : Bytes) :
    (letters n (d.effectsOf lib l)).countP (fun letter =>
        letter.source = m ∧ letter.msg = .streamData id data) ≤
      if sends m id data (.device n l) then 1 else 0 := by
  by_cases hn : n = m
  · subst hn
    -- only what it sends itself counts
    have hsent : (letters n (d.effectsOf lib l)).countP (fun letter =>
        letter.source = n ∧ letter.msg = .streamData id data) =
        (Runtime.sentOf (d.effectsOf lib l)).countP fun sent =>
          sent.2 = .streamData id data := by
      unfold letters
      rw [List.countP_map]
      apply List.countP_congr
      intro sent _
      simp only [Function.comp_apply, true_and]
    rw [hsent]
    unfold StreamHandlers.effectsOf
    cases hturn : d.turnOf l with
    | none => exact Nat.zero_le _
    | some turn =>
      rcases turn with ⟨env, l'⟩
      refine (Runtime.countP_sentOf_data lib env d.rt l' id data).trans ?_
      by_cases hsends : Runtime.sendsData id data l' = true
      · rw [turn_of_sendsData hturn hsends, if_pos hsends, if_pos]
        simp only [sends, decide_true, Bool.true_and, hsends]
      · rw [if_neg hsends]
        exact Nat.zero_le _
  · -- nothing is sent in the name of `m`
    have hnone : (letters n (d.effectsOf lib l)).countP (fun letter =>
        letter.source = m ∧ letter.msg = .streamData id data) = 0 := by
      rw [List.countP_eq_zero]
      intro letter hletter hm
      obtain ⟨sent, -, rfl⟩ := List.mem_map.mp hletter
      exact hn (of_decide_eq_true hm).1
    rw [hnone]
    exact Nat.zero_le _

/-- A run has sent data as often as the applications have asked for it, at most. -/
theorem sent_run {ls : List (Label ι Peer)} (h₀ : (streamNetwork lib peer).Init s)
    (hrun : (streamNetwork lib peer).run s ls = some t) (m : ι) (id : UInt64) (data : Bytes) :
    t.sent.countP (fun letter => letter.source = m ∧ letter.msg = .streamData id data) ≤
      ls.countP (sends m id data) := by
  -- each step sends data once at most, and only where it was asked to
  have hstep : ∀ (ks : List (Label ι Peer)) (u : StreamNetwork ι Peer) l u',
      (streamNetwork lib peer).step u l = some u' → True →
      u.sent.countP (fun letter => letter.source = m ∧ letter.msg = .streamData id data) ≤
        ks.countP (sends m id data) →
      u'.sent.countP (fun letter => letter.source = m ∧ letter.msg = .streamData id data) ≤
        (ks ++ [l]).countP (sends m id data) := by
    intro ks u l u' hstep _ h
    rw [List.countP_append, List.countP_singleton]
    rcases step_act hstep with ⟨n, l', rfl, -, hact⟩ | ⟨n, env, k, letter, rfl, -, -, hact⟩
    · obtain ⟨d, -, rfl⟩ := Option.map_eq_some_iff.mp hact
      rw [List.countP_append]
      exact Nat.add_le_add h (countP_letters lib (u.device n) n m l' id data)
    · -- an arrival sends none
      obtain ⟨d, -, rfl⟩ := Option.map_eq_some_iff.mp hact
      have hnone := countP_letters lib (u.device n) n m
        (.turn env (.swarm (StreamCodec.arrival lib (peer letter.source) letter.msg))) id data
      have hswarm : sends m id data (.device n (.turn env
          (.swarm (StreamCodec.arrival lib (peer letter.source) letter.msg)))) = false :=
        Bool.and_false _
      rw [hswarm] at hnone
      rw [List.countP_append]
      exact Nat.add_le_add h hnone
  refine (streamNetwork lib peer).run_history hstep hrun ?_
    (Machine.AllSteps.of_mem _ (fun _ _ _ => True.intro) s)
  rw [h₀.2.2]
  exact le_rfl

/-! ## Honest devices -/

/-- The call hands over these bytes for the stream. -/
def givesData (id : UInt64) (data : Bytes) : Callback → Bool
  | .onData ctx bytes => decide (ctx.streamId = ⟨id⟩ ∧ bytes = data)
  | _ => false

/-- The event reports these bytes for the stream. -/
def reportsData (id : UInt64) (data : Bytes) : AviEvent → Bool
  | .streamData _ streamId bytes => decide (streamId = ⟨id⟩ ∧ bytes = data)
  | _ => false

/-- What events and callbacks say has been sent, and no less often. -/
structure Honest (lib : External Peer) (peer : ι ↪ Peer) (ls : List (Label ι Peer))
    (t : StreamNetwork ι Peer) : Prop where
  /-- an event about a message names a device -/
  names : ∀ n, ∀ e ∈ t.emitted n, e.IsReport →
    ∃ m msg, StreamMessage.report lib (peer m) msg = some e
  /-- and that device has sent its message -/
  reports : ∀ n m msg e, StreamMessage.report lib (peer m) msg = some e →
    (t.emitted n).count e ≤ t.sent.count ⟨m, peer n, msg⟩
  /-- a handler is told of a rejection by a device -/
  rejectedNames : ∀ n handler p id reason,
    (handler, .onRejected p ⟨id⟩ reason) ∈ (t.device n).dispatcher.calls →
      ∃ m, p = lib.peerId (peer m)
  /-- and that device has rejected the stream -/
  rejected : ∀ n m id reason, t.callsAmong n (· = .onRejected (lib.peerId (peer m)) ⟨id⟩ reason) ≤
    t.sent.count ⟨m, peer n, .rejectStream id reason⟩
  /-- a handler is given data that has been sent to its device for this id -/
  data : ∀ n id data, t.callsAmong n (givesData id data) ≤
    t.sent.countP fun letter => letter.target = peer n ∧ letter.msg = .streamData id data
  /-- and that an application has told its device to send -/
  commanded : ∀ m id data,
    t.sent.countP (fun letter => letter.source = m ∧ letter.msg = .streamData id data) ≤
      ls.countP (sends m id data)

omit [DecidableEq ι] [LinearOrder Peer] in
theorem isReport_of_report {msg : StreamMessage} {p : Peer} {e : AviEvent}
    (h : msg.report lib p = some e) : e.IsReport := by
  cases msg with
  | closeStream id => cases h
  | syncContext ctx => cases h
  | _ =>
    cases h
    exact True.intro

/-- The message that an event is about, and its sender. -/
def messageOf : AviEvent → Option (PeerId × StreamMessage)
  | .streamRequested source reason streamId => some (source, .requestStream streamId.id reason)
  | .streamAccepted peerId streamId => some (peerId, .acceptStream streamId.id)
  | .streamRejected peerId streamId reason => some (peerId, .rejectStream streamId.id reason)
  | .streamData source streamId data => some (source, .streamData streamId.id data)
  | _ => none

omit [DecidableEq ι] [LinearOrder Peer] in
theorem messageOf_of_report {msg : StreamMessage} {p : Peer} {e : AviEvent}
    (h : msg.report lib p = some e) : messageOf e = some (lib.peerId p, msg) := by
  cases msg with
  | closeStream id => cases h
  | syncContext ctx => cases h
  | _ =>
    cases h
    rfl

/-- The messages for `n` with the same report are the same. -/
theorem carries_iff {n m : ι} {msg : StreamMessage} {e : AviEvent}
    (h : msg.report lib (peer m) = some e) (letter : Letter ι Peer) :
    carries lib peer n (· == e) letter = true ↔ (letter == ⟨m, peer n, msg⟩) = true := by
  rcases letter with ⟨source, target, msg'⟩
  simp only [carries, Bool.and_eq_true, decide_eq_true_eq, Option.any_eq_true, beq_iff_eq,
    exists_eq_right, Letter.mk.injEq]
  constructor
  · rintro ⟨htarget, hreport⟩
    have hpair := messageOf_of_report hreport
    rw [messageOf_of_report h, Option.some.injEq, Prod.mk.injEq] at hpair
    exact ⟨(peer.injective (lib.peerId_injective hpair.1)).symm, htarget, hpair.2.symm⟩
  · rintro ⟨rfl, htarget, rfl⟩
    exact ⟨htarget, h⟩

omit [DecidableEq ι] in
/-- What is counted among the messages for `n` has a sender. -/
theorem exists_sender {n : ι} {e : AviEvent} (h : 0 < t.sent.countP (carries lib peer n (· == e))) :
    ∃ m msg, StreamMessage.report lib (peer m) msg = some e := by
  obtain ⟨letter, -, hletter⟩ := List.countP_pos_iff.mp h
  simp only [carries, Bool.and_eq_true, Option.any_eq_true, beq_iff_eq, exists_eq_right] at hletter
  exact ⟨letter.source, letter.msg, hletter.2⟩

/-- An event about a message names the device that has sent it. -/
theorem names_run {ls : List (Label ι Peer)} (h₀ : (streamNetwork lib peer).Init s)
    (hrun : (streamNetwork lib peer).run s ls = some t) {n : ι} {e : AviEvent}
    (he : e ∈ t.emitted n) (hreport : e.IsReport) :
    ∃ m msg, StreamMessage.report lib (peer m) msg = some e := by
  have hE : ∀ e', (e' == e) = true → e'.IsReport := by
    intro e' heq
    rw [beq_iff_eq.mp heq]
    exact hreport
  have hsent := (accounts_run (n := n) (C := fun _ => false) hE (fun _ _ _ hc => by cases hc)
    (fun _ => rfl) h₀ hrun).2
  have hpos : 0 < (t.emitted n).countP (· == e) :=
    List.countP_pos_iff.mpr ⟨e, he, beq_self_eq_true e⟩
  exact exists_sender (hpos.trans_le hsent)

/-- Only the event that a callback tells of leads to it. -/
theorem rejected_tells {p : PeerId} {id : UInt64} {reason : String} {c : Callback} {e : AviEvent}
    (htells : c.Tells e) (hc : decide (c = .onRejected p ⟨id⟩ reason) = true) :
    e = .streamRejected p ⟨id⟩ reason := by
  have hcall := of_decide_eq_true hc
  cases e with
  | streamRejected peerId streamId reason =>
    have htold : c = .onRejected peerId streamId reason := htells
    rw [hcall] at htold
    cases htold
    rfl
  | streamAccepted peerId streamId =>
    have htold : c = .onAccepted ⟨streamId, peerId⟩ := htells
    rw [hcall] at htold
    cases htold
  | streamData source streamId data =>
    obtain ⟨peerId, htold⟩ := htells
    rw [hcall] at htold
    cases htold
  | streamClosed peerId streamId reason =>
    obtain ⟨stored, htold⟩ := htells
    rw [hcall] at htold
    cases htold
  | _ => exact htells.elim

/-- A rejection that a handler is told of names the device that has sent it. -/
theorem rejectedNames_run {ls : List (Label ι Peer)} (h₀ : (streamNetwork lib peer).Init s)
    (hrun : (streamNetwork lib peer).run s ls = some t) {n : ι} {handler : StreamHandler}
    {p : PeerId} {id : UInt64} {reason : String}
    (hcall : (handler, .onRejected p ⟨id⟩ reason) ∈ (t.device n).dispatcher.calls) :
    ∃ m, p = lib.peerId (peer m) := by
  have hE : ∀ e, (e == AviEvent.streamRejected p ⟨id⟩ reason) = true → e.IsReport := by
    intro e heq
    rw [beq_iff_eq.mp heq]
    exact True.intro
  obtain ⟨hcalls, hsent⟩ := accounts_run (n := n) (C := (· = .onRejected p ⟨id⟩ reason)) hE
    (fun c e htells hc => beq_iff_eq.mpr (rejected_tells htells hc)) (fun _ => rfl) h₀ hrun
  have hpos : 0 < t.callsAmong n (· = .onRejected p ⟨id⟩ reason) :=
    List.countP_pos_iff.mpr ⟨_, hcall, decide_eq_true rfl⟩
  obtain ⟨m, msg, hmsg⟩ := exists_sender (hpos.trans_le (hcalls.trans hsent))
  refine ⟨m, ?_⟩
  cases msg with
  | rejectStream streamId reason' =>
    cases hmsg
    rfl
  | _ => cases hmsg

/-- An event has been emitted, and its message been sent, at least as often as handlers
were told. -/
theorem reports_run {ls : List (Label ι Peer)} (h₀ : (streamNetwork lib peer).Init s)
    (hrun : (streamNetwork lib peer).run s ls = some t) {n m : ι} {C : Callback → Bool}
    {msg : StreamMessage} {e : AviEvent} (he : msg.report lib (peer m) = some e)
    (hC : ∀ c e', c.Tells e' → C c = true → e' = e)
    (haccepted : ∀ ctx, C (.onAccepted ctx) = false) :
    t.callsAmong n C ≤ (t.emitted n).count e ∧
      (t.emitted n).count e ≤ t.sent.count ⟨m, peer n, msg⟩ := by
  have hE : ∀ e', (e' == e) = true → e'.IsReport := by
    intro e' heq
    rw [beq_iff_eq.mp heq]
    exact isReport_of_report he
  obtain ⟨hcalls, hsent⟩ := accounts_run (n := n) hE
    (fun c e' htells hc => beq_iff_eq.mpr (hC c e' htells hc)) haccepted h₀ hrun
  have hsame : t.sent.countP (carries lib peer n (· == e)) = t.sent.count ⟨m, peer n, msg⟩ :=
    List.countP_congr fun letter _ => carries_iff he letter
  rw [hsame] at hsent
  exact ⟨hcalls, hsent⟩

/-- Data reaches a handler at most as often as it was sent to its device. -/
theorem data_run {ls : List (Label ι Peer)} (h₀ : (streamNetwork lib peer).Init s)
    (hrun : (streamNetwork lib peer).run s ls = some t) (n : ι) (id : UInt64) (data : Bytes) :
    t.callsAmong n (givesData id data) ≤
      t.sent.countP fun letter => letter.target = peer n ∧ letter.msg = .streamData id data := by
  -- only `StreamData` reports data
  have hE : ∀ e, reportsData id data e = true → e.IsReport := by
    intro e he
    cases e with
    | streamData source streamId bytes => exact True.intro
    | _ => cases he
  -- and only `on_data` tells of it
  have hC : ∀ c e, Callback.Tells c e → givesData id data c = true →
      reportsData id data e = true := by
    intro c e htells hc
    cases e with
    | streamData source streamId bytes =>
      obtain ⟨peerId, rfl⟩ := htells
      exact hc
    | streamAccepted peerId streamId =>
      have hcall : c = .onAccepted ⟨streamId, peerId⟩ := htells
      rw [hcall] at hc
      cases hc
    | streamRejected peerId streamId reason =>
      have hcall : c = .onRejected peerId streamId reason := htells
      rw [hcall] at hc
      cases hc
    | streamClosed peerId streamId reason =>
      obtain ⟨stored, rfl⟩ := htells
      cases hc
    | _ => exact htells.elim
  obtain ⟨hcalls, hsent⟩ := accounts_run (n := n) hE hC (fun _ => rfl) h₀ hrun
  -- the report is that of a message with this data
  refine (hcalls.trans hsent).trans (List.countP_mono_left ?_)
  intro letter _ hletter
  simp only [carries, Bool.and_eq_true, decide_eq_true_eq, Option.any_eq_true] at hletter
  obtain ⟨htarget, e, hreport, he⟩ := hletter
  cases hmsg : letter.msg with
  | streamData streamId bytes =>
    rw [hmsg] at hreport
    cases hreport
    have heq : (⟨streamId⟩ : StreamId) = ⟨id⟩ ∧ bytes = data := of_decide_eq_true he
    rw [heq.2, StreamId.mk.inj heq.1]
    exact decide_eq_true ⟨htarget, rfl⟩
  | closeStream streamId =>
    rw [hmsg] at hreport
    cases hreport
  | syncContext ctx =>
    rw [hmsg] at hreport
    cases hreport
  | _ =>
    rw [hmsg] at hreport
    cases hreport
    cases he

/-- **Stream events are honest**: in every run of any number of devices, every event
about a message names a device and has a message of its own, sent by that device to the
one where it is emitted, so does every callback, and all data comes from commands of
applications. -/
theorem streams_honest {ls : List (Label ι Peer)} (h₀ : (streamNetwork lib peer).Init s)
    (hrun : (streamNetwork lib peer).run s ls = some t) : t.Honest lib peer ls where
  names _ _ he hreport := names_run h₀ hrun he hreport
  reports n m msg e he :=
    (reports_run h₀ hrun (C := fun _ => false) he (fun _ _ _ hc => by cases hc) fun _ => rfl).2
  rejectedNames _ _ _ _ _ hcall := rejectedNames_run h₀ hrun hcall
  rejected := by
    intro n m id reason
    have hreport : (StreamMessage.rejectStream id reason).report lib (peer m) =
        some (.streamRejected (lib.peerId (peer m)) ⟨id⟩ reason) := rfl
    obtain ⟨hcalls, hsent⟩ := reports_run h₀ hrun (n := n) hreport
      (fun _ _ htells hc => rejected_tells htells hc) fun _ => rfl
    exact hcalls.trans hsent
  data := data_run h₀ hrun
  commanded := sent_run h₀ hrun

/-! ## A stream between two devices -/

/-- The peer ids of two devices. -/
def twoEnds : Bool ↪ String where
  toFun i := cond i "a" "b"
  inj' := by
    intro i j h
    by_contra hne
    rw [Bool.eq_not.mpr hne] at h
    revert h
    cases j <;> decide

/-- The messages of a stream, in whatever order they are sent. -/
def conversation (id : UInt64) (reason : String) (chunks : List (Bool × Bytes)) :
    List StreamMessage :=
  .requestStream id reason :: .acceptStream id :: .closeStream id ::
    chunks.map fun chunk => .streamData id chunk.2

/-- What the two devices can write: a stream, with a byte from `a` and none from `b`. -/
def talkLib : External String :=
  { External.plain with json := .table (conversation 1 "r" [(true, [7]), (false, [])]) }

/-- Both devices have just been started. -/
def twoIdle : StreamNetwork Bool String :=
  ⟨fun i => .new .plain (twoEnds i) 0, [], [], fun _ => []⟩

/-- `a` opens a stream to `b` and sends a byte before it is accepted. -/
def oneStream : List (Label Bool String) :=
  [.device true (.register "r" 0), .device false (.register "r" 1),
    .device true (.request (.calm String) ⟨"b"⟩ "r"), .device true (.store 0),
    .deliver false (.calm String) 0, .device false .handle, .device false (.serve (.calm String)),
    .device true (.turn (.calm String) (.command (.sendStreamData ⟨1⟩ [7]))),
    .device false .install, .deliver false (.calm String) 1, .device false .handle]

theorem streams_honest_two :
    ∃ t, (streamNetwork talkLib twoEnds).run twoIdle oneStream = some t ∧
      t.callsAmong false (givesData 1 [7]) = 1 ∧ t.Honest talkLib twoEnds oneStream := by
  have hrun : ((streamNetwork talkLib twoEnds).run twoIdle oneStream).map
      (fun t => t.callsAmong false (givesData 1 [7])) = some 1 := by
    decide +kernel
  obtain ⟨t, ht, hcalls⟩ := Option.map_eq_some_iff.mp hrun
  exact ⟨t, ht, hcalls, streams_honest ⟨fun _ => ⟨⟨0, rfl⟩, rfl⟩, rfl, rfl⟩ ht⟩

end StreamNetwork

end AviNet
