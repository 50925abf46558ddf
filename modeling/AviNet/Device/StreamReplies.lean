import AviNet.Device.StreamHandlers

/-!
# Device.StreamReplies — the replies to a call of `request_stream`

The stream of a call is open before its handler is stored, so the event loop may
handle a reply that finds no handler. Here a device is followed together with
one of its calls, from the answer of the runtime on.

* `delivered_iff`: an event reaches the handler that is stored under its id;
* `replies_iff`: every reply reaches the handler of the call, and none is left
  behind after the stream has ended, exactly if the event loop handles the
  replies while that handler is stored and nobody stores one after the end;
* `reply_lost`: the peer accepts before the handler is stored.
-/

namespace AviNet

open StreamDispatcher

/-! ## Replies -/

/-- The stream that an event is a reply about. -/
def replyTo : AviEvent → Option UInt64
  | .streamAccepted _ id | .streamRejected _ id _ | .streamData _ id _ | .streamClosed _ id _ =>
    some id.id
  | _ => none

/-- The callback passes the event on. -/
def Callback.Answers : Callback → AviEvent → Prop
  | .onAccepted ctx, .streamAccepted peerId id => ctx = ⟨id, peerId⟩
  | .onRejected p i r, .streamRejected peerId id reason => p = peerId ∧ i = id ∧ r = reason
  | .onData ctx d, .streamData _ id data => ctx.streamId = id ∧ d = data
  | .onClosed _ i r, .streamClosed _ id reason => i = id ∧ r = reason
  | _, _ => False

/-- Handling the event makes one callback, on the handler `n`, with this event. -/
def StreamDispatcher.Delivers (d : StreamDispatcher) (e : AviEvent) (n : ℕ) : Prop :=
  ∃ handler c, (d.handleEvent e).1.calls = d.calls ++ [(handler, c)] ∧ handler.serial = n ∧
    c.Answers e

namespace StreamDispatcher

variable {d : StreamDispatcher} {n : ℕ}

/-- Without a callback nothing is delivered. -/
theorem not_delivers_of_calls_eq {e : AviEvent} (h : (d.handleEvent e).1.calls = d.calls) :
    ¬ d.Delivers e n := by
  rintro ⟨handler, c, hcalls, -⟩
  have hlength := congrArg List.length (h.symm.trans hcalls)
  rw [List.length_append, List.length_singleton] at hlength
  omega

/-- The one callback decides who has been called. -/
theorem delivers_iff_of_calls {e : AviEvent} {entry : ActiveHandler} {c : Callback}
    (h : (d.handleEvent e).1.calls = d.calls ++ [(entry.handler, c)]) (hc : c.Answers e) :
    d.Delivers e n ↔ entry.handler.serial = n := by
  constructor
  · rintro ⟨handler, c', hcalls, hserial, -⟩
    have hlast := List.append_cancel_left (h.symm.trans hcalls)
    cases hlast
    exact hserial
  · intro hserial
    exact ⟨entry.handler, c, h, hserial, hc⟩

/-- A reply reaches the handler that is stored under its id. -/
theorem delivers_iff {e : AviEvent} {id : UInt64} (he : replyTo e = some id) :
    d.Delivers e n ↔ d.holder id = some n := by
  unfold holder
  cases hget : d.activeHandlers.get? id with
  | none =>
    -- without an entry nobody is called
    refine iff_of_false (not_delivers_of_calls_eq ?_) (fun h => by cases h)
    cases e with
    | streamAccepted peerId streamId =>
      cases he
      simp only [handleEvent, handleStreamAccepted, hget]
    | streamRejected peerId streamId reason =>
      cases he
      simp only [handleEvent, handleStreamRejected, finish, hget]
    | streamData source streamId data =>
      cases he
      simp only [handleEvent, handleStreamData, hget]
    | streamClosed peerId streamId reason =>
      cases he
      simp only [handleEvent, handleStreamClosed, finish, hget]
    | _ => cases he
  | some entry =>
    -- with one its handler is, and nobody else
    have hserial : entry.handler.serial = n ↔
        Option.map (fun entry => entry.handler.serial) (some entry) = some n := by
      rw [Option.map_some, Option.some.injEq]
    rw [← hserial]
    cases e with
    | streamAccepted peerId streamId =>
      cases he
      refine delivers_iff_of_calls (c := .onAccepted ⟨streamId, peerId⟩) ?_ rfl
      simp only [handleEvent, handleStreamAccepted, hget]
      rfl
    | streamRejected peerId streamId reason =>
      cases he
      refine delivers_iff_of_calls (c := .onRejected peerId streamId reason) ?_ ⟨rfl, rfl, rfl⟩
      simp only [handleEvent, handleStreamRejected, finish, hget]
      rfl
    | streamData source streamId data =>
      cases he
      refine delivers_iff_of_calls (c := .onData ⟨streamId, entry.peerId⟩ data) ?_ ⟨rfl, rfl⟩
      simp only [handleEvent, handleStreamData, hget]
      rfl
    | streamClosed peerId streamId reason =>
      cases he
      refine delivers_iff_of_calls (c := .onClosed entry.peerId streamId reason) ?_ ⟨rfl, rfl⟩
      simp only [handleEvent, handleStreamClosed, finish, hget]
      rfl
    | _ => cases he

end StreamDispatcher

/-- A device and one of its calls of `request_stream`, from the answer of the runtime on. -/
structure StreamReplies (Peer : Type) [LinearOrder Peer] where
  device : StreamHandlers Peer
  call : Requested
  /-- the handler that the call has made and stored -/
  handler : Option ℕ
  /-- another handler has been stored over it -/
  replaced : Bool
  /-- the end of the stream has been handled -/
  ended : Bool

namespace StreamReplies

variable {Peer : Type} [LinearOrder Peer]

/-! ## Model layer -/

/-- The id that the call returns. -/
def id (w : StreamReplies Peer) : UInt64 := w.call.streamId.id

/-- The event that a step handles. -/
def handled (s : StreamHandlers Peer) : StreamHandlers.Label Peer → Option AviEvent
  | .handle => s.pending.head?
  | _ => none

/-- The id under which a step stores a handler. -/
def storesAt (s : StreamHandlers Peer) : StreamHandlers.Label Peer → Option UInt64
  | .store n => (s.requested[n]?).map fun r => r.streamId.id
  | .install =>
    match s.task with
    | .installing _ _ streamId _ => some streamId.id
    | _ => none
  | _ => none

/-- The step is the rest of the call. -/
def resumes (w : StreamReplies Peer) : StreamHandlers.Label Peer → Bool
  | .store n => w.handler.isNone && decide (w.device.requested[n]? = some w.call)
  | _ => false

def step (lib : External Peer) (w : StreamReplies Peer) (l : StreamHandlers.Label Peer) :
    Option (StreamReplies Peer) :=
  (StreamHandlers.step lib w.device l).map fun device => {
    device := device
    call := w.call
    handler := if w.resumes l then some w.device.dispatcher.created else w.handler
    replaced := w.replaced || (w.handler.isSome && decide (storesAt w.device l = some w.id))
    ended := w.ended || decide ((handled w.device l).bind endedStream = some w.id) }

end StreamReplies

/-- The machine of a device from the answer to a call on: any device that a run has
led to, and any call that its runtime has just granted. -/
def streamReplies {Peer : Type} [LinearOrder Peer] (lib : External Peer) :
    Machine (StreamReplies Peer) (StreamHandlers.Label Peer) where
  Init w := ∃ s env peerId reason t call, (streamHandlers lib).Reachable s ∧
    (streamHandlers lib).step s (.request env peerId reason) = some t ∧
    t.requested = s.requested ++ [call] ∧ w = ⟨t, call, none, false, false⟩
  step := StreamReplies.step lib

namespace StreamReplies

variable {Peer : Type} [LinearOrder Peer]

/-- A reply that is handled reaches the handler of the call. -/
def Answered (w : StreamReplies Peer) (l : StreamHandlers.Label Peer) : Prop :=
  ∀ e, handled w.device l = some e → replyTo e = some w.id →
    ∃ n, w.handler = some n ∧ w.device.dispatcher.Delivers e n

/-- No handler stays behind. -/
def Cleared (w : StreamReplies Peer) : Prop :=
  w.ended = true → w.device.dispatcher.holder w.id = none

/-- The call has stored its handler, no other has been stored over it, and the
stream has not ended. -/
def Ready (w : StreamReplies Peer) : Prop :=
  w.handler.isSome = true ∧ w.replaced = false ∧ w.ended = false

/-- Replies are handled while the handler is ready, and none is stored after the end. -/
def OnTime (w : StreamReplies Peer) (l : StreamHandlers.Label Peer) : Prop :=
  (∀ e, handled w.device l = some e → replyTo e = some w.id → w.Ready) ∧
    (storesAt w.device l = some w.id → w.ended = false)

/-! ## Steps -/

/-- Where the handler of the call is. -/
structure Placed (w : StreamReplies Peer) : Prop where
  wf : w.device.dispatcher.Wf
  fresh : w.handler = none → w.replaced = false
  created : ∀ n, w.handler = some n → n < w.device.dispatcher.created
  ready : ∀ n, w.handler = some n → w.replaced = false → w.ended = false →
    w.device.dispatcher.holder w.id = some n
  gone : ∀ n, w.handler = some n → w.replaced = true ∨ w.ended = true →
    w.device.dispatcher.holder w.id ≠ some n

section Steps

variable {lib : External Peer} {s t : StreamHandlers Peer} {l : StreamHandlers.Label Peer}

/-- A step handles an event, stores a handler, or leaves the handlers where they are. -/
theorem device_step (h : (streamHandlers lib).step s l = some t) :
    (∃ e, handled s l = some e ∧ storesAt s l = none ∧
      t.dispatcher = (s.dispatcher.handleEvent e).1) ∨
    (∃ id, storesAt s l = some id ∧ handled s l = none ∧ Gained s.dispatcher t.dispatcher id) ∨
    (handled s l = none ∧ storesAt s l = none ∧ Same s.dispatcher t.dispatcher) := by
  cases l with
  | register reason factory =>
    simp only [streamHandlers, StreamHandlers.step] at h
    split at h
    · cases h
      exact Or.inr (Or.inr ⟨rfl, rfl, rfl, fun _ => rfl, fun _ => rfl⟩)
    · cases h
  | request env peerId reason =>
    simp only [streamHandlers, StreamHandlers.step] at h
    split at h
    · obtain ⟨reply, -, rfl⟩ := Option.map_eq_some_iff.mp h
      refine Or.inr (Or.inr ⟨rfl, rfl, ?_⟩)
      split
      · exact .refl _
      · exact .refl _
    · cases h
      exact Or.inr (Or.inr ⟨rfl, rfl, .refl _⟩)
  | store n =>
    -- the end of a call of `request_stream`
    obtain ⟨r, hr, rfl⟩ := Option.map_eq_some_iff.mp h
    refine Or.inr (Or.inl ⟨r.streamId.id, ?_, rfl, gained_store _ _ _ _⟩)
    simp only [storesAt, hr, Option.map_some]
  | handle =>
    simp only [streamHandlers, StreamHandlers.step] at h
    split at h
    · next e pending htask hpending =>
      cases h
      refine Or.inl ⟨e, ?_, rfl, rfl⟩
      simp only [handled, hpending, List.head?_cons]
    · cases h
  | serve env =>
    simp only [streamHandlers, StreamHandlers.step] at h
    split at h
    · obtain ⟨reply, -, rfl⟩ := Option.map_eq_some_iff.mp h
      exact Or.inr (Or.inr ⟨rfl, rfl, .refl _⟩)
    · cases h
  | install =>
    simp only [streamHandlers, StreamHandlers.step] at h
    split at h
    · next factory source streamId reason htask =>
      -- the handler of an incoming stream
      cases h
      refine Or.inr (Or.inl ⟨streamId.id, ?_, rfl, gained_install _ _ _ _⟩)
      simp only [storesAt, htask]
    · cases h
  | turn env l =>
    cases h
    exact Or.inr (Or.inr ⟨rfl, rfl, .refl _⟩)

/-- The rest of the call stores a handler under its id. -/
theorem storesAt_of_resumes {w : StreamReplies Peer} (h : w.resumes l = true) :
    w.handler = none ∧ storesAt w.device l = some w.id := by
  cases l with
  | store n =>
    simp only [resumes, Bool.and_eq_true, Option.isNone_iff_eq_none, decide_eq_true_eq] at h
    refine ⟨h.1, ?_⟩
    simp only [storesAt, h.2, Option.map_some]
    rfl
  | _ => cases h

variable {w : StreamReplies Peer}

/-- The handler of the call is the one under its id exactly while it is ready. -/
theorem ready_iff (h : w.Placed) :
    (∃ n, w.handler = some n ∧ w.device.dispatcher.holder w.id = some n) ↔ w.Ready := by
  constructor
  · rintro ⟨n, hn, hholder⟩
    refine ⟨Option.isSome_iff_exists.mpr ⟨n, hn⟩, ?_, ?_⟩
    · by_contra hreplaced
      exact h.gone n hn (Or.inl (Bool.not_eq_false _ ▸ hreplaced)) hholder
    · by_contra hended
      exact h.gone n hn (Or.inr (Bool.not_eq_false _ ▸ hended)) hholder
  · rintro ⟨hsome, hreplaced, hended⟩
    obtain ⟨n, hn⟩ := Option.isSome_iff_exists.mp hsome
    exact ⟨n, hn, h.ready n hn hreplaced hended⟩

/-- An event. -/
theorem event_step {e : AviEvent} (h : w.Placed) (hcleared : w.Cleared) {u : StreamReplies Peer}
    (hdispatcher : u.device.dispatcher = (w.device.dispatcher.handleEvent e).1)
    (hid : u.id = w.id) (hhandler : u.handler = w.handler) (hreplaced : u.replaced = w.replaced)
    (hended : u.ended = (w.ended || decide (endedStream e = some w.id))) :
    u.Placed ∧ u.Cleared := by
  have hholder : u.device.dispatcher.holder u.id =
      if endedStream e = some w.id then none else w.device.dispatcher.holder w.id := by
    rw [hdispatcher, hid, holder_handleEvent]
  have hsplit : u.ended = true ↔ w.ended = true ∨ endedStream e = some w.id := by
    rw [hended, Bool.or_eq_true, decide_eq_true_eq]
  refine ⟨⟨?_, ?_, ?_, ?_, ?_⟩, ?_⟩
  · rw [hdispatcher]
    exact handleEvent_wf e h.wf
  · rw [hhandler, hreplaced]
    exact h.fresh
  · rw [hhandler, hdispatcher, created_handleEvent]
    exact h.created
  · -- ready: the stream has not ended before, nor with this event
    intro n hn hnot hopen
    rw [hhandler] at hn
    rw [hreplaced] at hnot
    have hgoes : ¬ (w.ended = true ∨ endedStream e = some w.id) := by
      rw [← hsplit, hopen]
      exact Bool.false_ne_true
    rw [hholder, if_neg fun he => hgoes (Or.inr he)]
    exact h.ready n hn hnot (Bool.eq_false_iff.mpr fun he => hgoes (Or.inl he))
  · -- gone: what had gone before does not come back
    intro n hn hgone
    rw [hhandler] at hn
    rw [hreplaced, hsplit] at hgone
    rw [hholder]
    split_ifs with hends
    · exact (Option.some_ne_none n).symm
    · apply h.gone n hn
      rcases hgone with hgone | hgone | hgone
      · exact Or.inl hgone
      · exact Or.inr hgone
      · exact absurd hgone hends
  · intro hgone
    rw [hholder]
    split_ifs with hends
    · rfl
    · rcases hsplit.mp hgone with hgone | hgone
      · exact hcleared hgone
      · exact absurd hgone hends

/-- The rest of the call stores its handler. -/
theorem resume_step {u : StreamReplies Peer} (h : w.Placed) (hnone : w.handler = none)
    (hgained : Gained w.device.dispatcher u.device.dispatcher w.id) (hid : u.id = w.id)
    (hhandler : u.handler = some w.device.dispatcher.created) (hreplaced : u.replaced = w.replaced)
    (hended : u.ended = w.ended) (hopen : w.ended = false) : u.Placed := by
  have hholder : u.device.dispatcher.holder u.id = some w.device.dispatcher.created := by
    rw [hid, hgained.holder, if_pos rfl]
  refine ⟨hgained.wf h.wf, ?_, ?_, ?_, ?_⟩
  · intro hn
    rw [hhandler] at hn
    cases hn
  · intro n hn
    rw [hhandler] at hn
    cases hn
    rw [hgained.created]
    exact Nat.lt_succ_self _
  · intro n hn _ _
    rw [hholder, ← hhandler, hn]
  · intro n hn hgone
    rw [hreplaced, hended, h.fresh hnone, hopen] at hgone
    rcases hgone with hgone | hgone
    · cases hgone
    · cases hgone

/-- Another handler is stored, under this id or another one. -/
theorem store_step {u : StreamReplies Peer} (h : w.Placed) {id : UInt64}
    (hgained : Gained w.device.dispatcher u.device.dispatcher id) (hid : u.id = w.id)
    (hhandler : u.handler = w.handler)
    (hreplaced : u.replaced = (w.replaced || (w.handler.isSome && decide (id = w.id))))
    (hended : u.ended = w.ended) : u.Placed := by
  have hholder := hgained.holder w.id
  -- the handler is replaced exactly if another one gets its stream
  have hsplit : ∀ {n}, w.handler = some n →
      (u.replaced = true ↔ w.replaced = true ∨ id = w.id) := by
    intro n hn
    rw [hreplaced, hn, Option.isSome_some, Bool.true_and, Bool.or_eq_true, decide_eq_true_eq]
  refine ⟨hgained.wf h.wf, ?_, ?_, ?_, ?_⟩
  · -- no handler yet
    intro hn
    rw [hhandler] at hn
    rw [hreplaced, h.fresh hn, hn]
    rfl
  · -- the handlers are numbered as they are created
    intro n hn
    rw [hhandler] at hn
    have hlt := h.created n hn
    rw [hgained.created]
    omega
  · -- the handler still holds the stream
    intro n hn hnot hopen
    rw [hhandler] at hn
    have hkeeps : ¬ (w.replaced = true ∨ id = w.id) := by
      rw [← hsplit hn, hnot]
      exact Bool.false_ne_true
    rw [hid, hholder, if_neg fun hother => hkeeps (Or.inr hother.symm)]
    exact h.ready n hn (Bool.eq_false_iff.mpr fun hr => hkeeps (Or.inl hr)) (hended ▸ hopen)
  · -- a handler that is gone does not come back
    intro n hn hgone
    rw [hhandler] at hn
    rw [hsplit hn, hended] at hgone
    rw [hid, hholder]
    split_ifs with hsame
    · -- the new handler is a later one
      intro hnew
      have hlt := h.created n hn
      have heq := Option.some.inj hnew
      omega
    · apply h.gone n hn
      rcases hgone with (hgone | hgone) | hgone
      · exact Or.inl hgone
      · exact absurd hgone.symm hsame
      · exact Or.inr hgone

/-- The handlers stay where they are. -/
theorem quiet_step {u : StreamReplies Peer} (h : w.Placed)
    (hsame : Same w.device.dispatcher u.device.dispatcher) (hid : u.id = w.id)
    (hhandler : u.handler = w.handler) (hreplaced : u.replaced = w.replaced)
    (hended : u.ended = w.ended) : u.Placed := by
  refine ⟨hsame.wf h.wf, ?_, ?_, ?_, ?_⟩
  · rw [hhandler, hreplaced]
    exact h.fresh
  · rw [hhandler, hsame.created]
    exact h.created
  · rw [hhandler, hreplaced, hended, hid, hsame.holder]
    exact h.ready
  · rw [hhandler, hreplaced, hended, hid, hsame.holder]
    exact h.gone

/-- A handler that is stored stays behind exactly if it is one for a stream that has ended. -/
theorem cleared_store_iff (hcleared : w.Cleared) {id : UInt64} {n : ℕ} {holder : Option ℕ}
    (hholder : holder = if w.id = id then some n else w.device.dispatcher.holder w.id) :
    (w.ended = true → holder = none) ↔ (id = w.id → w.ended = false) := by
  rw [hholder]
  split_ifs with hid
  · constructor
    · intro hnone _
      by_contra hended
      cases hnone (Bool.not_eq_false _ ▸ hended)
    · intro hopen hended
      rw [hopen hid.symm] at hended
      cases hended
  · exact iff_of_true hcleared fun h => absurd h.symm hid

/-- What a step of the machine does, in the three cases. -/
theorem step_spec (w : StreamReplies Peer) (l : StreamHandlers.Label Peer)
    (u : StreamReplies Peer) (hstep : (streamReplies lib).step w l = some u) (h : w.Placed)
    (hcleared : w.Cleared) : (w.OnTime l → u.Placed) ∧ (w.Answered l ∧ u.Cleared ↔ w.OnTime l) := by
  obtain ⟨device, hdevice, rfl⟩ := Option.map_eq_some_iff.mp hstep
  have hquiet : storesAt w.device l = none → w.resumes l = false := by
    intro hnone
    by_contra hresumes
    have hstores := (storesAt_of_resumes (Bool.not_eq_false _ ▸ hresumes)).2
    rw [hnone] at hstores
    cases hstores
  rcases device_step hdevice with
    ⟨e, hhandled, hstores, hdispatcher⟩ | ⟨id, hstores, hhandled, hgained⟩ |
      ⟨hhandled, hstores, hsame⟩
  · -- an event is handled
    have hnot := hquiet hstores
    obtain ⟨hplaced, hclear⟩ := event_step h hcleared (e := e)
      (u := ⟨device, w.call, w.handler, w.replaced,
        w.ended || decide (endedStream e = some w.id)⟩) hdispatcher rfl rfl rfl rfl
    simp only [hnot, hstores, hhandled, Option.bind_some, reduceCtorEq, decide_false,
      Bool.and_false, Bool.or_false, Bool.false_eq_true, if_false]
    refine ⟨fun _ => hplaced, ?_⟩
    unfold Answered OnTime
    simp only [hhandled, hstores, Option.some.injEq, forall_eq', reduceCtorEq, false_imp_iff,
      and_true]
    rw [and_iff_left hclear]
    constructor
    · intro hanswer he
      obtain ⟨n, hn, hdelivers⟩ := hanswer he
      exact (ready_iff h).mp ⟨n, hn, (delivers_iff he).mp hdelivers⟩
    · intro hready he
      obtain ⟨n, hn, hholder⟩ := (ready_iff h).mpr (hready he)
      exact ⟨n, hn, (delivers_iff he).mpr hholder⟩
  · -- a handler is stored
    simp only [hstores, hhandled, Option.bind_none, reduceCtorEq, decide_false, Bool.or_false,
      Option.some.injEq]
    constructor
    · rintro ⟨-, hopen⟩
      by_cases hresumes : w.resumes l = true
      · obtain ⟨hnone, hown⟩ := storesAt_of_resumes hresumes
        have hid : id = w.id := Option.some.inj (hstores.symm.trans hown)
        subst hid
        refine resume_step h hnone hgained rfl (if_pos hresumes) ?_ rfl (hopen hstores)
        simp only [hnone, Option.isSome_none, Bool.false_and, Bool.or_false]
      · exact store_step h hgained rfl (if_neg hresumes) rfl rfl
    · have hanswered : w.Answered l := by
        intro e he
        rw [hhandled] at he
        cases he
      have hontime : w.OnTime l ↔ (id = w.id → w.ended = false) := by
        unfold OnTime
        simp only [hhandled, hstores, reduceCtorEq, false_imp_iff, implies_true, true_and,
          Option.some.injEq]
      rw [and_iff_right hanswered, hontime]
      exact cleared_store_iff hcleared (hgained.holder w.id)
  · -- neither
    have hnot := hquiet hstores
    simp only [hnot, hstores, hhandled, Option.bind_none, reduceCtorEq, decide_false,
      Bool.and_false, Bool.or_false, Bool.false_eq_true, if_false]
    refine ⟨fun _ => quiet_step h hsame rfl rfl rfl rfl, iff_of_true ⟨?_, ?_⟩ ⟨?_, ?_⟩⟩
    · intro e he
      rw [hhandled] at he
      cases he
    · intro hended
      exact (hsame.holder w.id).trans (hcleared hended)
    · intro e he
      rw [hhandled] at he
      cases he
    · intro hid
      rw [hstores] at hid
      cases hid

end Steps

/-! ## Runs -/

/-- The call that has just been answered has stored nothing yet. -/
theorem init_placed {lib : External Peer} {w : StreamReplies Peer}
    (h₀ : (streamReplies lib).Init w) : w.Placed ∧ w.Cleared := by
  obtain ⟨s, env, peerId, reason, t, call, ⟨s₀, ls, hs₀, hrun⟩, hstep, -, rfl⟩ := h₀
  have hwf : s.dispatcher.Wf := by
    apply (streamHandlers lib).run_invariant StreamHandlers.step_wf hrun
    obtain ⟨localPeerId, now, rfl⟩ := hs₀
    exact wf_new
  refine ⟨⟨StreamHandlers.step_wf s _ t hstep hwf, fun _ => rfl, ?_, ?_, ?_⟩, ?_⟩
  · intro n hn
    cases hn
  · intro n hn
    cases hn
  · intro n hn
    cases hn
  · intro hended
    cases hended

/-- **Replies to a call**: from the answer to any call of `request_stream` on, in any
order of the rest of the call, the event loop, other calls and the network, every
reply about its stream that is handled reaches the handler of the call, and no
handler stays under the id once the end of the stream has been handled, if and
only if the event loop handles each reply when the call has stored its handler,
no other has been stored over it and the stream has not ended, and no handler is
stored under the id after the end. -/
theorem replies_iff (lib : External Peer) (w u : StreamReplies Peer)
    (h₀ : (streamReplies lib).Init w) (ls : List (StreamHandlers.Label Peer))
    (hrun : (streamReplies lib).run w ls = some u) :
    (streamReplies lib).AllSteps Answered w ls ∧ (streamReplies lib).AllStates Cleared w ls ↔
      (streamReplies lib).AllSteps OnTime w ls := by
  obtain ⟨hplaced, hcleared⟩ := init_placed h₀
  have hall : (streamReplies lib).AllSteps (fun _ _ => True) w ls :=
    Machine.AllSteps.of_mem _ (fun _ _ _ => True.intro) w
  exact (streamReplies lib).allSteps_and_allStates_iff
    (fun w l u hs _ h hcleared => (step_spec w l u hs h hcleared).1)
    (fun w l u hs _ h hcleared => (step_spec w l u hs h hcleared).2) hrun hall hplaced hcleared

/-! ## A peer that accepts at once -/

/-- The application opens a stream for the reason it has registered. -/
def opensChat : StreamHandlers.Label String := .request (.calm String) ⟨"peer"⟩ "chat"

/-- The call is answered. -/
def chat : Requested := ⟨0, ⟨"peer"⟩, ⟨1⟩, "chat", 1⟩

def answered : Option (StreamReplies String) :=
  ((streamHandlers External.plain).run StreamHandlers.booted [.register "chat" 0]).bind fun s =>
    ((streamHandlers External.plain).step s opensChat).map fun t => ⟨t, chat, none, false, false⟩

theorem answered_init {w : StreamReplies String} (h : answered = some w) :
    (streamReplies External.plain).Init w := by
  obtain ⟨s, hs, h⟩ := Option.bind_eq_some_iff.mp h
  obtain ⟨t, ht, rfl⟩ := Option.map_eq_some_iff.mp h
  have hview : ((streamHandlers External.plain).run StreamHandlers.booted
      [.register "chat" 0]).bind (fun s => ((streamHandlers External.plain).step s opensChat).map
        fun t => (s.requested, t.requested)) = some ([], [chat]) := by
    decide +kernel
  rw [hs, Option.bind_some, ht, Option.map_some] at hview
  obtain ⟨hbefore, hafter⟩ := Prod.mk.inj (Option.some.inj hview)
  refine ⟨s, .calm String, ⟨"peer"⟩, "chat", t, chat, ⟨_, _, StreamHandlers.booted_init, hs⟩, ht,
    ?_, rfl⟩
  rw [hbefore, hafter]
  rfl

/-- The peer accepts. -/
def peerAccepts : StreamHandlers.Label String :=
  .turn (.calm String) (.swarm (.request "peer" (.acceptStream 1)))

/-- The event loop handles the reply. -/
def accepts : List (StreamHandlers.Label String) := [peerAccepts, .handle]

/-- The call stores its handler first. -/
theorem replies_iff_accepts : ∃ w, answered = some w ∧
    ((streamReplies External.plain).AllSteps Answered w (.store 0 :: accepts) ∧
      (streamReplies External.plain).AllStates Cleared w (.store 0 :: accepts) ↔
        (streamReplies External.plain).AllSteps OnTime w (.store 0 :: accepts)) := by
  have hrun : (answered.bind fun w =>
      (streamReplies External.plain).run w (.store 0 :: accepts)).isSome = true := by
    decide +kernel
  obtain ⟨u, hu⟩ := Option.isSome_iff_exists.mp hrun
  obtain ⟨w, hw, hrun⟩ := Option.bind_eq_some_iff.mp hu
  exact ⟨w, hw, replies_iff _ w u (answered_init hw) _ hrun⟩

/-- The reply is handled before the handler is stored. -/
theorem reply_lost : ¬ ∀ (w u : StreamReplies String) ls, (streamReplies External.plain).Init w →
    (streamReplies External.plain).run w ls = some u →
      (streamReplies External.plain).AllSteps Answered w ls ∧
        (streamReplies External.plain).AllStates Cleared w ls := by
  intro h
  have hview : (answered.bind fun w => ((streamReplies External.plain).run w accepts).bind fun _ =>
      ((streamReplies External.plain).step w peerAccepts).map fun u =>
        (u.handler, u.id, u.device.pending.head?)) =
          some (none, 1, some (.streamAccepted ⟨"peer"⟩ ⟨1⟩)) := by
    decide +kernel
  obtain ⟨w, hw, hview⟩ := Option.bind_eq_some_iff.mp hview
  obtain ⟨u, hrun, hview⟩ := Option.bind_eq_some_iff.mp hview
  obtain ⟨v, hstep, hview⟩ := Option.map_eq_some_iff.mp hview
  simp only [Prod.mk.injEq] at hview
  obtain ⟨hhandler, hid, hpending⟩ := hview
  obtain ⟨hsteps, -⟩ := h w u accepts (answered_init hw) hrun
  -- the second step handles the reply
  have hanswered : v.Answered .handle := (hsteps.2 v hstep).1
  obtain ⟨n, hn, -⟩ := hanswered _ hpending (congrArg some hid.symm)
  rw [hhandler] at hn
  cases hn

end StreamReplies

end AviNet
