import AviNet.Embedded.Instances
import AviNet.Embedded.Packets

/-!
# Embedded.Borrows — the C API called from its own callbacks

`avi_embedded_poll` holds the exclusive borrow of `AviWrapper.avi` while it runs
commands and receives, and so does every callback on the way. The calls that put
a command into the queue do without a borrow; `avi_embedded_is_connected` takes
a shared one.

* `no_panic_iff`: every borrow succeeds exactly if no callback polls or asks for
  the connection;
* `panic_in_callback`: a receive callback that asks for the connection.
-/

namespace AviNet.Embedded

/-- How a `RefCell` is borrowed. -/
inductive BorrowState where
  | unused
  /-- shared, by one more than `others` -/
  | reading (others : ℕ)
  | writing
  deriving DecidableEq

namespace BorrowState

/-- `RefCell::borrow`, `none` for a panic. -/
def borrow : BorrowState → Option BorrowState
  | .unused => some (.reading 0)
  | .reading others => some (.reading (others + 1))
  | .writing => none

/-- `RefCell::borrow_mut`, `none` for a panic. -/
def borrowMut : BorrowState → Option BorrowState
  | .unused => some .writing
  | _ => none

/-- One borrow ends. -/
def release : BorrowState → BorrowState
  | .reading (others + 1) => .reading others
  | _ => .unused

/-- A borrow that has been released leaves the cell as it was. -/
theorem release_borrow {b c : BorrowState} (h : b.borrow = some c) : c.release = b := by
  cases b with
  | unused =>
    cases h
    rfl
  | reading others =>
    cases h
    rfl
  | writing => cases h

end BorrowState

/-- What the thread is doing. -/
inductive Activity where
  /-- code of the application, outside any poll -/
  | application
  /-- the loop of `avi_embedded_poll` -/
  | loop
  /-- the send callback, for the packet of a command -/
  | sending (cmd : AviCommand)
  /-- the receive callback, called by `connect` -/
  | awaiting
  /-- the receive callback, called by `poll` -/
  | receiving
  /-- the message callback -/
  | handling (topic : String) (data : Bytes)
  deriving DecidableEq

/-- `AviWrapper` with the command queue, on one thread. -/
structure Reentrant where
  avi : BorrowState
  deviceId : UInt64
  scratchLen : ℕ
  isConnected : Bool
  queue : List AviCommand
  activity : Activity
  /-- a borrow has failed -/
  panicked : Bool

namespace Reentrant

/-! ## Model layer -/

inductive Label where
  /-- a call that puts a command into the queue -/
  | api (c : ApiCall)
  /-- `avi_embedded_is_connected` -/
  | isConnected
  /-- `avi_embedded_poll` -/
  | poll
  /-- the loop of a poll takes a command -/
  | takeCommand
  /-- the loop of a poll ends and `AviEmbedded::poll` receives -/
  | receive
  /-- the send callback returns -/
  | sent
  /-- the receive callback returns, with no bytes if it fails -/
  | received (packet : Bytes)
  /-- the message callback returns -/
  | handled

/-- A command goes into the queue if there is room. -/
def sendCommand (s : Reentrant) (cmd : AviCommand) : Reentrant :=
  if s.queue.length < Instances.queueSize then { s with queue := s.queue ++ [cmd] } else s

def callApi (s : Reentrant) (c : ApiCall) : Reentrant :=
  match c.command s.deviceId with
  | .ok cmd => s.sendCommand cmd
  | .error _ => s

/-- `wrapper.avi.borrow().is_connected()`. -/
def askConnected (s : Reentrant) : Reentrant :=
  match s.avi.borrow with
  | some avi => { s with avi := avi.release }
  | none => { s with panicked := true }

/-- `wrapper.avi.borrow_mut()` at the head of `avi_embedded_poll`. -/
def enterPoll (s : Reentrant) : Reentrant :=
  match s.avi.borrowMut with
  | some avi => { s with avi := avi, activity := .loop }
  | none => { s with panicked := true }

/-- Once its packet is sent, `connect` waits for the answer. -/
def afterSend : AviCommand → Activity
  | .connect _ => .awaiting
  | _ => .loop

/-- The end of `avi_embedded_poll`. -/
def leavePoll (s : Reentrant) : Reentrant :=
  { s with avi := s.avi.release, activity := .application }

/-- What `AviEmbedded::poll` makes of a packet. -/
def dispatch (s : Reentrant) (packet : Bytes) : Reentrant :=
  match DownlinkMessage.fromBytes packet with
  | some (.message topic data) => { s with activity := .handling topic data }
  | some .welcome => { s with isConnected := true }.leavePoll
  | _ => s.leavePoll

/-- The steps of a thread that has not panicked. -/
def proceed (s : Reentrant) : Label → Option Reentrant
  | .api c => if s.activity ≠ .loop then some (s.callApi c) else none
  | .isConnected => if s.activity ≠ .loop then some s.askConnected else none
  | .poll => if s.activity ≠ .loop then some s.enterPoll else none
  | .takeCommand =>
    match s.activity, s.queue with
    | .loop, cmd :: rest =>
      match (cmd.message s.deviceId).toSlice s.scratchLen with
      | some _ => some { s with queue := rest, activity := .sending cmd }
      | none => some { s with queue := rest, activity := afterSend cmd }
    | _, _ => none
  | .receive =>
    match s.activity, s.queue with
    | .loop, [] => some { s with activity := .receiving }
    | _, _ => none
  | .sent =>
    match s.activity with
    | .sending cmd => some { s with activity := afterSend cmd }
    | _ => none
  | .received packet =>
    match s.activity with
    | .awaiting =>
      if packet.length ≤ 128 then some { s with
        isConnected := DownlinkMessage.fromBytes packet = some .welcome
        activity := .loop }
      else none
    | .receiving => if packet.length ≤ 1024 then some (s.dispatch packet) else none
    | _ => none
  | .handled =>
    match s.activity with
    | .handling _ _ => some s.leavePoll
    | _ => none

def step (s : Reentrant) (l : Label) : Option Reentrant :=
  if s.panicked then none else s.proceed l

end Reentrant

open Reentrant in
/-- The machine of one instance and one thread, from `avi_embedded_new` on. -/
def reentrant : Machine Reentrant Label where
  Init s := ∃ deviceId scratchLen,
    s = ⟨.unused, deviceId, scratchLen, false, [], .application, false⟩
  step := step

namespace Reentrant

/-- Every borrow so far has succeeded. -/
def NoPanic (s : Reentrant) : Prop := s.panicked = false

/-- A poll, and the question for the connection, come from outside any poll. -/
def Outside (s : Reentrant) : Label → Prop
  | .isConnected | .poll => s.activity = .application
  | _ => True

/-- The exclusive borrow lasts as long as the poll. -/
def Held (s : Reentrant) : Prop :=
  s.avi = if s.activity = .application then .unused else .writing

/-! ## Steps -/

/-- Inside a poll the client is borrowed for writing. -/
theorem held_of_ne {s : Reentrant} (h : s.Held) (hne : s.activity ≠ .application) :
    s.avi = .writing := by
  unfold Held at h
  rw [h, if_neg hne]

/-- Outside it is not borrowed. -/
theorem held_of_eq {s : Reentrant} (h : s.Held) (heq : s.activity = .application) :
    s.avi = .unused := by
  unfold Held at h
  rw [h, if_pos heq]

/-- The queue has nothing to do with the borrow. -/
theorem callApi_eq (s : Reentrant) (c : ApiCall) :
    ∃ queue, s.callApi c = { s with queue := queue } := by
  unfold callApi
  cases c.command s.deviceId with
  | error code => exact ⟨s.queue, rfl⟩
  | ok cmd =>
    unfold sendCommand
    dsimp only
    split_ifs with hroom
    · exact ⟨s.queue ++ [cmd], rfl⟩
    · exact ⟨s.queue, rfl⟩

/-- The question for the connection panics during a poll and changes nothing outside. -/
theorem askConnected_eq {s : Reentrant} (h : s.Held) :
    s.askConnected = if s.activity = .application then s else { s with panicked := true } := by
  unfold askConnected
  split_ifs with hactivity
  · have hborrow : s.avi.borrow = some (.reading 0) := by
      rw [held_of_eq h hactivity]
      rfl
    rw [hborrow]
    dsimp only
    rw [BorrowState.release_borrow hborrow]
  · rw [held_of_ne h hactivity]
    rfl

/-- A poll inside a poll panics; outside it borrows the client. -/
theorem enterPoll_eq {s : Reentrant} (h : s.Held) :
    s.enterPoll = if s.activity = .application then { s with avi := .writing, activity := .loop }
      else { s with panicked := true } := by
  unfold enterPoll
  split_ifs with hactivity
  · rw [held_of_eq h hactivity]
    rfl
  · rw [held_of_ne h hactivity]
    rfl

/-- Leaving the poll gives the borrow back. -/
theorem leavePoll_held {s : Reentrant} (h : s.avi = .writing) : s.leavePoll.Held := by
  unfold Held leavePoll
  rw [h]
  rfl

/-- Within a poll the borrow stays as it is. -/
theorem held_within {s t : Reentrant} (h : s.avi = .writing) (havi : t.avi = s.avi)
    (hactivity : t.activity ≠ .application) : t.Held := by
  unfold Held
  rw [if_neg hactivity, havi]
  exact h

/-- No command that is sent ends the poll. -/
theorem afterSend_ne (cmd : AviCommand) : afterSend cmd ≠ .application := by
  unfold afterSend
  split
  · decide
  · decide

/-- Handing a packet to the callback keeps the borrow. -/
theorem dispatch_held {s : Reentrant} (h : s.avi = .writing) (packet : Bytes) :
    (s.dispatch packet).Held ∧ (s.dispatch packet).panicked = s.panicked := by
  unfold dispatch
  split
  · exact ⟨held_within h rfl (by simp), rfl⟩
  · exact ⟨leavePoll_held h, rfl⟩
  · exact ⟨leavePoll_held h, rfl⟩

/-- A step keeps the borrow with the poll, and panics exactly if a callback polls or
asks for the connection. -/
theorem proceed_spec {s t : Reentrant} {l : Label} (hstep : s.proceed l = some t) (h : s.Held)
    (hpanic : s.NoPanic) : t.Held ∧ (t.NoPanic ↔ s.Outside l) := by
  have hsame : ∀ {u : Reentrant}, u.panicked = s.panicked → (u.NoPanic ↔ True) := by
    intro u hu
    exact iff_of_true (hu.trans hpanic) True.intro
  cases l with
  | api c =>
    simp only [proceed, Option.ite_none_right_eq_some, Option.some.injEq] at hstep
    obtain ⟨-, rfl⟩ := hstep
    obtain ⟨queue, hqueue⟩ := callApi_eq s c
    rw [hqueue]
    exact ⟨h, hsame rfl⟩
  | isConnected =>
    simp only [proceed, Option.ite_none_right_eq_some, Option.some.injEq] at hstep
    obtain ⟨-, rfl⟩ := hstep
    rw [askConnected_eq h]
    split_ifs with hactivity
    · exact ⟨h, iff_of_true hpanic hactivity⟩
    · -- in a callback
      refine ⟨h, iff_of_false ?_ hactivity⟩
      intro hno
      cases hno
  | poll =>
    simp only [proceed, Option.ite_none_right_eq_some, Option.some.injEq] at hstep
    obtain ⟨-, rfl⟩ := hstep
    rw [enterPoll_eq h]
    split_ifs with hactivity
    · exact ⟨rfl, iff_of_true hpanic hactivity⟩
    · -- in a callback
      refine ⟨h, iff_of_false ?_ hactivity⟩
      intro hno
      cases hno
  | takeCommand =>
    simp only [proceed] at hstep
    split at hstep
    · next hactivity hqueue =>
      have havi : s.avi = .writing := held_of_ne h (by rw [hactivity]; decide)
      split at hstep
      · -- the send callback is called
        cases hstep
        exact ⟨held_within havi rfl (by simp), hsame rfl⟩
      · -- the message does not fit in the scratch buffer
        cases hstep
        exact ⟨held_within havi rfl (afterSend_ne _), hsame rfl⟩
    · cases hstep
  | receive =>
    simp only [proceed] at hstep
    split at hstep
    · next hactivity hqueue =>
      have havi : s.avi = .writing := held_of_ne h (by rw [hactivity]; decide)
      cases hstep
      exact ⟨held_within havi rfl (by simp), hsame rfl⟩
    · cases hstep
  | sent =>
    simp only [proceed] at hstep
    split at hstep
    · next cmd hactivity =>
      have havi : s.avi = .writing := held_of_ne h (by simp [hactivity])
      cases hstep
      exact ⟨held_within havi rfl (afterSend_ne cmd), hsame rfl⟩
    · cases hstep
  | received packet =>
    simp only [proceed] at hstep
    split at hstep
    · next hactivity =>
      have havi : s.avi = .writing := held_of_ne h (by rw [hactivity]; decide)
      split_ifs at hstep with hsize
      cases hstep
      exact ⟨held_within havi rfl (by simp), hsame rfl⟩
    · next hactivity =>
      have havi : s.avi = .writing := held_of_ne h (by rw [hactivity]; decide)
      split_ifs at hstep with hsize
      cases hstep
      obtain ⟨hheld, hpanicked⟩ := dispatch_held havi packet
      exact ⟨hheld, hsame hpanicked⟩
    · cases hstep
  | handled =>
    simp only [proceed] at hstep
    split at hstep
    · next topic data hactivity =>
      have havi : s.avi = .writing := held_of_ne h (by simp [hactivity])
      cases hstep
      exact ⟨leavePoll_held havi, hsame rfl⟩
    · cases hstep

/-- A step is taken only while nothing has panicked. -/
theorem step_eq_some {s t : Reentrant} {l : Label} (hstep : reentrant.step s l = some t) :
    s.NoPanic ∧ s.proceed l = some t := by
  simp only [reentrant, step] at hstep
  split_ifs at hstep with hpanicked
  exact ⟨Bool.eq_false_iff.mpr hpanicked, hstep⟩

/-! ## Runs -/

/-- **Every borrow succeeds**, whatever the application and its callbacks call in
whatever order, if and only if no callback calls `avi_embedded_poll` or
`avi_embedded_is_connected`. -/
theorem no_panic_iff (s t : Reentrant) (h₀ : reentrant.Init s) (ls : List Label)
    (hrun : reentrant.run s ls = some t) :
    reentrant.AllStates NoPanic s ls ↔ reentrant.AllSteps Outside s ls := by
  obtain ⟨deviceId, scratchLen, rfl⟩ := h₀
  have hheld : ∀ s l t, reentrant.step s l = some t → Held s → Held t := by
    intro s l t hs h
    obtain ⟨hpanic, hproceed⟩ := step_eq_some hs
    exact (proceed_spec hproceed h hpanic).1
  have hpanics : ∀ s l t, reentrant.step s l = some t → Held s → NoPanic s →
      (NoPanic t ↔ Outside s l) := by
    intro s l t hs h hpanic
    exact (proceed_spec (step_eq_some hs).2 h hpanic).2
  exact reentrant.allStates_iff_of_invariant hheld hpanics hrun rfl rfl

/-! ## A callback -/

/-- A new instance. -/
def made : Reentrant := ⟨.unused, 7, 1024, false, [], .application, false⟩

/-- The application polls, and subscribes in the receive callback. -/
def subscribesInCallback : List Label :=
  [.poll, .receive, .api (.subscribe (some [116])), .received []]

theorem no_panic_iff_subscribe : reentrant.AllStates NoPanic made subscribesInCallback ↔
    reentrant.AllSteps Outside made subscribesInCallback := by
  have hrun : (reentrant.run made subscribesInCallback).isSome = true := by
    decide +kernel
  obtain ⟨t, ht⟩ := Option.isSome_iff_exists.mp hrun
  exact no_panic_iff made t ⟨7, 1024, rfl⟩ subscribesInCallback ht

/-- The application polls, and asks for the connection in the receive callback. -/
def asksInCallback : List Label := [.poll, .receive, .isConnected]

/-- Asking for the connection from inside a callback panics. -/
theorem panic_in_callback : ¬ ∀ (s t : Reentrant) ls, reentrant.Init s →
    reentrant.run s ls = some t → reentrant.AllStates NoPanic s ls := by
  intro h
  have hview : (reentrant.run made asksInCallback).map panicked = some true := by
    decide +kernel
  obtain ⟨t, ht, hpanicked⟩ := Option.map_eq_some_iff.mp hview
  have hall := h made t asksInCallback ⟨7, 1024, rfl⟩ ht
  rw [← List.append_nil asksInCallback] at hall
  have hno : t.NoPanic := Machine.AllStates.at_cut _ hall ht
  rw [NoPanic, hpanicked] at hno
  cases hno

end Reentrant

end AviNet.Embedded
