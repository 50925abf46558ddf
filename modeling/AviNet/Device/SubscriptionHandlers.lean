import AviNet.Lib.Machine
import AviNet.Runtime.State

/-!
# Device.SubscriptionHandlers — `subscribe`, `subscribe_async` and the messages handled

Both calls put the handler into `subscription_handlers`, release the map, and only
then ask the mesh; a message is handled under a read guard of the map, so no
call registers while its handlers run. Closures are of any type `F`: a call that
is made again registers the same one again.

* `Exact`: each message runs the handlers of the calls on its topic that had
  returned `Ok`, in order, and a call that failed has left nothing behind;
* `exact_iff`: a run keeps that exactly when no call fails and no message is
  handled between the two halves of a call on its topic;
* `retry_runs_twice`: a call that fails and is made again.
-/

namespace AviNet

/-! ## Model layer -/

/-- An entry of `subscription_handlers`: a closure that `subscribe` has wrapped, or one
that `subscribe_async` has. -/
inductive MessageHandler (F : Type) where
  | sync (handler : F)
  | async (handler : F)
  deriving DecidableEq

/-- A call that has registered its handler, and what it has returned. -/
structure SubscribeCall (F : Type) where
  topic : String
  handler : MessageHandler F
  result : Option (Except AviP2pError Unit)

namespace SubscribeCall

variable {F : Type}

/-- The call has returned `Ok`. -/
def isOk (c : SubscribeCall F) : Bool := c.result = some (.ok ())

/-- The call has returned an error. -/
def isErr (c : SubscribeCall F) : Bool :=
  match c.result with
  | some (.error _) => true
  | _ => false

end SubscribeCall

/-- A handler with what it is called with. -/
structure Invocation (F : Type) where
  handler : MessageHandler F
  source : PeerId
  topic : String
  data : Bytes
  deriving DecidableEq

/-- A `Message` that is being handled. -/
structure MessageTask (F : Type) where
  source : PeerId
  topic : String
  data : Bytes
  /-- the handlers of the calls that had returned `Ok` when the handling began -/
  due : List (MessageHandler F)
  /-- what the loop has still to run -/
  left : List (MessageHandler F)
  invoked : List (Invocation F)
  deriving DecidableEq

/-- `subscription_handlers` and where the event loop stands, with a record of the
calls, in the order in which they registered, and of the messages handled. -/
structure SubscriptionHandlers (F : Type) where
  handlers : SortedMap String (List (MessageHandler F))
  task : Option (MessageTask F)
  calls : List (SubscribeCall F)
  handled : List (MessageTask F)

namespace MessageTask

variable {F : Type}

/-- What a handler is called with. -/
def invocation (m : MessageTask F) (handler : MessageHandler F) : Invocation F :=
  ⟨handler, m.source, m.topic, m.data⟩

/-- What has been run and what is left are what is due. -/
def Exact (m : MessageTask F) : Prop :=
  m.invoked ++ m.left.map m.invocation = m.due.map m.invocation

end MessageTask

namespace SubscriptionHandlers

variable {F : Type}

/-- The handlers stored for a topic. -/
def handlersOf (s : SubscriptionHandlers F) (topic : String) : List (MessageHandler F) :=
  (s.handlers.get? topic).getD []

/-- The handlers of the calls on a topic that have returned `Ok`. -/
def due (s : SubscriptionHandlers F) (topic : String) : List (MessageHandler F) :=
  (s.calls.filter fun c => c.topic = topic && c.isOk).map SubscribeCall.handler

/-- `entry(topic).or_default().push(handler)`, for which the map has to be free. -/
def register (s : SubscriptionHandlers F) (topic : String) (handler : MessageHandler F) :
    Option (SubscriptionHandlers F) :=
  match s.task with
  | none => some { s with
      handlers := s.handlers.insert topic (s.handlersOf topic ++ [handler])
      calls := s.calls ++ [⟨topic, handler, none⟩] }
  | some _ => none

/-- `subscribe`, up to its mesh command. -/
def subscribe (s : SubscriptionHandlers F) (topic : String) (handler : F) :
    Option (SubscriptionHandlers F) :=
  s.register topic (.sync handler)

/-- `subscribe_async`, up to its mesh command. -/
def subscribeAsync (s : SubscriptionHandlers F) (topic : String) (handler : F) :
    Option (SubscriptionHandlers F) :=
  s.register topic (.async handler)

/-- The rest of either: the mesh answers, and the call returns the answer. -/
def answer (s : SubscriptionHandlers F) (n : ℕ) (res : Except AviP2pError Unit) :
    Option (SubscriptionHandlers F) :=
  match s.calls[n]? with
  | some c =>
    if c.result.isNone then
      some { s with calls := s.calls.set n { c with result := some res } }
    else none
  | none => none

inductive Label (F : Type) where
  | subscribe (topic : String) (handler : F)
  | subscribeAsync (topic : String) (handler : F)
  /-- the call that registered after `n` others returns -/
  | answer (n : ℕ) (res : Except AviP2pError Unit)
  /-- the event loop takes a message and the read guard -/
  | message (source : PeerId) (topic : String) (data : Bytes)
  /-- it runs the next handler to its end -/
  | invoke
  /-- it releases the guard -/
  | finish

def step (s : SubscriptionHandlers F) : Label F → Option (SubscriptionHandlers F)
  | .subscribe topic handler => s.subscribe topic handler
  | .subscribeAsync topic handler => s.subscribeAsync topic handler
  | .answer n res => s.answer n res
  | .message source topic data =>
    match s.task with
    | none => some { s with
        task := some ⟨source, topic, data, s.due topic, s.handlersOf topic, []⟩ }
    | some _ => none
  | .invoke =>
    match s.task with
    | some m =>
      match m.left with
      | handler :: left => some { s with
          task := some { m with
            left := left, invoked := m.invoked ++ [m.invocation handler] } }
      | [] => none
    | none => none
  | .finish =>
    match s.task with
    | some m => if m.left.isEmpty then some { s with task := none, handled := s.handled ++ [m] }
      else none
    | none => none

/-- `AviDevice::new`. -/
def new : SubscriptionHandlers F := ⟨.empty, none, [], []⟩

end SubscriptionHandlers

/-- The machine of a device that has just been made. -/
def subscriptionHandlers (F : Type) :
    Machine (SubscriptionHandlers F) (SubscriptionHandlers.Label F) where
  Init s := s = .new
  step := SubscriptionHandlers.step

namespace SubscriptionHandlers

variable {F : Type} {s t : SubscriptionHandlers F}

/-! ## What is promised, and when it holds -/

/-- Each message has run exactly what was due, or is on the way to, and the map holds
nothing of a call that failed. -/
structure Exact (s : SubscriptionHandlers F) : Prop where
  handled : ∀ m ∈ s.handled, m.invoked = m.due.map m.invocation
  handling : ∀ m, s.task = some m → m.Exact
  registered : ∀ topic, s.handlersOf topic =
    (s.calls.filter fun c => c.topic = topic && !c.isErr).map SubscribeCall.handler

/-- No call fails, and no message is handled while a call on its topic waits for the mesh. -/
def Settled (s : SubscriptionHandlers F) : Label F → Prop
  | .answer _ res => res = .ok ()
  | .message _ topic _ => ∀ c ∈ s.calls, c.topic = topic → c.result ≠ none
  | _ => True

/-! ## Steps -/

/-- The map holds the handlers of all calls, in the order in which they registered. -/
def Inv (s : SubscriptionHandlers F) : Prop :=
  ∀ topic, s.handlersOf topic =
    (s.calls.filter fun c => c.topic = topic).map SubscribeCall.handler

/-- **Inversion** of a step. -/
theorem step_cases {l : Label F} (h : (subscriptionHandlers F).step s l = some t) :
    (∃ topic handler, s.Settled l ∧ s.task = none ∧
      t = { s with
        handlers := s.handlers.insert topic (s.handlersOf topic ++ [handler])
        calls := s.calls ++ [⟨topic, handler, none⟩] }) ∨
    (∃ n c res, l = .answer n res ∧ s.calls[n]? = some c ∧ c.result = none ∧
      t = { s with calls := s.calls.set n { c with result := some res } }) ∨
    (∃ source topic data, l = .message source topic data ∧ s.task = none ∧
      t = { s with task := some ⟨source, topic, data, s.due topic, s.handlersOf topic, []⟩ }) ∨
    (∃ m handler left, l = .invoke ∧ s.task = some m ∧ m.left = handler :: left ∧
      t = { s with task := some { m with
        left := left, invoked := m.invoked ++ [m.invocation handler] } }) ∨
    ∃ m, l = .finish ∧ s.task = some m ∧ m.left = [] ∧
      t = { s with task := none, handled := s.handled ++ [m] } := by
  cases l with
  | subscribe topic handler =>
    -- both kinds of handler are pushed before the runtime is asked
    simp only [subscriptionHandlers, step, subscribe, register] at h
    split at h
    · rename_i hfree
      cases h
      exact Or.inl ⟨topic, .sync handler, True.intro, hfree, rfl⟩
    · cases h
  | subscribeAsync topic handler =>
    simp only [subscriptionHandlers, step, subscribeAsync, register] at h
    split at h
    · rename_i hfree
      cases h
      exact Or.inl ⟨topic, .async handler, True.intro, hfree, rfl⟩
    · cases h
  | answer n res =>
    -- each call is answered once
    simp only [subscriptionHandlers, step, answer] at h
    split at h
    · rename_i c hc
      split_ifs at h with hwaiting
      cases h
      exact Or.inr (Or.inl ⟨n, c, res, rfl, hc, Option.isNone_iff_eq_none.mp hwaiting, rfl⟩)
    · cases h
  | message source topic data =>
    -- the loop takes the message with the handlers of now
    simp only [subscriptionHandlers, step] at h
    split at h
    · rename_i hfree
      cases h
      exact Or.inr (Or.inr (Or.inl ⟨source, topic, data, rfl, hfree, rfl⟩))
    · cases h
  | invoke =>
    -- one handler after the other
    simp only [subscriptionHandlers, step] at h
    split at h
    · rename_i m hm
      split at h
      · rename_i handler left hleft
        cases h
        exact Or.inr (Or.inr (Or.inr (Or.inl ⟨m, handler, left, rfl, hm, hleft, rfl⟩)))
      · cases h
    · cases h
  | finish =>
    simp only [subscriptionHandlers, step] at h
    split at h
    · rename_i m hm
      split_ifs at h with hleft
      cases h
      exact Or.inr (Or.inr (Or.inr (Or.inr ⟨m, rfl, hm, List.isEmpty_iff.mp hleft, rfl⟩)))
    · cases h

/-- A call that is replaced by one on the same topic with the same handler. -/
theorem filter_topic_set {calls : List (SubscribeCall F)} {n : ℕ} {c : SubscribeCall F}
    (topic : String) (c' : SubscribeCall F) (hc : calls[n]? = some c)
    (hsame : (c'.topic, c'.handler) = (c.topic, c.handler)) :
    ((calls.set n c').filter fun c => c.topic = topic).map SubscribeCall.handler =
      (calls.filter fun c => c.topic = topic).map SubscribeCall.handler := by
  have hpairs : ∀ cs : List (SubscribeCall F),
      (cs.filter fun c => c.topic = topic).map SubscribeCall.handler =
        ((cs.map fun c => (c.topic, c.handler)).filter fun e => e.1 = topic).map Prod.snd := by
    intro cs
    rw [List.filter_map, List.map_map]
    rfl
  rcases List.getElem?_eq_some_iff.mp hc with ⟨hn, hget⟩
  have hset : (calls.set n c').map (fun c => (c.topic, c.handler)) =
      calls.map fun c => (c.topic, c.handler) := by
    apply List.ext_getElem?
    intro i
    rw [List.getElem?_map, List.getElem?_map, List.getElem?_set]
    split_ifs with hi
    · rw [← hi, hc, Option.map_some, Option.map_some, hsame]
    · rfl
  rw [hpairs, hpairs, hset]

/-- Every step keeps the invariant. -/
theorem step_inv (s : SubscriptionHandlers F) (l : Label F) (t : SubscriptionHandlers F)
    (hstep : (subscriptionHandlers F).step s l = some t) (h : s.Inv) : t.Inv := by
  rcases step_cases hstep with ⟨topic, handler, -, -, rfl⟩ | ⟨n, c, res, -, hc, -, rfl⟩ |
    ⟨source, topic, data, -, -, rfl⟩ | ⟨m, handler, left, -, -, -, rfl⟩ | ⟨m, -, -, -, rfl⟩
  · -- one more handler at the end of its topic
    intro topic'
    unfold handlersOf
    rw [SortedMap.get?_insert, List.filter_append, List.map_append, ← h topic']
    by_cases htopic : topic' = topic
    · simp [htopic, handlersOf]
    · simp [htopic, Ne.symm htopic, handlersOf]
  · -- an answer changes neither topics nor handlers
    intro topic
    have hcalls := filter_topic_set topic { c with result := some res } hc rfl
    exact (h topic).trans hcalls.symm
  · exact h
  · exact h
  · exact h

/-- A second condition leaves nothing out. -/
theorem map_filter_and_iff {α β : Type*} {f : α → β} {p q : α → Bool} {l : List α} :
    (l.filter p).map f = (l.filter fun x => p x && q x).map f ↔
      ∀ x ∈ l, p x = true → q x = true := by
  have htwice : (l.filter fun x => p x && q x) = (l.filter p).filter q := by
    rw [List.filter_filter]
    exact List.filter_congr fun x _ => Bool.and_comm (p x) (q x)
  rw [htwice]
  constructor
  · intro h x hx hp
    have hlength := congrArg List.length h
    rw [List.length_map, List.length_map] at hlength
    have hall := List.length_filter_eq_length_iff.mp hlength.symm
    exact hall x (List.mem_filter.mpr ⟨hx, hp⟩)
  · intro h
    have hself : (l.filter p).filter q = l.filter p := by
      apply List.filter_eq_self.mpr
      intro x hx
      rcases List.mem_filter.mp hx with ⟨hmem, hp⟩
      exact h x hmem hp
    rw [hself]

theorem isErr_eq_false_iff {c : SubscribeCall F} :
    c.isErr = false ↔ c.result ≠ none → c.isOk = true := by
  unfold SubscribeCall.isErr SubscribeCall.isOk
  rcases c with ⟨topic, handler, _ | _ | _⟩ <;> simp

/-- Nothing of a failed call is in the map exactly if no call has failed. -/
theorem registered_iff (hinv : s.Inv) : (∀ topic, s.handlersOf topic =
      (s.calls.filter fun c => c.topic = topic && !c.isErr).map SubscribeCall.handler) ↔
    ∀ c ∈ s.calls, c.isErr = false := by
  have htopic : ∀ topic, s.handlersOf topic =
        (s.calls.filter fun c => c.topic = topic && !c.isErr).map SubscribeCall.handler ↔
      ∀ c ∈ s.calls, c.topic = topic → c.isErr = false := by
    intro topic
    rw [hinv topic, map_filter_and_iff]
    simp only [decide_eq_true_eq, Bool.not_eq_true']
  simp only [htopic]
  constructor
  · intro h c hc
    exact h c.topic c hc rfl
  · intro h topic c hc _
    exact h c hc

/-- What is stored for a topic is due exactly if all calls on it have returned `Ok`. -/
theorem handlersOf_eq_due_iff (hinv : s.Inv) (topic : String) :
    s.handlersOf topic = s.due topic ↔ ∀ c ∈ s.calls, c.topic = topic → c.isOk = true := by
  rw [hinv topic, due, map_filter_and_iff]
  simp only [decide_eq_true_eq]

/-- An answer decides whether the map holds a handler that it should not. -/
theorem exact_answer_iff {n : ℕ} {c : SubscribeCall F} {res : Except AviP2pError Unit}
    (hc : s.calls[n]? = some c) (h : s.Exact) (hok : ∀ c ∈ s.calls, c.isErr = false)
    (hinv : Inv { s with calls := s.calls.set n { c with result := some res } }) :
    Exact { s with calls := s.calls.set n { c with result := some res } } ↔ res = .ok () := by
  have hlt : n < s.calls.length := (List.getElem?_eq_some_iff.mp hc).1
  constructor
  · intro hexact
    have hanswered := (registered_iff hinv).mp hexact.registered _
      (List.mem_set hlt { c with result := some res })
    cases res with
    | ok u => rfl
    | error e => cases hanswered
  · intro hres
    refine ⟨h.handled, h.handling, (registered_iff hinv).mpr ?_⟩
    intro c' hc'
    rcases List.mem_or_eq_of_mem_set hc' with hold | rfl
    · exact hok c' hold
    · rw [hres]
      rfl

theorem invocation_injective (m : MessageTask F) : Function.Injective m.invocation := by
  intro a b hab
  exact congrArg Invocation.handler hab

/-- The loop begins with what is stored now, and that is due unless a call on the topic is
still waiting for the mesh. -/
theorem exact_message_iff {source : PeerId} {topic : String} {data : Bytes} (h : s.Exact)
    (hinv : s.Inv) (hok : ∀ c ∈ s.calls, c.isErr = false) :
    Exact { s with
        task := some ⟨source, topic, data, s.due topic, s.handlersOf topic, []⟩ } ↔
      ∀ c ∈ s.calls, c.topic = topic → c.result ≠ none := by
  have hdue := handlersOf_eq_due_iff hinv topic
  constructor
  · -- a call that is not answered would be invoked
    intro hexact
    have hbegin := hexact.handling _ rfl
    rw [MessageTask.Exact, List.nil_append] at hbegin
    have hsame : s.handlersOf topic = s.due topic :=
      List.map_injective_iff.mpr (invocation_injective _) hbegin
    intro c hc htopic hnone
    have hreturned := hdue.mp hsame c hc htopic
    rw [SubscribeCall.isOk, hnone] at hreturned
    cases hreturned
  · -- the handlers registered are those of the calls that returned `Ok`
    intro hsettled
    refine ⟨h.handled, ?_, h.registered⟩
    intro m hm
    cases hm
    have hsame : s.handlersOf topic = s.due topic := by
      apply hdue.mpr
      intro c hc htopic
      exact isErr_eq_false_iff.mp (hok c hc) (hsettled c hc htopic)
    rw [MessageTask.Exact, List.nil_append, hsame]

/-- A step keeps the account exact exactly if it is settled. -/
theorem step_exact_iff (s : SubscriptionHandlers F) (l : Label F) (t : SubscriptionHandlers F)
    (hstep : (subscriptionHandlers F).step s l = some t) (hinv : s.Inv) (h : s.Exact) :
    t.Exact ↔ s.Settled l := by
  have hinv' := step_inv s l t hstep hinv
  have hok := (registered_iff hinv).mp h.registered
  rcases step_cases hstep with ⟨topic, handler, hsettled, hfree, rfl⟩ |
    ⟨n, c, res, rfl, hc, hwaiting, rfl⟩ | ⟨source, topic, data, rfl, hfree, rfl⟩ |
    ⟨m, handler, left, rfl, hm, hleft, rfl⟩ | ⟨m, rfl, hm, hleft, rfl⟩
  · -- a new call has not failed
    refine iff_of_true ⟨h.handled, ?_, (registered_iff hinv').mpr ?_⟩ hsettled
    · intro m hm
      rw [hfree] at hm
      cases hm
    · intro c hc
      rcases List.mem_append.mp hc with hold | hnew
      · exact hok c hold
      · rw [List.mem_singleton.mp hnew]
        rfl
  · exact exact_answer_iff hc h hok hinv'
  · exact exact_message_iff h hinv hok
  · -- one handler further
    refine iff_of_true ⟨h.handled, ?_, h.registered⟩ True.intro
    intro m' hm'
    cases hm'
    have hexact := h.handling m hm
    rw [MessageTask.Exact, hleft, List.map_cons] at hexact
    rw [MessageTask.Exact, ← List.append_cons]
    exact hexact
  · -- all have run
    refine iff_of_true ⟨?_, nofun, h.registered⟩ True.intro
    intro m' hm'
    rcases List.mem_append.mp hm' with hold | hnew
    · exact h.handled m' hold
    · rw [List.mem_singleton.mp hnew]
      have hexact := h.handling m hm
      rw [MessageTask.Exact, hleft, List.map_nil, List.append_nil] at hexact
      exact hexact

/-! ## Runs -/

theorem init_exact (h : (subscriptionHandlers F).Init s) : s.Inv ∧ s.Exact := by
  rw [show s = .new from h]
  constructor
  · intro topic
    rfl
  · exact ⟨nofun, nofun, fun _ => rfl⟩

/-- **Messages and subscriptions.** In every run of calls, answers and messages, each
message runs the handlers of the calls on its topic that had returned `Ok`, each
once and in order, and a call that fails leaves nothing in the map, exactly if
no call fails and no message is handled while a call on its topic still waits
for the mesh. -/
theorem exact_iff (s t : SubscriptionHandlers F) (h₀ : (subscriptionHandlers F).Init s)
    (ls : List (Label F)) (hrun : (subscriptionHandlers F).run s ls = some t) :
    (subscriptionHandlers F).AllStates Exact s ls ↔
      (subscriptionHandlers F).AllSteps Settled s ls := by
  rcases init_exact h₀ with ⟨hinv, hexact⟩
  exact (subscriptionHandlers F).allStates_iff_of_invariant step_inv step_exact_iff hrun hinv
    hexact

/-! ## A call that is made again -/

/-- A call that succeeds, and a message to its handler. -/
def oneMessage : List (Label ℕ) :=
  [.subscribe "news" 1, .answer 0 (.ok ()), .message ⟨"peer"⟩ "news" [1], .invoke, .finish]

theorem exact_iff_oneMessage :
    (subscriptionHandlers ℕ).AllStates Exact .new oneMessage ↔
      (subscriptionHandlers ℕ).AllSteps Settled .new oneMessage := by
  have hrun : ((subscriptionHandlers ℕ).run .new oneMessage).isSome = true := by
    decide +kernel
  rcases Option.isSome_iff_exists.mp hrun with ⟨t, ht⟩
  exact exact_iff _ t rfl _ ht

/-- The mesh refuses a subscription, the call is made again, and a message arrives. -/
def retried : List (Label ℕ) :=
  [.subscribe "news" 1, .answer 0 (.error .channelClosed), .subscribe "news" 1,
    .answer 1 (.ok ()), .message ⟨"peer"⟩ "news" [1], .invoke, .invoke, .finish]

/-- The handler runs twice for one message. -/
theorem retry_runs_twice : ¬ ∀ s ls, (subscriptionHandlers ℕ).Init s →
    (subscriptionHandlers ℕ).AllStates Exact s ls := by
  intro h
  have hall := h .new (retried ++ []) rfl
  have hrun : (subscriptionHandlers ℕ).run .new retried = some _ := rfl
  have hexact := Machine.AllStates.at_cut _ hall hrun
  have htwice := hexact.handled _ (List.mem_singleton_self _)
  revert htwice
  decide

end SubscriptionHandlers

end AviNet
