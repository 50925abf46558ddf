import AviNet.Runtime.StreamPair

/-!
# Runtime.StreamEnds — do the two ends of a stream know each other?

Two nodes of which only one opens streams. A request makes an entry wherever it
arrives, also behind the end of its stream: messages may overtake each other.

* `Link`: one id as both ends and the messages between them see it;
* `ends_agree`: if no end of a stream overtakes its request, both tables have
  the same ids whenever no message is in flight; and after an end that has
  overtaken its request the tables will differ once all has arrived;
* `half_open`: the opener closes at once.
-/

namespace AviNet

/-! ## One id -/

/-- What there is of one id: entries at the opener (`here`) and at the other node,
its request, and ends of it on their way to either. -/
@[ext]
structure Link where
  here : Bool
  there : Bool
  asked : Bool
  endingHere : Bool
  endingThere : Bool
  deriving DecidableEq

namespace Link

/-- Ends and requests in flight account for all differences. -/
structure Sound (v : Link) : Prop where
  ended : v.endingThere = true → v.here = false
  refused : v.endingHere = true → v.there = false ∧ v.asked = false
  waiting : v.asked = true → v.there = false
  onlyHere : v.here = true → v.there = true ∨ v.asked = true ∨ v.endingHere = true
  onlyThere : v.there = true ∨ v.asked = true → v.here = true ∨ v.endingThere = true

/-- What the arrival of a message can do. -/
inductive Arrival (v : Link) : Link → Prop
  | skip : Arrival v v
  /-- the request -/
  | arrive (h : v.asked = true) : Arrival v { v with there := true, asked := false }
  /-- an end, at the opener -/
  | endHere (h : v.endingHere = true) : Arrival v { v with here := false, endingHere := false }
  /-- an end, at the other node -/
  | endThere (h : v.endingThere = true) : Arrival v { v with there := false, endingThere := false }

/-- What can happen to one id. -/
inductive Step (v : Link) : Link → Prop
  | arrival {w : Link} (h : Arrival v w) : Step v w
  | «open» (h : v.there = false ∧ v.asked = false ∧ v.endingHere = false ∧ v.endingThere = false) :
      Step v { v with here := true, asked := true }
  /-- the opener ends it -/
  | finishHere (h : v.here = true) : Step v { v with here := false, endingThere := true }
  /-- the other node ends it -/
  | finishThere (h : v.there = true) : Step v { v with there := false, endingHere := true }

/-- The end of the stream has not arrived before its request. -/
def Ordered (v w : Link) : Prop := v.endingThere = true → w.endingThere = false → v.asked = false

/-- An arrival keeps the accounts, unless it is an end that overtakes the request. -/
theorem Arrival.sound {v w : Link} (h : Arrival v w) (hord : Ordered v w) (hv : v.Sound) :
    w.Sound := by
  rcases v with ⟨here, there, asked, endingHere, endingThere⟩
  rcases hv with ⟨h₁, h₂, h₃, h₄, h₅⟩
  unfold Ordered at hord
  cases h <;> constructor <;> simp_all

/-- So does everything else that can happen to the id. -/
theorem Step.sound {v w : Link} (h : Step v w) (hord : Ordered v w) (hv : v.Sound) : w.Sound := by
  cases h with
  | arrival h => exact h.sound hord hv
  | _ h =>
    rcases v with ⟨here, there, asked, endingHere, endingThere⟩
    rcases hv with ⟨h₁, h₂, h₃, h₄, h₅⟩
    constructor <;> simp_all

/-- With nothing in flight the ends agree. -/
theorem Sound.agree {v : Link} (h : v.Sound) (hask : v.asked = false)
    (hhere : v.endingHere = false) (hthere : v.endingThere = false) : v.here = v.there := by
  rcases h with ⟨-, -, -, h₄, h₅⟩
  cases hh : v.here <;> cases ht : v.there <;> simp_all

/-- The stream is over for the opener, and nobody will tell the other node. -/
def HalfOpen (v : Link) : Prop :=
  v.here = false ∧ (v.there = true ∨ v.asked = true) ∧ v.endingHere = false ∧
    v.endingThere = false

/-- No arrival closes a half-open stream: nothing in flight would end it. -/
theorem Arrival.halfOpen {v w : Link} (h : Arrival v w) (hv : v.HalfOpen) : w.HalfOpen := by
  rcases hv with ⟨hhere, hthere, hendHere, hendThere⟩
  cases h with
  | skip => exact ⟨hhere, hthere, hendHere, hendThere⟩
  | arrive h => exact ⟨hhere, Or.inl rfl, hendHere, hendThere⟩
  | endHere h => exact absurd h (Bool.eq_false_iff.mp hendHere)
  | endThere h => exact absurd h (Bool.eq_false_iff.mp hendThere)

end Link

namespace StreamPair

/-! ## Two nodes -/

/-- The stream a message asks for. -/
def requestOf : StreamMessage → Option UInt64
  | .requestStream id _ => some id
  | _ => none

/-- The stream a message ends. -/
def endOf : StreamMessage → Option UInt64
  | .rejectStream id _ | .closeStream id => some id
  | _ => none

/-- The requests in flight. -/
def requests (s : StreamPair) : List UInt64 := s.flight.filterMap fun m => requestOf m.msg

/-- The ends of streams in flight to `i`. -/
def endings (s : StreamPair) (i : Bool) : List UInt64 :=
  s.flight.filterMap fun m => if m.dest = i then endOf m.msg else none

/-- The id is in the table of `i`, as a stream with the other node. -/
def Knows (s : StreamPair) (i : Bool) (id : UInt64) : Prop :=
  ∃ e, s.Entry i id e ∧ e.peer = !i

/-- With no message in flight both tables have the same ids. -/
def EndsAgree (s : StreamPair) : Prop := s.flight = [] → ∀ id, s.Knows false id ↔ s.Knows true id

/-- Streams are opened by `a` only. -/
def OpenedBy (a : Bool) : Label → Prop
  | .open i _ _ => i = a
  | .act _ _ _ | .deliver _ => True

instance (a : Bool) : ∀ l, Decidable (OpenedBy a l)
  | .open i _ _ => inferInstanceAs (Decidable (i = a))
  | .act _ _ _ | .deliver _ => inferInstanceAs (Decidable True)

/-- An end of a stream does not arrive before its request. -/
def NoOvertaking (s : StreamPair) : Label → Prop
  | .deliver m => endOf m.msg ∉ s.requests.map some
  | .open _ _ _ | .act _ _ _ => True

instance (s : StreamPair) : ∀ l, Decidable (s.NoOvertaking l)
  | .deliver m => inferInstanceAs (Decidable (endOf m.msg ∉ s.requests.map some))
  | .open _ _ _ | .act _ _ _ => inferInstanceAs (Decidable True)

/-- One id in the state `s`, opened by `a` if at all. -/
def link (a : Bool) (s : StreamPair) (id : UInt64) : Link where
  here := ((s.rt a).streams.get? id).isSome
  there := ((s.rt (!a)).streams.get? id).isSome
  asked := id ∈ s.requests
  endingHere := id ∈ s.endings a
  endingThere := id ∈ s.endings (!a)

/-- Requests go to the other node, one for each stream, and each node is told
once that a stream has ended. -/
structure FlightInv (a : Bool) (s : StreamPair) : Prop where
  base : s.Inv
  toOther : ∀ m ∈ s.flight, requestOf m.msg ≠ none → m.dest = !a
  requests : s.requests.Nodup
  endings : ∀ i, (s.endings i).Nodup

/-- What every orderly run keeps. -/
structure EndsInv (a : Bool) (s : StreamPair) : Prop extends FlightInv a s where
  link : ∀ id, (link a s id).Sound

/-! ## Messages in flight -/

section Flight

variable {s t : StreamPair} {m : Packet}

/-- A packet put in flight adds the request it may carry. -/
theorem requests_cons (h : t.flight = m :: s.flight) :
    t.requests = (requestOf m.msg).toList ++ s.requests := by
  unfold requests
  rw [h, List.filterMap_cons]
  cases requestOf m.msg <;> rfl

/-- It adds the ending it may carry, towards the side it is sent to. -/
theorem endings_cons (h : t.flight = m :: s.flight) (i : Bool) :
    t.endings i = (if m.dest = i then endOf m.msg else none).toList ++ s.endings i := by
  unfold endings
  rw [h, List.filterMap_cons]
  cases (if m.dest = i then endOf m.msg else none) <;> rfl

/-- A packet taken out of flight takes the request it may carry. -/
theorem requests_erase (hm : m ∈ s.flight) (h : t.flight = s.flight.erase m) :
    s.requests.Perm ((requestOf m.msg).toList ++ t.requests) := by
  unfold requests
  rw [h]
  refine ((List.perm_cons_erase hm).filterMap _).trans ?_
  rw [List.filterMap_cons]
  cases requestOf m.msg <;> exact .refl _

/-- It takes the ending it may carry, from the side it was sent to. -/
theorem endings_erase (hm : m ∈ s.flight) (h : t.flight = s.flight.erase m) (i : Bool) :
    (s.endings i).Perm ((if m.dest = i then endOf m.msg else none).toList ++ t.endings i) := by
  unfold endings
  rw [h]
  refine ((List.perm_cons_erase hm).filterMap _).trans ?_
  rw [List.filterMap_cons]
  cases (if m.dest = i then endOf m.msg else none) <;> exact .refl _

/-- The requests in flight are those the packets carry. -/
theorem mem_requests {id : UInt64} :
    id ∈ s.requests ↔ ∃ m ∈ s.flight, requestOf m.msg = some id := List.mem_filterMap

/-- The endings in flight to a side are those its packets carry. -/
theorem mem_endings {i : Bool} {id : UInt64} :
    id ∈ s.endings i ↔ ∃ m ∈ s.flight, m.dest = i ∧ endOf m.msg = some id := by
  unfold endings
  rw [List.mem_filterMap]
  refine exists_congr fun m => and_congr_right fun _ => ?_
  split_ifs with h <;> simp [h]

/-- A request names the stream it opens. -/
theorem named_of_requestOf {msg : StreamMessage} {id : UInt64} (h : requestOf msg = some id) :
    Runtime.namedStream msg = some id := by
  cases msg <;> cases h
  rfl

/-- An ending names the stream it ends. -/
theorem named_of_endOf {msg : StreamMessage} {id : UInt64} (h : endOf msg = some id) :
    Runtime.namedStream msg = some id := by
  cases msg <;> cases h <;> rfl

end Flight

/-! ## Steps -/

section Steps

variable {lib : External Bool} {s t : StreamPair} {a : Bool}

/-- What a stream command does: nothing, or something to one entry, with a
message to the other node. -/
theorem step_act {i : Bool} {env : Env Bool} {cmd : Command} (h : s.Inv)
    (hstep : (streamPair lib).step s (.act i env cmd) = some t) :
    (t.rt = s.rt ∧ t.flight = s.flight) ∨
    ∃ id e rt msg stream, Runtime.commandStream cmd = some id ∧ s.Entry i id e ∧
      (∀ j, rt.streams.get? j =
        if j = id then (Runtime.commandEntry cmd e).1 else (s.rt i).streams.get? j) ∧
      t.rt = Function.update s.rt i rt ∧ (Runtime.commandEntry cmd e).2 = some msg ∧
      t.flight = ⟨!i, msg, stream⟩ :: s.flight := by
  simp only [streamPair, step] at hstep
  cases hcmd : Runtime.commandStream cmd with
  | none =>
    rw [hcmd] at hstep
    cases hstep
  | some id =>
    simp only [hcmd, Option.some.injEq] at hstep
    cases hget : (s.rt i).streams.get? id with
    | none =>
      -- the id is unknown: neither table nor flight changes
      obtain ⟨hsame, hsent⟩ :=
        @Runtime.handleCommand_not_found Bool _ lib env (s.rt i) cmd id hcmd hget
      left
      rw [← hstep]
      constructor
      · dsimp only
        rw [hsame, Function.update_eq_self]
      · have hnone : ∀ stream, packets ((s.rt i).handleCommand lib env cmd).2 stream = [] := by
          intro stream
          unfold packets
          rw [hsent]
          rfl
        dsimp only
        cases s.stands i id with
        | none => rfl
        | some stream => exact congrArg (· ++ s.flight) (hnone stream)
    | some e =>
      -- every stream command tells the other node
      obtain ⟨hrt, hsent⟩ := @Runtime.handleCommand_found Bool _ lib env (s.rt i) cmd id e hcmd hget
      obtain ⟨stream, hstands, hpeer, -, -⟩ := h.entry i id e hget
      obtain ⟨msg, hmsg⟩ : ∃ msg, (Runtime.commandEntry cmd e).2 = some msg := by
        cases cmd <;> cases hcmd <;> exact ⟨_, rfl⟩
      right
      refine ⟨id, e, _, msg, stream, rfl, hget, hrt, by rw [← hstep], hmsg, ?_⟩
      rw [← hstep]
      dsimp only
      rw [hstands]
      simp only [Option.elim, packets, hsent, hmsg, hpeer]
      rfl

/-- A command that keeps its entry sends a message that neither asks nor ends. -/
theorem commandEntry_cases {cmd : Command} {id : UInt64}
    (hcmd : Runtime.commandStream cmd = some id) {e : StreamState Bool} {msg : StreamMessage}
    (hmsg : (Runtime.commandEntry cmd e).2 = some msg) : requestOf msg = none ∧
      (((Runtime.commandEntry cmd e).1.isSome = true ∧ endOf msg = none) ∨
        ((Runtime.commandEntry cmd e).1 = none ∧ endOf msg = some id)) := by
  cases cmd with
  | acceptStream sid | sendStreamData sid data =>
    cases hcmd
    cases hmsg
    exact ⟨rfl, Or.inl ⟨rfl, rfl⟩⟩
  | rejectStream sid reason | closeStream sid =>
    cases hcmd
    cases hmsg
    exact ⟨rfl, Or.inr ⟨rfl, rfl⟩⟩
  | _ => cases hcmd

/-- The same entries and messages make the same link. -/
theorem link_congr {id : UInt64}
    (hrt : ∀ k, ((t.rt k).streams.get? id).isSome = ((s.rt k).streams.get? id).isSome)
    (hrequests : id ∈ t.requests ↔ id ∈ s.requests)
    (hendings : ∀ k, id ∈ t.endings k ↔ id ∈ s.endings k) : link a t id = link a s id := by
  ext1
  · exact hrt a
  · exact hrt (!a)
  · exact decide_eq_decide.mpr hrequests
  · exact decide_eq_decide.mpr (hendings a)
  · exact decide_eq_decide.mpr (hendings (!a))

/-- An end of the stream `id` is sent by `i`, whose entry is gone. -/
theorem link_finish {i : Bool} {id : UInt64} {rt : Runtime Bool} {m : Packet}
    (hrt : t.rt = Function.update s.rt i rt) (hold : ((s.rt i).streams.get? id).isSome = true)
    (hnew : rt.streams.get? id = none) (hflight : t.flight = m :: s.flight) (hdest : m.dest = !i)
    (hreq : requestOf m.msg = none) (hend : endOf m.msg = some id) :
    (link a s id).Step (link a t id) := by
  -- no request, and one end towards the other side
  have hrequests : t.requests = s.requests := by
    rw [requests_cons hflight]
    simp only [hreq, Option.toList_none, List.nil_append]
  have hself : t.endings i = s.endings i := by
    rw [endings_cons hflight]
    simp [hdest]
  have hother : t.endings (!i) = id :: s.endings (!i) := by
    rw [endings_cons hflight]
    simp [hdest, hend]
  have hne : (!i) ≠ i := Bool.not_ne_self i
  -- the opener ends the stream
  by_cases hi : i = a
  · subst hi
    have hlink : link i t id = { link i s id with here := false, endingThere := true } := by
      simp [link, hrt, hnew, hrequests, hself, hother]
    rw [hlink]
    exact .finishHere hold
  · -- the other node does
    have hi' : i = !a := Bool.eq_not.mpr hi
    subst hi'
    rw [Bool.not_not] at hother
    have hlink : link a t id = { link a s id with there := false, endingHere := true } := by
      simp [link, hrt, hnew, hrequests, hself, hother]
    rw [hlink]
    exact .finishThere hold

/-- A command of either node takes a step on every id. -/
theorem link_act {i : Bool} {env : Env Bool} {cmd : Command} (h : s.Inv)
    (hstep : (streamPair lib).step s (.act i env cmd) = some t) (id : UInt64) :
    (link a s id).Step (link a t id) := by
  rcases step_act h hstep with ⟨hrt, hflight⟩ |
    ⟨j, e, rt, msg, stream, hcmd, he, hget, hrt, hmsg, hflight⟩
  · have hsame : link a t id = link a s id := by
      apply link_congr
      · rw [hrt]
        exact fun _ => rfl
      · simp only [requests, hflight]
      · simp only [endings, hflight, implies_true]
    rw [hsame]
    exact .arrival .skip
  · have hold : ((s.rt i).streams.get? j).isSome = true := by
      rw [show (s.rt i).streams.get? j = some e from he]
      rfl
    obtain ⟨hreq, hcase⟩ := commandEntry_cases hcmd hmsg
    by_cases hgone : id = j ∧ (Runtime.commandEntry cmd e).1 = none
    · -- the entry is gone, and the other node will be told
      rcases hgone with ⟨rfl, hnone⟩
      rcases hcase with ⟨hsome, -⟩ | ⟨-, hend⟩
      · rw [hnone] at hsome
        cases hsome
      · have hnew : rt.streams.get? id = none := by
          rw [hget, if_pos rfl, hnone]
        exact link_finish hrt hold hnew hflight rfl hreq hend
    · -- the entry is kept, or the command is about another id
      have hsame : link a t id = link a s id := by
        apply link_congr
        · intro k
          rw [hrt]
          by_cases hk : k = i
          · subst hk
            rw [Function.update_self, hget]
            split_ifs with hid
            · subst hid
              rw [hold, Option.isSome_iff_ne_none]
              exact fun hnone => hgone ⟨rfl, hnone⟩
            · rfl
          · rw [Function.update_of_ne hk]
        · rw [requests_cons hflight]
          simp [hreq]
        · intro k
          rw [endings_cons hflight]
          rcases hcase with ⟨-, hend⟩ | ⟨hnone, hend⟩
          · simp [hend]
          · have hid : id ≠ j := fun hid => hgone ⟨hid, hnone⟩
            simp only [hend]
            split_ifs <;> simp [hid]
      rw [hsame]
      exact .arrival .skip

/-- A request with a fresh id takes a step on every id: it opens its own and touches no other. -/
theorem link_open {env : Env Bool} {reason : String} (hfresh : s.FreshId (.open a env reason))
    (hstep : (streamPair lib).step s (.open a env reason) = some t) (id : UInt64) :
    (link a s id).Step (link a t id) := by
  rcases hfresh with ⟨htable, hquiet⟩
  obtain ⟨rt, hget, hrt, -, hflight, -⟩ := step_open hstep
  -- the request is in flight, and no end
  have hrequests : t.requests = (s.rt a).nextStreamId :: s.requests := requests_cons hflight
  have hendings : ∀ k, t.endings k = s.endings k := by
    intro k
    rw [endings_cons hflight]
    split_ifs <;> rfl
  have hne : (!a) ≠ a := Bool.not_ne_self a
  by_cases hid : id = (s.rt a).nextStreamId
  · -- a fresh id: nobody knows it, and nothing in flight names it
    have hasked : id ∉ s.requests := by
      intro hmem
      obtain ⟨m, hm, hreq⟩ := mem_requests.mp hmem
      exact hquiet m hm (hid ▸ named_of_requestOf hreq)
    have hended : ∀ k, id ∉ s.endings k := by
      intro k hmem
      obtain ⟨m, hm, -, hend⟩ := mem_endings.mp hmem
      exact hquiet m hm (hid ▸ named_of_endOf hend)
    have hlink : link a t id = { link a s id with here := true, asked := true } := by
      simp [link, hrt, hget, hrequests, hendings, hid]
    rw [hlink]
    refine .open ?_
    rw [← hid] at htable
    simp [link, htable, hasked, hended]
  · -- another id
    have hsame : link a t id = link a s id := by
      apply link_congr
      · intro k
        rw [hrt]
        by_cases hk : k = a
        · rw [hk, Function.update_self, hget, if_neg hid]
        · rw [Function.update_of_ne hk]
      · rw [hrequests, List.mem_cons]
        exact or_iff_right hid
      · intro k
        rw [hendings]
    rw [hsame]
    exact .arrival .skip

/-- What a delivery does to tables and flight. -/
theorem step_deliver {m : Packet} (hstep : (streamPair lib).step s (.deliver m) = some t) :
    m ∈ s.flight ∧ t.flight = s.flight.erase m ∧
      t.rt = Function.update s.rt m.dest
        ((s.rt m.dest).handleStreamMessage lib (!m.dest) m.msg).1 := by
  simp only [streamPair, step] at hstep
  split_ifs at hstep with hm
  rw [Option.some.injEq] at hstep
  rw [← hstep]
  exact ⟨hm, rfl, rfl⟩

/-- The only request of a stream arrives. -/
theorem link_arrive {m : Packet} {id : UInt64} (h : FlightInv a s)
    (hstep : (streamPair lib).step s (.deliver m) = some t) (hreq : requestOf m.msg = some id) :
    (link a s id).Arrival (link a t id) := by
  obtain ⟨hm, hflight, hrt⟩ := step_deliver hstep
  have hrequests := requests_erase hm hflight
  have hdest : m.dest = !a := h.toOther m hm (by rw [hreq]; exact nofun)
  have hend : endOf m.msg = none := by
    cases hmsg : m.msg <;> rw [hmsg] at hreq <;> cases hreq
    rfl
  -- the request was in flight once, so it has arrived
  have hgone : id ∉ t.requests := by
    have hnodup := hrequests.nodup_iff.mp h.requests
    rw [hreq] at hnodup
    exact (List.nodup_cons.mp hnodup).1
  have hsame : ∀ k, id ∈ t.endings k ↔ id ∈ s.endings k := by
    intro k
    rw [(endings_erase hm hflight k).mem_iff]
    simp [hend]
  -- it has made the entry
  have hget : (((s.rt (!a)).handleStreamMessage lib a m.msg).1.streams.get? id).isSome = true := by
    rw [Runtime.get?_handleStreamMessage (named_of_requestOf hreq), if_pos rfl]
    cases hmsg : m.msg <;> rw [hmsg] at hreq <;> cases hreq
    rfl
  have hne : a ≠ !a := (Bool.not_ne_self a).symm
  have hlink : link a t id = { link a s id with there := true, asked := false } := by
    rw [hdest, Bool.not_not] at hrt
    simp [link, hrt, hget, hgone, hsame, hne]
  rw [hlink]
  refine .arrive (decide_eq_true ?_)
  exact mem_requests.mpr ⟨m, hm, hreq⟩

/-- The only end of a stream on its way to one side arrives. -/
theorem link_ended {m : Packet} {id : UInt64} (h : FlightInv a s)
    (hstep : (streamPair lib).step s (.deliver m) = some t) (hend : endOf m.msg = some id) :
    ((link a s id).endingHere = true ∧
      link a t id = { link a s id with here := false, endingHere := false }) ∨
    ((link a s id).endingThere = true ∧
      link a t id = { link a s id with there := false, endingThere := false }) := by
  obtain ⟨hm, hflight, hrt⟩ := step_deliver hstep
  -- the end was in flight once as well
  have hreq : requestOf m.msg = none := by
    cases hmsg : m.msg <;> rw [hmsg] at hend <;> cases hend <;> rfl
  have hrequests : id ∈ t.requests ↔ id ∈ s.requests := by
    rw [(requests_erase hm hflight).mem_iff]
    simp [hreq]
  have hmem : id ∈ s.endings m.dest := mem_endings.mpr ⟨m, hm, rfl, hend⟩
  have hgone : id ∉ t.endings m.dest := by
    have hnodup := (endings_erase hm hflight m.dest).nodup_iff.mp (h.endings m.dest)
    rw [if_pos rfl, hend] at hnodup
    exact (List.nodup_cons.mp hnodup).1
  have hother : id ∈ t.endings (!m.dest) ↔ id ∈ s.endings (!m.dest) := by
    rw [(endings_erase hm hflight (!m.dest)).mem_iff, if_neg (Bool.not_ne_self m.dest).symm]
    rfl
  -- and no entry is left
  have hget : ((s.rt m.dest).handleStreamMessage lib (!m.dest) m.msg).1.streams.get? id =
      none := by
    rw [Runtime.get?_handleStreamMessage (named_of_endOf hend), if_pos rfl]
    cases hmsg : m.msg <;> rw [hmsg] at hend <;> cases hend
    · cases (s.rt m.dest).streams.get? id <;> rfl
    · rfl
  have hne : (!a) ≠ a := Bool.not_ne_self a
  -- it arrives at the opener
  by_cases hdest : m.dest = a
  · rw [hdest] at hrt hmem hgone hother hget
    refine Or.inl ⟨decide_eq_true hmem, ?_⟩
    simp [link, hrt, hget, hrequests, hgone, hother]
  · -- it arrives at the other node
    rw [Bool.eq_not.mpr hdest, Bool.not_not] at hrt hother hget
    rw [Bool.eq_not.mpr hdest] at hmem hgone
    refine Or.inr ⟨decide_eq_true hmem, ?_⟩
    simp [link, hrt, hget, hrequests, hgone, hother]

/-- Any other message leaves the link alone. -/
theorem link_other {m : Packet} {id : UInt64}
    (hstep : (streamPair lib).step s (.deliver m) = some t) (hreq : requestOf m.msg ≠ some id)
    (hend : endOf m.msg ≠ some id) : link a t id = link a s id := by
  obtain ⟨hm, hflight, hrt⟩ := step_deliver hstep
  apply link_congr
  · intro k
    rw [hrt]
    by_cases hk : k = m.dest
    · subst hk
      rw [Function.update_self]
      cases hn : Runtime.namedStream m.msg with
      | none =>
        cases hmsg : m.msg <;> rw [hmsg] at hn <;> cases hn
        rfl
      | some i =>
        rw [Runtime.get?_handleStreamMessage hn]
        split_ifs with hid
        · -- acceptance or data
          subst hid
          cases hmsg : m.msg <;> rw [hmsg] at hn hreq hend <;> cases hn
          · exact absurd rfl hreq
          · cases (s.rt m.dest).streams.get? id <;> rfl
          · exact absurd rfl hend
          · cases (s.rt m.dest).streams.get? id <;> rfl
          · exact absurd rfl hend
        · rfl
    · rw [Function.update_of_ne hk]
  · rw [(requests_erase hm hflight).mem_iff, List.mem_append, Option.mem_toList]
    exact (or_iff_right hreq).symm
  · intro k
    rw [(endings_erase hm hflight k).mem_iff, List.mem_append, Option.mem_toList]
    refine (or_iff_right ?_).symm
    split_ifs
    · exact hend
    · exact nofun

/-- A delivery is an arrival on the id the message names, and leaves the others alone. -/
theorem link_deliver {m : Packet} (h : FlightInv a s)
    (hstep : (streamPair lib).step s (.deliver m) = some t) (id : UInt64) :
    (link a s id).Arrival (link a t id) := by
  by_cases hreq : requestOf m.msg = some id
  · exact link_arrive h hstep hreq
  · by_cases hend : endOf m.msg = some id
    · rcases link_ended h hstep hend with ⟨hending, hlink⟩ | ⟨hending, hlink⟩
      · rw [hlink]
        exact .endHere hending
      · rw [hlink]
        exact .endThere hending
    · rw [link_other hstep hreq hend]
      exact .skip

/-- Who has an entry is not being told of its end. -/
theorem EndsInv.not_ending {i : Bool} {id : UInt64} (h : EndsInv a s)
    (hentry : ((s.rt i).streams.get? id).isSome = true) : id ∉ s.endings (!i) := by
  intro hmem
  by_cases hi : i = a
  · subst hi
    have hgone := (h.link id).ended (decide_eq_true hmem)
    exact absurd hentry (Bool.eq_false_iff.mp hgone)
  · have hi' : i = !a := Bool.eq_not.mpr hi
    subst hi'
    rw [Bool.not_not] at hmem
    have hgone := ((h.link id).refused (decide_eq_true hmem)).1
    exact absurd hentry (Bool.eq_false_iff.mp hgone)

/-- A command keeps the invariant. -/
theorem ends_act_inv {i : Bool} {env : Env Bool} {cmd : Command} (h : EndsInv a s)
    (hstep : (streamPair lib).step s (.act i env cmd) = some t) : EndsInv a t := by
  have hlink : ∀ id, (link a s id).Step (link a t id) := link_act h.base hstep
  have hbase : t.Inv := act_inv h.base hstep
  rcases step_act h.base hstep with ⟨hrt, hflight⟩ |
    ⟨j, e, rt, msg, stream, hcmd, he, hget, hrt, hmsg, hflight⟩
  · -- nothing is sent
    have hends : t.endings = s.endings := by
      funext k
      simp only [endings, hflight]
    have hreqs : t.requests = s.requests := by
      simp only [requests, hflight]
    refine ⟨⟨hbase, hflight ▸ h.toOther, hreqs ▸ h.requests, hends ▸ h.endings⟩, ?_⟩
    intro id
    refine (hlink id).sound ?_ (h.link id)
    intro hthere hgone
    simp only [link, hends] at hthere hgone
    rw [hthere] at hgone
    cases hgone
  · -- at most an end is sent, by a node that had the entry until now
    obtain ⟨hreq, hcase⟩ := commandEntry_cases hcmd hmsg
    have hreqs : t.requests = s.requests := by
      rw [requests_cons hflight]
      simp only [hreq, Option.toList_none, List.nil_append]
    have hends : ∀ k, t.endings k = s.endings k ∨ (k = !i ∧ t.endings k = j :: s.endings k) := by
      intro k
      rw [endings_cons hflight]
      rcases hcase with ⟨-, hend⟩ | ⟨-, hend⟩
      · left
        simp [hend]
      · by_cases hk : k = !i
        · subst hk
          right
          simp [hend]
        · left
          rw [if_neg fun heq => hk heq.symm]
          rfl
    refine ⟨⟨hbase, ?_, hreqs ▸ h.requests, ?_⟩, ?_⟩
    · -- requests go to the other node
      intro m hm hne
      rw [hflight] at hm
      rcases List.mem_cons.mp hm with rfl | hm
      · exact absurd hreq hne
      · exact h.toOther m hm hne
    · -- an end is in flight once
      intro k
      rcases hends k with heq | ⟨rfl, heq⟩
      · rw [heq]
        exact h.endings k
      · rw [heq, List.nodup_cons]
        refine ⟨h.not_ending ?_, h.endings _⟩
        rw [show (s.rt i).streams.get? j = some e from he]
        rfl
    · -- no end overtakes a request here
      intro id
      refine (hlink id).sound ?_ (h.link id)
      intro hthere hgone
      have hmem : id ∈ s.endings (!a) := of_decide_eq_true hthere
      have hnot : id ∉ t.endings (!a) := of_decide_eq_false hgone
      rcases hends (!a) with heq | ⟨-, heq⟩
      · rw [heq] at hnot
        exact absurd hmem hnot
      · rw [heq] at hnot
        exact absurd (List.mem_cons_of_mem j hmem) hnot

/-- A request with a fresh id keeps the invariant. -/
theorem ends_open_inv {env : Env Bool} {reason : String} (h : EndsInv a s)
    (hfresh : s.FreshId (.open a env reason))
    (hstep : (streamPair lib).step s (.open a env reason) = some t) : EndsInv a t := by
  have hlink : ∀ id, (link a s id).Step (link a t id) := link_open hfresh hstep
  have hbase : t.Inv := open_inv h.base hfresh hstep
  obtain ⟨rt, -, -, -, hflight, -⟩ := step_open hstep
  -- no end is sent
  have hends : t.endings = s.endings := by
    funext k
    rw [endings_cons hflight]
    split_ifs <;> rfl
  refine ⟨⟨hbase, ?_, ?_, hends ▸ h.endings⟩, ?_⟩
  · -- the request goes to the other node
    intro m hm hne
    rw [hflight] at hm
    rcases List.mem_cons.mp hm with rfl | hm
    · rfl
    · exact h.toOther m hm hne
  · -- its id is fresh
    rw [requests_cons hflight]
    refine List.nodup_cons.mpr ⟨?_, h.requests⟩
    intro hmem
    obtain ⟨m, hm, hreq⟩ := mem_requests.mp hmem
    exact hfresh.2 m hm (named_of_requestOf hreq)
  · -- no end arrives
    intro id
    refine (hlink id).sound ?_ (h.link id)
    intro hthere hgone
    simp only [link, hends] at hthere hgone
    rw [hthere] at hgone
    cases hgone

/-- What a delivery keeps, whatever is delivered. -/
theorem flight_deliver {m : Packet} (h : FlightInv a s)
    (hstep : (streamPair lib).step s (.deliver m) = some t) : FlightInv a t := by
  obtain ⟨hm, hflight, -⟩ := step_deliver hstep
  refine ⟨deliver_inv h.base hstep, ?_, ?_, ?_⟩
  · intro m' hm'
    rw [hflight] at hm'
    exact h.toOther m' (List.mem_of_mem_erase hm')
  · exact (List.nodup_append.mp ((requests_erase hm hflight).nodup_iff.mp h.requests)).2.1
  · intro i
    exact (List.nodup_append.mp ((endings_erase hm hflight i).nodup_iff.mp (h.endings i))).2.1

/-- A delivery that overtakes nothing keeps the invariant. -/
theorem ends_deliver_inv {m : Packet} (h : EndsInv a s) (hord : s.NoOvertaking (.deliver m))
    (hstep : (streamPair lib).step s (.deliver m) = some t) : EndsInv a t := by
  refine ⟨flight_deliver h.toFlightInv hstep, ?_⟩
  intro id
  refine (link_deliver h.toFlightInv hstep id).sound ?_ (h.link id)
  intro hthere hgone
  by_cases hend : endOf m.msg = some id
  · refine decide_eq_false fun hreq => hord ?_
    rw [hend]
    exact List.mem_map_of_mem hreq
  · -- no end of this stream has arrived
    obtain ⟨hm, hflight, -⟩ := step_deliver hstep
    have hmem : id ∈ s.endings (!a) := of_decide_eq_true hthere
    rw [(endings_erase hm hflight (!a)).mem_iff, List.mem_append, Option.mem_toList] at hmem
    refine absurd (hmem.resolve_left ?_) (of_decide_eq_false hgone)
    split_ifs
    · exact hend
    · exact nofun

/-- The condition on a step. -/
def EndsOk (s : StreamPair) (l : Label) : Prop := s.FreshId l ∧ s.NoOvertaking l

instance (s : StreamPair) (l : Label) : Decidable (s.EndsOk l) :=
  inferInstanceAs (Decidable (s.FreshId l ∧ s.NoOvertaking l))

/-- Every step the claim allows keeps the invariant. -/
theorem ends_step_inv (s : StreamPair) (l : Label) (t : StreamPair)
    (hstep : (streamPair lib).step s l = some t) (hok : s.EndsOk l ∧ OpenedBy a l)
    (h : EndsInv a s) : EndsInv a t := by
  rcases hok with ⟨⟨hfresh, hord⟩, hopen⟩
  cases l with
  | «open» i env reason =>
    cases hopen
    exact ends_open_inv h hfresh hstep
  | act i env cmd => exact ends_act_inv h hstep
  | deliver m => exact ends_deliver_inv h hord hstep

/-! ## Runs -/

/-- A node knows a stream exactly if its table has an entry for it. -/
theorem knows_iff (h : s.Inv) {i : Bool} {id : UInt64} :
    s.Knows i id ↔ ((s.rt i).streams.get? id).isSome = true := by
  rw [Option.isSome_iff_exists]
  constructor
  · rintro ⟨e, he, -⟩
    exact ⟨e, he⟩
  · rintro ⟨e, he⟩
    obtain ⟨_, _, hpeer, _⟩ := h.entry i id e he
    exact ⟨e, he, hpeer⟩

/-- Both nodes know the same ids exactly if all links are symmetric. -/
theorem knows_iff_link (h : s.Inv) (a : Bool) (id : UInt64) :
    (s.Knows false id ↔ s.Knows true id) ↔ (link a s id).here = (link a s id).there := by
  rw [knows_iff h, knows_iff h, ← Bool.eq_iff_iff]
  cases a
  · exact Iff.rfl
  · exact eq_comm

/-- Under the invariant the two nodes agree once the messages of an id have arrived. -/
theorem EndsInv.agree (h : EndsInv a s) : s.EndsAgree := by
  intro hquiet id
  rw [knows_iff_link h.base a]
  have hreqs : s.requests = [] := by
    simp only [requests, hquiet, List.filterMap_nil]
  have hends : ∀ k, s.endings k = [] := by
    intro k
    simp only [endings, hquiet, List.filterMap_nil]
  have hnoEnd : ∀ k, id ∉ s.endings k := by
    intro k
    rw [hends]
    exact List.not_mem_nil
  refine (h.link id).agree (decide_eq_false ?_) (decide_eq_false (hnoEnd a))
    (decide_eq_false (hnoEnd (!a)))
  rw [hreqs]
  exact List.not_mem_nil

/-- Two nodes without streams satisfy the invariant. -/
theorem init_ends {s : StreamPair} (h : (streamPair lib).Init s) : EndsInv a s := by
  have hflight : s.flight = [] := h.2.2
  have hreqs : s.requests = [] := by
    simp only [requests, hflight, List.filterMap_nil]
  have hends : ∀ k, s.endings k = [] := by
    intro k
    simp only [endings, hflight, List.filterMap_nil]
  refine ⟨⟨init_inv h, ?_, ?_, ?_⟩, ?_⟩
  · -- nothing is in flight
    intro m hm
    rw [hflight] at hm
    cases hm
  · rw [hreqs]
    exact List.nodup_nil
  · intro k
    rw [hends]
    exact List.nodup_nil
  · -- no table has the id
    intro id
    have hempty : ∀ k, (s.rt k).streams.get? id = none := by
      intro k
      obtain ⟨now, hk⟩ := h.1 k
      rw [hk]
      rfl
    have hlink : link a s id = ⟨false, false, false, false, false⟩ := by
      simp [link, hreqs, hends, hempty]
    rw [hlink]
    constructor <;> simp

variable (lib) in
/-- A half-open stream stays half-open until all messages have arrived. -/
theorem drain {id : UInt64} (h : FlightInv a s) (hhalf : (link a s id).HalfOpen) :
    ∃ ks v, (streamPair lib).run s ks = some v ∧ v.flight = [] ∧ FlightInv a v ∧
      (link a v id).HalfOpen := by
  induction hn : s.flight.length generalizing s with
  | zero => exact ⟨[], s, rfl, List.length_eq_zero_iff.mp hn, h, hhalf⟩
  | succ n ih =>
    obtain ⟨m, hm⟩ := List.exists_mem_of_length_eq_add_one hn
    obtain ⟨t, ht⟩ : ∃ t, (streamPair lib).step s (.deliver m) = some t := ⟨_, if_pos hm⟩
    have hlen : t.flight.length = n := by
      rw [(step_deliver ht).2.1, List.length_erase_of_mem hm, hn]
      rfl
    obtain ⟨ks, v, hrun, hv⟩ :=
      ih (flight_deliver h ht) ((link_deliver h ht id).halfOpen hhalf) hlen
    exact ⟨.deliver m :: ks, v, (streamPair lib).run_cons_eq_some.mpr ⟨t, ht, hrun⟩, hv⟩

/-- An end that has overtaken its request leaves the stream half-open. -/
theorem overtaken {m : Packet} (h : EndsInv a s) (hbad : ¬ s.NoOvertaking (.deliver m))
    (hstep : (streamPair lib).step s (.deliver m) = some t) :
    ∃ id, (link a t id).HalfOpen := by
  obtain ⟨id, hend, hreq⟩ : ∃ id, endOf m.msg = some id ∧ id ∈ s.requests := by
    obtain ⟨id, hreq, hend⟩ := List.mem_map.mp (not_not.mp hbad)
    exact ⟨id, hend.symm, hreq⟩
  refine ⟨id, ?_⟩
  have hasked : (link a s id).asked = true := decide_eq_true hreq
  have hnotHere : (link a s id).endingHere = false := by
    rw [Bool.eq_false_iff]
    intro hending
    exact Bool.eq_false_iff.mp ((h.link id).refused hending).2 hasked
  rcases link_ended h.toFlightInv hstep hend with ⟨hending, -⟩ | ⟨hending, hlink⟩
  · exact absurd hending (Bool.eq_false_iff.mp hnotHere)
  · rw [hlink]
    exact ⟨(h.link id).ended hending, Or.inr hasked, hnotHere, rfl⟩

end Steps

/-- **Both ends agree**: if only `a` opens streams, with fresh ids, and no end of a
stream arrives while the request of that stream is still in flight, both nodes
know the same ids in every state of the run with nothing in flight. If after
such a run an end does overtake its request, they differ as soon as everything
in flight has arrived. -/
theorem ends_agree (lib : External Bool) (a : Bool) (s : StreamPair)
    (h₀ : (streamPair lib).Init s) (ls : List Label) (hopen : ∀ l ∈ ls, OpenedBy a l)
    (hok : (streamPair lib).AllSteps EndsOk s ls) :
    (streamPair lib).AllStates EndsAgree s ls ∧
      ∀ t m u, (streamPair lib).run s ls = some t → ¬ t.NoOvertaking (.deliver m) →
        (streamPair lib).step t (.deliver m) = some u →
        ∃ ks v, (streamPair lib).run u ks = some v ∧ v.flight = [] ∧ ¬ v.EndsAgree := by
  have hopen' : (streamPair lib).AllSteps (fun _ l => OpenedBy a l) s ls :=
    Machine.AllSteps.of_mem _ (fun l hl _ => hopen l hl) s
  have hboth : (streamPair lib).AllSteps (fun s l => s.EndsOk l ∧ OpenedBy a l) s ls :=
    Machine.AllSteps.and _ hok hopen'
  constructor
  · -- the invariant over the run
    have hinv : (streamPair lib).AllStates (EndsInv a) s ls :=
      (streamPair lib).allStates_of_allSteps ends_step_inv (init_ends h₀) hboth
    exact Machine.AllStates.mono _ (fun _ h => h.agree) hinv
  · -- an end overtakes its request: deliver the rest
    intro t m u hrun hbad hstep
    have hinv : EndsInv a t :=
      (streamPair lib).run_invariant_of ends_step_inv hrun (init_ends h₀) hboth
    obtain ⟨id, hhalf⟩ := overtaken hinv hbad hstep
    obtain ⟨ks, v, hrun', hquiet, hv, ⟨hhere, hthere, -, -⟩⟩ :=
      drain lib (flight_deliver hinv.toFlightInv hstep) hhalf
    refine ⟨ks, v, hrun', hquiet, ?_⟩
    intro hagree
    have hsame := (knows_iff_link hv.base a id).mp (hagree hquiet id)
    rcases hthere with hthere | hasked
    · rw [hhere, hthere] at hsame
      cases hsame
    · simp [link, requests, hquiet] at hasked

/-! ## Closing at once -/

/-- "A" opens a stream, which arrives, and closes it. -/
def openClose : List Label :=
  [.open false (.calm Bool) "chat",
    .deliver ⟨true, .requestStream 1 "chat", ⟨0, false, "chat"⟩⟩,
    .act false (.calm Bool) (.closeStream ⟨1⟩),
    .deliver ⟨true, .closeStream 1, ⟨0, false, "chat"⟩⟩]

theorem ends_agree_openClose : (streamPair twoNames).AllStates EndsAgree booted openClose :=
  (ends_agree twoNames false booted booted_init openClose (by decide) (by decide +kernel)).1

/-- "A" opens a stream and closes it, and the end arrives before the request. -/
def closeOvertakes : List Label :=
  [.open false (.calm Bool) "chat",
    .act false (.calm Bool) (.closeStream ⟨1⟩),
    .deliver ⟨true, .closeStream 1, ⟨0, false, "chat"⟩⟩,
    .deliver ⟨true, .requestStream 1 "chat", ⟨0, false, "chat"⟩⟩]

/-- "B" keeps a stream that "A" has closed. -/
theorem half_open : ¬ ∀ (lib : External Bool) a s ls, (streamPair lib).Init s →
    (∀ l ∈ ls, OpenedBy a l) → (streamPair lib).AllStates EndsAgree s ls := by
  intro h
  have hall := h twoNames false booted (closeOvertakes ++ []) booted_init (by decide)
  have hquiet : ((streamPair twoNames).run booted closeOvertakes).map
      (fun t => (t.flight, (t.rt false).streams.get? 1, (t.rt true).streams.get? 1)) =
        some ([], none, some ⟨false, "chat", .requested, .inbound⟩) := by
    decide +kernel
  obtain ⟨t, ht, heq⟩ := Option.map_eq_some_iff.mp hquiet
  rw [Prod.mk.injEq, Prod.mk.injEq] at heq
  rcases heq with ⟨hflight, hA, hB⟩
  have hagree := Machine.AllStates.at_cut _ hall ht hflight 1
  obtain ⟨e, he, -⟩ := hagree.mpr ⟨_, hB, rfl⟩
  rw [show (t.rt false).streams.get? 1 = some e from he] at hA
  cases hA

end StreamPair

end AviNet
