import AviNet.Runtime.Connections

/-!
# Runtime.OpenRequests — streams whose request cannot be delivered

The runtime makes an entry for a stream as soon as it hands the request to
request_response, which may have to dial the peer first. request_response
answers for every request it was given: it reports a response, or that the
request has failed. The runtime ignores both.

* `Inv.backed`: an entry has a connected peer, or its request is pending, or it
  has failed;
* `noOrphans_iff`: no entry is left behind exactly if every failed request had
  been ended, and the application been told so, before the failure;
* `orphaned`: a stream to a peer that cannot be reached.
-/

namespace AviNet

/-- A request that request_response has accepted. -/
structure OutboundRequest (Peer : Type) where
  number : ℕ
  peer : Peer
  msg : StreamMessage
  deriving DecidableEq

/-- The request of a stream. -/
def OutboundRequest.OpensStream {Peer : Type} (r : OutboundRequest Peer) : Prop :=
  ∃ id reason, r.msg = .requestStream id reason

instance {Peer : Type} : ∀ r : OutboundRequest Peer, Decidable r.OpensStream
  | ⟨_, _, .requestStream id reason⟩ => isTrue ⟨id, reason, rfl⟩
  | ⟨_, _, .acceptStream _⟩ | ⟨_, _, .rejectStream _ _⟩ | ⟨_, _, .streamData _ _⟩
  | ⟨_, _, .closeStream _⟩ | ⟨_, _, .syncContext _⟩ => isFalse nofun

/-- The runtime, the connections of the swarm and the requests of
request_response. The last three fields only record what has happened. -/
structure OpenRequests (Peer : Type) [LinearOrder Peer] where
  rt : Runtime Peer
  count : Peer → ℕ
  /-- neither answered nor failed -/
  pending : List (OutboundRequest Peer)
  next : ℕ
  /-- the request that has made the last entry of an id, if one has -/
  opener : UInt64 → Option ℕ
  /-- the requests of streams that have been reported as failed -/
  failed : List ℕ
  /-- the requests whose streams the application has been told are over -/
  told : List ℕ

namespace OpenRequests

variable {Peer : Type} [LinearOrder Peer]

/-! ## Model layer -/

inductive Label (Peer : Type) where
  /-- one more connection to a peer -/
  | establish (env : Env Peer) (peer : Peer) (endpoint : Endpoint)
  /-- one connection less -/
  | close (env : Env Peer) (peer : Peer)
  /-- any other turn of the runtime -/
  | turn (env : Env Peer) (l : Runtime.Label Peer)
  /-- `request_response::Message::Response` -/
  | answered (env : Env Peer) (r : OutboundRequest Peer)
  /-- `request_response::Event::OutboundFailure` -/
  | failed (env : Env Peer) (r : OutboundRequest Peer)

/-- Requests of other peers arrive over a connection. -/
def Arrives (s : OpenRequests Peer) : Runtime.Label Peer → Prop
  | .swarm (.request peer _) => 0 < s.count peer
  | _ => True

instance (s : OpenRequests Peer) : ∀ l, Decidable (s.Arrives l)
  | .swarm (.request peer _) => inferInstanceAs (Decidable (0 < s.count peer))
  | .swarm (.newListenAddr _) | .swarm (.discovered _) | .swarm (.identified _ _ _)
  | .swarm (.connectionEstablished _ _ _) | .swarm (.connectionClosed _ _)
  | .swarm (.gossip _ _ _) | .swarm .other | .command _ | .tick =>
    inferInstanceAs (Decidable True)

/-- The stream an event declares over. -/
def endedStream : AviEvent → Option UInt64
  | .streamRejected _ id _ | .streamClosed _ id _ => some id.id
  | _ => none

/-- The request that has made the last entry of an id, after a turn. -/
def openerAfter (lib : External Peer) (s : OpenRequests Peer) (l : Runtime.Label Peer)
    (id : UInt64) : Option ℕ :=
  if Runtime.made lib s.rt l = some id then
    match l with
    | .command _ => some s.next
    | _ => none
  else s.opener id

/-- One turn of the runtime. What it sends becomes pending. -/
def advance (lib : External Peer) (s : OpenRequests Peer) (count : Peer → ℕ) (env : Env Peer)
    (l : Runtime.Label Peer) : OpenRequests Peer :=
  let effects := (s.rt.turn lib env l).2
  { rt := (s.rt.turn lib env l).1
    count := count
    pending := s.pending ++
      ((Runtime.sentOf effects).zipIdx s.next).map fun m => ⟨m.2, m.1.1, m.1.2⟩
    next := s.next + (Runtime.sentOf effects).length
    opener := s.openerAfter lib l
    failed := s.failed
    told := s.told ++ (Runtime.eventsOf effects).filterMap fun e => (endedStream e).bind s.opener }

def step (lib : External Peer) (s : OpenRequests Peer) : Label Peer → Option (OpenRequests Peer)
  | .establish env peer endpoint =>
    let n := s.count peer + 1
    some (s.advance lib (Function.update s.count peer n) env
      (.swarm (.connectionEstablished peer endpoint n)))
  | .close env peer =>
    match s.count peer with
    | 0 => none
    | n + 1 => some (s.advance lib (Function.update s.count peer n) env
        (.swarm (.connectionClosed peer n)))
  | .turn env l =>
    if Connections.isConnection l = false ∧ s.Arrives l then some (s.advance lib s.count env l)
    else none
  | .answered env r =>
    -- a response arrives over a connection as well
    if r ∈ s.pending ∧ 0 < s.count r.peer then
      let t := s.advance lib s.count env (.swarm .other)
      some { t with pending := t.pending.erase r }
    else none
  | .failed env r =>
    if r ∈ s.pending then
      let t := s.advance lib s.count env (.swarm .other)
      some { t with
        pending := t.pending.erase r
        failed := if r.OpensStream then r.number :: t.failed else t.failed }
    else none

/-- A node that has just started. -/
def Init (lib : External Peer) (s : OpenRequests Peer) : Prop :=
  (∃ localPeerId now, s.rt = .new lib localPeerId now) ∧ s.count = (fun _ => 0) ∧
    s.pending = [] ∧ s.next = 0 ∧ s.opener = (fun _ => none) ∧ s.failed = [] ∧ s.told = []

end OpenRequests

open OpenRequests in
/-- The machine of a runtime, its connections and its requests. -/
def openRequests {Peer : Type} [LinearOrder Peer] (lib : External Peer) :
    Machine (OpenRequests Peer) (OpenRequests.Label Peer) where
  Init := Init lib
  step := step lib

namespace OpenRequests

variable {Peer : Type} [LinearOrder Peer]

/-- Every entry has a connected peer or a pending request, and a stream whose
request has failed is gone and has been declared over to the application. -/
def NoOrphans (s : OpenRequests Peer) : Prop :=
  (∀ id state, s.rt.streams.get? id = some state → 0 < s.count state.peer ∨
    ∃ r ∈ s.pending, r.peer = state.peer ∧ r.msg = .requestStream id state.reason) ∧
  ∀ n ∈ s.failed, (∀ id, s.opener id = some n → s.rt.streams.get? id = none) ∧ n ∈ s.told

/-- The request of a stream fails only after its stream has been declared over. -/
def EndedBefore (s : OpenRequests Peer) : Label Peer → Prop
  | .failed _ r => r.OpensStream → r.number ∈ s.told
  | .establish _ _ _ | .close _ _ | .turn _ _ | .answered _ _ => True

instance (s : OpenRequests Peer) : ∀ l, Decidable (s.EndedBefore l)
  | .failed _ r => inferInstanceAs (Decidable (r.OpensStream → r.number ∈ s.told))
  | .establish _ _ _ | .close _ _ | .turn _ _ | .answered _ _ => inferInstanceAs (Decidable True)

/-! ## Moves -/

section Moves

variable {lib : External Peer} {env : Env Peer} {self : Runtime Peer} {id : UInt64}
  {l : Runtime.Label Peer} {entry : Option (StreamState Peer)} {events : List AviEvent}

/-- An entry that a turn makes: the application has opened the stream, or a peer. -/
theorem made_entry {state : StreamState Peer} (h : Runtime.Move lib self id l (some state) events)
    (hmakes : Runtime.Makes lib self id l) :
    (∃ peerId, l = .command (.requestStream peerId state.reason) ∧
      lib.fromStr peerId.id = some state.peer) ∨
    ∃ msg, l = .swarm (.request state.peer msg) := by
  generalize hentry : some state = entry at h
  cases h with
  | opened hid hpeer =>
    cases hentry
    exact Or.inl ⟨_, rfl, hpeer⟩
  | @command cmd old hcmd hget =>
    cases cmd with
    | requestStream peerId reason => cases hcmd
    | _ => exact hmakes.elim
  | @message peer msg hmsg =>
    cases msg with
    | requestStream i reason =>
      cases hentry
      exact Or.inr ⟨_, rfl⟩
    | _ => exact hmakes.elim
  | disconnected hget hpeer => cases hentry
  | untouched hnot => exact absurd (Runtime.touches_of_makes hmakes) hnot

/-- An entry that a turn leaves is the one before, in its role. -/
theorem kept_entry {state : StreamState Peer} (h : Runtime.Move lib self id l (some state) events)
    (hmakes : ¬ Runtime.Makes lib self id l) :
    ∃ old, self.streams.get? id = some old ∧ Runtime.SameRole old state := by
  generalize hentry : some state = entry at h
  cases h with
  | @opened peerId reason target hid hpeer =>
    refine absurd ⟨hid, ?_⟩ hmakes
    rw [hpeer]
    rfl
  | @command cmd old hcmd hget => exact ⟨old, hget, Runtime.commandEntry_role hentry.symm⟩
  | @message peer msg hmsg =>
    rcases Runtime.messageEntry_role hentry.symm with ⟨i, reason, rfl, -⟩ | hold
    · exact absurd (Option.some.inj hmsg) hmakes
    · exact hold
  | disconnected hget hpeer => cases hentry
  | untouched hnot => exact ⟨state, hentry.symm, rfl, rfl, rfl⟩

/-- A stream that is declared over has no entry. -/
theorem no_entry_of_ended {e : AviEvent} (h : Runtime.Move lib self id l entry events)
    (he : e ∈ events) (hended : endedStream e = some id) : entry = none := by
  cases h with
  | opened hid hpeer => cases he
  | command hcmd hget => cases he
  | @message peer msg hmsg =>
    cases hget : self.streams.get? id <;> cases msg <;> rw [hget] at he <;>
      simp [Runtime.messageEntry] at he ⊢ <;> subst he <;> cases hended
  | disconnected hget hpeer => rfl
  | untouched hnot => cases he

/-- The opening command sends one request. -/
theorem sentOf_open {peerId : PeerId} {reason : String} {target : Peer}
    (h : lib.fromStr peerId.id = some target) :
    Runtime.sentOf (self.turn lib env (.command (.requestStream peerId reason))).2 =
      [(target, .requestStream self.nextStreamId reason)] := by
  simp only [Runtime.turn, Runtime.handleCommand, h]
  rfl

end Moves

/-! ## The invariant -/

/-- An entry has a connected peer, or the request of its stream is pending or has failed. -/
def Backed (s : OpenRequests Peer) (id : UInt64) (state : StreamState Peer) : Prop :=
  0 < s.count state.peer ∨ ∃ n, s.opener id = some n ∧ (n ∈ s.failed ∨
    ∃ r ∈ s.pending, r.number = n ∧ r.peer = state.peer ∧ r.msg = .requestStream id state.reason)

structure Inv (s : OpenRequests Peer) : Prop where
  openerOld : ∀ id n, s.opener id = some n → n < s.next
  toldOld : ∀ n ∈ s.told, n < s.next
  /-- a request has made one entry -/
  distinct : ∀ id id' n, s.opener id = some n → s.opener id' = some n → id = id'
  backed : ∀ id state, s.rt.streams.get? id = some state → s.Backed id state
  gone : ∀ n ∈ s.told, ∀ id, s.opener id = some n → s.rt.streams.get? id = none

/-- The turn `l` reports the connections that are gone afterwards, and a message
comes from a peer that is still connected. -/
structure Reported (s : OpenRequests Peer) (count : Peer → ℕ) (l : Runtime.Label Peer) :
    Prop where
  lost : ∀ peer, 0 < s.count peer → count peer = 0 → l = .swarm (.connectionClosed peer 0)
  arrives : ∀ peer msg, l = .swarm (.request peer msg) → 0 < count peer

section Turns

variable {lib : External Peer} {env : Env Peer} {s : OpenRequests Peer} {count : Peer → ℕ}
  {l : Runtime.Label Peer} {id : UInt64} {n : ℕ}

theorem openerAfter_of_not_makes (h : ¬ Runtime.Makes lib s.rt id l) :
    s.openerAfter lib l id = s.opener id :=
  if_neg (mt Runtime.made_eq_some_iff.mp h)

/-- The opener of an entry made in this turn is the request just sent. -/
theorem openerAfter_of_makes (h : Runtime.Makes lib s.rt id l)
    (hn : s.openerAfter lib l id = some n) :
    n = s.next ∧ ∃ cmd, l = .command cmd := by
  unfold openerAfter at hn
  rw [if_pos (Runtime.made_eq_some_iff.mpr h)] at hn
  cases l with
  | command cmd => exact ⟨(Option.some.inj hn).symm, cmd, rfl⟩
  | swarm event => cases hn
  | tick => cases hn

/-- What is new among the requests the application has been told about. -/
theorem mem_told_advance : n ∈ (s.advance lib count env l).told ↔ n ∈ s.told ∨
    ∃ id, s.opener id = some n ∧
      ∃ e ∈ Runtime.eventsAbout id (s.rt.turn lib env l).2, endedStream e = some id := by
  have habout : ∀ {e : AviEvent} {id}, endedStream e = some id →
      Runtime.aboutStream e = some id := by
    intro e id he
    cases e <;> cases he <;> rfl
  unfold advance
  rw [List.mem_append, List.mem_filterMap]
  refine or_congr Iff.rfl ?_
  constructor
  · rintro ⟨e, he, hn⟩
    obtain ⟨id, hid, hopener⟩ := Option.bind_eq_some_iff.mp hn
    refine ⟨id, hopener, e, ?_, hid⟩
    exact List.mem_filter.mpr ⟨he, decide_eq_true (habout hid)⟩
  · rintro ⟨id, hopener, e, he, hid⟩
    exact ⟨e, (List.mem_filter.mp he).1, Option.bind_eq_some_iff.mpr ⟨id, hid, hopener⟩⟩

theorem openerOld_advance (h : s.Inv) (hn : s.openerAfter lib l id = some n) :
    n < s.next ∨ (n = s.next ∧ Runtime.Makes lib s.rt id l) := by
  by_cases hmakes : Runtime.Makes lib s.rt id l
  · exact Or.inr ⟨(openerAfter_of_makes hmakes hn).1, hmakes⟩
  · rw [openerAfter_of_not_makes hmakes] at hn
    exact Or.inl (h.openerOld id n hn)

/-- A turn keeps every entry backed: a peer loses its last connection only in
the turn that reports it, and the requests of peers come from connected ones. -/
theorem backed_advance (h : s.Inv) (hrep : s.Reported count l) {state : StreamState Peer}
    (hget : (s.advance lib count env l).rt.streams.get? id = some state) :
    (s.advance lib count env l).Backed id state := by
  have hmove : Runtime.Move lib s.rt id l ((s.rt.turn lib env l).1.streams.get? id)
      (Runtime.eventsAbout id (s.rt.turn lib env l).2) := Runtime.move l
  have hget' : (s.rt.turn lib env l).1.streams.get? id = some state := hget
  rw [hget'] at hmove
  by_cases hmakes : Runtime.Makes lib s.rt id l
  · rcases made_entry hmove hmakes with ⟨peerId, rfl, hpeer⟩ | ⟨msg, rfl⟩
    · -- opened by the application: its request has just been sent
      have hid : id = s.rt.nextStreamId := hmakes.1
      refine Or.inr ⟨s.next, ?_, Or.inr ⟨⟨s.next, state.peer, _⟩, ?_, rfl, rfl, rfl⟩⟩
      · exact if_pos (Runtime.made_eq_some_iff.mpr hmakes)
      · apply List.mem_append_right
        rw [sentOf_open hpeer, hid]
        simp
    · -- opened by a peer
      exact Or.inl (hrep.arrives state.peer msg rfl)
  · obtain ⟨old, hold, hpeer, hreason, -⟩ := kept_entry hmove hmakes
    rcases h.backed id old hold with hconn | ⟨n, hopener, hbacked⟩
    · left
      show 0 < count state.peer
      rw [hpeer]
      by_contra hzero
      -- the end of its last connection would have removed the entry
      have hclosed := hrep.lost old.peer hconn (Nat.eq_zero_of_not_pos hzero)
      have hsome : ((s.rt.turn lib env l).1.streams.get? id).isSome = true := by
        rw [hget']
        rfl
      rcases (Runtime.isSome_turn lib s.rt id env l).mp hsome with hm | ⟨-, hends⟩
      · exact hmakes hm
      · rw [hclosed] at hends
        exact hends ⟨rfl, old, hold, rfl⟩
    · refine Or.inr ⟨n, (openerAfter_of_not_makes hmakes).trans hopener, ?_⟩
      rcases hbacked with hfailed | ⟨r, hr, hnumber, hrpeer, hmsg⟩
      · exact Or.inl hfailed
      · refine Or.inr ⟨r, List.mem_append_left _ hr, hnumber, ?_, ?_⟩
        · rw [hpeer, hrpeer]
        · rw [hreason, hmsg]

/-- A stream whose requester has been told has left the table. -/
theorem gone_advance (h : s.Inv) (htold : n ∈ (s.advance lib count env l).told)
    (hopener : s.openerAfter lib l id = some n) :
    (s.advance lib count env l).rt.streams.get? id = none := by
  have hmove : Runtime.Move lib s.rt id l ((s.rt.turn lib env l).1.streams.get? id)
      (Runtime.eventsAbout id (s.rt.turn lib env l).2) := Runtime.move l
  have hold : n < s.next := by
    rcases mem_told_advance.mp htold with hn | ⟨id', hid', -⟩
    · exact h.toldOld n hn
    · exact h.openerOld id' n hid'
  have hmakes : ¬ Runtime.Makes lib s.rt id l := by
    intro hmakes
    have := (openerAfter_of_makes hmakes hopener).1
    omega
  rw [openerAfter_of_not_makes hmakes] at hopener
  rcases mem_told_advance.mp htold with hn | ⟨id', hid', e, he, hended⟩
  · -- gone before, and not made again
    have hnone := h.gone n hn id hopener
    by_contra hsome
    have hsome' := Option.isSome_iff_ne_none.mpr hsome
    rcases (Runtime.isSome_turn lib s.rt id env l).mp hsome' with hm | ⟨hm, -⟩
    · exact hmakes hm
    · rw [hnone] at hm
      cases hm
  · -- declared over in this turn
    have hid : id = id' := h.distinct id id' n hopener hid'
    subst hid
    exact no_entry_of_ended hmove he hended

/-- **A turn keeps the invariant.** -/
theorem advance_inv (h : s.Inv) (hrep : s.Reported count l) :
    (s.advance lib count env l).Inv := by
  have hnext : s.next ≤ (s.advance lib count env l).next := Nat.le_add_right _ _
  constructor
  · intro id n hn
    rcases openerOld_advance h hn with hlt | ⟨rfl, hmakes⟩
    · omega
    · -- an opener of this turn belongs to a request of this turn
      obtain ⟨-, cmd, rfl⟩ := openerAfter_of_makes hmakes hn
      cases cmd with
      | requestStream peerId reason =>
        obtain ⟨target, htarget⟩ := Option.isSome_iff_exists.mp hmakes.2
        have hsent : Runtime.sentOf
            (s.rt.turn lib env (.command (.requestStream peerId reason))).2 =
              [(target, .requestStream s.rt.nextStreamId reason)] := sentOf_open htarget
        show s.next < s.next + (Runtime.sentOf _).length
        rw [hsent]
        simp
      | _ => exact hmakes.elim
  · intro n hn
    rcases mem_told_advance.mp hn with hn | ⟨id, hid, -⟩
    · have := h.toldOld n hn
      omega
    · have := h.openerOld id n hid
      omega
  · intro id id' n hn hn'
    have hn₁ : s.openerAfter lib l id = some n := hn
    have hn₂ : s.openerAfter lib l id' = some n := hn'
    rcases openerOld_advance h hn₁ with hlt | ⟨heq, hmakes⟩
    · rcases openerOld_advance h hn₂ with hlt' | ⟨heq', -⟩
      · have hnot : ∀ {i}, s.openerAfter lib l i = some n → s.opener i = some n := by
          intro i hi
          by_cases hm : Runtime.Makes lib s.rt i l
          · have := (openerAfter_of_makes hm hi).1
            omega
          · rwa [openerAfter_of_not_makes hm] at hi
        exact h.distinct id id' n (hnot hn₁) (hnot hn₂)
      · omega
    · rcases openerOld_advance h hn₂ with hlt' | ⟨-, hmakes'⟩
      · omega
      · -- one turn makes one entry
        have hmade := Runtime.made_eq_some_iff.mpr hmakes
        rw [Runtime.made_eq_some_iff.mpr hmakes'] at hmade
        exact (Option.some.inj hmade).symm
  · intro id state hget
    exact backed_advance h hrep hget
  · intro n hn id hid
    exact gone_advance h hn hid

/-- A request is settled: whoever it backs is backed otherwise. -/
theorem settle_inv {r : OutboundRequest Peer} {failed : List ℕ} (h : s.Inv)
    (hfailed : ∀ n ∈ s.failed, n ∈ failed)
    (hr : r.OpensStream → 0 < s.count r.peer ∨ r.number ∈ failed) :
    Inv { s with pending := s.pending.erase r, failed := failed } := by
  refine { h with backed := ?_ }
  intro id state hget
  rcases h.backed id state hget with hconn | ⟨n, hopener, hn | ⟨r', hr', hnumber, hpeer, hmsg⟩⟩
  · exact Or.inl hconn
  · exact Or.inr ⟨n, hopener, Or.inl (hfailed n hn)⟩
  · by_cases hrr : r' = r
    · subst hrr
      rcases hr ⟨id, state.reason, hmsg⟩ with hconn | hn
      · left
        show 0 < s.count state.peer
        rwa [← hpeer]
      · exact Or.inr ⟨n, hopener, Or.inl (hnumber ▸ hn)⟩
    · have hmem : r' ∈ s.pending.erase r := (List.mem_erase_of_ne hrr).mpr hr'
      exact Or.inr ⟨n, hopener, Or.inr ⟨r', hmem, hnumber, hpeer, hmsg⟩⟩

end Turns

/-! ## Steps -/

section Steps

variable {lib : External Peer} {s t : OpenRequests Peer}

/-- The state after request_response has settled `r`. -/
def settle (lib : External Peer) (s : OpenRequests Peer) (env : Env Peer)
    (r : OutboundRequest Peer) (failed : List ℕ) : OpenRequests Peer :=
  { s.advance lib s.count env (.swarm .other) with
    pending := (s.advance lib s.count env (.swarm .other)).pending.erase r
    failed := failed }

/-- **Inversion**: a step is a turn, or request_response settles a request. -/
theorem step_cases {l : Label Peer} (hstep : (openRequests lib).step s l = some t) :
    (∃ count env l', t = s.advance lib count env l' ∧ s.Reported count l' ∧ s.EndedBefore l) ∨
    (∃ env r, l = .answered env r ∧ 0 < s.count r.peer ∧ t = settle lib s env r s.failed) ∨
    ∃ env r, l = .failed env r ∧ t = settle lib s env r
      (if r.OpensStream then r.number :: s.failed else s.failed) := by
  simp only [openRequests] at hstep
  cases l with
  | establish env peer endpoint =>
    -- one connection more
    refine Or.inl ⟨_, _, _, (Option.some.inj hstep).symm, ⟨?_, nofun⟩, True.intro⟩
    intro p hpos hzero
    rw [Function.update_apply] at hzero
    split_ifs at hzero
    · omega
  | close env peer =>
    -- one less: the last one is reported
    cases hcount : s.count peer with
    | zero =>
      simp only [step, hcount] at hstep
      cases hstep
    | succ n =>
      simp only [step, hcount] at hstep
      refine Or.inl ⟨_, _, _, (Option.some.inj hstep).symm, ⟨?_, nofun⟩, True.intro⟩
      intro p hpos hzero
      rw [Function.update_apply] at hzero
      split_ifs at hzero with hp
      · rw [hp, hzero]
      · omega
  | turn env l =>
    -- other turns report no lost peer
    simp only [step] at hstep
    split_ifs at hstep with hguard
    refine Or.inl ⟨_, _, _, (Option.some.inj hstep).symm, ⟨?_, ?_⟩, True.intro⟩
    · intro p hpos hzero
      omega
    · rintro p msg rfl
      exact hguard.2
  | answered env r =>
    -- a request that is answered
    simp only [step] at hstep
    split_ifs at hstep with hguard
    exact Or.inr (Or.inl ⟨env, r, rfl, hguard.2, (Option.some.inj hstep).symm⟩)
  | failed env r =>
    -- a request that fails, perhaps one that opens a stream
    simp only [step] at hstep
    split_ifs at hstep with hguard hopens
    · exact Or.inr (Or.inr ⟨env, r, rfl, by
        rw [if_pos hopens]
        exact (Option.some.inj hstep).symm⟩)
    · exact Or.inr (Or.inr ⟨env, r, rfl, by
        rw [if_neg hopens]
        exact (Option.some.inj hstep).symm⟩)

/-- A turn on an event the runtime ignores. -/
theorem other_inv (h : s.Inv) (env : Env Peer) :
    (s.advance lib s.count env (.swarm .other)).Inv := by
  refine advance_inv h ⟨?_, nofun⟩
  intro peer hpos hzero
  omega

theorem told_settle (lib : External Peer) (s : OpenRequests Peer) (env : Env Peer)
    (r : OutboundRequest Peer) (failed : List ℕ) :
    (settle lib s env r failed).told = s.told := List.append_nil _

/-- Every step keeps the invariant. -/
theorem step_inv {l : Label Peer} (hstep : (openRequests lib).step s l = some t) (h : s.Inv) :
    t.Inv := by
  rcases step_cases hstep with ⟨count, env, l', rfl, hrep, -⟩ | ⟨env, r, -, hconn, rfl⟩ |
    ⟨env, r, -, rfl⟩
  · exact advance_inv h hrep
  · exact settle_inv (other_inv h env) (fun _ hn => hn) (fun _ => Or.inl hconn)
  · refine settle_inv (other_inv h env) ?_ ?_
    · intro n hn
      split_ifs
      · exact List.mem_cons_of_mem _ hn
      · exact hn
    · intro hopens
      rw [if_pos hopens]
      exact Or.inr List.mem_cons_self

/-- A node without streams satisfies it. -/
theorem init_inv (h : (openRequests lib).Init s) : s.Inv := by
  obtain ⟨⟨localPeerId, now, hrt⟩, -, -, -, hopener, -, htold⟩ := h
  constructor
  · intro id n hn
    rw [hopener] at hn
    cases hn
  · intro n hn
    rw [htold] at hn
    cases hn
  · intro id id' n hn
    rw [hopener] at hn
    cases hn
  · intro id state hget
    rw [hrt] at hget
    cases hget
  · intro n hn
    rw [htold] at hn
    cases hn

/-- Under the invariant only failed requests that nobody was told about leave orphans. -/
theorem Inv.noOrphans_iff_told (h : s.Inv) : s.NoOrphans ↔ ∀ n ∈ s.failed, n ∈ s.told := by
  constructor
  · intro hno n hn
    exact (hno.2 n hn).2
  · intro htold
    constructor
    · intro id state hget
      rcases h.backed id state hget with hconn | ⟨n, hopener, hn | ⟨r, hr, -, hpeer, hmsg⟩⟩
      · exact Or.inl hconn
      · rw [h.gone n (htold n hn) id hopener] at hget
        cases hget
      · exact Or.inr ⟨r, hr, hpeer, hmsg⟩
    · intro n hn
      exact ⟨h.gone n (htold n hn), htold n hn⟩

/-- A step leaves no orphan behind exactly if it meets the condition. -/
theorem step_noOrphans_iff {l : Label Peer} (hstep : (openRequests lib).step s l = some t)
    (h : s.Inv) (hno : s.NoOrphans) : t.NoOrphans ↔ s.EndedBefore l := by
  have htold := h.noOrphans_iff_told.mp hno
  rw [(step_inv hstep h).noOrphans_iff_told]
  rcases step_cases hstep with ⟨count, env, l', rfl, -, hended⟩ | ⟨env, r, rfl, -, rfl⟩ |
    ⟨env, r, rfl, rfl⟩
  · -- no failure is added, and what has been told stays told
    refine iff_of_true ?_ hended
    intro n hn
    exact mem_told_advance.mpr (Or.inl (htold n hn))
  · rw [told_settle]
    exact iff_of_true htold True.intro
  · rw [told_settle]
    show (∀ n ∈ if r.OpensStream then r.number :: s.failed else s.failed, n ∈ s.told) ↔
      (r.OpensStream → r.number ∈ s.told)
    split_ifs with hopens
    · rw [List.forall_mem_cons]
      constructor
      · intro hall _
        exact hall.1
      · intro hr
        exact ⟨hr hopens, htold⟩
    · exact iff_of_true htold fun ho => absurd ho hopens

/-- **No orphan streams**: a run leaves no entry behind, and the application in no
doubt, exactly if no request of a stream fails before its stream has been
declared over. -/
theorem noOrphans_iff (lib : External Peer) (s t : OpenRequests Peer) (ls : List (Label Peer))
    (hinit : (openRequests lib).Init s) (hrun : (openRequests lib).run s ls = some t) :
    (openRequests lib).AllStates NoOrphans s ls ↔
      (openRequests lib).AllSteps EndedBefore s ls := by
  have hno : s.NoOrphans := by
    rw [(init_inv hinit).noOrphans_iff_told, hinit.2.2.2.2.2.1]
    exact List.forall_mem_nil _
  exact (openRequests lib).allStates_iff_of_invariant (fun _ _ _ => step_inv)
    (fun _ _ _ => step_noOrphans_iff) hrun (init_inv hinit) hno

end Steps

/-! ## A peer that cannot be reached -/

/-- A node that has just started. -/
def booted : OpenRequests String where
  rt := .new .plain "node" 0
  count _ := 0
  pending := []
  next := 0
  opener _ := none
  failed := []
  told := []

/-- The request of the only stream. -/
def firstRequest : OutboundRequest String := ⟨0, "peer", .requestStream 1 "audio"⟩

/-- A stream is opened, its peer connects and disconnects, and the request fails. -/
def lostConnection : List (Label String) :=
  [.turn (.calm String) (.command (.requestStream ⟨"peer"⟩ "audio")),
    .establish (.calm String) "peer" (.dialer "/ip4/10.0.0.2"), .close (.calm String) "peer",
    .failed (.calm String) firstRequest]

theorem noOrphans_iff_lostConnection :
    (openRequests .plain).AllStates NoOrphans booted lostConnection ↔
      (openRequests .plain).AllSteps EndedBefore booted lostConnection := by
  have hrun : ((openRequests .plain).run booted lostConnection).isSome = true := by
    decide +kernel
  obtain ⟨t, ht⟩ := Option.isSome_iff_exists.mp hrun
  exact noOrphans_iff .plain booted t lostConnection
    ⟨⟨"node", 0, rfl⟩, rfl, rfl, rfl, rfl, rfl, rfl⟩ ht

/-- A stream is opened to a peer that cannot be reached. -/
def unreachable : List (Label String) :=
  [.turn (.calm String) (.command (.requestStream ⟨"peer"⟩ "audio")),
    .failed (.calm String) firstRequest]

/-- Its entry stays for ever, and no event tells the application. -/
theorem orphaned : ¬ ∀ (s t : OpenRequests String) ls, (openRequests .plain).Init s →
    (openRequests .plain).run s ls = some t → t.NoOrphans := by
  intro h
  have hpeer : ((openRequests .plain).run booted unreachable).map
      (fun t => (t.rt.streams.get? 1).map fun state => (state.peer, t.count state.peer)) =
        some (some ("peer", 0)) := by
    decide +kernel
  have hpending : ((openRequests .plain).run booted unreachable).map (fun t => t.pending) =
      some [] := by
    decide +kernel
  obtain ⟨t, ht, hentry⟩ := Option.map_eq_some_iff.mp hpeer
  rw [ht, Option.map_some, Option.some.injEq] at hpending
  obtain ⟨state, hget, hstate⟩ := Option.map_eq_some_iff.mp hentry
  have hno := h booted t unreachable ⟨⟨"node", 0, rfl⟩, rfl, rfl, rfl, rfl, rfl, rfl⟩ ht
  have hcount : t.count state.peer = 0 := congrArg Prod.snd hstate
  rcases hno.1 1 state hget with hconn | ⟨r, hr, -⟩
  · omega
  · rw [hpending] at hr
    cases hr

end OpenRequests

end AviNet
