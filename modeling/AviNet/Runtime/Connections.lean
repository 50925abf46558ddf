import AviNet.Runtime.StreamTurn

/-!
# Runtime.Connections — peers, their connections and their streams

The swarm counts the connections to each peer and tells the runtime the number
after every change. The runtime looks at the first one and the last one only.

* `peers_iff`: `Runtime.peers` holds the peers with at least one connection;
* `alternates`: `PeerConnected` and `PeerDisconnected` of one peer take turns;
* `LastClosed`: what the end of the last connection does to streams and peers;
* `bookkeeping`: all three in every state of every run.
-/

namespace AviNet

/-- The runtime, the connections of the swarm and the events emitted so far. -/
structure Connections (Peer : Type) [LinearOrder Peer] where
  rt : Runtime Peer
  count : Peer → ℕ
  log : List AviEvent

namespace Connections

variable {Peer : Type} [LinearOrder Peer]

/-! ## Model layer -/

inductive Label (Peer : Type) where
  /-- one more connection to a peer -/
  | establish (env : Env Peer) (peer : Peer) (endpoint : Endpoint)
  /-- one connection less -/
  | close (env : Env Peer) (peer : Peer)
  /-- any other turn of the runtime -/
  | turn (env : Env Peer) (l : Runtime.Label Peer)

/-- The turn is one of the two that tell about connections. -/
def isConnection : Runtime.Label Peer → Bool
  | .swarm (.connectionEstablished _ _ _) | .swarm (.connectionClosed _ _) => true
  | _ => false

/-- One turn of the runtime, with its events. -/
def advance (lib : External Peer) (s : Connections Peer) (count : Peer → ℕ) (env : Env Peer)
    (l : Runtime.Label Peer) : Connections Peer where
  rt := (s.rt.turn lib env l).1
  count := count
  log := s.log ++ Runtime.eventsOf (s.rt.turn lib env l).2

def step (lib : External Peer) (s : Connections Peer) : Label Peer → Option (Connections Peer)
  | .establish env peer endpoint =>
    let n := s.count peer + 1
    some (s.advance lib (Function.update s.count peer n) env
      (.swarm (.connectionEstablished peer endpoint n)))
  | .close env peer =>
    match s.count peer with
    | 0 => none
    | n + 1 => some (s.advance lib (Function.update s.count peer n) env
        (.swarm (.connectionClosed peer n)))
  | .turn env l => if isConnection l then none else some (s.advance lib s.count env l)

/-- A node that has just started. -/
def Init (lib : External Peer) (s : Connections Peer) : Prop :=
  (∃ localPeerId now, s.rt = .new lib localPeerId now) ∧ s.count = (fun _ => 0) ∧ s.log = []

end Connections

open Connections in
/-- The machine of a runtime and its connections. -/
def connections {Peer : Type} [LinearOrder Peer] (lib : External Peer) :
    Machine (Connections Peer) (Connections.Label Peer) where
  Init := Init lib
  step := step lib

/-! ## Alternation -/

/-- `true` and `false` take turns, `b` first. -/
def Alternates : Bool → List Bool → Prop
  | _, [] => True
  | b, c :: l => c = b ∧ Alternates (!b) l

/-- What has to come after `l`. -/
def expected : Bool → List Bool → Bool
  | b, [] => b
  | _, c :: l => expected (!c) l

/-- One more element alternates if it is the one that had to come. -/
theorem alternates_concat {b c : Bool} {l : List Bool} :
    Alternates b (l ++ [c]) ↔ Alternates b l ∧ c = expected b l := by
  induction l generalizing b with
  | nil =>
    rw [List.nil_append, Alternates, Alternates, expected]
    exact ⟨fun h => ⟨True.intro, h.1⟩, fun h => ⟨h.2, True.intro⟩⟩
  | cons d l ih =>
    rw [List.cons_append, Alternates, Alternates, expected, ih, and_assoc]
    constructor
    · rintro ⟨rfl, hl, hc⟩
      exact ⟨rfl, hl, hc⟩
    · rintro ⟨rfl, hl, hc⟩
      exact ⟨rfl, hl, hc⟩

/-- After it the other has to come. -/
theorem expected_concat (b c : Bool) (l : List Bool) : expected b (l ++ [c]) = !c := by
  induction l generalizing b with
  | nil => rfl
  | cons d l ih => exact ih (!d)

namespace Connections

variable {Peer : Type} [LinearOrder Peer]

/-! ## Turns -/

/-- The events about the connections of `peer`, in order. -/
def changes (lib : External Peer) (peer : Peer) (log : List AviEvent) : List Bool :=
  log.filterMap fun e =>
    match Runtime.aboutConnection e with
    | some (peerId, b) => if peerId = lib.peerId peer then some b else none
    | none => none

variable {lib : External Peer} {env : Env Peer} {self : Runtime Peer}

omit [LinearOrder Peer] in
/-- The changes of a peer in two lists of events are those of the first, then those of the
second. -/
theorem changes_append (peer : Peer) (a b : List AviEvent) :
    changes lib peer (a ++ b) = changes lib peer a ++ changes lib peer b := List.filterMap_append

omit [LinearOrder Peer] in
/-- Events that are about no connection change none. -/
theorem changes_eq_nil {peer : Peer} {events : List AviEvent}
    (h : ∀ e ∈ events, Runtime.aboutConnection e = none) : changes lib peer events = [] := by
  refine List.filterMap_eq_nil_iff.mpr fun e he => ?_
  simp only [h e he]

omit [LinearOrder Peer] in
/-- No event about a stream is about a connection. -/
theorem aboutConnection_messageEntry {peer : Peer} {msg : StreamMessage}
    {entry : Option (StreamState Peer)} {e : AviEvent}
    (he : e ∈ (Runtime.messageEntry lib peer msg entry).2) :
    Runtime.aboutConnection e = none := by
  cases msg <;> cases entry <;> simp [Runtime.messageEntry] at he <;> subst he <;> rfl

variable (lib env self) in
/-- No other turn touches the peers or reports about connections. -/
theorem turn_off_connection {l : Runtime.Label Peer} (h : isConnection l = false) :
    (self.turn lib env l).1.peers = self.peers ∧
      ∀ e ∈ Runtime.eventsOf (self.turn lib env l).2, Runtime.aboutConnection e = none := by
  rcases l with cmd | event | _
  · -- a command emits nothing
    obtain ⟨_, _, _, _, _, heq⟩ :=
      Runtime.handleCommand_writes lib env self cmd
    constructor
    · simp only [Runtime.turn, heq]
    · intro e he
      simp only [Runtime.turn, Runtime.eventsOf_handleCommand] at he
      cases he
  · rcases Runtime.offPeers_cases event with hoff | ⟨peer, endpoint, n, rfl⟩ | ⟨peer, n, rfl⟩ |
      ⟨peer, msg, rfl⟩
    · -- off the peers
      obtain ⟨⟨_, _, _, _, _, heq⟩, hplain⟩ :=
        Runtime.handleSwarmEvent_off_peers lib env self hoff
      constructor
      · simp only [Runtime.turn, heq]
      · intro e he
        exact (hplain e he).2
    · cases h
    · cases h
    · -- a stream message emits events about its stream, or a merged context
      obtain ⟨_, _, heq⟩ :=
        Runtime.handleStreamMessage_writes lib self peer msg
      constructor
      · simp only [Runtime.turn, Runtime.handleSwarmEvent, heq]
      · intro e he
        simp only [Runtime.turn, Runtime.handleSwarmEvent, Runtime.eventsOf_append] at he
        rcases List.mem_append.mp he with he | he
        · cases hn : Runtime.namedStream msg with
          | some id =>
            rw [Runtime.events_handleStreamMessage hn] at he
            exact aboutConnection_messageEntry he
          | none =>
            cases msg with
            | syncContext incoming => exact ((Runtime.mergeContext_writes self incoming).2 e he).2
            | _ => cases hn
        · cases he
  · -- a heartbeat emits nothing
    refine ⟨rfl, ?_⟩
    intro e he
    simp only [Runtime.turn, Runtime.eventsOf_heartbeat] at he
    cases he

variable (lib env self) in
/-- The first connection to a peer: it is listed and reported. -/
theorem turn_first (peer : Peer) (endpoint : Endpoint) :
    (self.turn lib env (.swarm (.connectionEstablished peer endpoint 1))).1.peers =
        self.peers.insert peer (some (Runtime.endpointAddress endpoint)) ∧
      Runtime.eventsOf (self.turn lib env (.swarm (.connectionEstablished peer endpoint 1))).2 =
        [.peerConnected (lib.peerId peer) (Runtime.endpointAddress endpoint)] := by
  obtain ⟨_, _, heq⟩ := Runtime.joinContextTopic_writes env
    { self with peers := self.peers.insert peer (some (Runtime.endpointAddress endpoint)) }
  simp only [Runtime.turn, Runtime.handleSwarmEvent, if_pos]
  rw [heq]
  exact ⟨rfl, rfl⟩

/-- A connection more or less that is not the first or the last one. -/
theorem turn_further (peer : Peer) (endpoint : Endpoint) {n : ℕ} (hn : n ≠ 0) :
    self.turn lib env (.swarm (.connectionEstablished peer endpoint (n + 1))) = (self, []) ∧
      self.turn lib env (.swarm (.connectionClosed peer n)) = (self, []) := by
  have hne : n + 1 ≠ 1 := fun h => hn (Nat.succ.inj h)
  simp only [Runtime.turn, Runtime.handleSwarmEvent, if_neg hne, if_neg hn, and_self]

/-! ## The invariant -/

/-- The peers are those with a connection, and each one's reports take turns. -/
structure Exact (lib : External Peer) (s : Connections Peer) : Prop where
  peers : ∀ peer, (s.rt.peers.get? peer).isSome = true ↔ 0 < s.count peer
  alternates : ∀ peer, Alternates true (changes lib peer s.log)
  /-- the next report about a peer without connections is that it is connected -/
  next : ∀ peer, expected true (changes lib peer s.log) = decide (s.count peer = 0)

/-- A node without connections is exact. -/
theorem init_exact {s : Connections Peer} (h : (connections lib).Init s) : s.Exact lib := by
  rcases h with ⟨⟨localPeerId, now, hrt⟩, hcount, hlog⟩
  constructor
  · intro peer
    rw [hrt, hcount]
    exact iff_of_false Bool.false_ne_true (lt_irrefl 0)
  · intro peer
    rw [hlog]
    exact True.intro
  · intro peer
    rw [hlog, hcount]
    rfl

/-- A step that changes neither the peers nor any count from or to zero, and
reports nothing about connections. -/
theorem Exact.same {s t : Connections Peer} (h : s.Exact lib)
    (hpeers : t.rt.peers = s.rt.peers) (hcount : ∀ peer, t.count peer = 0 ↔ s.count peer = 0)
    {events : List AviEvent} (hlog : t.log = s.log ++ events)
    (hevents : ∀ e ∈ events, Runtime.aboutConnection e = none) : t.Exact lib := by
  have hchanges : ∀ peer, changes lib peer t.log = changes lib peer s.log := by
    intro peer
    rw [hlog, changes_append, changes_eq_nil hevents, List.append_nil]
  constructor
  · intro peer
    rw [hpeers, h.peers, Nat.pos_iff_ne_zero, Nat.pos_iff_ne_zero, Ne, Ne, hcount]
  · intro peer
    rw [hchanges]
    exact h.alternates peer
  · intro peer
    rw [hchanges, h.next]
    simp only [hcount]

/-- A step that connects or disconnects one peer, as `b` says. -/
theorem Exact.change {s t : Connections Peer} (h : s.Exact lib) {p : Peer} {b : Bool}
    (hpeers : ∀ peer, (t.rt.peers.get? peer).isSome =
      if peer = p then b else (s.rt.peers.get? peer).isSome)
    (hbefore : s.count p = 0 ↔ b = true) (hafter : t.count p = 0 ↔ b = false)
    (hcount : ∀ peer, peer ≠ p → t.count peer = s.count peer) {events : List AviEvent}
    (hlog : t.log = s.log ++ events)
    (hself : changes lib p events = [b])
    (hother : ∀ peer, peer ≠ p → changes lib peer events = []) : t.Exact lib := by
  have hnext := h.next p
  constructor
  · -- the table lists the connected peers
    intro peer
    rw [hpeers]
    split_ifs with hp
    · rw [hp, Nat.pos_iff_ne_zero, Ne, hafter, Bool.not_eq_false]
    · rw [h.peers, hcount peer hp]
  · -- one more event of the peer, the one that had to come
    intro peer
    by_cases hp : peer = p
    · rw [hp, hlog, changes_append, hself, alternates_concat, hnext]
      refine ⟨h.alternates p, ?_⟩
      rw [Bool.eq_iff_iff, decide_eq_true_eq, hbefore]
    · rw [hlog, changes_append, hother peer hp, List.append_nil]
      exact h.alternates peer
  · -- the next one will be the other
    intro peer
    by_cases hp : peer = p
    · rw [hp, hlog, changes_append, hself, expected_concat, Bool.eq_iff_iff, decide_eq_true_eq,
        hafter, Bool.not_eq_true']
    · rw [hlog, changes_append, hother peer hp, List.append_nil, h.next, hcount peer hp]

/-- The report of one change of connections, read by each peer. -/
theorem changes_report {e : AviEvent} {p : Peer} {b : Bool}
    (h : Runtime.aboutConnection e = some (lib.peerId p, b)) (peer : Peer) :
    changes lib peer [e] = if peer = p then [b] else [] := by
  unfold changes
  rw [List.filterMap_cons]
  simp only [h, List.filterMap_nil]
  by_cases hp : peer = p
  · simp [hp]
  · have hne : ¬ lib.peerId p = lib.peerId peer := fun heq => hp (lib.peerId_injective heq).symm
    simp [hp, hne]

/-- The reports of streams that end are none of connections. -/
theorem changes_closed (p peer : Peer) (ids : List UInt64) :
    changes lib peer ((ids.map fun id =>
      .streamClosed (lib.peerId p) ⟨id⟩ .remoteClose) ++ [.peerDisconnected (lib.peerId p)]) =
        if peer = p then [false] else [] := by
  have hnil : changes lib peer (ids.map fun id =>
      AviEvent.streamClosed (lib.peerId p) ⟨id⟩ .remoteClose) = [] := by
    apply changes_eq_nil
    intro e he
    rcases List.mem_map.mp he with ⟨id, -, rfl⟩
    rfl
  have hreport : Runtime.aboutConnection (AviEvent.peerDisconnected (lib.peerId p)) =
      some (lib.peerId p, false) := rfl
  rw [changes_append, hnil, List.nil_append, changes_report hreport]

/-- A connection that is neither the first nor the last one. -/
theorem Exact.further {s t : Connections Peer} (h : s.Exact lib) {peer : Peer} {m : ℕ}
    (hrt : t.rt = s.rt) (hlog : t.log = s.log) (hcount : t.count = Function.update s.count peer m)
    (hs : s.count peer ≠ 0) (hm : m ≠ 0) : t.Exact lib := by
  have hnil : t.log = s.log ++ [] := by rw [hlog, List.append_nil]
  refine h.same (by rw [hrt]) ?_ hnil nofun
  intro p
  rw [hcount]
  by_cases hp : p = peer
  · rw [hp, Function.update_self]
    exact iff_of_false hm hs
  · rw [Function.update_of_ne hp]

/-- A connection that is established keeps the books. -/
theorem establish_exact {s : Connections Peer} (h : s.Exact lib) (env : Env Peer) (peer : Peer)
    (endpoint : Endpoint) : (s.advance lib (Function.update s.count peer (s.count peer + 1)) env
      (.swarm (.connectionEstablished peer endpoint (s.count peer + 1)))).Exact lib := by
  unfold advance
  by_cases hn : s.count peer = 0
  · -- the first connection
    obtain ⟨hpeers, hevents⟩ := turn_first lib env s.rt peer endpoint
    rw [hn]
    have hreport : Runtime.aboutConnection
        (.peerConnected (lib.peerId peer) (Runtime.endpointAddress endpoint)) =
          some (lib.peerId peer, true) := rfl
    refine h.change (p := peer) (b := true) ?_ ?_ ?_ ?_ (by rw [hevents]) ?_ ?_
    · intro p
      rw [hpeers, SortedMap.get?_insert]
      split_ifs <;> rfl
    · exact iff_of_true hn rfl
    · show Function.update s.count peer (0 + 1) peer = 0 ↔ _
      rw [Function.update_self]
      exact iff_of_false Nat.one_ne_zero nofun
    · intro p hp
      exact Function.update_of_ne hp _ _
    · rw [changes_report hreport, if_pos rfl]
    · intro p hp
      rw [changes_report hreport, if_neg hp]
  · rw [(turn_further peer endpoint hn).1]
    refine h.further rfl ?_ rfl hn (Nat.succ_ne_zero _)
    exact List.append_nil _

/-- So does one that is closed, be it the last or not. -/
theorem close_exact {s : Connections Peer} (h : s.Exact lib) (env : Env Peer) {peer : Peer}
    {n : ℕ} (hn : s.count peer = n + 1) : (s.advance lib (Function.update s.count peer n) env
      (.swarm (.connectionClosed peer n))).Exact lib := by
  unfold advance
  have hpos : s.count peer ≠ 0 := by
    rw [hn]
    exact Nat.succ_ne_zero n
  by_cases hzero : n = 0
  · -- the last connection
    subst hzero
    have hevents := Runtime.eventsOf_closed lib s.rt env peer
    refine h.change (p := peer) (b := false) ?_ ?_ ?_ ?_ rfl ?_ ?_
    · intro p
      simp only [Runtime.turn, Runtime.handleSwarmEvent_closed]
      rw [SortedMap.get?_erase]
      split_ifs <;> rfl
    · exact iff_of_false hpos Bool.false_ne_true
    · show Function.update s.count peer 0 peer = 0 ↔ _
      rw [Function.update_self]
      exact iff_of_true rfl rfl
    · intro p hp
      exact Function.update_of_ne hp _ _
    · show changes lib peer (Runtime.eventsOf (s.rt.handleSwarmEvent lib env _).2) = _
      rw [hevents, changes_closed, if_pos rfl]
    · intro p hp
      show changes lib p (Runtime.eventsOf (s.rt.handleSwarmEvent lib env _).2) = _
      rw [hevents, changes_closed, if_neg hp]
  · rw [(turn_further peer (.dialer "") hzero).2]
    refine h.further rfl ?_ rfl hpos hzero
    exact List.append_nil _

/-- One step of any kind. -/
theorem step_exact (s : Connections Peer) (l : Label Peer) (t : Connections Peer)
    (hstep : (connections lib).step s l = some t) (h : s.Exact lib) : t.Exact lib := by
  cases l with
  | establish env peer endpoint =>
    cases hstep
    exact establish_exact h env peer endpoint
  | close env peer =>
    simp only [connections, step] at hstep
    split at hstep
    · cases hstep
    · rename_i n hn
      cases hstep
      exact close_exact h env hn
  | turn env l =>
    simp only [connections, step] at hstep
    split_ifs at hstep with hconn
    cases hstep
    obtain ⟨hpeers, hevents⟩ :=
      turn_off_connection lib env s.rt (Bool.eq_false_of_not_eq_true hconn)
    exact h.same hpeers (fun _ => Iff.rfl) rfl hevents

/-! ## The last connection -/

/-- What the end of the last connection to `peer` does. -/
structure LastClosed (lib : External Peer) (s t : Connections Peer) (peer : Peer) : Prop where
  /-- one report for each stream of the peer, then one for the peer -/
  reports : ∃ ids : List UInt64, ids.Nodup ∧
    (∀ id, id ∈ ids ↔ ∃ state, s.rt.streams.get? id = some state ∧ state.peer = peer) ∧
    t.log = s.log ++ (ids.map fun id => .streamClosed (lib.peerId peer) ⟨id⟩ .remoteClose) ++
      [.peerDisconnected (lib.peerId peer)]
  gone : ∀ id state, t.rt.streams.get? id = some state → state.peer ≠ peer
  others : ∀ id state, state.peer ≠ peer →
    (t.rt.streams.get? id = some state ↔ s.rt.streams.get? id = some state)
  forgotten : peer ∉ t.rt.discoveredPeers ∧ peer ∉ t.rt.syncedPeers

/-- The last connection that closes takes the peer's streams with it. -/
theorem step_lastClosed {s t : Connections Peer} {env : Env Peer} {peer : Peer}
    (hstep : (connections lib).step s (.close env peer) = some t) (hlast : s.count peer = 1) :
    LastClosed lib s t peer := by
  simp only [connections, step, hlast, Option.some.injEq] at hstep
  have hstreams : t.rt.streams =
      (s.rt.idsToRemove env peer).foldl SortedMap.erase s.rt.streams := by
    rw [← hstep]
    simp only [advance, Runtime.turn, Runtime.handleSwarmEvent_closed]
  -- the entries that remain are those of other peers
  have hget : ∀ id state, t.rt.streams.get? id = some state ↔
      s.rt.streams.get? id = some state ∧ state.peer ≠ peer := by
    intro id state
    rw [hstreams, SortedMap.get?_foldl_erase]
    split_ifs with hmem
    · -- one of those that were closed
      rcases Runtime.mem_idsToRemove.mp hmem with ⟨state', hget', hpeer⟩
      refine iff_of_false not_false ?_
      rintro ⟨hstate, hne⟩
      rw [hget'] at hstate
      cases hstate
      exact hne hpeer
    · constructor
      · intro hstate
        exact ⟨hstate, fun hpeer => hmem (Runtime.mem_idsToRemove.mpr ⟨state, hstate, hpeer⟩)⟩
      · intro h
        exact h.1
  constructor
  · -- an event for each stream of the peer
    refine ⟨s.rt.idsToRemove env peer, Runtime.nodup_idsToRemove env s.rt peer, ?_, ?_⟩
    · intro id
      exact Runtime.mem_idsToRemove
    · rw [← hstep, List.append_assoc, ← Runtime.eventsOf_closed]
      rfl
  · intro id state hstate
    exact ((hget id state).mp hstate).2
  · intro id state hne
    rw [hget]
    exact and_iff_left hne
  · -- and the peer is forgotten
    rw [← hstep]
    simp only [advance, Runtime.turn, Runtime.handleSwarmEvent_closed]
    exact ⟨Finset.notMem_erase _ _, Finset.notMem_erase _ _⟩

/-- **Bookkeeping**: in every state of every run the peers are exactly those
with a connection, and the reports about each of them take turns; and when the
last connection to a peer ends, its streams end with one report each, the peer
is reported and forgotten, and the streams of the others stay as they are. -/
theorem bookkeeping (lib : External Peer) (s t : Connections Peer)
    (h₀ : (connections lib).Init s) (ls : List (Label Peer))
    (hrun : (connections lib).run s ls = some t) :
    (∀ peer, peer ∈ t.rt.peers.keys ↔ 0 < t.count peer) ∧
      (∀ peer, Alternates true (changes lib peer t.log)) ∧
      ∀ env peer u, t.count peer = 1 → (connections lib).step t (.close env peer) = some u →
        LastClosed lib t u peer := by
  have hexact : t.Exact lib := (connections lib).run_invariant step_exact hrun (init_exact h₀)
  refine ⟨?_, hexact.alternates, ?_⟩
  · intro peer
    rw [SortedMap.mem_keys]
    exact hexact.peers peer
  · intro env peer u hlast hstep
    exact step_lastClosed hstep hlast

/-- A node that has just started. -/
def started : Connections String := ⟨.new External.plain "me" 0, fun _ => 0, []⟩

/-- A peer connects twice, opens a stream, and one connection ends. -/
def twiceConnected : List (Label String) :=
  [.establish (.calm String) "peer" (.dialer "/ip4/10.0.0.2"),
    .establish (.calm String) "peer" (.listener "/ip4/10.0.0.2"),
    .turn (.calm String) (.swarm (.request "peer" (.requestStream 7 "chat"))),
    .close (.calm String) "peer"]

theorem bookkeeping_twice : ∃ t, (connections External.plain).run started twiceConnected = some t ∧
    (∀ peer, peer ∈ t.rt.peers.keys ↔ 0 < t.count peer) ∧
      (∀ peer, Alternates true (changes External.plain peer t.log)) ∧
      ∀ env peer u, t.count peer = 1 →
        (connections External.plain).step t (.close env peer) = some u →
          LastClosed External.plain t u peer := by
  have hrun : ((connections External.plain).run started twiceConnected).isSome = true := by
    decide +kernel
  obtain ⟨t, ht⟩ := Option.isSome_iff_exists.mp hrun
  exact ⟨t, ht, bookkeeping External.plain started t ⟨⟨"me", 0, rfl⟩, rfl, rfl⟩ _ ht⟩

end Connections

end AviNet
