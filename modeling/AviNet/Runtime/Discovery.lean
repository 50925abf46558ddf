import AviNet.Lib.OncePer
import AviNet.Runtime.Turns

/-!
# Runtime.Discovery — peers discovered, synchronised and dialled

`discovered_peers`, `synced_peers` and `started` are there to do a thing once,
`known_peers` to find a peer again.

* `once_per_connection`: between two `PeerDisconnected` of a peer there is one
  `PeerDiscovered` of it and one `SyncContext` to it at most, and the sets of
  the runtime say whether there has been one; `Started` is emitted once at most;
* `heartbeat_dials`: a heartbeat dials every peer ever reported that is not
  connected, once, at the address reported last.
-/

namespace AviNet.Runtime

variable {Peer : Type} [LinearOrder Peer]

/-! ## What there is at most one of -/

/-- `PeerDiscovered` of `p`. -/
def isDiscovered (lib : External Peer) (p : Peer) : Effect Peer → Bool
  | .event (.peerDiscovered q) => decide (q = lib.peerId p)
  | _ => false

/-- `SyncContext` to `p`. -/
def isSync (p : Peer) : Effect Peer → Bool
  | .send q (.syncContext _) => decide (q = p)
  | _ => false

/-- `PeerDisconnected` of `p`. -/
def isLeft (lib : External Peer) (p : Peer) : Effect Peer → Bool
  | .event (.peerDisconnected q) => decide (q = lib.peerId p)
  | _ => false

def isStarted : Effect Peer → Bool
  | .event (.started _ _) => true
  | _ => false

/-- None of these, for any peer. -/
def Calm : Effect Peer → Prop
  | .event (.peerDiscovered _) | .event (.peerDisconnected _) | .event (.started _ _)
  | .send _ (.syncContext _) => False
  | _ => True

/-- Seen from the peer `p`, the effects `res.2` lead from the state `s` to `res.1`. -/
structure Tracks (lib : External Peer) (p : Peer) (s : Runtime Peer)
    (res : Runtime Peer × List (Effect Peer)) : Prop where
  discovered : (oncePer (isDiscovered lib p) (isLeft lib p)).run
    (decide (p ∈ s.discoveredPeers)) res.2 = some (decide (p ∈ res.1.discoveredPeers))
  synced : (oncePer (isSync p) (isLeft lib p)).run
    (decide (p ∈ s.syncedPeers)) res.2 = some (decide (p ∈ res.1.syncedPeers))
  started : (oncePer isStarted fun _ => false).run s.started res.2 = some res.1.started

/-- A handler that has nothing to do with all this. -/
structure Unnoticed (s : Runtime Peer) (res : Runtime Peer × List (Effect Peer)) : Prop where
  discovered : res.1.discoveredPeers = s.discoveredPeers
  synced : res.1.syncedPeers = s.syncedPeers
  started : res.1.started = s.started
  calm : ∀ e ∈ res.2, Calm e

section Rules

variable {lib : External Peer} {p : Peer} {s r : Runtime Peer}

omit [LinearOrder Peer] in
/-- A calm effect announces no peer and takes none back. -/
theorem Calm.not_discovered {e : Effect Peer} (h : Calm e) :
    isDiscovered lib p e = false ∧ isLeft lib p e = false := by
  cases e with
  | event e => cases e <;> first | exact ⟨rfl, rfl⟩ | exact h.elim
  | _ => exact ⟨rfl, rfl⟩

/-- A calm effect exchanges no context. -/
theorem Calm.not_sync {e : Effect Peer} (h : Calm e) :
    isSync p e = false ∧ isLeft lib p e = false := by
  cases e with
  | event e => cases e <;> first | exact ⟨rfl, rfl⟩ | exact h.elim
  | send q msg => cases msg <;> first | exact ⟨rfl, rfl⟩ | exact h.elim
  | _ => exact ⟨rfl, rfl⟩

omit [LinearOrder Peer] in
/-- A calm effect does not announce the start. -/
theorem Calm.not_started {e : Effect Peer} (h : Calm e) : isStarted e = false := by
  cases e with
  | event e => cases e <;> first | rfl | exact h.elim
  | _ => rfl

/-- A handler that leaves the three sets alone and has calm effects tracks every peer. -/
theorem Unnoticed.tracks {res : Runtime Peer × List (Effect Peer)} (h : Unnoticed s res) :
    Tracks lib p s res where
  discovered := by
    rw [h.discovered]
    exact OncePer.run_quiet (fun e he => (h.calm e he).not_discovered) _
  synced := by
    rw [h.synced]
    exact OncePer.run_quiet (fun e he => (h.calm e he).not_sync) _
  started := by
    rw [h.started]
    exact OncePer.run_quiet (fun e he => ⟨(h.calm e he).not_started, rfl⟩) _

/-- One part of a handler after another. -/
theorem Tracks.append {a : List (Effect Peer)} {res : Runtime Peer × List (Effect Peer)}
    (h : Tracks lib p s (r, a)) (hres : Tracks lib p r res) :
    Tracks lib p s (res.1, a ++ res.2) where
  discovered := OncePer.run_append h.discovered hres.discovered
  synced := OncePer.run_append h.synced hres.synced
  started := OncePer.run_append h.started hres.started

/-- Doing nothing goes unnoticed. -/
theorem unnoticed_nil (s : Runtime Peer) : Unnoticed s (s, []) :=
  ⟨rfl, rfl, rfl, fun e he => by cases he⟩

end Rules

/-! ## Handlers -/

section Handlers

variable {lib : External Peer} {env : Env Peer} {self : Runtime Peer} {p : Peer}

/-- A turn that is no swarm event about listening, discovering or leaving. -/
def Away : Label Peer → Prop
  | .swarm (.newListenAddr _) | .swarm (.discovered _) | .swarm (.identified _ _ _)
  | .swarm (.connectionClosed _ _) => False
  | _ => True

omit [LinearOrder Peer] in
/-- Away from the events of the swarm that matter here, a turn's effects are calm. -/
theorem calm_of_does {l : Label Peer} {e : Effect Peer} (h : Does lib l e) (haway : Away l) :
    Calm e := by
  cases h with
  | started _ _ _ | found _ _ | identified _ _ _ | identifiedSync _ _ _ _ | disconnected _ _ =>
    exact haway.elim
  | request peer msg e h => cases e <;> first | exact True.intro | exact h.elim
  | _ => exact True.intro

variable (lib env self) in
/-- Such a turn leaves the two sets and the flag alone. -/
theorem unnoticed_turn (l : Label Peer) (h : Away l) : Unnoticed self (self.turn lib env l) := by
  have hcalm : ∀ e ∈ (self.turn lib env l).2, Calm e := by
    intro e he
    exact calm_of_does (does_of_mem_turn he) h
  cases l with
  | command cmd =>
    -- a command writes none of the three sets
    obtain ⟨subscribed, topics, nextStreamId, streams, ctx, heq⟩ :=
      handleCommand_writes lib env self cmd
    refine ⟨?_, ?_, ?_, hcalm⟩ <;> simp only [turn, heq]
  | tick => exact ⟨rfl, rfl, rfl, hcalm⟩
  | swarm event =>
    cases event with
    | newListenAddr address => exact h.elim
    | discovered list => exact h.elim
    | identified q addrs protocols => exact h.elim
    | connectionClosed q n => exact h.elim
    | connectionEstablished q endpoint n =>
      -- a connection only joins the topic of the contexts
      obtain ⟨subscribed, topics, heq⟩ := joinContextTopic_writes env
        { self with peers := self.peers.insert q (some (endpointAddress endpoint)) }
      refine ⟨?_, ?_, ?_, hcalm⟩ <;> simp only [turn, handleSwarmEvent, heq] <;> split_ifs <;> rfl
    | gossip source topic data =>
      refine ⟨?_, ?_, ?_, hcalm⟩ <;> simp only [turn, handleSwarmEvent] <;> split_ifs <;>
        first | rfl | (cases lib.decodeContext data <;> rfl)
    | request peer msg =>
      -- a stream message
      obtain ⟨streams, ctx, heq⟩ := handleStreamMessage_writes lib self peer msg
      refine ⟨?_, ?_, ?_, hcalm⟩ <;> simp only [turn, handleSwarmEvent, heq]
    | other => exact ⟨rfl, rfl, rfl, hcalm⟩

/-- A peer is reported unless it is in the set, and is in the set afterwards. -/
theorem tracks_emitPeerDiscovered (q : Peer) :
    Tracks lib p self (self.emitPeerDiscovered lib q) := by
  unfold emitPeerDiscovered
  split_ifs with hq
  · exact (unnoticed_nil self).tracks
  · by_cases hqp : q = p
    · subst hqp
      refine ⟨?_, ?_, ?_⟩
      · have hbefore : decide (q ∈ self.discoveredPeers) = false := decide_eq_false hq
        have hafter : decide (q ∈ insert q self.discoveredPeers) = true :=
          decide_eq_true (Finset.mem_insert_self q _)
        rw [hbefore, hafter]
        exact OncePer.run_hit (decide_eq_true rfl) rfl
      · exact OncePer.run_quiet (by simp [isSync, isLeft]) _
      · exact OncePer.run_quiet (by simp [isStarted]) _
    · -- another peer
      have hother : ¬ lib.peerId q = lib.peerId p := fun h => hqp (lib.peerId_injective h)
      refine ⟨?_, ?_, ?_⟩
      · have hsame : (p ∈ insert q self.discoveredPeers) = (p ∈ self.discoveredPeers) := by
          simp [Finset.mem_insert, Ne.symm hqp]
        simp only [hsame]
        exact OncePer.run_quiet (by simp [isDiscovered, isLeft, hother]) _
      · exact OncePer.run_quiet (by simp [isSync, isLeft]) _
      · exact OncePer.run_quiet (by simp [isStarted]) _

/-- A list of discovered peers tracks every peer; the induction is on the list. -/
theorem tracks_discovered {s : Runtime Peer} (list : List (Peer × String))
    {acc : Runtime Peer × List (Effect Peer)} (h : Tracks lib p s acc) :
    Tracks lib p s (list.foldl (discoverOne lib env) acc) := by
  induction list generalizing acc with
  | nil => exact h
  | cons found list ih =>
    rw [List.foldl_cons]
    apply ih
    obtain ⟨q, addr⟩ := found
    have hdialed : Unnoticed acc.1 ({ acc.1 with knownPeers := acc.1.knownPeers.insert q addr },
        .addAddress q addr :: if env.isConnected q then [] else [.dial addr]) := by
      refine ⟨rfl, rfl, rfl, ?_⟩
      split_ifs <;> simp [Calm]
    have hknown : Tracks lib p acc.1 _ := hdialed.tracks
    have hone := (h.append hknown).append (tracks_emitPeerDiscovered q)
    simpa only [discoverOne, List.append_assoc] using hone

/-- So does a list of addresses. -/
theorem tracks_listenAddrs {s : Runtime Peer} (q : Peer) (addrs : List String)
    {acc : Runtime Peer × List (Effect Peer)} (h : Tracks lib p s acc) :
    Tracks lib p s (addrs.foldl (addListenAddr q) acc) := by
  induction addrs generalizing acc with
  | nil => exact h
  | cons addr addrs ih =>
    rw [List.foldl_cons]
    apply ih
    have hadded : Unnoticed acc.1 ({ acc.1 with knownPeers := acc.1.knownPeers.insert q addr },
        [.addAddress q addr]) := ⟨rfl, rfl, rfl, by simp [Calm]⟩
    exact h.append hadded.tracks

/-- The same for the context and the set of those who have it. -/
theorem tracks_syncOnce (q : Peer) (protocols : List String) :
    Tracks lib p self (self.syncOnce q protocols) := by
  unfold syncOnce
  split_ifs with hprotocol hq
  · exact (unnoticed_nil self).tracks
  · by_cases hqp : q = p
    · subst hqp
      refine ⟨?_, ?_, ?_⟩
      · exact OncePer.run_quiet (by simp [isDiscovered, isLeft]) _
      · have hbefore : decide (q ∈ self.syncedPeers) = false := decide_eq_false hq
        have hafter : decide (q ∈ insert q self.syncedPeers) = true :=
          decide_eq_true (Finset.mem_insert_self q _)
        rw [hbefore, hafter]
        exact OncePer.run_hit (decide_eq_true rfl) rfl
      · exact OncePer.run_quiet (by simp [isStarted]) _
    · refine ⟨?_, ?_, ?_⟩
      · exact OncePer.run_quiet (by simp [isDiscovered, isLeft]) _
      · have hsame : (p ∈ insert q self.syncedPeers) = (p ∈ self.syncedPeers) := by
          simp [Finset.mem_insert, Ne.symm hqp]
        simp only [hsame]
        exact OncePer.run_quiet (by simp [isSync, isLeft, hqp]) _
      · exact OncePer.run_quiet (by simp [isStarted]) _
  · exact (unnoticed_nil self).tracks

/-- The last connection of a peer closes: it leaves both sets as it is reported. -/
theorem tracks_closed (q : Peer) :
    Tracks lib p self (self.handleSwarmEvent lib env (.connectionClosed q 0)) := by
  simp only [handleSwarmEvent, if_true, closeOne_foldl]
  generalize idsToRemove env _ q = ids
  have hclosed : ∀ e ∈ ids.map (fun id =>
      (.event (.streamClosed (lib.peerId q) ⟨id⟩ .remoteClose) : Effect Peer)), Calm e := by
    simp [Calm]
  -- the peer itself: its exchange may begin anew
  by_cases hqp : q = p
  · subst hqp
    have hleft : isLeft lib q (.event (.peerDisconnected (lib.peerId q))) = true :=
      decide_eq_true rfl
    refine ⟨?_, ?_, ?_⟩
    · rw [decide_eq_false (Finset.notMem_erase q self.discoveredPeers)]
      exact OncePer.run_append (OncePer.run_quiet (fun e he => (hclosed e he).not_discovered) _)
        (OncePer.run_reset hleft _)
    · rw [decide_eq_false (Finset.notMem_erase q self.syncedPeers)]
      exact OncePer.run_append (OncePer.run_quiet (fun e he => (hclosed e he).not_sync) _)
        (OncePer.run_reset hleft _)
    · exact OncePer.run_append
        (OncePer.run_quiet (fun e he => ⟨(hclosed e he).not_started, rfl⟩) _)
        (OncePer.run_quiet (by simp [isStarted]) _)
  · -- another peer: nothing changes for `p`
    have hother : ¬ lib.peerId q = lib.peerId p := fun h => hqp (lib.peerId_injective h)
    have hdiscovered : (p ∈ self.discoveredPeers.erase q) = (p ∈ self.discoveredPeers) := by
      simp [Finset.mem_erase, Ne.symm hqp]
    have hsynced : (p ∈ self.syncedPeers.erase q) = (p ∈ self.syncedPeers) := by
      simp [Finset.mem_erase, Ne.symm hqp]
    refine ⟨?_, ?_, ?_⟩
    · simp only [hdiscovered]
      exact OncePer.run_append (OncePer.run_quiet (fun e he => (hclosed e he).not_discovered) _)
        (OncePer.run_quiet (by simp [isDiscovered, isLeft, hother]) _)
    · simp only [hsynced]
      exact OncePer.run_append (OncePer.run_quiet (fun e he => (hclosed e he).not_sync) _)
        (OncePer.run_quiet (by simp [isSync, isLeft, hother]) _)
    · exact OncePer.run_append
        (OncePer.run_quiet (fun e he => ⟨(hclosed e he).not_started, rfl⟩) _)
        (OncePer.run_quiet (by simp [isStarted]) _)

variable (lib env self p) in
/-- Every event of the swarm tracks every peer. -/
theorem tracks_handleSwarmEvent (event : SwarmEvent Peer) :
    Tracks lib p self (self.handleSwarmEvent lib env event) := by
  cases event with
  | newListenAddr address =>
    simp only [handleSwarmEvent]
    split_ifs with hstarted
    · -- started already
      exact (unnoticed_nil self).tracks
    · -- `Started` is emitted, once
      refine ⟨?_, ?_, ?_⟩
      · exact OncePer.run_quiet (by simp [isDiscovered, isLeft]) _
      · exact OncePer.run_quiet (by simp [isSync, isLeft]) _
      · rw [Bool.eq_false_iff.mpr hstarted]
        exact OncePer.run_hit rfl rfl
  | discovered list => exact tracks_discovered list (unnoticed_nil self).tracks
  | identified q addrs protocols =>
    -- announced, then asked for its context
    simp only [handleSwarmEvent]
    exact (tracks_listenAddrs q addrs (tracks_emitPeerDiscovered q)).append
      (tracks_syncOnce q protocols)
  | connectionClosed q n =>
    -- the last connection ends what was once for it
    by_cases hn : n = 0
    · rw [hn]
      exact tracks_closed q
    · simp only [handleSwarmEvent, if_neg hn]
      exact (unnoticed_nil self).tracks
  | connectionEstablished q endpoint n =>
    exact (unnoticed_turn lib env self
      (.swarm (.connectionEstablished q endpoint n)) True.intro).tracks
  | gossip source topic data =>
    exact (unnoticed_turn lib env self (.swarm (.gossip source topic data)) True.intro).tracks
  | request peer msg =>
    exact (unnoticed_turn lib env self (.swarm (.request peer msg)) True.intro).tracks
  | other => exact (unnoticed_nil self).tracks

/-- A peer that has identified itself is in the sets. -/
theorem mem_of_identified (rt : Runtime Peer) (env : Env Peer) (q : Peer)
    (addrs protocols : List String) :
    q ∈ (rt.turn lib env (.swarm (.identified q addrs protocols))).1.discoveredPeers ∧
    ("/avi/stream/1.0.0" ∈ protocols →
      q ∈ (rt.turn lib env (.swarm (.identified q addrs protocols))).1.syncedPeers) := by
  have hemitted : q ∈ (rt.emitPeerDiscovered lib q).1.discoveredPeers := by
    unfold emitPeerDiscovered
    split_ifs with hq
    · exact hq
    · exact Finset.mem_insert_self q _
  obtain ⟨⟨known, hknown⟩, -⟩ := listenAddrs_writes q addrs (rt.emitPeerDiscovered lib q)
  simp only [turn, handleSwarmEvent]
  constructor
  · obtain ⟨⟨synced, hsynced⟩, -⟩ := syncOnce_writes
      (addrs.foldl (addListenAddr q) (rt.emitPeerDiscovered lib q)).1 q protocols
    rw [hsynced, hknown]
    exact hemitted
  · intro hprotocol
    unfold syncOnce
    rw [if_pos hprotocol]
    split_ifs with hq
    · exact hq
    · exact Finset.mem_insert_self q _

/-- **The step lemma**. -/
theorem tracks_turn (l : Label Peer) : Tracks lib p self (self.turn lib env l) := by
  cases l with
  | command cmd => exact (unnoticed_turn lib env self (.command cmd) True.intro).tracks
  | swarm event => exact tracks_handleSwarmEvent lib env self p event
  | tick => exact (unnoticed_turn lib env self .tick True.intro).tracks

/-- So does a whole run: each turn starts where the last one has left off. -/
theorem tracks_serve (turns : List (Env Peer × Label Peer)) :
    Tracks lib p self (self.serve lib turns) := by
  induction turns generalizing self with
  | nil => exact (unnoticed_nil self).tracks
  | cons entry turns ih => exact (tracks_turn entry.2).append ih

end Handlers

/-! ## Once per connection -/

/-- **Once per connection**: between two `PeerDisconnected` of a peer there is one
`PeerDiscovered` of it and one `SyncContext` to it at most, and `Started` comes once
at most. The two sets list exactly the peers for which there has been one since, and
a peer that has identified itself is in them, in the second if it speaks the stream
protocol. -/
theorem once_per_connection (lib : External Peer) (localPeerId : Peer) (now : UInt64)
    (turns : List (Env Peer × Label Peer)) (p : Peer) :
    (∀ part, part <:+: (serve lib (.new lib localPeerId now) turns).2 →
      part.countP isStarted ≤ 1 ∧ ((∀ e ∈ part, isLeft lib p e = false) →
        part.countP (isDiscovered lib p) ≤ 1 ∧ part.countP (isSync p) ≤ 1)) ∧
    (p ∈ (serve lib (.new lib localPeerId now) turns).1.discoveredPeers ↔
      ∃ u v, (serve lib (.new lib localPeerId now) turns).2 = u ++ v ∧
        (∀ e ∈ v, isLeft lib p e = false) ∧ v.countP (isDiscovered lib p) = 1) ∧
    (p ∈ (serve lib (.new lib localPeerId now) turns).1.syncedPeers ↔
      ∃ u v, (serve lib (.new lib localPeerId now) turns).2 = u ++ v ∧
        (∀ e ∈ v, isLeft lib p e = false) ∧ v.countP (isSync p) = 1) ∧
    ∀ env addrs protocols,
      p ∈ (serve lib (.new lib localPeerId now)
        (turns ++ [(env, .swarm (.identified p addrs protocols))])).1.discoveredPeers ∧
      ("/avi/stream/1.0.0" ∈ protocols → p ∈ (serve lib (.new lib localPeerId now)
        (turns ++ [(env, .swarm (.identified p addrs protocols))])).1.syncedPeers) := by
  have h : Tracks lib p (.new lib localPeerId now) (serve lib (.new lib localPeerId now) turns) :=
    tracks_serve turns
  -- what announces a peer does not take it back
  have hdiscovered : ∀ e, isDiscovered lib p e = true → isLeft lib p e = false := by
    intro e he
    cases e with
    | event e => cases e <;> first | rfl | cases he
    | _ => rfl
  -- nor does what exchanges a context
  have hsync : ∀ e, isSync p e = true → isLeft lib p e = false := by
    intro e he
    cases e with
    | event e => cases he
    | _ => rfl
  refine ⟨?_, ?_, ?_, ?_⟩
  · -- at most once while the connection lasts
    intro part hpart
    constructor
    · exact OncePer.countP_infix_le h.started hpart fun _ _ => rfl
    · intro hstays
      exact ⟨OncePer.countP_infix_le h.discovered hpart hstays,
        OncePer.countP_infix_le h.synced hpart hstays⟩
  · exact decide_eq_true_iff.symm.trans (OncePer.armed_iff_once hdiscovered h.discovered)
  · exact decide_eq_true_iff.symm.trans (OncePer.armed_iff_once hsync h.synced)
  · -- an identified peer is announced and, if it can, synced
    intro env addrs protocols
    rw [serve_concat]
    exact mem_of_identified _ env p addrs protocols

/-! ## Heartbeats -/

/-- The addresses that a turn reports. -/
def reports : Label Peer → List (Peer × String)
  | .swarm (.discovered list) => list
  | .swarm (.identified peerId listenAddrs _) => listenAddrs.map fun addr => (peerId, addr)
  | _ => []

/-- The address reported last. -/
def lastReported (turns : List (Env Peer × Label Peer)) (p : Peer) : Option String :=
  ((turns.flatMap fun entry => reports entry.2).reverse.find? fun r => decide (r.1 = p)).map
    Prod.snd

section Heartbeat

variable {lib : External Peer} {env : Env Peer} {self : Runtime Peer}

/-- What the addresses `rs` make of the table. -/
def noteAll (m : SortedMap Peer String) (rs : List (Peer × String)) : SortedMap Peer String :=
  rs.foldl (fun m r => m.insert r.1 r.2) m

/-- The table has the address that was reported last. -/
theorem get?_noteAll (rs : List (Peer × String)) (m : SortedMap Peer String) (p : Peer) :
    (noteAll m rs).get? p =
      ((rs.reverse.find? fun r => decide (r.1 = p)).map Prod.snd).or (m.get? p) := by
  induction rs generalizing m with
  | nil => rfl
  | cons r rs ih =>
    show (noteAll (m.insert r.1 r.2) rs).get? p = _
    rw [ih, List.reverse_cons, List.find?_append, SortedMap.get?_insert]
    cases rs.reverse.find? fun r => decide (r.1 = p) with
    | some later => rfl
    | none =>
      by_cases hr : r.1 = p
      · simp [hr]
      · simp [hr, Ne.symm hr]

/-- Discovered peers are noted with their addresses, in order. -/
theorem knownPeers_discovered (list : List (Peer × String))
    (acc : Runtime Peer × List (Effect Peer)) :
    (list.foldl (discoverOne lib env) acc).1.knownPeers = noteAll acc.1.knownPeers list := by
  induction list generalizing acc with
  | nil => rfl
  | cons found list ih =>
    obtain ⟨d, hd⟩ := emitPeerDiscovered_writes lib
      { acc.1 with knownPeers := acc.1.knownPeers.insert found.1 found.2 } found.1
    have hone : (discoverOne lib env acc found).1.knownPeers =
        acc.1.knownPeers.insert found.1 found.2 := by
      simp only [discoverOne, hd]
    rw [List.foldl_cons, ih, hone]
    rfl

/-- So are the addresses a peer says it listens on. -/
theorem knownPeers_listenAddrs (q : Peer) (addrs : List String)
    (acc : Runtime Peer × List (Effect Peer)) :
    (addrs.foldl (addListenAddr q) acc).1.knownPeers =
      noteAll acc.1.knownPeers (addrs.map fun addr => (q, addr)) := by
  induction addrs generalizing acc with
  | nil => rfl
  | cons addr addrs ih =>
    rw [List.foldl_cons, ih]
    rfl

variable (lib env self) in
/-- **The step lemma**: a turn notes the addresses it reports, in order. -/
theorem knownPeers_turn (l : Label Peer) :
    (self.turn lib env l).1.knownPeers = noteAll self.knownPeers (reports l) := by
  cases l with
  | command cmd =>
    -- a command reports no address
    obtain ⟨subscribed, topics, nextStreamId, streams, ctx, heq⟩ :=
      handleCommand_writes lib env self cmd
    show (self.handleCommand lib env cmd).1.knownPeers = self.knownPeers
    rw [heq]
  | tick => rfl
  | swarm event =>
    show (self.handleSwarmEvent lib env event).1.knownPeers = _
    cases event with
    | newListenAddr address =>
      simp only [handleSwarmEvent]
      split_ifs <;> rfl
    | discovered list => exact knownPeers_discovered list (self, [])
    | identified q addrs protocols =>
      -- the addresses it says it listens on
      obtain ⟨d, hd⟩ := emitPeerDiscovered_writes lib self q
      obtain ⟨⟨synced, hsynced⟩, -⟩ := syncOnce_writes
        (addrs.foldl (addListenAddr q) (self.emitPeerDiscovered lib q)).1 q protocols
      simp only [handleSwarmEvent]
      rw [hsynced]
      show (addrs.foldl (addListenAddr q) (self.emitPeerDiscovered lib q)).1.knownPeers = _
      rw [knownPeers_listenAddrs, hd]
      rfl
    | connectionEstablished q endpoint n =>
      -- a connection notes the endpoint elsewhere
      simp only [handleSwarmEvent]
      split_ifs
      · obtain ⟨subscribed, topics, heq⟩ := joinContextTopic_writes env
          { self with peers := self.peers.insert q (some (endpointAddress endpoint)) }
        rw [heq]
        rfl
      · rfl
    | connectionClosed q n =>
      simp only [handleSwarmEvent]
      split_ifs
      · rw [closeOne_foldl]
        rfl
      · rfl
    | gossip source topic data =>
      simp only [handleSwarmEvent]
      split_ifs
      · cases lib.decodeContext data <;> rfl
      · rfl
    | request peer msg =>
      obtain ⟨streams, ctx, heq⟩ := handleStreamMessage_writes lib self peer msg
      simp only [handleSwarmEvent]
      rw [heq]
      rfl
    | other => rfl

/-- After a run the table has all the addresses reported in it. -/
theorem knownPeers_serve (turns : List (Env Peer × Label Peer)) :
    (self.serve lib turns).1.knownPeers =
      noteAll self.knownPeers (turns.flatMap fun entry => reports entry.2) := by
  induction turns generalizing self with
  | nil => rfl
  | cons entry turns ih =>
    rw [List.flatMap_cons]
    unfold noteAll
    rw [List.foldl_append]
    have hturn := knownPeers_turn lib entry.1 self entry.2
    unfold noteAll at hturn
    rw [← hturn]
    exact ih

/-- The peers that a heartbeat dials, in its order. -/
def dialled (env : Env Peer) (rt : Runtime Peer) : List Peer :=
  ((env.order rt.knownPeers.entries).filter fun e => !env.isConnected e.1).map Prod.fst

/-- A heartbeat dials the known peers that are not connected. -/
theorem mem_dialled {p : Peer} : p ∈ dialled env self ↔
    env.isConnected p = false ∧ (self.knownPeers.get? p).isSome := by
  unfold dialled
  rw [List.mem_map, Option.isSome_iff_exists]
  constructor
  · rintro ⟨e, he, rfl⟩
    rcases List.mem_filter.mp he with ⟨hmem, hconnected⟩
    have hentry : (e.1, e.2) ∈ self.knownPeers.entries := (env.order_perm _).mem_iff.mp hmem
    exact ⟨(Bool.not_eq_true' _).mp hconnected, e.2, SortedMap.mem_entries.mp hentry⟩
  · rintro ⟨hconnected, addr, haddr⟩
    have hentry := (env.order_perm _).mem_iff.mpr (SortedMap.mem_entries.mpr haddr)
    exact ⟨(p, addr), List.mem_filter.mpr ⟨hentry, (Bool.not_eq_true' _).mpr hconnected⟩, rfl⟩

/-- It dials each of them once. -/
theorem nodup_dialled : (dialled env self).Nodup := by
  have hkeys : ((env.order self.knownPeers.entries).map Prod.fst).Nodup :=
    ((env.order_perm _).map Prod.fst).nodup_iff.mpr self.knownPeers.nodup_keys
  exact hkeys.sublist (List.filter_sublist.map Prod.fst)

variable (env self) in
/-- A heartbeat dials them at the addresses in the table. -/
theorem heartbeat_eq : self.heartbeat env =
    (dialled env self).filterMap fun p => (self.knownPeers.get? p).map .dial := by
  have hall : ∀ l : List (Peer × String), l ⊆ self.knownPeers.entries →
      (l.filterMap fun e => if env.isConnected e.1 then none else some (.dial e.2)) =
        ((l.filter fun e => !env.isConnected e.1).map Prod.fst).filterMap fun p =>
          (self.knownPeers.get? p).map (.dial : String → Effect Peer) := by
    intro l
    induction l with
    | nil => exact fun _ => rfl
    | cons e l ih =>
      intro hl
      have hentry : self.knownPeers.get? e.1 = some e.2 :=
        SortedMap.mem_entries.mp (hl List.mem_cons_self)
      have hrest := ih fun x hx => hl (List.mem_cons_of_mem e hx)
      cases he : env.isConnected e.1 with
      | true => simpa [he] using hrest
      | false => simpa [he, hentry] using hrest
  exact hall _ (env.order_perm _).subset

end Heartbeat

/-- **Heartbeats**: after any turns a heartbeat changes nothing and dials, once for
each, the peers ever reported that are not connected, at the address reported last. -/
theorem heartbeat_dials (lib : External Peer) (localPeerId : Peer) (now : UInt64)
    (turns : List (Env Peer × Label Peer)) (env : Env Peer) :
    (serve lib (.new lib localPeerId now) (turns ++ [(env, .tick)])).1 =
      (serve lib (.new lib localPeerId now) turns).1 ∧
    ∃ targets : List Peer, targets.Nodup ∧
      (∀ p, p ∈ targets ↔ env.isConnected p = false ∧ (lastReported turns p).isSome) ∧
      (serve lib (.new lib localPeerId now) (turns ++ [(env, .tick)])).2 =
        (serve lib (.new lib localPeerId now) turns).2 ++
          targets.filterMap fun p => (lastReported turns p).map .dial := by
  have hknown : ∀ p, (serve lib (.new lib localPeerId now) turns).1.knownPeers.get? p =
      lastReported turns p := by
    intro p
    rw [knownPeers_serve, get?_noteAll]
    exact Option.or_none
  rw [serve_concat]
  refine ⟨rfl, dialled env (serve lib (.new lib localPeerId now) turns).1, nodup_dialled, ?_, ?_⟩
  · intro p
    rw [mem_dialled, hknown]
  · show _ ++ heartbeat env _ = _
    rw [heartbeat_eq]
    simp only [hknown]

end AviNet.Runtime
