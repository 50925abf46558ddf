import AviNet.Lib.Exchange
import AviNet.Runtime.StreamTurn
import Mathlib.Logic.Equiv.List
import Mathlib.Order.BoundedOrder.Basic
import Mathlib.Order.Lattice.Nat
import Mathlib.Order.Nat

/-!
# Replication.ContextPair — two connected nodes and their contexts

A node sends its context to a peer once, when the peer is identified, and
publishes it after each of its own writes. What one node sends reaches the
other once, in any order. A write that finds no subscriber on the topic is
acknowledged all the same, and never published again.

* `abs`: the clocks of the two nodes as an `Exchange`, a node being linked to
  the other one from the first `SyncContext` on;
* `converged_of_forwarded`: as long as no write of a linked node goes
  unpublished, two nodes that have synced agree once nothing is in flight;
* `withheld`: a write between the first synchronisation and the first
  subscription.
-/

namespace AviNet

/-- A context on its way. -/
inductive ContextPacket where
  /-- a `SyncContext` request -/
  | sync (ctx : AviContext)
  /-- a message on the topic of context updates -/
  | gossip (data : Bytes)

namespace ContextPacket

/-- The event at the other end. -/
def event {Peer : Type} (source : Peer) : ContextPacket → SwarmEvent Peer
  | .sync ctx => .request source (.syncContext ctx)
  | .gossip data => .gossip source Runtime.contextTopic data

/-- The context that arrives, if the bytes can be read. -/
def context {Peer : Type} (lib : External Peer) : ContextPacket → Option AviContext
  | .sync ctx => some ctx
  | .gossip data => lib.decodeContext data

end ContextPacket

/-- Two nodes, and the contexts on their way to each. -/
structure ContextPair (Peer : Type) [LinearOrder Peer] where
  rt : Bool → Runtime Peer
  flight : Bool → List ContextPacket

namespace ContextPair

variable {Peer : Type} [LinearOrder Peer]

/-! ## Model layer -/

/-- The context that an effect puts on its way to the node `other`. -/
def carried (other : Peer) : Effect Peer → Option ContextPacket
  | .send peer (.syncContext ctx) => if peer = other then some (.sync ctx) else none
  | .published topic data => if topic = Runtime.contextTopic then some (.gossip data) else none
  | _ => none

def packetsOf (other : Peer) (effects : List (Effect Peer)) : List ContextPacket :=
  effects.filterMap (carried other)

/-- A turn that handles a context. -/
def bringsContext : Runtime.Label Peer → Bool
  | .swarm (.request _ (.syncContext _)) => true
  | .swarm (.gossip _ topic _) => decide (topic = Runtime.contextTopic)
  | _ => false

inductive Label (Peer : Type) where
  /-- a turn of the node `i` that handles no context -/
  | turn (i : Bool) (env : Env Peer) (l : Runtime.Label Peer)
  /-- a context arrives at the node `i` -/
  | deliver (i : Bool) (env : Env Peer) (n : ℕ)

/-- The node `i` takes a turn. -/
def act (lib : External Peer) (name : Bool → Peer) (s : ContextPair Peer) (i : Bool)
    (env : Env Peer) (l : Runtime.Label Peer) : ContextPair Peer where
  rt := Function.update s.rt i ((s.rt i).turn lib env l).1
  flight := Function.update s.flight (!i)
    (s.flight (!i) ++ packetsOf (name (!i)) ((s.rt i).turn lib env l).2)

/-- The contexts on their way to `i` without the `n`th. -/
def take (s : ContextPair Peer) (i : Bool) (n : ℕ) : ContextPair Peer :=
  { s with flight := Function.update s.flight i ((s.flight i).eraseIdx n) }

def step (lib : External Peer) (name : Bool → Peer) (s : ContextPair Peer) :
    Label Peer → Option (ContextPair Peer)
  -- contexts come from the other node only
  | .turn i env l => if bringsContext l then none else some (s.act lib name i env l)
  | .deliver i env n => (s.flight i)[n]?.map fun p =>
    (s.take i n).act lib name i env (.swarm (p.event (name (!i))))

/-- Two nodes that have just started. -/
def Init (lib : External Peer) (name : Bool → Peer) (s : ContextPair Peer) : Prop :=
  ∀ i, (∃ now, s.rt i = .new lib (name i) now) ∧ s.flight i = []

end ContextPair

open ContextPair in
/-- The machine of the two nodes with these peer ids. -/
def contextPair {Peer : Type} [LinearOrder Peer] (lib : External Peer) (name : Bool → Peer) :
    Machine (ContextPair Peer) (ContextPair.Label Peer) where
  Init := Init lib name
  step := step lib name

namespace ContextPair

variable {Peer : Type} [LinearOrder Peer]

/-- The node `i` has synced with the other one. -/
def Synced (name : Bool → Peer) (s : ContextPair Peer) (i : Bool) : Prop :=
  name (!i) ∈ (s.rt i).syncedPeers

instance (name : Bool → Peer) (s : ContextPair Peer) (i : Bool) : Decidable (s.Synced name i) :=
  inferInstanceAs (Decidable (name (!i) ∈ (s.rt i).syncedPeers))

/-- Two nodes that have synced with each other have equal clocks when no context is
in flight. -/
def Converged (name : Bool → Peer) (s : ContextPair Peer) : Prop :=
  (∀ i, s.Synced name i) → (∀ i, s.flight i = []) →
    (s.rt true).localContext.vectorClock.partialCmp (s.rt false).localContext.vectorClock =
      some .eq

/-! ## The condition -/

/-- What a node that has synced learns is published. -/
def Forwarded (lib : External Peer) (name : Bool → Peer) (s : ContextPair Peer) :
    Label Peer → Prop
  -- the counter does not run over, and gossipsub takes the message
  | .turn i env (.command (.updateSelfContext _))
  | .turn i env (.command (.replaceSelfContext _)) =>
    (s.rt i).localContext.version (s.rt i).localContext.deviceId + 1 < 2 ^ 64 ∧
      (s.Synced name i → env.publish = .ok)
  -- the application publishes no context of its own making
  | .turn i env (.command (.publish topic data)) =>
    topic = Runtime.contextTopic → env.publish = .ok → ∀ c, lib.decodeContext data = some c →
      c.version ≤ (s.rt i).localContext.version
  | _ => True

end ContextPair

/-- Contexts can be encoded, and keep their clocks. -/
def External.KeepsClocks {Peer : Type} (lib : External Peer) : Prop :=
  ∀ c, ∃ data c', lib.encodeContext c = some data ∧ lib.decodeContext data = some c' ∧
    c'.version = c.version

namespace ContextPair

variable {Peer : Type} [LinearOrder Peer]

/-! ## The abstraction -/

/-- The versions that packets carry. -/
def versions (lib : External Peer) (packets : List ContextPacket) : List (String → ℕ) :=
  packets.filterMap fun p => (p.context lib).map AviContext.version

/-- What the two nodes know and send each other. -/
def abs (lib : External Peer) (name : Bool → Peer) (s : ContextPair Peer) :
    Exchange (String → ℕ) where
  value i := (s.rt i).localContext.version
  flight i := (versions lib (s.flight i) : Multiset (String → ℕ))
  linked i := s.Synced name i

/-! ## What a turn tells the other node -/

section Turns

variable {lib : External Peer} {env : Env Peer} {other : Peer} {self : Runtime Peer}

omit [LinearOrder Peer] in
/-- The versions in flight are those of the contexts the packets decode to. -/
theorem mem_versions {packets : List ContextPacket} {v : String → ℕ} :
    v ∈ versions lib packets ↔ ∃ p ∈ packets, ∃ c, p.context lib = some c ∧ c.version = v := by
  simp only [versions, List.mem_filterMap, Option.map_eq_some_iff]

theorem packetsOf_append (a b : List (Effect Peer)) :
    packetsOf other (a ++ b) = packetsOf other a ++ packetsOf other b := List.filterMap_append

/-- Effects that send no context. -/
def Mute (other : Peer) (effects : List (Effect Peer)) : Prop :=
  ∀ e ∈ effects, carried other e = none

/-- Mute effects put no packet in flight to the other node. -/
theorem Mute.packetsOf {effects : List (Effect Peer)} (h : Mute other effects) :
    packetsOf other effects = [] := List.filterMap_eq_nil_iff.mpr h

theorem Mute.append {a b : List (Effect Peer)} (ha : Mute other a) (hb : Mute other b) :
    Mute other (a ++ b) := by
  intro e he
  rcases List.mem_append.mp he with h | h
  · exact ha e h
  · exact hb e h

theorem mute_nil : Mute other ([] : List (Effect Peer)) := by
  intro e he
  cases he

theorem mute_singleton {e : Effect Peer} (h : carried other e = none) : Mute other [e] := by
  intro e' he'
  rw [List.mem_singleton.mp he']
  exact h

theorem mute_map {α : Type} {f : α → Effect Peer} (h : ∀ a, carried other (f a) = none)
    (l : List α) : Mute other (l.map f) := by
  intro e he
  obtain ⟨a, -, rfl⟩ := List.mem_map.mp he
  exact h a

/-- The node knows more than before, sends nothing that it does not know, and
if it has synced afterwards, the other node is owed nothing it has not been sent. -/
structure Discloses (lib : External Peer) (other : Peer) (rt rt' : Runtime Peer)
    (packets : List ContextPacket) : Prop where
  grows : rt.localContext.version ≤ rt'.localContext.version
  honest : ∀ v ∈ versions lib packets, v ≤ rt'.localContext.version
  covers : other ∈ rt'.syncedPeers → rt'.localContext.version ∈ versions lib packets ∨
    (other ∈ rt.syncedPeers ∧ rt'.localContext.version = rt.localContext.version)

/-- A turn that leaves the context alone, sends nothing and completes no exchange discloses
nothing. -/
theorem Discloses.quiet {self' : Runtime Peer} {packets : List ContextPacket}
    (hctx : self'.localContext = self.localContext)
    (hsynced : other ∈ self'.syncedPeers → other ∈ self.syncedPeers) (hpackets : packets = []) :
    Discloses lib other self self' packets where
  grows := hctx ▸ le_rfl
  honest v hv := by
    rw [hpackets] at hv
    cases hv
  covers h := Or.inr ⟨hsynced h, congrArg AviContext.version hctx⟩

/-! ### Commands -/

/-- The end of a write. -/
theorem discloses_broadcast (hlib : lib.KeepsClocks) {ctx : AviContext}
    (hgrow : self.localContext.version ≤ ctx.version)
    (hok : other ∈ self.syncedPeers → env.publish = .ok) :
    Discloses lib other self
      (({ self with localContext := ctx } : Runtime Peer).broadcastContext lib env).1
      (packetsOf other
        (({ self with localContext := ctx } : Runtime Peer).broadcastContext lib env).2) := by
  obtain ⟨subscribed, topics, heq⟩ :=
    Runtime.broadcastContext_writes lib env { self with localContext := ctx }
  -- what is broadcast is read with its own clock
  obtain ⟨data, c, hencode, hdecode, hversion⟩ := hlib ctx
  rw [heq]
  have hpackets : packetsOf other
      (({ self with localContext := ctx } : Runtime Peer).broadcastContext lib env).2 =
        if env.publish = .ok then [.gossip data] else [] := by
    simp only [Runtime.broadcastContext, hencode]
    cases env.publish with
    | ok => rfl
    | insufficientPeers => rfl
    | error e => rfl
  rw [hpackets]
  refine ⟨hgrow, ?_, ?_⟩
  · -- nothing newer is disclosed
    intro v hv
    split_ifs at hv
    · obtain ⟨p, hp, c', hc', rfl⟩ := mem_versions.mp hv
      rw [List.mem_singleton.mp hp] at hc'
      cases hdecode.symm.trans hc'
      exact hversion.le
    · cases hv
  · -- a synced node is told
    intro hsynced
    rw [if_pos (hok hsynced)]
    exact Or.inl (mem_versions.mpr ⟨_, List.mem_singleton_self _, c, hdecode, hversion⟩)

/-- A write raises the version by one, so it never lowers it while the counter has room. -/
theorem version_le_commit {c : AviContext} (h : c.version c.deviceId + 1 < 2 ^ 64)
    (w : AviContext.ContextWrite) (now : UInt64) : c.version ≤ (c.commit w now).version := by
  rw [AviContext.version_commit h]
  intro x
  by_cases hx : x = c.deviceId
  · rw [hx, Function.update_self]
    exact Nat.le_succ _
  · rw [Function.update_of_ne hx]

/-- A command that neither writes nor publishes. -/
def OffContext : Command → Prop
  | .publish _ _ | .updateSelfContext _ | .replaceSelfContext _ => False
  | _ => True

/-- A command off the context's paths discloses nothing new. -/
theorem discloses_off {cmd : Command} (h : OffContext cmd) :
    Discloses lib other self (self.handleCommand lib env cmd).1
      (packetsOf other (self.handleCommand lib env cmd).2) := by
  obtain ⟨_, _, _, _, _, hwrites⟩ := Runtime.handleCommand_writes lib env self cmd
  have hsynced : (self.handleCommand lib env cmd).1.syncedPeers = self.syncedPeers := by
    rw [hwrites]
  have hrest : (self.handleCommand lib env cmd).1.localContext = self.localContext ∧
      packetsOf other (self.handleCommand lib env cmd).2 = [] := by
    cases cmd with
    | publish topic data => exact h.elim
    | updateSelfContext patch => exact h.elim
    | replaceSelfContext data => exact h.elim
    | subscribe topic =>
      -- only the answer differs
      simp only [Runtime.handleCommand, Runtime.gossipSubscribe]
      cases env.subscribeError <;> exact ⟨rfl, rfl⟩
    | unsubscribe topic =>
      simp only [Runtime.handleCommand, Runtime.gossipUnsubscribe]
      cases env.unsubscribeError <;> exact ⟨rfl, rfl⟩
    | requestStream peerId reason =>
      simp only [Runtime.handleCommand]
      cases lib.fromStr peerId.id <;> exact ⟨rfl, rfl⟩
    | acceptStream id | rejectStream id reason | sendStreamData id data | closeStream id =>
      -- an entry of the table or none
      simp only [Runtime.handleCommand]
      cases self.streams.get? id.id <;> exact ⟨rfl, rfl⟩
    | _ => exact ⟨rfl, rfl⟩
  exact .quiet hrest.1 (fun hmem => hsynced ▸ hmem) hrest.2

/-- A publish discloses at most what it carries, a version the node has reached. -/
theorem discloses_publish {topic : String} {data : Bytes}
    (hok : topic = Runtime.contextTopic → env.publish = .ok →
      ∀ c, lib.decodeContext data = some c → c.version ≤ self.localContext.version) :
    Discloses lib other self (self.handleCommand lib env (.publish topic data)).1
      (packetsOf other (self.handleCommand lib env (.publish topic data)).2) := by
  have hstate : (self.handleCommand lib env (.publish topic data)).1 = self := by
    simp only [Runtime.handleCommand]
    cases env.publish <;> rfl
  rw [hstate]
  refine ⟨le_rfl, ?_, fun hsynced => Or.inr ⟨hsynced, rfl⟩⟩
  intro v hv
  obtain ⟨p, hp, c, hc, rfl⟩ := mem_versions.mp hv
  simp only [Runtime.handleCommand] at hp
  cases hpublish : env.publish with
  | ok =>
    rw [hpublish] at hp
    by_cases htopic : topic = Runtime.contextTopic
    · -- an application that publishes where contexts are read
      simp [packetsOf, carried, htopic] at hp
      subst hp
      exact hok htopic hpublish c hc
    · simp [packetsOf, carried, htopic] at hp
  | insufficientPeers =>
    rw [hpublish] at hp
    cases hp
  | error e =>
    rw [hpublish] at hp
    cases hp

/-! ### Swarm events -/

/-- Announcing a peer to the subscribers sends nothing to the other node. -/
theorem mute_emitPeerDiscovered (peerId : Peer) :
    Mute other (self.emitPeerDiscovered lib peerId).2 := by
  unfold Runtime.emitPeerDiscovered
  split_ifs
  · exact mute_nil
  · exact mute_singleton rfl

/-- A list of discovered peers only dials. -/
theorem mute_discovered (list : List (Peer × String)) (acc : Runtime Peer × List (Effect Peer))
    (h : Mute other acc.2) : Mute other (list.foldl (Runtime.discoverOne lib env) acc).2 := by
  induction list generalizing acc with
  | nil => exact h
  | cons found list ih =>
    apply ih
    unfold Runtime.discoverOne
    dsimp only
    refine (h.append ?_).append (mute_emitPeerDiscovered _)
    split_ifs
    · exact mute_singleton rfl
    · exact (mute_singleton rfl).append (mute_singleton rfl)

/-- Adding the addresses of a peer sends it nothing. -/
theorem mute_listenAddrs (peerId : Peer) (addrs : List String)
    (acc : Runtime Peer × List (Effect Peer)) (h : Mute other acc.2) :
    Mute other (addrs.foldl (Runtime.addListenAddr peerId) acc).2 := by
  induction addrs generalizing acc with
  | nil => exact h
  | cons addr addrs ih =>
    apply ih
    exact h.append (mute_singleton rfl)

/-- A merge answers nothing: it only tells the local subscribers. -/
theorem mute_mergeContext (incoming : AviContext) :
    Mute other (self.mergeContext incoming).2 := by
  unfold Runtime.mergeContext
  dsimp only
  split_ifs
  · exact mute_singleton rfl
  · exact mute_nil

variable (lib other self) in
/-- The first `SyncContext` tells all that the node knows. -/
theorem discloses_syncOnce (peerId : Peer) (protocols : List String) :
    Discloses lib other self (self.syncOnce peerId protocols).1
      (packetsOf other (self.syncOnce peerId protocols).2) := by
  unfold Runtime.syncOnce
  split_ifs with hprotocol hsynced
  · exact .quiet rfl id rfl
  · by_cases hother : peerId = other
    · -- the other node is told everything, and synced from now on
      have hpackets : packetsOf other
          [Effect.send peerId (.syncContext self.localContext)] = [.sync self.localContext] := by
        simp [packetsOf, carried, hother]
      rw [hpackets]
      refine ⟨le_rfl, ?_, ?_⟩
      · intro v hv
        obtain ⟨p, hp, c, hc, rfl⟩ := mem_versions.mp hv
        rw [List.mem_singleton.mp hp] at hc
        cases hc
        exact le_rfl
      · intro _
        exact Or.inl (mem_versions.mpr ⟨_, List.mem_singleton_self _, _, rfl, rfl⟩)
    · -- a third node is told
      refine .quiet rfl ?_ ?_
      · intro hmem
        rcases Finset.mem_insert.mp hmem with heq | hold
        · exact absurd heq.symm hother
        · exact hold
      · simp [packetsOf, carried, hother]
  · exact .quiet rfl id rfl

/-- An identified peer is asked for its context, which discloses none of ours. -/
theorem discloses_identified (peerId : Peer) (addrs protocols : List String) :
    Discloses lib other self
      (self.handleSwarmEvent lib env (.identified peerId addrs protocols)).1
      (packetsOf other
        (self.handleSwarmEvent lib env (.identified peerId addrs protocols)).2) := by
  obtain ⟨discovered, hdiscovered⟩ := Runtime.emitPeerDiscovered_writes lib self peerId
  obtain ⟨⟨known, hknown⟩, -⟩ :=
    Runtime.listenAddrs_writes peerId addrs (self.emitPeerDiscovered lib peerId)
  have hmute : Mute other
      (addrs.foldl (Runtime.addListenAddr peerId) (self.emitPeerDiscovered lib peerId)).2 :=
    mute_listenAddrs peerId addrs _ (mute_emitPeerDiscovered peerId)
  have hsync := discloses_syncOnce lib other
    (addrs.foldl (Runtime.addListenAddr peerId) (self.emitPeerDiscovered lib peerId)).1
    peerId protocols
  simp only [Runtime.handleSwarmEvent]
  rw [packetsOf_append, hmute.packetsOf, List.nil_append]
  -- the peer and its addresses are noted elsewhere
  have hctx : (addrs.foldl (Runtime.addListenAddr peerId)
      (self.emitPeerDiscovered lib peerId)).1.localContext = self.localContext := by
    rw [hknown, hdiscovered]
  have hsynced : (addrs.foldl (Runtime.addListenAddr peerId)
      (self.emitPeerDiscovered lib peerId)).1.syncedPeers = self.syncedPeers := by
    rw [hknown, hdiscovered]
  rcases hsync with ⟨hgrows, hhonest, hcovers⟩
  rw [hctx] at hgrows hcovers
  rw [hsynced] at hcovers
  exact ⟨hgrows, hhonest, hcovers⟩

/-- A stream message is answered, and tells nothing. -/
theorem discloses_request {peer : Peer} {msg : StreamMessage}
    (hmsg : bringsContext (.swarm (.request peer msg)) = false) :
    Discloses lib other self (self.handleSwarmEvent lib env (.request peer msg)).1
      (packetsOf other (self.handleSwarmEvent lib env (.request peer msg)).2) := by
  have hrest : (self.handleStreamMessage lib peer msg).1.localContext = self.localContext ∧
      (self.handleStreamMessage lib peer msg).1.syncedPeers = self.syncedPeers ∧
      Mute other (self.handleStreamMessage lib peer msg).2 := by
    cases msg with
    | syncContext ctx => cases hmsg
    | requestStream id reason => exact ⟨rfl, rfl, mute_singleton rfl⟩
    | closeStream id => exact ⟨rfl, rfl, mute_singleton rfl⟩
    | acceptStream id | rejectStream id reason | streamData id data =>
      simp only [Runtime.handleStreamMessage]
      cases self.streams.get? id with
      | none => exact ⟨rfl, rfl, mute_nil⟩
      | some state => exact ⟨rfl, rfl, mute_singleton rfl⟩
  rcases hrest with ⟨hctx, hsynced, hmute⟩
  exact .quiet hctx (fun hmem => hsynced ▸ hmem) (hmute.append (mute_singleton rfl)).packetsOf

/-- Every other event of the swarm that brings no context discloses nothing new. -/
theorem discloses_swarm {event : SwarmEvent Peer} (h : bringsContext (.swarm event) = false) :
    Discloses lib other self (self.handleSwarmEvent lib env event).1
      (packetsOf other (self.handleSwarmEvent lib env event).2) := by
  cases event with
  | newListenAddr address =>
    simp only [Runtime.handleSwarmEvent]
    split_ifs
    · exact .quiet rfl id rfl
    · exact .quiet rfl id rfl
  | discovered list =>
    -- discovered peers are dialled
    obtain ⟨⟨discovered, known, heq⟩, -⟩ := Runtime.discovered_writes lib env list (self, [])
    simp only [Runtime.handleSwarmEvent]
    rw [heq]
    exact .quiet rfl id (mute_discovered list _ mute_nil).packetsOf
  | identified peerId addrs protocols => exact discloses_identified peerId addrs protocols
  | connectionEstablished peerId endpoint n =>
    -- the first connection joins the topic
    simp only [Runtime.handleSwarmEvent]
    split_ifs
    · obtain ⟨subscribed, topics, heq⟩ := Runtime.joinContextTopic_writes env
        { self with peers := self.peers.insert peerId (some (Runtime.endpointAddress endpoint)) }
      rw [heq]
      exact .quiet rfl id rfl
    · exact .quiet rfl id rfl
  | connectionClosed peerId n =>
    -- after the last connection the peer counts as not synced
    by_cases hn : n = 0
    · subst hn
      rw [Runtime.handleSwarmEvent_closed]
      refine .quiet rfl Finset.mem_of_mem_erase ?_
      apply Mute.packetsOf
      exact (mute_map (fun _ => rfl) _).append (mute_singleton rfl)
    · simp only [Runtime.handleSwarmEvent, if_neg hn]
      exact .quiet rfl id rfl
  | gossip source topic data =>
    -- gossip on another topic
    have htopic : topic ≠ Runtime.contextTopic := of_decide_eq_false h
    simp only [Runtime.handleSwarmEvent, if_neg htopic]
    exact .quiet rfl id rfl
  | request peer msg => exact discloses_request h
  | other => exact .quiet rfl id rfl

end Turns

/-! ## Steps -/

section Steps

variable {lib : External Peer} {name : Bool → Peer} {s t : ContextPair Peer}

/-- A turn that meets the condition withholds nothing. -/
theorem discloses_turn (hlib : lib.KeepsClocks) {i : Bool} {env : Env Peer}
    {l : Runtime.Label Peer} (hl : bringsContext l = false)
    (hok : s.Forwarded lib name (.turn i env l)) :
    Discloses lib (name (!i)) (s.rt i) ((s.rt i).turn lib env l).1
      (packetsOf (name (!i)) ((s.rt i).turn lib env l).2) := by
  rcases l with cmd | event | _
  · cases cmd with
    | updateSelfContext patch =>
      exact discloses_broadcast hlib (version_le_commit hok.1 (.update patch) env.now) hok.2
    | replaceSelfContext data =>
      exact discloses_broadcast hlib (version_le_commit hok.1 (.replace data) env.now) hok.2
    | publish topic data => exact discloses_publish hok
    | _ => exact discloses_off True.intro
  · exact discloses_swarm hl
  · refine .quiet rfl id ?_
    apply Mute.packetsOf
    intro e he
    -- the heartbeat dials
    simp only [Runtime.turn, Runtime.heartbeat, List.mem_filterMap] at he
    obtain ⟨known, -, hknown⟩ := he
    split_ifs at hknown
    cases hknown
    rfl

/-- A turn, seen from the clocks. -/
theorem abs_act (i : Bool) (env : Env Peer) (l : Runtime.Label Peer) :
    (s.act lib name i env l).abs lib name = {
      value := Function.update (s.abs lib name).value i
        ((s.rt i).turn lib env l).1.localContext.version
      flight := Function.update (s.abs lib name).flight (!i) ((s.abs lib name).flight (!i) +
        (versions lib (packetsOf (name (!i)) ((s.rt i).turn lib env l).2) : Multiset (String → ℕ)))
      linked := Function.update (s.abs lib name).linked i
        (name (!i) ∈ ((s.rt i).turn lib env l).1.syncedPeers) } := by
  unfold abs act Synced
  congr 1
  · funext j
    exact Function.apply_update (fun _ rt => rt.localContext.version) s.rt i _ j
  · funext j
    refine (Function.apply_update (fun _ packets => (versions lib packets : Multiset (String → ℕ)))
      s.flight (!i) _ j).trans ?_
    -- what is sent comes after what was on its way
    unfold versions
    rw [List.filterMap_append, ← Multiset.coe_add]
  · funext j
    exact Function.apply_update (fun j (rt : Runtime Peer) => name (!j) ∈ rt.syncedPeers) s.rt i _ j

/-- A turn that withholds nothing is one step. -/
theorem act_abs {i : Bool} {env : Env Peer} {l : Runtime.Label Peer}
    (h : Discloses lib (name (!i)) (s.rt i) ((s.rt i).turn lib env l).1
      (packetsOf (name (!i)) ((s.rt i).turn lib env l).2)) :
    (s.abs lib name).Step ((s.act lib name i env l).abs lib name) := by
  rw [abs_act]
  exact .act i h.grows h.honest h.covers

/-! ## Deliveries -/

variable (lib) in
/-- The handler of a context merges it, and tells the other node nothing. -/
theorem turn_event (rt : Runtime Peer) (env : Env Peer) (source other : Peer)
    (p : ContextPacket) :
    (rt.turn lib env (.swarm (p.event source))).1 =
      (p.context lib).elim rt (fun c => (rt.mergeContext c).1) ∧
    packetsOf other (rt.turn lib env (.swarm (p.event source))).2 = [] := by
  cases p with
  | sync ctx =>
    refine ⟨rfl, ?_⟩
    exact ((mute_mergeContext ctx).append (mute_singleton rfl)).packetsOf
  | gossip data =>
    simp only [ContextPacket.event, ContextPacket.context, Runtime.turn,
      Runtime.handleSwarmEvent, if_pos]
    cases lib.decodeContext data with
    | none => exact ⟨rfl, rfl⟩
    | some c => exact ⟨rfl, (mute_mergeContext c).packetsOf⟩

variable (lib) in
omit [LinearOrder Peer] in
/-- What is on its way without one packet. -/
theorem versions_eraseIdx {packets : List ContextPacket} {n : ℕ} {p : ContextPacket}
    (h : packets[n]? = some p) :
    (versions lib packets : Multiset (String → ℕ)) =
      ((p.context lib).map AviContext.version).toList + versions lib (packets.eraseIdx n) := by
  obtain ⟨hn, hp⟩ := List.getElem?_eq_some_iff.mp h
  have hperm : (p :: packets.eraseIdx n).Perm packets := by
    rw [← hp]
    exact List.getElem_cons_eraseIdx_perm hn
  have hversions := hperm.filterMap fun p => (p.context lib).map AviContext.version
  rw [Multiset.coe_add, Multiset.coe_eq_coe]
  refine hversions.symm.trans ?_
  rw [List.filterMap_cons]
  cases (p.context lib).map AviContext.version <;> exact .refl _

/-- Taking a packet out of flight takes its version out of flight, and nothing else. -/
theorem abs_take (i : Bool) (n : ℕ) : (s.take i n).abs lib name = { s.abs lib name with
    flight := Function.update (s.abs lib name).flight i
      (versions lib ((s.flight i).eraseIdx n) : Multiset (String → ℕ)) } := by
  unfold abs take Synced
  congr 1
  funext j
  exact Function.apply_update (fun _ packets => (versions lib packets : Multiset (String → ℕ)))
    s.flight i _ j

/-- A context arrives. -/
theorem deliver_abs {i : Bool} {env : Env Peer} {n : ℕ} {p : ContextPacket}
    (h : (s.flight i)[n]? = some p) : (s.abs lib name).Step
      (((s.take i n).act lib name i env (.swarm (p.event (name (!i))))).abs lib name) := by
  obtain ⟨hstate, hpackets⟩ := turn_event lib (s.rt i) env (name (!i)) (name (!i)) p
  have hflight := versions_eraseIdx lib h
  cases hc : p.context lib with
  | none =>
    -- the bytes cannot be read
    rw [hc] at hstate hflight
    have htake : (s.take i n).abs lib name = s.abs lib name := by
      have hsame : (versions lib ((s.flight i).eraseIdx n) : Multiset (String → ℕ)) =
          (s.abs lib name).flight i := by
        rw [show (s.abs lib name).flight i = _ from hflight]
        exact (Multiset.zero_add _).symm
      rw [abs_take, hsame, Function.update_eq_self]
    rw [← htake]
    apply act_abs
    exact .quiet (congrArg Runtime.localContext hstate)
      (fun hmem => (congrArg Runtime.syncedPeers hstate) ▸ hmem) hpackets
  | some c =>
    -- its clock leaves the flight and is joined
    rw [hc] at hstate hflight
    have hversion : ((s.rt i).turn lib env
        (.swarm (p.event (name (!i))))).1.localContext.version =
          (s.abs lib name).value i ⊔ c.version := by
      rw [hstate]
      exact AviContext.version_merge _ c
    have hsynced : (name (!i) ∈ ((s.rt i).turn lib env
        (.swarm (p.event (name (!i))))).1.syncedPeers) = (s.abs lib name).linked i := by
      rw [hstate]
      rfl
    have hafter : ((s.take i n).act lib name i env (.swarm (p.event (name (!i))))).abs lib name =
        { s.abs lib name with
          value := Function.update (s.abs lib name).value i ((s.abs lib name).value i ⊔ c.version)
          flight := Function.update (s.abs lib name).flight i
            (versions lib ((s.flight i).eraseIdx n) : Multiset (String → ℕ)) } := by
      have hnone : (versions lib (packetsOf (name (!i)) (((s.take i n).rt i).turn lib env
          (.swarm (p.event (name (!i))))).2) : Multiset (String → ℕ)) = 0 :=
        congrArg (fun packets => (versions lib packets : Multiset (String → ℕ))) hpackets
      rw [abs_act, hnone, Multiset.add_zero, Function.update_eq_self, abs_take]
      congr 1
      · exact congrArg (Function.update (s.abs lib name).value i) hversion
      · refine (congrArg (Function.update (s.abs lib name).linked i) hsynced).trans ?_
        exact Function.update_eq_self i _
    rw [hafter]
    exact .receive i hflight

/-- Every step of the pair is a step of the exchange of versions: the simulation that
carries the invariant. -/
theorem step_abs (hlib : lib.KeepsClocks) {l : Label Peer}
    (hstep : (contextPair lib name).step s l = some t) (hok : s.Forwarded lib name l) :
    (s.abs lib name).Step (t.abs lib name) := by
  cases l with
  | turn i env l =>
    simp only [contextPair, step] at hstep
    split_ifs at hstep with hl
    cases hstep
    exact act_abs (discloses_turn hlib (Bool.not_eq_true _ ▸ hl) hok)
  | deliver i env n =>
    obtain ⟨p, hp, rfl⟩ := Option.map_eq_some_iff.mp hstep
    exact deliver_abs hp

end Steps

/-! ## Runs -/

/-- Two nodes that have just started have nothing to tell each other. -/
theorem init_covered {lib : External Peer} {name : Bool → Peer} {s : ContextPair Peer}
    (h : (contextPair lib name).Init s) : (s.abs lib name).Covered := by
  apply Exchange.Covered.start
  · intro i
    unfold abs
    dsimp only
    rw [(h i).2]
    rfl
  · intro i hlinked
    obtain ⟨⟨now, hrt⟩, -⟩ := h i
    unfold abs Synced at hlinked
    dsimp only at hlinked
    rw [hrt] at hlinked
    exact Finset.notMem_empty _ hlinked

/-- Where every version is known or in flight, the pair has converged in the claim's sense. -/
theorem Covered.converged {lib : External Peer} {name : Bool → Peer} {s : ContextPair Peer}
    (h : (s.abs lib name).Covered) : s.Converged name := by
  intro hsynced hflight
  have hagree : (s.rt true).localContext.version = (s.rt false).localContext.version := by
    apply h.agree hsynced
    intro i
    unfold abs
    dsimp only
    rw [hflight]
    rfl
  exact VectorClock.partialCmp_eq_some_eq_iff.mpr hagree

/-- **No update is withheld**: in a run of two nodes from their start, with any
commands, connections and identifications at either, and with the contexts in
flight arriving in any order, two nodes that have synced with each other have
equal clocks whenever no context is in flight, as long as every write of a node
that has synced is taken by gossipsub and no counter runs over. -/
theorem converged_of_forwarded (lib : External Peer) (hlib : lib.KeepsClocks)
    (name : Bool → Peer) (s : ContextPair Peer) (h₀ : (contextPair lib name).Init s)
    (ls : List (Label Peer)) (hok : (contextPair lib name).AllSteps (Forwarded lib name) s ls) :
    (contextPair lib name).AllStates (Converged name) s ls := by
  have hcovered : (contextPair lib name).AllStates (fun s => (s.abs lib name).Covered) s ls :=
    (contextPair lib name).allStates_of_allSteps
      (fun s l t hstep hok hcovered => hcovered.step (step_abs hlib hstep hok))
      (init_covered h₀) hok
  exact Machine.AllStates.mono _ (fun _ h => Covered.converged h) hcovered

/-! ## Two nodes that meet -/

/-- The numbers of the characters of a text. -/
def charCodes (text : String) : List ℕ := text.toList.map Char.toNat

/-- A text is read back from the codes of its characters. -/
theorem ofList_charCodes (text : String) :
    String.ofList ((charCodes text).map Char.ofNat) = text := by
  have hchars : (charCodes text).map Char.ofNat = text.toList := by
    unfold charCodes
    rw [List.map_map]
    exact List.map_id'' Char.ofNat_toNat _
  rw [hchars, String.ofList_toList]

/-- A device id, a timestamp and a clock as numbers. -/
def headerCodes (c : AviContext) : (List ℕ × ℕ) × List (List ℕ × ℕ) :=
  ((charCodes c.deviceId, c.timestamp.toNat),
    c.vectorClock.entries.entries.map fun e => (charCodes e.1, e.2.toNat))

/-- The clock with these entries. -/
def clockOf (codes : List (List ℕ × ℕ)) : Option VectorClock :=
  let entries := codes.map fun e => (String.ofList (e.1.map Char.ofNat), UInt64.ofNat e.2)
  if h : Assoc.Sorted entries then some ⟨⟨entries, h⟩⟩ else none

/-- The clock is read back from the header the coded library writes. -/
theorem clockOf_headerCodes (c : AviContext) : clockOf (headerCodes c).2 = some c.vectorClock := by
  have hentries : (headerCodes c).2.map
      (fun e => (String.ofList (e.1.map Char.ofNat), UInt64.ofNat e.2)) =
        c.vectorClock.entries.entries := by
    unfold headerCodes
    dsimp only
    rw [List.map_map]
    apply List.map_id''
    intro e
    simp only [Function.comp_apply, ofList_charCodes, UInt64.ofNat_toNat]
  unfold clockOf
  simp only [hentries]
  exact dif_pos c.vectorClock.entries.sorted

/-- A code of the contexts whose document is the one every node starts with. -/
def coded : External String where
  __ := External.plain
  encodeContext c := some (List.replicate (Encodable.encode (headerCodes c)) 0)
  decodeContext data :=
    (Encodable.decode data.length : Option ((List ℕ × ℕ) × List (List ℕ × ℕ))).bind fun codes =>
      (clockOf codes.2).map fun clock => {
        deviceId := String.ofList (codes.1.1.map Char.ofNat)
        timestamp := UInt64.ofNat codes.1.2
        vectorClock := clock
        data := AviContext.skeleton }

/-- The coded library keeps clocks: whatever is put in flight is read with its own clock. -/
theorem coded_keepsClocks : coded.KeepsClocks := by
  intro c
  refine ⟨_, ⟨c.deviceId, c.timestamp, c.vectorClock, AviContext.skeleton⟩, rfl, ?_, rfl⟩
  unfold coded
  dsimp only
  rw [List.length_replicate, Encodable.encodek, Option.bind_some, clockOf_headerCodes]
  simp only [Option.map_some, headerCodes, ofList_charCodes, UInt64.ofNat_toNat]

/-- The peer ids of the two nodes. -/
def names (i : Bool) : String := if i then "a" else "b"

/-- Two nodes that have just started. -/
def booted : ContextPair String := ⟨fun i => .new coded (names i) 0, fun _ => []⟩

/-- Two nodes with empty clocks are an initial state. -/
theorem booted_init : (contextPair coded names).Init booted := fun _ => ⟨⟨0, rfl⟩, rfl⟩

/-- A node learns of the other one. -/
def identifies (i : Bool) : Label String :=
  .turn i (.calm String) (.swarm (.identified (names (!i)) [] ["/avi/stream/1.0.0"]))

/-- The nodes exchange their contexts. -/
def meet : List (Label String) :=
  [identifies true, identifies false, .deliver false (.calm String) 0,
    .deliver true (.calm String) 0]

/-- The first node writes, and gossipsub takes the context. -/
def meetAndWrite : List (Label String) :=
  meet ++ [.turn true (.calm String) (.command (.updateSelfContext (.object []))),
    .deliver false (.calm String) 0]

theorem converged_of_forwarded_meet :
    (contextPair coded names).AllStates (Converged names) booted meetAndWrite := by
  apply converged_of_forwarded coded coded_keepsClocks names booted booted_init
  refine ⟨True.intro, ?_⟩
  rintro t ⟨⟩
  refine ⟨True.intro, ?_⟩
  rintro t ⟨⟩
  refine ⟨True.intro, ?_⟩
  rintro t ⟨⟩
  refine ⟨True.intro, ?_⟩
  rintro t ⟨⟩
  refine ⟨⟨by decide +kernel, fun _ => rfl⟩, ?_⟩
  rintro t ⟨⟩
  refine ⟨True.intro, ?_⟩
  rintro t ⟨⟩
  exact True.intro

/-- The first node writes, and gossipsub knows no subscriber yet. -/
def writesEarly : List (Label String) :=
  meet ++ [.turn true { Env.calm String with publish := .insufficientPeers }
    (.command (.updateSelfContext (.object [])))]

/-- The second node is never told. -/
theorem withheld : ¬ ∀ (s : ContextPair String) ls, (contextPair coded names).Init s →
    (contextPair coded names).AllStates (Converged names) s ls := by
  intro h
  have hview : ((contextPair coded names).run booted writesEarly).map
      (fun t => (decide (t.Synced names true), decide (t.Synced names false),
        (t.flight true).length, (t.flight false).length,
        (t.rt true).localContext.vectorClock.partialCmp (t.rt false).localContext.vectorClock)) =
      some (true, true, 0, 0, some .gt) := by
    decide +kernel
  obtain ⟨t, ht, hview⟩ := Option.map_eq_some_iff.mp hview
  simp only [Prod.mk.injEq, decide_eq_true_eq, List.length_eq_zero_iff] at hview
  rcases hview with ⟨htrue, hfalse, hflight, hflight', hcmp⟩
  have hall := h booted (writesEarly ++ []) booted_init
  have hconverged : t.Converged names := Machine.AllStates.at_cut _ hall ht
  have hequal := hconverged (Bool.rec hfalse htrue) (Bool.rec hflight' hflight)
  rw [hcmp] at hequal
  cases hequal

end ContextPair

end AviNet
