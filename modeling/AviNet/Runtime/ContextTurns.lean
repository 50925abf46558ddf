import AviNet.Runtime.StreamCodec
import AviNet.Runtime.StreamTurn

/-!
# Runtime.ContextTurns — what a turn does with contexts

A turn writes the own context, merges a context that arrives, or leaves it as
it is; and the only contexts it sends are copies of the one it ends with, as far as
`serde_json` reads them as they were written (`External.Keeps`).

* `localContext_of_write`, `localContext_of_merge`, `localContext_of_neither`;
* `sent_is_own`: what is carried to other nodes is the own context.
-/

namespace AviNet

open AviContext (ContextWrite)

namespace Runtime

variable {Peer : Type} [LinearOrder Peer]

/-- The write that a turn makes to the own context. -/
def contextWrite : Label Peer → Option ContextWrite
  | .command (.updateSelfContext patch) => some (.update patch)
  | .command (.replaceSelfContext data) => some (.replace data)
  | _ => none

/-- The context that a turn merges. -/
def contextMerged (lib : External Peer) : Label Peer → Option AviContext
  | .swarm (.request _ (.syncContext ctx)) => some ctx
  | .swarm (.gossip _ topic data) =>
    if topic = contextTopic then lib.decodeContext data else none
  | _ => none

/-- The context that another node reads of what an effect sends. -/
def contextSent (lib : External Peer) : Effect Peer → Option AviContext
  | .send _ (.syncContext ctx) =>
    (StreamCodec.received lib.json.toStreamText (.syncContext ctx)).bind StreamMessage.context?
  | .published topic data => if topic = contextTopic then lib.decodeContext data else none
  | _ => none

/-- No application publishes a context of its own making. -/
def PublishesNone (lib : External Peer) : Label Peer → Prop
  | .command (.publish topic data) => topic = contextTopic → lib.decodeContext data = none
  | _ => True

instance (lib : External Peer) : (l : Label Peer) → Decidable (PublishesNone lib l)
  | .command (.publish topic data) =>
    inferInstanceAs (Decidable (topic = contextTopic → lib.decodeContext data = none))
  | .command (.subscribe _) | .command (.unsubscribe _) | .command (.requestStream _ _)
  | .command (.acceptStream _) | .command (.rejectStream _ _) | .command (.sendStreamData _ _)
  | .command (.closeStream _) | .command .getConnectedPeers | .command .discoverPeers
  | .command .shutdown | .command (.updateSelfContext _) | .command (.replaceSelfContext _)
  | .command (.getPeerContext _) | .swarm _ | .tick => isTrue True.intro

end Runtime

/-- Whatever is read of the context, in gossip or as `SyncContext`, is the context. -/
structure External.Keeps {Peer : Type} (lib : External Peer) (c : AviContext) : Prop where
  gossip : ∀ data c', lib.encodeContext c = some data → lib.decodeContext data = some c' → c' = c
  request : ∀ req, StreamCodec.received lib.json.toStreamText (.syncContext c) = some req →
    req = .syncContext c

/-- Also after the writer and the reader of the stream protocol. -/
theorem External.Keeps.eq_of_received {Peer : Type} {lib : External Peer} {c c' : AviContext}
    (h : lib.Keeps c) (hc : (StreamCodec.received lib.json.toStreamText (.syncContext c)).bind
      StreamMessage.context? = some c') : c' = c := by
  obtain ⟨req, hreq, hctx⟩ := Option.bind_eq_some_iff.mp hc
  rw [h.request req hreq] at hctx
  exact (Option.some.inj hctx).symm

namespace Runtime

variable {Peer : Type} [LinearOrder Peer] {lib : External Peer} {env : Env Peer}
  {self : Runtime Peer} {l : Label Peer}

/-! ## Effects that carry no context -/

/-- None of the effects carries a context. -/
def Silent (lib : External Peer) (effects : List (Effect Peer)) : Prop :=
  ∀ e ∈ effects, contextSent lib e = none

omit [LinearOrder Peer] in
theorem silent_nil : Silent lib [] := by
  intro e he
  cases he

omit [LinearOrder Peer] in
theorem silent_cons {e : Effect Peer} {effects : List (Effect Peer)}
    (he : contextSent lib e = none) (h : Silent lib effects) : Silent lib (e :: effects) := by
  intro x hx
  rcases List.mem_cons.mp hx with rfl | hx
  · exact he
  · exact h x hx

omit [LinearOrder Peer] in
theorem silent_singleton {e : Effect Peer} (he : contextSent lib e = none) : Silent lib [e] :=
  silent_cons he silent_nil

omit [LinearOrder Peer] in
theorem Silent.append {a b : List (Effect Peer)} (ha : Silent lib a) (hb : Silent lib b) :
    Silent lib (a ++ b) := by
  intro e he
  rcases List.mem_append.mp he with he | he
  · exact ha e he
  · exact hb e he

omit [LinearOrder Peer] in
theorem silent_map {α : Type} {f : α → Effect Peer} (h : ∀ a, contextSent lib (f a) = none)
    (l : List α) : Silent lib (l.map f) := by
  intro e he
  rcases List.mem_map.mp he with ⟨a, -, rfl⟩
  exact h a

/-! ## Turns that leave the context alone -/

/-- Neither is the context changed nor is one sent. -/
structure Passes (lib : External Peer) (rt : Runtime Peer)
    (after : Runtime Peer × List (Effect Peer)) : Prop where
  same : after.1.localContext = rt.localContext
  silent : Silent lib after.2

variable (env self) in
/-- A command that does not write the context. -/
theorem passes_command {cmd : Command} (hwrite : contextWrite (.command cmd : Label Peer) = none)
    (hpublish : PublishesNone lib (.command cmd)) :
    Passes lib self (self.handleCommand lib env cmd) := by
  cases cmd with
  | updateSelfContext patch => cases hwrite
  | replaceSelfContext data => cases hwrite
  | publish topic data =>
    -- only a publish on the topic of the contexts could carry one
    simp only [handleCommand]
    cases env.publish with
    | ok =>
      refine ⟨rfl, silent_cons ?_ (silent_singleton rfl)⟩
      by_cases htopic : topic = contextTopic
      · rw [contextSent, if_pos htopic]
        exact hpublish htopic
      · rw [contextSent, if_neg htopic]
    | insufficientPeers => exact ⟨rfl, silent_singleton rfl⟩
    | error e => exact ⟨rfl, silent_singleton rfl⟩
  | subscribe topic =>
    -- subscriptions carry none
    simp only [handleCommand, gossipSubscribe]
    cases env.subscribeError <;> exact ⟨rfl, silent_singleton rfl⟩
  | unsubscribe topic =>
    simp only [handleCommand, gossipUnsubscribe]
    cases env.unsubscribeError <;> exact ⟨rfl, silent_singleton rfl⟩
  | requestStream peerId reason =>
    -- stream messages carry none
    simp only [handleCommand]
    cases lib.fromStr peerId.id with
    | none => exact ⟨rfl, silent_singleton rfl⟩
    | some target => exact ⟨rfl, silent_cons rfl (silent_singleton rfl)⟩
  | acceptStream id | rejectStream id reason | sendStreamData id data | closeStream id =>
    simp only [handleCommand]
    cases self.streams.get? id.id with
    | none => exact ⟨rfl, silent_singleton rfl⟩
    | some state => exact ⟨rfl, silent_cons rfl (silent_singleton rfl)⟩
  -- the others answer, or do less
  | discoverPeers => exact ⟨rfl, silent_cons rfl (silent_singleton rfl)⟩
  | shutdown => exact ⟨rfl, silent_cons rfl (silent_singleton rfl)⟩
  | getConnectedPeers => exact ⟨rfl, silent_singleton rfl⟩
  | getPeerContext peerId => exact ⟨rfl, silent_singleton rfl⟩

/-- Announcing a peer carries no context. -/
theorem silent_emitPeerDiscovered (peerId : Peer) :
    Silent lib (self.emitPeerDiscovered lib peerId).2 := by
  unfold emitPeerDiscovered
  split_ifs
  · exact silent_nil
  · exact silent_singleton rfl

/-- Neither does dialling the discovered peers. -/
theorem silent_discovered (list : List (Peer × String)) (acc : Runtime Peer × List (Effect Peer))
    (h : Silent lib acc.2) : Silent lib (list.foldl (discoverOne lib env) acc).2 := by
  induction list generalizing acc with
  | nil => exact h
  | cons found list ih =>
    apply ih
    unfold discoverOne
    dsimp only
    refine (h.append (silent_cons rfl ?_)).append (silent_emitPeerDiscovered _)
    split_ifs
    · exact silent_nil
    · exact silent_singleton rfl

/-- Nor noting the addresses of a peer. -/
theorem silent_listenAddrs (peerId : Peer) (addrs : List String)
    (acc : Runtime Peer × List (Effect Peer)) (h : Silent lib acc.2) :
    Silent lib (addrs.foldl (addListenAddr peerId) acc).2 := by
  induction addrs generalizing acc with
  | nil => exact h
  | cons addr addrs ih =>
    apply ih
    exact h.append (silent_singleton rfl)

/-- Nor a merge, which tells the local subscribers only. -/
theorem silent_mergeContext (incoming : AviContext) :
    Silent lib (self.mergeContext incoming).2 := by
  unfold mergeContext
  dsimp only
  split_ifs
  · exact silent_singleton rfl
  · exact silent_nil

/-- A stream message that is no context. -/
theorem passes_request {peer : Peer} {msg : StreamMessage}
    (hmsg : contextMerged lib (.swarm (.request peer msg)) = none) :
    Passes lib self (self.handleStreamMessage lib peer msg) := by
  cases msg with
  | syncContext ctx => cases hmsg
  | requestStream id reason => exact ⟨rfl, silent_singleton rfl⟩
  | closeStream id => exact ⟨rfl, silent_singleton rfl⟩
  | acceptStream id | rejectStream id reason | streamData id data =>
    simp only [handleStreamMessage]
    cases self.streams.get? id with
    | none => exact ⟨rfl, silent_nil⟩
    | some state => exact ⟨rfl, silent_singleton rfl⟩

variable (env self) in
/-- A swarm event that brings no context and identifies nobody. -/
theorem passes_swarm {event : SwarmEvent Peer} (hmerged : contextMerged lib (.swarm event) = none)
    (hidentified : ∀ peerId addrs protocols, event ≠ .identified peerId addrs protocols) :
    Passes lib self (self.handleSwarmEvent lib env event) := by
  cases event with
  | newListenAddr address =>
    simp only [handleSwarmEvent]
    split_ifs
    · exact ⟨rfl, silent_nil⟩
    · exact ⟨rfl, silent_singleton rfl⟩
  | discovered list =>
    -- discovered peers are dialled
    obtain ⟨⟨discovered, known, heq⟩, -⟩ := discovered_writes lib env list (self, [])
    constructor
    · show (list.foldl (discoverOne lib env) (self, [])).1.localContext = _
      rw [heq]
    · exact silent_discovered list _ silent_nil
  | identified peerId addrs protocols => exact absurd rfl (hidentified peerId addrs protocols)
  | connectionEstablished peerId endpoint n =>
    -- the first connection joins the topic
    simp only [handleSwarmEvent]
    split_ifs
    · obtain ⟨subscribed, topics, heq⟩ := joinContextTopic_writes env
        { self with peers := self.peers.insert peerId (some (endpointAddress endpoint)) }
      rw [heq]
      exact ⟨rfl, silent_singleton rfl⟩
    · exact ⟨rfl, silent_nil⟩
  | connectionClosed peerId n =>
    -- the last one ends the peer's streams
    by_cases hn : n = 0
    · subst hn
      rw [handleSwarmEvent_closed]
      exact ⟨rfl, (silent_map (fun _ => rfl) _).append (silent_singleton rfl)⟩
    · simp only [handleSwarmEvent, if_neg hn]
      exact ⟨rfl, silent_nil⟩
  | gossip source topic data =>
    simp only [handleSwarmEvent]
    rw [contextMerged] at hmerged
    split_ifs at hmerged ⊢ with htopic
    · -- bytes that cannot be read as a context
      rw [hmerged]
      exact ⟨rfl, silent_nil⟩
    · exact ⟨rfl, silent_singleton rfl⟩
  | request peer msg =>
    -- a message other than `SyncContext`
    have h : Passes lib self (self.handleStreamMessage lib peer msg) := passes_request hmerged
    exact ⟨h.same, h.silent.append (silent_singleton rfl)⟩
  | other => exact ⟨rfl, silent_nil⟩

/-- A heartbeat leaves the context alone and sends none. -/
theorem passes_tick : Passes lib self (self.turn lib env .tick) := by
  refine ⟨rfl, ?_⟩
  intro e he
  -- the heartbeat dials
  rcases List.mem_filterMap.mp he with ⟨known, -, hknown⟩
  split_ifs at hknown
  cases hknown
  rfl

/-! ## Turns that write, merge or send -/

variable (lib env self) in
/-- Identifying a peer leaves the context alone and sends at most a copy of it. -/
theorem identified_context (peerId : Peer) (addrs protocols : List String) :
    (self.handleSwarmEvent lib env (.identified peerId addrs protocols)).1.localContext =
        self.localContext ∧
      (lib.Keeps self.localContext →
        ∀ e ∈ (self.handleSwarmEvent lib env (.identified peerId addrs protocols)).2,
          ∀ c, contextSent lib e = some c → c = self.localContext) := by
  obtain ⟨discovered, hdiscovered⟩ := emitPeerDiscovered_writes lib self peerId
  obtain ⟨⟨known, hknown⟩, -⟩ :=
    listenAddrs_writes peerId addrs (self.emitPeerDiscovered lib peerId)
  -- the announcement and the addresses carry no context
  have hsilent : Silent lib
      (addrs.foldl (addListenAddr peerId) (self.emitPeerDiscovered lib peerId)).2 :=
    silent_listenAddrs peerId addrs _ (silent_emitPeerDiscovered peerId)
  have hctx : (addrs.foldl (addListenAddr peerId)
      (self.emitPeerDiscovered lib peerId)).1.localContext = self.localContext := by
    rw [hknown, hdiscovered]
  -- the sync request carries the node's own
  have hsync : ∀ rt : Runtime Peer, (rt.syncOnce peerId protocols).1.localContext =
      rt.localContext ∧ (lib.Keeps rt.localContext → ∀ e ∈ (rt.syncOnce peerId protocols).2,
        ∀ c, contextSent lib e = some c → c = rt.localContext) := by
    intro rt
    unfold syncOnce
    split_ifs
    · exact ⟨rfl, fun _ e he => by cases he⟩
    · refine ⟨rfl, ?_⟩
      intro hkeeps e he c hc
      rw [List.mem_singleton.mp he] at hc
      exact hkeeps.eq_of_received hc
    · exact ⟨rfl, fun _ e he => by cases he⟩
  simp only [handleSwarmEvent]
  constructor
  · rw [(hsync _).1, hctx]
  · intro hkeeps e he c hc
    rcases List.mem_append.mp he with he | he
    · rw [hsilent e he] at hc
      cases hc
    · rw [← hctx] at hkeeps
      rw [(hsync _).2 hkeeps e he c hc, hctx]

/-- A turn that writes the context commits the write and nothing else. -/
theorem localContext_of_write {w : ContextWrite} (h : contextWrite l = some w) :
    (self.turn lib env l).1.localContext = self.localContext.commit w env.now := by
  rcases l with cmd | event | _
  · cases cmd with
    | updateSelfContext patch =>
      cases h
      obtain ⟨_, _, heq⟩ := broadcastContext_writes lib env
        { self with localContext := self.localContext.commit (.update patch) env.now }
      simp only [turn, handleCommand, heq]
    | replaceSelfContext data =>
      cases h
      obtain ⟨_, _, heq⟩ := broadcastContext_writes lib env
        { self with localContext := self.localContext.commit (.replace data) env.now }
      simp only [turn, handleCommand, heq]
    | _ => cases h
  · cases h
  · cases h

/-- A turn that merges a context does only that, and sends none. -/
theorem localContext_of_merge {c : AviContext} (h : contextMerged lib l = some c) :
    (self.turn lib env l).1.localContext = (self.localContext.merge c).1 ∧
      Silent lib (self.turn lib env l).2 := by
  rcases l with cmd | event | _
  · cases h
  · cases event with
    | request peer msg =>
      cases msg with
      | syncContext ctx =>
        cases h
        exact ⟨rfl, (silent_mergeContext c).append (silent_singleton rfl)⟩
      | _ => cases h
    | gossip source topic data =>
      rw [contextMerged] at h
      split_ifs at h with htopic
      simp only [turn, handleSwarmEvent, if_pos htopic, h]
      exact ⟨rfl, silent_mergeContext c⟩
    | _ => cases h
  · cases h

/-- The end of a write sends the new context, if anything. -/
theorem broadcast_sends_own {rt : Runtime Peer} (hkeeps : lib.Keeps rt.localContext) :
    ∀ e ∈ (rt.broadcastContext lib env).2, ∀ c, contextSent lib e = some c →
      c = rt.localContext := by
  have hreply : ∀ (r : Reply) c, contextSent lib (.reply r) ≠ some c := by
    intro r c hc
    cases hc
  intro e he c hc
  unfold broadcastContext at he
  cases hencode : lib.encodeContext rt.localContext with
  | none =>
    -- a context that cannot be encoded is not sent
    simp only [hencode, List.mem_singleton] at he
    rw [he] at hc
    exact absurd hc (hreply _ c)
  | some data =>
    simp only [hencode] at he
    cases hpublish : env.publish with
    | ok =>
      -- it is sent, and the caller answered
      simp only [hpublish, List.mem_cons, List.not_mem_nil, or_false] at he
      rcases he with rfl | rfl
      · exact hkeeps.gossip data c hencode hc
      · exact absurd hc (hreply _ c)
    | insufficientPeers =>
      simp only [hpublish, List.mem_singleton] at he
      rw [he] at hc
      exact absurd hc (hreply _ c)
    | error err =>
      simp only [hpublish, List.mem_singleton] at he
      rw [he] at hc
      exact absurd hc (hreply _ c)

variable (env self) in
/-- Every other turn leaves the context alone; if it sends one, it is the node's own. -/
theorem localContext_of_neither (hwrite : contextWrite l = none)
    (hmerged : contextMerged lib l = none) (hpublish : PublishesNone lib l) :
    (self.turn lib env l).1.localContext = self.localContext ∧ (lib.Keeps self.localContext →
      ∀ e ∈ (self.turn lib env l).2, ∀ c, contextSent lib e = some c →
        c = self.localContext) := by
  have hpasses : Passes lib self (self.turn lib env l) →
      (self.turn lib env l).1.localContext = self.localContext ∧ (lib.Keeps self.localContext →
      ∀ e ∈ (self.turn lib env l).2, ∀ c, contextSent lib e = some c →
        c = self.localContext) := by
    intro h
    refine ⟨h.same, ?_⟩
    intro _ e he c hc
    rw [h.silent e he] at hc
    cases hc
  rcases l with cmd | event | _
  · exact hpasses (passes_command env self hwrite hpublish)
  · cases event with
    | identified peerId addrs protocols =>
      exact identified_context lib env self peerId addrs protocols
    | _ => exact hpasses (passes_swarm env self hmerged fun _ _ _ h => by cases h)
  · exact hpasses passes_tick

/-- **What a node sends is its own context**, as it is after the turn. -/
theorem sent_is_own (hkeeps : lib.Keeps (self.turn lib env l).1.localContext)
    (hpublish : PublishesNone lib l) :
    ∀ e ∈ (self.turn lib env l).2, ∀ c, contextSent lib e = some c →
      c = (self.turn lib env l).1.localContext := by
  intro e he c hc
  cases hwrite : contextWrite l with
  | some w =>
    rw [localContext_of_write hwrite] at hkeeps ⊢
    rcases l with cmd | event | _
    · -- the two writes broadcast what they have written
      cases cmd with
      | updateSelfContext patch =>
        cases hwrite
        exact broadcast_sends_own hkeeps e he c hc
      | replaceSelfContext data =>
        cases hwrite
        exact broadcast_sends_own hkeeps e he c hc
      | _ => cases hwrite
    · cases hwrite
    · cases hwrite
  | none =>
    cases hmerged : contextMerged lib l with
    | some x =>
      -- a merge sends nothing
      rw [(localContext_of_merge hmerged).2 e he] at hc
      cases hc
    | none =>
      -- any other turn
      obtain ⟨hsame, hsent⟩ := localContext_of_neither env self hwrite hmerged hpublish
      rw [hsame] at hkeeps ⊢
      exact hsent hkeeps e he c hc

end Runtime

end AviNet
