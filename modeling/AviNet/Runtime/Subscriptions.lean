import AviNet.Lib.Machine
import AviNet.Runtime.Handlers

/-!
# Runtime.Subscriptions — the topics of the node on gossipsub

* `mem_subscribed_turn`: a turn of the runtime loses a topic only by a
  successful `Unsubscribe` of it;
* `subscribe_grants`, `not_mem_of_dropped`: what the two commands do.
-/

namespace AviNet.Runtime

variable {Peer : Type} [LinearOrder Peer] {lib : External Peer} {env : Env Peer}
  {self : Runtime Peer}

/-- The topic a turn unsubscribes from. -/
def dropped (env : Env Peer) : Label Peer → Option String
  | .command (.unsubscribe topic) => if env.unsubscribeError = none then some topic else none
  | _ => none

/-! ## Swarm events -/

variable (self) in
theorem subscribed_joinContextTopic : self.subscribed ⊆ (self.joinContextTopic env).subscribed := by
  unfold joinContextTopic gossipSubscribe
  split_ifs
  · exact subset_rfl
  · cases env.subscribeError with
    | none => exact Finset.subset_insert _ _
    | some e => exact subset_rfl

theorem subscribed_emitPeerDiscovered (peerId : Peer) :
    (self.emitPeerDiscovered lib peerId).1.subscribed = self.subscribed := by
  unfold emitPeerDiscovered
  split_ifs <;> rfl

theorem subscribed_syncOnce (peerId : Peer) (protocols : List String) :
    (self.syncOnce peerId protocols).1.subscribed = self.subscribed := by
  unfold syncOnce
  split_ifs <;> rfl

theorem subscribed_handleStreamMessage (peer : Peer) (msg : StreamMessage) :
    (self.handleStreamMessage lib peer msg).1.subscribed = self.subscribed := by
  cases msg with
  | acceptStream id =>
    simp only [handleStreamMessage]
    cases self.streams.get? id <;> rfl
  | rejectStream id reason =>
    simp only [handleStreamMessage]
    cases self.streams.get? id <;> rfl
  | streamData id data =>
    simp only [handleStreamMessage]
    cases self.streams.get? id <;> rfl
  | _ => rfl

/-- A loop whose turns leave the subscriptions alone. -/
theorem subscribed_foldl {α : Type} {f : Runtime Peer × List (Effect Peer) → α →
    Runtime Peer × List (Effect Peer)} (hf : ∀ acc a, (f acc a).1.subscribed = acc.1.subscribed)
    (l : List α) (acc : Runtime Peer × List (Effect Peer)) :
    (l.foldl f acc).1.subscribed = acc.1.subscribed := by
  induction l generalizing acc with
  | nil => rfl
  | cons a l ih => exact (ih (f acc a)).trans (hf acc a)

/-- No swarm event leaves a topic. -/
theorem subscribed_handleSwarmEvent (event : SwarmEvent Peer) :
    self.subscribed ⊆ (self.handleSwarmEvent lib env event).1.subscribed := by
  cases event with
  | newListenAddr address =>
    simp only [handleSwarmEvent]
    split_ifs <;> exact subset_rfl
  | discovered list =>
    have hturn : ∀ acc found, (discoverOne lib env acc found).1.subscribed = acc.1.subscribed :=
      fun acc found => subscribed_emitPeerDiscovered found.1
    -- the loop only announces peers
    exact (subscribed_foldl hturn list (self, [])).superset
  | identified peerId listenAddrs protocols =>
    -- so does that over the addresses
    have hturn : ∀ acc addr, (addListenAddr peerId acc addr).1.subscribed = acc.1.subscribed :=
      fun acc addr => rfl
    have hloop := subscribed_foldl hturn listenAddrs (self.emitPeerDiscovered lib peerId)
    rw [subscribed_emitPeerDiscovered] at hloop
    exact ((subscribed_syncOnce peerId protocols).trans hloop).superset
  | connectionEstablished peerId endpoint numEstablished =>
    -- the topic of the contexts is joined
    simp only [handleSwarmEvent]
    split_ifs
    · exact subscribed_joinContextTopic { self with
        peers := self.peers.insert peerId (some (endpointAddress endpoint)) }
    · exact subset_rfl
  | connectionClosed peerId numEstablished =>
    simp only [handleSwarmEvent]
    split_ifs
    · -- the streams of the peer are closed
      have hloop : ∀ acc id, (closeOne lib peerId acc id).1.subscribed = acc.1.subscribed :=
        fun acc id => rfl
      refine Eq.superset ?_
      exact subscribed_foldl hloop _ _
    · exact subset_rfl
  | gossip propagationSource topic data =>
    simp only [handleSwarmEvent]
    split_ifs
    · cases lib.decodeContext data <;> exact subset_rfl
    · exact subset_rfl
  | request peer msg => exact (subscribed_handleStreamMessage peer msg).superset
  | other => exact subset_rfl

/-! ## Commands -/

theorem subscribed_broadcastContext :
    self.subscribed ⊆ (self.broadcastContext lib env).1.subscribed := by
  unfold broadcastContext
  cases lib.encodeContext self.localContext with
  | none => exact subset_rfl
  | some data => cases env.publish <;> exact subscribed_joinContextTopic _

/-- A command keeps every topic but the one it unsubscribes from. -/
theorem subscribed_handleCommand {cmd : Command} {topic : String} (h : topic ∈ self.subscribed)
    (hkeep : dropped env (.command cmd) ≠ some topic) :
    topic ∈ (self.handleCommand lib env cmd).1.subscribed := by
  cases cmd with
  | subscribe other =>
    simp only [handleCommand, gossipSubscribe]
    cases env.subscribeError with
    | none => exact Finset.mem_insert_of_mem h
    | some e => exact h
  | unsubscribe other =>
    simp only [handleCommand, gossipUnsubscribe]
    cases hres : env.unsubscribeError with
    | none =>
      -- another topic than this one
      simp only [dropped, hres, if_true] at hkeep
      exact Finset.mem_erase_of_ne_of_mem (fun he => hkeep (congrArg some he.symm)) h
    | some e => exact h
  | publish other data =>
    simp only [handleCommand]
    cases env.publish <;> exact h
  | requestStream peerId reason =>
    simp only [handleCommand]
    cases lib.fromStr peerId.id <;> exact h
  | updateSelfContext patch => exact subscribed_broadcastContext h
  | replaceSelfContext data => exact subscribed_broadcastContext h
  | acceptStream id | rejectStream id reason | sendStreamData id data | closeStream id =>
    simp only [handleCommand]
    cases self.streams.get? id.id <;> exact h
  | _ => exact h

/-! ## Turns -/

/-- A turn keeps every topic but the one it unsubscribes from. -/
theorem mem_subscribed_turn {l : Label Peer} {topic : String} (h : topic ∈ self.subscribed)
    (hkeep : dropped env l ≠ some topic) : topic ∈ (self.turn lib env l).1.subscribed := by
  cases l with
  | command cmd => exact subscribed_handleCommand h hkeep
  | swarm event => exact subscribed_handleSwarmEvent event h
  | tick => exact h

/-- That one it loses. -/
theorem not_mem_of_dropped {l : Label Peer} {topic : String}
    (h : dropped env l = some topic) : topic ∉ (self.turn lib env l).1.subscribed := by
  rcases l with cmd | event | _
  · cases cmd with
    | unsubscribe other =>
      simp only [turn, handleCommand, gossipUnsubscribe]
      cases hres : env.unsubscribeError with
      | none =>
        simp only [dropped, hres, if_true, Option.some.injEq] at h
        rw [h]
        exact Finset.notMem_erase topic _
      | some e =>
        simp only [dropped, hres] at h
        cases h
    | _ => cases h
  · cases h
  · cases h

/-- A `Subscribe` that answers `Ok` has subscribed. -/
theorem subscribe_grants {topic : String}
    (h : replyOf (self.handleCommand lib env (.subscribe topic)).2 = some (.done (.ok ()))) :
    topic ∈ (self.handleCommand lib env (.subscribe topic)).1.subscribed := by
  simp only [handleCommand, gossipSubscribe] at h ⊢
  cases hres : env.subscribeError with
  | none => exact Finset.mem_insert_self _ _
  | some e =>
    rw [hres] at h
    cases h

end AviNet.Runtime
