import AviNet.Bridge.Backing
import AviNet.Runtime.Frames

/-!
# Bridge.ContextTopic — the subscription that carries the shared context

The runtime joins the topic of context updates when its first connection to a
peer begins and before each broadcast, unless `topics` lists it already; the
same topic can be left by any `Unsubscribe`, of an application or of a device.

* `onTopic_turn_iff`: what one turn of the runtime does to it;
* `connected_onTopic_iff`: a connected gateway is on the topic all along a run
  exactly if nobody unsubscribes from it while a peer is connected;
* `off_topic`: a device that unsubscribes from it.
-/

namespace AviNet

namespace Runtime

variable {Peer : Type} [LinearOrder Peer]

/-- Some peer is connected. -/
def Connected (self : Runtime Peer) : Prop := ∃ peer, (self.peers.get? peer).isSome = true

/-- The node gets the context updates of its peers. -/
def OnTopic (self : Runtime Peer) : Prop := contextTopic ∈ self.subscribed

/-- `topics` is right about the topic of context updates. -/
def TopicKnown (self : Runtime Peer) : Prop :=
  contextTopic ∈ self.topics ↔ contextTopic ∈ self.subscribed

/-- Gossipsub grants subscriptions and their ends. -/
def Obliging (env : Env Peer) : Prop := env.subscribeError = none ∧ env.unsubscribeError = none

/-! ## One turn -/

section Turn

variable {lib : External Peer} {env : Env Peer} {self : Runtime Peer}

/-- Joining leaves the node on the topic, and it knows. -/
theorem join_onTopic (henv : Obliging env) (h : self.TopicKnown) :
    (self.joinContextTopic env).OnTopic ∧ (self.joinContextTopic env).TopicKnown := by
  unfold joinContextTopic gossipSubscribe
  split_ifs with hmem
  · exact ⟨h.mp hmem, h⟩
  · simp only [henv.1]
    have hsub : contextTopic ∈ insert contextTopic self.subscribed := Finset.mem_insert_self _ _
    have htop : contextTopic ∈ insert contextTopic self.topics := Finset.mem_insert_self _ _
    exact ⟨hsub, iff_of_true htop hsub⟩

theorem topicKnown_broadcastContext (henv : Obliging env) (h : self.TopicKnown) :
    (self.broadcastContext lib env).1.TopicKnown := by
  unfold broadcastContext
  cases lib.encodeContext self.localContext with
  | none => exact h
  | some data => cases env.publish <;> exact (join_onTopic henv h).2

theorem topicKnown_handleCommand (henv : Obliging env) (h : self.TopicKnown) (cmd : Command) :
    (self.handleCommand lib env cmd).1.TopicKnown := by
  cases cmd with
  | subscribe topic =>
    simp only [handleCommand, gossipSubscribe, henv.1]
    unfold TopicKnown
    rw [Finset.mem_insert, Finset.mem_insert, show _ ↔ _ from h]
  | unsubscribe topic =>
    simp only [handleCommand, gossipUnsubscribe, henv.2]
    unfold TopicKnown
    rw [Finset.mem_erase, Finset.mem_erase, show _ ↔ _ from h]
  | publish topic data =>
    simp only [handleCommand]
    cases env.publish <;> exact h
  | requestStream peerId reason =>
    simp only [handleCommand]
    cases lib.fromStr peerId.id <;> exact h
  | acceptStream id | rejectStream id reason | sendStreamData id data | closeStream id =>
    simp only [handleCommand]
    cases self.streams.get? id.id <;> exact h
  | updateSelfContext doc => exact topicKnown_broadcastContext henv h
  | replaceSelfContext doc => exact topicKnown_broadcastContext henv h
  | _ => exact h

/-- Every turn keeps the topic known while the mesh obliges. -/
theorem topicKnown_turn (henv : Obliging env) (h : self.TopicKnown) (l : Label Peer) :
    (self.turn lib env l).1.TopicKnown := by
  rcases l with cmd | event | _
  · exact topicKnown_handleCommand henv h cmd
  · rcases offPeers_cases event with hoff | ⟨peer, endpoint, n, rfl⟩ | ⟨peer, n, rfl⟩ |
      ⟨peer, msg, rfl⟩
    · -- the subscriptions are not touched
      obtain ⟨⟨_, _, _, _, _, heq⟩, -⟩ :=
        handleSwarmEvent_off_peers lib env self hoff
      show (self.handleSwarmEvent lib env event).1.TopicKnown
      rw [heq]
      exact h
    · -- the first connection joins the topic of the contexts
      have hjoin : ({ self with
          peers := self.peers.insert peer (some (endpointAddress endpoint)) } :
            Runtime Peer).TopicKnown := h
      simp only [turn, handleSwarmEvent]
      split_ifs
      · exact (join_onTopic henv hjoin).2
      · exact h
    · -- the last one ends streams only
      simp only [turn, handleSwarmEvent]
      split_ifs
      · rw [closeOne_foldl]
        exact h
      · exact h
    · -- a stream message
      obtain ⟨streams, ctx, heq⟩ := handleStreamMessage_writes lib self peer msg
      simp only [turn, handleSwarmEvent, heq]
      exact h
  · exact h

/-- Only the first connection to a peer can make the node connected. -/
theorem connected_turn {l : Label Peer} (h : (self.turn lib env l).1.Connected) :
    self.Connected ∨ ∃ peer endpoint, l = .swarm (.connectionEstablished peer endpoint 1) := by
  rcases l with cmd | event | _
  · obtain ⟨_, _, _, _, _, heq⟩ :=
      handleCommand_writes lib env self cmd
    simp only [turn, heq] at h
    exact Or.inl h
  · rcases offPeers_cases event with hoff | ⟨peer, endpoint, n, rfl⟩ | ⟨peer, n, rfl⟩ |
      ⟨peer, msg, rfl⟩
    · obtain ⟨⟨_, _, _, _, _, heq⟩, -⟩ :=
        handleSwarmEvent_off_peers lib env self hoff
      simp only [turn, heq] at h
      exact Or.inl h
    · by_cases hn : n = 1
      · subst hn
        exact Or.inr ⟨peer, endpoint, rfl⟩
      · simp only [turn, handleSwarmEvent, if_neg hn] at h
        exact Or.inl h
    · simp only [turn, handleSwarmEvent] at h
      split_ifs at h
      · -- a peer less
        rw [closeOne_foldl] at h
        rcases h with ⟨p, hp⟩
        dsimp only at hp
        rw [SortedMap.get?_erase] at hp
        split_ifs at hp
        · cases hp
        · exact Or.inl ⟨p, hp⟩
      · exact Or.inl h
    · obtain ⟨streams, ctx, heq⟩ := handleStreamMessage_writes lib self peer msg
      simp only [turn, handleSwarmEvent, heq] at h
      exact Or.inl h
  · exact Or.inl h

/-- The first connection to a peer puts the node on the topic. -/
theorem established_onTopic (henv : Obliging env) (h : self.TopicKnown) (peer : Peer)
    (endpoint : Endpoint) :
    (self.turn lib env (.swarm (.connectionEstablished peer endpoint 1))).1.OnTopic := by
  have hjoin : ({ self with
      peers := self.peers.insert peer (some (endpointAddress endpoint)) } :
        Runtime Peer).TopicKnown := h
  simp only [turn, handleSwarmEvent, if_pos]
  exact (join_onTopic henv hjoin).1

variable (lib env self) in
/-- Unsubscribing closes no connection. -/
theorem connected_unsubscribe (topic : String) :
    (self.handleCommand lib env (.unsubscribe topic)).1.Connected ↔ self.Connected := by
  obtain ⟨_, _, _, _, _, heq⟩ :=
    handleCommand_writes lib env self (.unsubscribe topic)
  rw [heq]
  exact Iff.rfl

/-- A turn keeps a connected node on the topic exactly if it does not leave it. -/
theorem onTopic_turn_iff (henv : Obliging env) (hknown : self.TopicKnown)
    (h : self.Connected → self.OnTopic) (l : Label Peer) :
    ((self.turn lib env l).1.Connected → (self.turn lib env l).1.OnTopic) ↔
      (dropped env l = some contextTopic → ¬ self.Connected) := by
  by_cases hdrop : dropped env l = some contextTopic
  · -- the topic is lost, the peers stay
    have hoff : ¬ (self.turn lib env l).1.OnTopic := not_mem_of_dropped hdrop
    have hpeers : (self.turn lib env l).1.Connected ↔ self.Connected := by
      rcases l with cmd | event | _
      · cases cmd with
        | unsubscribe topic => exact connected_unsubscribe lib env self topic
        | _ => cases hdrop
      · cases hdrop
      · cases hdrop
    constructor
    · intro hon _ hconn
      exact hoff (hon (hpeers.mpr hconn))
    · intro hok hconn
      exact absurd (hpeers.mp hconn) (hok hdrop)
  · refine iff_of_true ?_ fun h => absurd h hdrop
    intro hconn
    rcases connected_turn hconn with hself | ⟨peer, endpoint, rfl⟩
    · exact mem_subscribed_turn (h hself) hdrop
    · exact established_onTopic henv hknown peer endpoint

end Turn

end Runtime

/-! ## Runs -/

namespace Gateway

variable {Peer Addr : Type} [LinearOrder Peer] [LinearOrder Addr] {lib : External Peer}
  {toVec : Value → Bytes}

/-- A connected gateway gets the context updates of its peers. -/
def HearsContext (s : Gateway Peer Addr) : Prop := s.rt.Connected → s.rt.OnTopic

/-- The topic is only left while no peer is connected. -/
def KeepsTopic (s : Gateway Peer Addr) (l : Label Peer Addr) : Prop :=
  s.droppedBy l = some Runtime.contextTopic → ¬ s.rt.Connected

/-- Gossipsub grants what the step asks of it. -/
def Obliged : Label Peer Addr → Prop
  | .serve env | .turn env _ => Runtime.Obliging env
  | .packet _ _ _ | .resume => True

instance : ∀ l : Label Peer Addr, Decidable (Obliged l)
  | .serve env | .turn env _ =>
    inferInstanceAs (Decidable (env.subscribeError = none ∧ env.unsubscribeError = none))
  | .packet _ _ _ | .resume => isTrue True.intro

/-- A step leaves the runtime alone or is one turn of it. -/
theorem rt_step {s t : Gateway Peer Addr} {l : Label Peer Addr}
    (h : (gateway Addr lib toVec).step s l = some t) (hobl : Obliged l) :
    (t.rt = s.rt ∧ s.droppedBy l = none) ∨
      ∃ env l', Runtime.Obliging env ∧ t.rt = (s.rt.turn lib env l').1 ∧
        s.droppedBy l = Runtime.dropped env l' := by
  rcases step_cases h with ⟨now, addr, msg, rfl, -, rfl⟩ | ⟨p, rfl, -, rfl⟩ |
    ⟨env, cmd, k, r, rfl, hk, -, rfl⟩ | ⟨env, l', rfl, rfl⟩
  · exact Or.inl ⟨rfl, rfl⟩
  · exact Or.inl ⟨rfl, rfl⟩
  · refine Or.inr ⟨env, .command cmd, hobl, rfl, ?_⟩
    simp only [droppedBy, hk]
  · exact Or.inr ⟨env, l', hobl, rfl, rfl⟩

theorem step_topicKnown (s : Gateway Peer Addr) (l : Label Peer Addr) (t : Gateway Peer Addr)
    (hstep : (gateway Addr lib toVec).step s l = some t) (hobl : Obliged l)
    (h : s.rt.TopicKnown) : t.rt.TopicKnown := by
  rcases rt_step hstep hobl with ⟨hrt, -⟩ | ⟨env, l', henv, hrt, -⟩
  · rw [hrt]
    exact h
  · rw [hrt]
    exact Runtime.topicKnown_turn henv h l'

/-- A step goes on hearing the topic exactly if it does not leave it. -/
theorem step_hears_iff (s : Gateway Peer Addr) (l : Label Peer Addr) (t : Gateway Peer Addr)
    (hstep : (gateway Addr lib toVec).step s l = some t) (hobl : Obliged l)
    (h : s.rt.TopicKnown) (hs : s.HearsContext) : t.HearsContext ↔ s.KeepsTopic l := by
  unfold HearsContext KeepsTopic
  rcases rt_step hstep hobl with ⟨hrt, hdrop⟩ | ⟨env, l', henv, hrt, hdrop⟩
  · rw [hrt, hdrop]
    exact iff_of_true hs nofun
  · rw [hrt, hdrop]
    exact Runtime.onTopic_turn_iff henv h hs l'

/-- **On the topic**: in every run of a gateway that has just started, with a
gossipsub that grants what it is asked, the gateway is subscribed to the topic
of context updates in every state in which it has a peer exactly if each
`Unsubscribe` from that topic is carried out while it has none. -/
theorem connected_onTopic_iff (lib : External Peer) (toVec : Value → Bytes) (localPeerId : Peer)
    (now : UInt64) (s t : Gateway Peer Addr)
    (hrt : s.rt = .new lib localPeerId now) (ls : List (Label Peer Addr))
    (hrun : (gateway Addr lib toVec).run s ls = some t) (hobl : ∀ l ∈ ls, Obliged l) :
    (gateway Addr lib toVec).AllStates HearsContext s ls ↔
      (gateway Addr lib toVec).AllSteps KeepsTopic s ls := by
  have hknown : s.rt.TopicKnown := by
    rw [hrt]
    exact iff_of_false (Finset.notMem_empty _) (Finset.notMem_empty _)
  have hears : s.HearsContext := by
    rintro ⟨peer, hpeer⟩
    rw [hrt] at hpeer
    cases hpeer
  exact (gateway Addr lib toVec).allStates_iff_allSteps step_topicKnown step_hears_iff hrun
    (Machine.AllSteps.of_mem _ (fun l hl _ => hobl l hl) s) hknown hears

/-! ## A device that unsubscribes -/

/-- A peer connects. -/
def peerConnects : Label String ℕ :=
  .turn (.calm String) (.swarm (.connectionEstablished "peer" (.dialer "/ip4/10.0.0.2") 1))

/-- A peer connects, and the context is updated. -/
def connectAndUpdate : List (Label String ℕ) :=
  [peerConnects, .turn (.calm String) (.command (.updateSelfContext .null))]

theorem connected_onTopic_iff_update : plainGateway.AllStates HearsContext booted connectAndUpdate ↔
    plainGateway.AllSteps KeepsTopic booted connectAndUpdate := by
  have hrun : (plainGateway.run booted connectAndUpdate).isSome = true := by
    decide +kernel
  obtain ⟨t, ht⟩ := Option.isSome_iff_exists.mp hrun
  exact connected_onTopic_iff _ _ "gateway" 0 booted t rfl _ ht (by decide)

/-- A peer connects, then a device says hello and unsubscribes from the topic. -/
def deviceLeavesTopic : List (Label String ℕ) :=
  [peerConnects, .packet 0 1 (.hello 7), .resume,
    .packet 0 1 (.unsubscribe "avi-context-updates"), .resume, .serve (.calm String)]

/-- The gateway stays connected, but hears no more context updates. -/
theorem off_topic : ¬ ∀ s ls, plainGateway.Init s → s.rt = .new External.plain "gateway" 0 →
    (∀ l ∈ ls, Obliged l) → plainGateway.AllStates HearsContext s ls := by
  intro h
  have hall := h booted (deviceLeavesTopic ++ []) ⟨rfl, rfl⟩ rfl (by decide)
  have hpeer : (plainGateway.run booted deviceLeavesTopic).map
      (fun t => (t.rt.peers.get? "peer").isSome) = some true := by
    decide +kernel
  have hgone : (plainGateway.run booted deviceLeavesTopic).map
      (fun t => t.rt.subscribed) = some ∅ := by
    decide +kernel
  obtain ⟨t, ht, hconn⟩ := Option.map_eq_some_iff.mp hpeer
  rw [ht, Option.map_some, Option.some.injEq] at hgone
  have hon : t.rt.OnTopic := Machine.AllStates.at_cut _ hall ht ⟨"peer", hconn⟩
  unfold Runtime.OnTopic at hon
  rw [hgone] at hon
  exact Finset.notMem_empty _ hon

end Gateway

end AviNet
