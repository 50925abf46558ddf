import AviNet.Bridge.Gateway
import AviNet.Runtime.Subscriptions

/-!
# Bridge.Backing — device subscriptions and the one mesh subscription

Every session keeps its own set of topics; the node has one subscription for
each topic, whoever asked for it.

* `backed_iff`: every topic of a session is subscribed on the mesh, all along a
  run, exactly if each successful `Unsubscribe` is for a topic that no session
  holds at that moment;
* `cut_off`: two devices of which one leaves a topic.
-/

namespace AviNet

/-! ## Topics held -/

/-- Some session holds the topic. -/
def Bridge.Holds {Addr : Type} [LinearOrder Addr] (b : Bridge Addr) (topic : String) : Prop :=
  ∃ addr session, b.sessions.get? addr = some session ∧ topic ∈ session.subscriptions

namespace Gateway

variable {Peer Addr : Type} [LinearOrder Peer] [LinearOrder Addr]

/-- Every topic in a session is subscribed on the mesh. -/
def Backed (s : Gateway Peer Addr) : Prop :=
  ∀ topic, s.bridge.Holds topic → topic ∈ s.rt.subscribed

/-- The topic a step unsubscribes from. -/
def droppedBy (s : Gateway Peer Addr) : Label Peer Addr → Option String
  | .serve env =>
    match s.task with
    | .waiting cmd _ => Runtime.dropped env (.command cmd)
    | _ => none
  | .turn env l => Runtime.dropped env l
  | .packet _ _ _ | .resume => none

/-- A topic that a step unsubscribes from is held by no session. -/
def DropsUnused (s : Gateway Peer Addr) (l : Label Peer Addr) : Prop :=
  ∀ topic, s.droppedBy l = some topic → ¬ s.bridge.Holds topic

end Gateway

/-! ## The handler -/

namespace Bridge

variable {Addr : Type} [LinearOrder Addr]

/-- Across a call, sessions only gain the topic of a `Subscribe` that answers `Ok`. -/
def Gains (b : Bridge Addr) (cmd : Command) (r : Reply) (b' : Bridge Addr) : Prop :=
  ∀ topic, b'.Holds topic → b.Holds topic ∨ (cmd = .subscribe topic ∧ r = .done (.ok ()))

theorem holds_setSession {b : Bridge Addr} {addr : Addr} {session : DeviceSession}
    {topic : String} (h : (b.setSession addr session).Holds topic) :
    topic ∈ session.subscriptions ∨ b.Holds topic := by
  rcases h with ⟨a, s, hget, ht⟩
  by_cases ha : a = addr
  · rw [setSession, ha, SortedMap.get?_insert_self, Option.some.injEq] at hget
    rw [hget]
    exact Or.inl ht
  · rw [setSession, SortedMap.get?_insert_ne _ _ ha] at hget
    exact Or.inr ⟨a, s, hget, ht⟩

/-- A session that is stored again with no more topics. -/
theorem holds_of_subset {b : Bridge Addr} {addr : Addr} {session session' : DeviceSession}
    {topic : String} (hget : b.sessions.get? addr = some session)
    (h : (b.setSession addr session').Holds topic)
    (hsub : session'.subscriptions ⊆ session.subscriptions) : b.Holds topic := by
  rcases holds_setSession h with ht | hb
  · exact ⟨addr, session, hget, hsub ht⟩
  · exact hb

@[simp] theorem holds_sendTo {b : Bridge Addr} {addr : Addr} {size : ℕ} {msg : DownlinkMessage}
    {topic : String} : (b.sendTo addr size msg).Holds topic ↔ b.Holds topic := by
  unfold sendTo
  cases msg.toSlice size <;> exact Iff.rfl

section Calls

variable {b : Bridge Addr}

/-- A call whose continuation gains nothing but the topic of a `Subscribe` that is granted. -/
theorem along_callDone {cmd : Command} {k : Except AviP2pError Unit → Code Addr}
    (h : ∀ res topic, (k res).state.Holds topic →
      b.Holds topic ∨ (cmd = .subscribe topic ∧ res = .ok ()))
    (hk : ∀ res, (k res).Along Gains) : (b.callDone cmd k).Along Gains := by
  intro r
  cases r with
  | done res =>
    refine ⟨?_, hk res⟩
    intro topic ht
    rcases h res topic ht with hb | ⟨hcmd, rfl⟩
    · exact Or.inl hb
    · exact Or.inr ⟨hcmd, rfl⟩
  | _ =>
    refine ⟨?_, hk _⟩
    intro topic ht
    rcases h _ topic ht with hb | ⟨-, hres⟩
    · exact Or.inl hb
    · cases hres

/-- Opening a stream gains no topic. -/
theorem along_requestStream {peerId : PeerId} {reason : String}
    {k : Except AviP2pError StreamId → Code Addr}
    (h : ∀ res topic, (k res).state.Holds topic → b.Holds topic)
    (hk : ∀ res, (k res).Along Gains) : (b.requestStream peerId reason k).Along Gains := by
  intro r
  cases r <;> exact ⟨fun topic ht => Or.inl (h _ topic ht), hk _⟩

theorem along_getRoot {k : Except AviP2pError Value → Code Addr}
    (h : ∀ res topic, (k res).state.Holds topic → b.Holds topic)
    (hk : ∀ res, (k res).Along Gains) : (b.getRoot k).Along Gains := by
  intro r
  cases r <;> exact ⟨fun topic ht => Or.inl (h _ topic ht), hk _⟩

/-- A call after which nothing is left to do. -/
theorem along_last (cmd : Command) : (b.callDone cmd fun _ => .done b).Along Gains :=
  along_callDone (fun _ _ ht => Or.inl ht) fun _ => True.intro

end Calls

/-- Up to its first call the handler gains no topic, and across its calls only
what a `Subscribe` has been granted. -/
theorem handleUplinkPacket_gains (toVec : Value → Bytes) (now : UInt64) (addr : Addr)
    (b : Bridge Addr) (msg : UplinkMessage) :
    (∀ topic, (b.handleUplinkPacket toVec now addr msg).state.Holds topic → b.Holds topic) ∧
      (b.handleUplinkPacket toVec now addr msg).Along Gains := by
  revert msg
  apply handleUplinkPacket_cases toVec now addr b
    (motive := fun _ p => (∀ topic, p.state.Holds topic → b.Holds topic) ∧ p.Along Gains)
  · -- hello: a session without topics
    intro deviceId
    refine ⟨?_, True.intro⟩
    intro topic ht
    have hsend : ((b.setSession addr ⟨deviceId, .empty, ∅⟩).sendTo addr 64 .welcome).Holds topic :=
      ht
    rcases holds_setSession (holds_sendTo.mp hsend) with hnew | hb
    · exact absurd hnew (Finset.notMem_empty topic)
    · exact hb
  · -- no session: nothing happens
    intro msg _
    exact ⟨fun _ ht => ht, True.intro⟩
  · intro session msg hget hmsg
    cases msg with
    | hello deviceId => exact absurd True.intro hmsg
    | subscribe topic =>
      simp only [handleUplinkPacket, hget]
      refine ⟨fun _ ht => ht, along_callDone (fun res t ht => ?_) fun res => ?_⟩
      · rcases res with e | ⟨⟩
        · exact Or.inl ht
        · -- the topic that is granted, or one that the session had
          rcases holds_setSession (holds_sendTo.mp ht) with hnew | hb
          · rcases Finset.mem_insert.mp hnew with rfl | hold
            · exact Or.inr ⟨rfl, rfl⟩
            · exact Or.inl ⟨addr, session, hget, hold⟩
          · exact Or.inl hb
      · cases res <;> exact True.intro
    | unsubscribe topic =>
      -- a topic less
      simp only [handleUplinkPacket, hget]
      exact ⟨fun t ht => holds_of_subset hget ht (Finset.erase_subset _ _),
        along_callDone (fun _ _ ht => Or.inl (holds_sendTo.mp ht)) fun _ => True.intro⟩
    | publish topic data | buttonPress buttonId pressType customData =>
      simp only [handleUplinkPacket, hget]
      exact ⟨fun _ ht => ht, along_last _⟩
    | streamStart localStreamId targetPeerId reason =>
      -- an empty target is answered at once; else the stream is asked for
      simp only [handleUplinkPacket, hget]
      split_ifs
      · exact ⟨fun _ ht => ht, True.intro⟩
      · refine ⟨fun _ ht => ht, along_requestStream (fun res t ht => ?_) fun res => ?_⟩
        · cases res with
          | error e => exact ht
          | ok id => exact holds_of_subset hget ht subset_rfl
        · cases res <;> exact True.intro
    | streamData localStreamId data =>
      simp only [handleUplinkPacket, hget]
      cases session.activeStreams.get? localStreamId with
      | none => exact ⟨fun _ ht => ht, True.intro⟩
      | some meshId => exact ⟨fun _ ht => ht, along_last _⟩
    | streamClose localStreamId =>
      simp only [handleUplinkPacket, hget]
      cases session.activeStreams.get? localStreamId with
      | none => exact ⟨fun _ ht => ht, True.intro⟩
      | some meshId =>
        exact ⟨fun t ht => holds_of_subset hget ht subset_rfl, along_last _⟩
    | sensorUpdate sensorName data customData =>
      -- the publish, then the document, then the update
      simp only [handleUplinkPacket, hget]
      refine ⟨fun _ ht => ht, along_callDone (fun _ _ ht => Or.inl ht) fun _ =>
        along_getRoot (fun res t ht => ?_) fun res => ?_⟩
      · cases res with
        | error e => exact ht
        | ok doc =>
          dsimp only at ht
          split at ht <;> exact ht
      · cases res with
        | error e => exact True.intro
        | ok doc =>
          dsimp only
          split
          · exact along_last _
          · exact True.intro

end Bridge

/-! ## Runs -/

namespace Gateway

variable {Peer Addr : Type} [LinearOrder Peer] [LinearOrder Addr] {lib : External Peer}
  {toVec : Value → Bytes}

/-- What is left of the packet gains only what it is granted; a program about
to run has gained nothing that is not granted already. -/
def Granted (s : Gateway Peer Addr) : Prop :=
  s.task.Follows Bridge.Gains s.bridge ∧
    ∀ p, s.task = .ready p → ∀ topic, p.state.Holds topic →
      s.bridge.Holds topic ∨ topic ∈ s.rt.subscribed

theorem init_granted {s : Gateway Peer Addr} (h : (gateway Addr lib toVec).Init s) :
    s.Granted ∧ s.Backed := by
  rcases h with ⟨hb, ht⟩
  refine ⟨⟨?_, ?_⟩, ?_⟩
  · rw [ht]
    exact True.intro
  · rw [ht]
    exact nofun
  · rintro topic ⟨addr, session, hget, -⟩
    rw [hb] at hget
    cases hget

/-- The subscriptions are lost by `Unsubscribe` packets only. -/
def OnlyBridge : Label Peer Addr → Prop
  | .turn env l => Runtime.dropped env l = none
  | .packet _ _ _ | .resume | .serve _ => True

instance : ∀ l : Label Peer Addr, Decidable (OnlyBridge l)
  | .turn env l => inferInstanceAs (Decidable (Runtime.dropped env l = none))
  | .packet _ _ _ | .resume | .serve _ => isTrue True.intro

/-- Nothing is granted that is not there when the task goes on. -/
theorem step_granted (s : Gateway Peer Addr) (l : Label Peer Addr) (t : Gateway Peer Addr)
    (hstep : (gateway Addr lib toVec).step s l = some t) (hbridge : OnlyBridge l)
    (h : s.Granted) : t.Granted := by
  rcases step_cases hstep with ⟨now, addr, msg, rfl, -, rfl⟩ | ⟨p, rfl, hp, rfl⟩ |
    ⟨env, cmd, k, r, rfl, hk, hr, rfl⟩ | ⟨env, l', rfl, rfl⟩
  · -- packet
    have hgains := s.bridge.handleUplinkPacket_gains toVec now addr msg
    refine ⟨hgains.2, fun p hp topic ht => Or.inl ?_⟩
    cases hp
    exact hgains.1 topic ht
  · -- resume: the task stops at a call or ends
    have hfollow : p.Along Bridge.Gains := by
      have hs := h.1
      rw [hp] at hs
      exact hs
    refine ⟨hfollow.stop, ?_⟩
    intro q hq
    cases p <;> cases hq
  · -- serve: what the answer grants has just been subscribed
    have hwait : (Caller.waiting cmd k).Follows Bridge.Gains s.bridge := hk ▸ h.1
    have hanswer := hwait.answer r
    refine ⟨hanswer.2, ?_⟩
    intro p hp topic ht
    cases hp
    rcases hanswer.1 topic ht with hb | ⟨rfl, rfl⟩
    · exact Or.inl hb
    · exact Or.inr (Runtime.subscribe_grants hr)
  · -- another turn
    refine ⟨h.1, ?_⟩
    intro p hp topic ht
    rcases h.2 p hp topic ht with hb | hsub
    · exact Or.inl hb
    · refine Or.inr (Runtime.mem_subscribed_turn hsub ?_)
      rw [show Runtime.dropped env l' = none from hbridge]
      exact nofun

/-- One step keeps the topics backed exactly if it drops none that is in use. -/
theorem step_backed_iff (s : Gateway Peer Addr) (l : Label Peer Addr) (t : Gateway Peer Addr)
    (hstep : (gateway Addr lib toVec).step s l = some t) (hbridge : OnlyBridge l)
    (h : s.Granted) (hs : s.Backed) : t.Backed ↔ s.DropsUnused l := by
  rcases step_cases hstep with ⟨now, addr, msg, rfl, -, rfl⟩ | ⟨p, rfl, hp, rfl⟩ |
    ⟨env, cmd, k, r, rfl, hk, hr, rfl⟩ | ⟨env, l', rfl, rfl⟩
  · -- a packet only starts the task
    exact iff_of_true hs nofun
  · -- the code that was left has gained what was granted
    refine iff_of_true ?_ nofun
    intro topic ht
    rcases h.2 p hp topic ht with hb | hsub
    · exact hs topic hb
    · exact hsub
  · -- the call it waits for: it may drop a topic of the runtime
    have hdrop : s.droppedBy (.serve env : Label Peer Addr) =
        Runtime.dropped env (.command cmd) := by
      simp only [droppedBy, hk]
    unfold DropsUnused
    rw [hdrop]
    constructor
    · intro hback topic hd hb
      exact Runtime.not_mem_of_dropped hd (hback topic hb)
    · intro hok topic hb
      exact Runtime.mem_subscribed_turn (hs topic hb) fun hd => hok topic hd hb
  · -- other turns drop none here
    have hnone : Runtime.dropped env l' = none := hbridge
    refine iff_of_true (fun topic hb => Runtime.mem_subscribed_turn (hs topic hb) ?_) ?_
    · rw [hnone]
      exact nofun
    · intro topic hd
      rw [droppedBy, hnone] at hd
      cases hd

/-- **Backing**: in every run of a gateway whose applications do not unsubscribe,
every topic of a session is subscribed on the mesh in all states exactly if
each `Unsubscribe` of the bridge that succeeds is for a topic that no session
holds any more. -/
theorem backed_iff (lib : External Peer) (toVec : Value → Bytes) (s t : Gateway Peer Addr)
    (h₀ : (gateway Addr lib toVec).Init s) (ls : List (Label Peer Addr))
    (hrun : (gateway Addr lib toVec).run s ls = some t) (hbridge : ∀ l ∈ ls, OnlyBridge l) :
    (gateway Addr lib toVec).AllStates Backed s ls ↔
      (gateway Addr lib toVec).AllSteps DropsUnused s ls :=
  (gateway Addr lib toVec).allStates_iff_allSteps step_granted step_backed_iff hrun
    (Machine.AllSteps.of_mem _ (fun l hl _ => hbridge l hl) s) (init_granted h₀).1
    (init_granted h₀).2

/-! ## Two devices -/

/-- A gateway that has just started. -/
def booted : Gateway String ℕ := ⟨.new External.plain "gateway" 0, .start, .idle⟩

/-- The device at `addr` says hello and subscribes. -/
def joins (addr : ℕ) (topic : String) : List (Label String ℕ) :=
  [.packet 0 addr (.hello 7), .resume,
    .packet 0 addr (.subscribe topic), .resume, .serve (.calm String), .resume]

/-- The device at `addr` unsubscribes. -/
def leaves (addr : ℕ) (topic : String) : List (Label String ℕ) :=
  [.packet 0 addr (.unsubscribe topic), .resume, .serve (.calm String)]

/-- Devices are numbers, payloads are not looked at. -/
def plainGateway : Machine (Gateway String ℕ) (Label String ℕ) :=
  gateway ℕ External.plain fun _ => []

/-- A session that shows up after a run holds its topics. -/
theorem holds_after_run {ls : List (Label String ℕ)} {t : Gateway String ℕ} (addr : ℕ)
    {topic : String} (ht : plainGateway.run booted ls = some t)
    (h : (plainGateway.run booted ls).map
      (fun t => t.bridge.sessions.get? addr |>.map (·.subscriptions)) = some (some {topic})) :
    t.bridge.Holds topic := by
  rw [ht, Option.map_some, Option.some.injEq] at h
  rcases Option.map_eq_some_iff.mp h with ⟨session, hget, hsub⟩
  have hmem : topic ∈ session.subscriptions := by
    rw [hsub]
    exact Finset.mem_singleton_self topic
  exact ⟨addr, session, hget, hmem⟩

/-- A device that joins and leaves. -/
def oneDevice : List (Label String ℕ) := joins 1 "news" ++ leaves 1 "news"

theorem backed_iff_alone : plainGateway.AllStates Backed booted oneDevice ↔
    plainGateway.AllSteps DropsUnused booted oneDevice := by
  have hrun : (plainGateway.run booted oneDevice).isSome = true := by
    decide +kernel
  obtain ⟨t, ht⟩ := Option.isSome_iff_exists.mp hrun
  exact backed_iff _ _ booted t ⟨rfl, rfl⟩ _ ht (by decide)

/-- Two devices join, then the first one leaves. -/
def twoDevices : List (Label String ℕ) := joins 1 "news" ++ joins 2 "news" ++ leaves 1 "news"

/-- The mesh subscription of both devices is gone when one of them leaves. -/
theorem cut_off : ¬ ∀ s ls, plainGateway.Init s → (∀ l ∈ ls, OnlyBridge l) →
    plainGateway.AllStates Backed s ls := by
  intro h
  have hall := h booted (twoDevices ++ []) ⟨rfl, rfl⟩ (by decide)
  have hrun : (plainGateway.run booted twoDevices).isSome = true := by
    decide +kernel
  obtain ⟨t, ht⟩ := Option.isSome_iff_exists.mp hrun
  have hholds : t.bridge.Holds "news" := by
    apply holds_after_run 2 ht
    decide +kernel
  have hgone : (plainGateway.run booted twoDevices).map
      (fun t => t.rt.subscribed) = some ∅ := by
    decide +kernel
  rw [ht, Option.map_some, Option.some.injEq] at hgone
  have hback := Machine.AllStates.at_cut _ hall ht "news" hholds
  rw [hgone] at hback
  exact Finset.notMem_empty _ hback

end Gateway

end AviNet
