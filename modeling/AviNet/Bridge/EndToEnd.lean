import AviNet.Bridge.Datagrams
import AviNet.Bridge.MeshStreams
import AviNet.Embedded.Packets
import AviNet.Runtime.Turns

/-!
# Bridge.EndToEnd — from one device through the mesh to another

Any number of gateways, each with any number of devices. A datagram arrives
late, often or never, but as it was sent; gossip brings a node what other nodes
have published, late, often or never.

* `delivered_was_published`: what reaches the handler of a device is on a topic
  for which it has sent a `Subscribe`, and was published in exactly these bytes
  by an application or by a device; and a device that is connected has a session;
* `publish_delivered`: the way from a `publish` to the handler of a subscriber can
  be gone from every state in which no uplink task is busy and no downlink task
  1024 events behind, and puts the message there once.
-/

namespace AviNet

open Embedded (UdpClient AviEmbedded)

/-! ## Model layer -/

/-- A socket that receives the datagram in its state, if there is one. -/
def radio : UdpClient (Option Bytes) Unit where
  send _ s := (.ok (), s)
  receive size
    | some datagram => (.ok (datagram.take size), none)
    | none => (.error (), none)
  receive_le size s packet h := by
    cases s with
    | none => cases h
    | some datagram =>
      cases h
      exact List.length_take_le size datagram

/-- The gateways, their devices, and what has gone over the air. -/
structure Deployment (ι Peer Addr : Type) [LinearOrder Peer] [LinearOrder Addr] where
  gw : ι → Gateway Peer Addr
  device : ι → Addr → AviEmbedded (Option Bytes)
  /-- the events that each node has broadcast -/
  events : ι → List AviEvent
  /-- how many of them the downlink task of the node has handled -/
  handled : ι → ℕ
  /-- the messages that gossipsub has accepted, and from whom -/
  gossip : List (ι × String × Bytes)
  /-- what applications on the nodes have asked to publish -/
  applications : List (String × Bytes)

namespace Deployment

variable {ι Peer Addr : Type} [DecidableEq ι] [LinearOrder Peer] [LinearOrder Addr]

inductive Label (ι Peer Addr : Type) where
  /-- a device calls a method that sends `msg` -/
  | send (g : ι) (addr : Addr) (msg : UplinkMessage)
  /-- a device calls `connect`; the `k`th datagram sent to it comes back, or nothing -/
  | connect (g : ι) (addr : Addr) (k : Option ℕ)
  /-- a device polls and receives the `k`th datagram sent to it, or nothing -/
  | poll (g : ι) (addr : Addr) (k : Option ℕ)
  /-- the `k`th datagram of a device reaches its gateway -/
  | uplink (g : ι) (now : UInt64) (addr : Addr) (k : ℕ)
  /-- the uplink task runs up to its next call -/
  | resume (g : ι)
  /-- the runtime handles the command of the uplink task -/
  | serve (g : ι) (env : Env Peer)
  /-- any other turn of a runtime -/
  | turn (g : ι) (env : Env Peer) (l : Runtime.Label Peer)
  /-- the downlink task handles the next event of its node -/
  | downlink (g : ι) (env : Env Peer)

/-- What a turn publishes. -/
def published : Effect Peer → Option (String × Bytes)
  | .published topic data => some (topic, data)
  | _ => none

/-- What a turn of `g` shows the outside. -/
def observe (s : Deployment ι Peer Addr) (g : ι) (effects : List (Effect Peer)) :
    Deployment ι Peer Addr :=
  { s with
    events := Function.update s.events g (s.events g ++ Runtime.eventsOf effects)
    gossip := s.gossip ++ (effects.filterMap published).map fun m => (g, m) }

def setGateway (s : Deployment ι Peer Addr) (g : ι) (gw : Gateway Peer Addr) :
    Deployment ι Peer Addr :=
  { s with gw := Function.update s.gw g gw }

def setDevice (s : Deployment ι Peer Addr) (g : ι) (addr : Addr)
    (device : AviEmbedded (Option Bytes)) : Deployment ι Peer Addr :=
  { s with device := Function.update s.device g (Function.update (s.device g) addr device) }

/-- The downlink task of `g` has handled one more event. -/
def passOn (s : Deployment ι Peer Addr) (g : ι) : Deployment ι Peer Addr :=
  { s with handled := Function.update s.handled g (s.handled g + 1) }

/-- What a device finds in its socket. -/
def arriving (s : Deployment ι Peer Addr) (g : ι) (addr : Addr) (k : Option ℕ) : Option Bytes :=
  k.bind fun k => ((s.gw g).bridge.sentTo addr)[k]?

/-- Gossip brings a node what has been published, also by itself: the mesh is set up with
`allow_self_origin(true)`. -/
def Heard (s : Deployment ι Peer Addr) : Runtime.Label Peer → Prop
  | .swarm (.gossip _ topic data) => ∃ m ∈ s.gossip, m.2 = (topic, data)
  | _ => True

instance (s : Deployment ι Peer Addr) : ∀ l, Decidable (s.Heard l)
  | .swarm (.gossip _ topic data) =>
    inferInstanceAs (Decidable (∃ m ∈ s.gossip, m.2 = (topic, data)))
  | .swarm (.newListenAddr _) | .swarm (.discovered _) | .swarm (.identified _ _ _)
  | .swarm (.connectionEstablished _ _ _) | .swarm (.connectionClosed _ _)
  | .swarm (.request _ _) | .swarm .other | .command _ | .tick => isTrue True.intro

/-- What an application asks to publish. -/
def asked : Runtime.Label Peer → List (String × Bytes)
  | .command (.publish topic data) => [(topic, data)]
  | _ => []

def step (lib : External Peer) (toVec : Value → Bytes) (s : Deployment ι Peer Addr) :
    Label ι Peer Addr → Option (Deployment ι Peer Addr)
  | .send g addr msg =>
    match msg with
    -- only `connect` says `Hello`
    | .hello _ => none
    | _ => some (s.setDevice g addr ((s.device g addr).after (AviEmbedded.sendPacket radio msg)))
  | .connect g addr k =>
    let device := { s.device g addr with socket := s.arriving g addr k }
    some (s.setDevice g addr (device.after (AviEmbedded.connect radio)))
  | .poll g addr k =>
    let device := { s.device g addr with socket := s.arriving g addr k }
    some (s.setDevice g addr (device.after (AviEmbedded.poll radio)))
  | .uplink g now addr k =>
    match (s.device g addr).sent[k]? with
    | some datagram =>
      match UplinkMessage.fromBytes (Embedded.recvFrom datagram) with
      | some msg => ((s.gw g).step lib toVec (.packet now addr msg)).map (s.setGateway g)
      | none => some s
    | none => none
  | .resume g => ((s.gw g).step lib toVec .resume).map (s.setGateway g)
  | .serve g env =>
    match (s.gw g).task with
    | .waiting cmd _ => ((s.gw g).step lib toVec (.serve env)).map fun gw =>
      (s.setGateway g gw).observe g ((s.gw g).rt.turn lib env (.command cmd)).2
    | _ => none
  | .turn g env l =>
    if s.Heard l then
      ((s.gw g).step lib toVec (.turn env l)).map fun gw =>
        { (s.setGateway g gw).observe g ((s.gw g).rt.turn lib env l).2 with
          applications := s.applications ++ asked l }
    else none
  | .downlink g env =>
    -- the task has ended if it ever was further behind
    if eventCapacity < (s.events g).length - s.handled g then none
    else
      match (s.events g)[s.handled g]?, (s.gw g).task with
      | some event, .idle => some ((s.setGateway g { s.gw g with
          bridge := (s.gw g).bridge.handleDownlinkEvent env.order event }).passOn g)
      | _, _ => none

/-- Everything has just been started. -/
def Init (s : Deployment ι Peer Addr) : Prop :=
  (∀ g, (s.gw g).bridge = .start ∧ (s.gw g).task = .idle ∧ s.events g = [] ∧
    s.handled g = 0) ∧
  (∀ g addr, (s.device g addr).sent = [] ∧ (s.device g addr).handler = [] ∧
    (s.device g addr).isConnected = false ∧ (s.device g addr).scratchLen < 2 ^ 64) ∧
  s.gossip = []

end Deployment

open Deployment in
/-- The machine of the gateways and devices. -/
def deployment {ι Peer Addr : Type} [DecidableEq ι] [LinearOrder Peer] [LinearOrder Addr]
    (lib : External Peer) (toVec : Value → Bytes) :
    Machine (Deployment ι Peer Addr) (Deployment.Label ι Peer Addr) where
  Init := Init
  step := step lib toVec

/-! ## What a bridge does for a reason -/

/-- What the bridge publishes for a packet from a device with this id. -/
def Causes (toVec : Value → Bytes) (deviceId : UInt64) (msg : UplinkMessage) (topic : String)
    (data : Bytes) : Prop :=
  match msg with
  | .publish t d => topic = t ∧ data = d
  | .buttonPress buttonId pressType customData =>
    topic = "device/" ++ toString deviceId.toNat ++ "/button" ∧
      ∃ now, data = toVec (Bridge.buttonPayload buttonId pressType customData now)
  | .sensorUpdate sensorName value customData =>
    topic = "device/" ++ toString deviceId.toNat ++ "/sensor/" ++ sensorName ∧
      ∃ now, data = toVec (Bridge.sensorPayload sensorName value customData now)
  | _ => False

namespace Bridge

variable {Addr : Type} [LinearOrder Addr]

/-- What a bridge knows: who has said what under which id, and the messages of the mesh. -/
structure Facts (Addr : Type) where
  said : Addr → UplinkMessage → Prop
  id : Addr → UInt64
  heard : String → Bytes → Prop

/-- The reason for a datagram to the address. -/
def Answers (f : Facts Addr) (b : Bridge Addr) (addr : Addr) : DownlinkMessage → Prop
  | .welcome => (b.sessions.get? addr).isSome
  | .error _ => False
  | .message topic data => f.said addr (.subscribe topic) ∧ f.heard topic data
  | .subscribeAck topic => f.said addr (.subscribe topic)
  | .unsubscribeAck topic => f.said addr (.unsubscribe topic)

/-- Sessions and datagrams have their reasons. -/
structure Grounded (f : Facts Addr) (b : Bridge Addr) : Prop where
  session : ∀ addr session, b.sessions.get? addr = some session → session.deviceId = f.id addr ∧
    ∀ topic ∈ session.subscriptions, f.said addr (.subscribe topic)
  datagram : ∀ d ∈ b.sent, ∃ msg : DownlinkMessage, d.2 = msg.encode ∧
    msg.encode.length < 2 ^ 64 ∧ Answers f b d.1 msg

/-- A command that publishes does so for a packet of a device. -/
def Sanctioned (toVec : Value → Bytes) (f : Facts Addr) : Command → Prop
  | .publish topic data => ∃ addr msg, f.said addr msg ∧ Causes toVec (f.id addr) msg topic data
  | _ => True

/-- More has been said and heard. -/
structure Facts.Le (f f' : Facts Addr) : Prop where
  said : ∀ addr msg, f.said addr msg → f'.said addr msg
  id : f'.id = f.id
  heard : ∀ topic data, f.heard topic data → f'.heard topic data

section Grounded

variable {f f' : Facts Addr} {b b' : Bridge Addr} {addr : Addr} {toVec : Value → Bytes}

/-- What answers a device keeps answering it as more is said and heard. -/
theorem Answers.mono (hf : f.Le f')
    (hb : ∀ addr, (b.sessions.get? addr).isSome → (b'.sessions.get? addr).isSome)
    {msg : DownlinkMessage} (h : Answers f b addr msg) : Answers f' b' addr msg := by
  cases msg with
  | welcome => exact hb addr h
  | error reason => exact h.elim
  | message topic data => exact ⟨hf.said _ _ h.1, hf.heard _ _ h.2⟩
  | subscribeAck topic => exact hf.said _ _ h
  | unsubscribeAck topic => exact hf.said _ _ h

omit [LinearOrder Addr] in
theorem Facts.Le.refl (f : Facts Addr) : f.Le f := ⟨fun _ _ h => h, rfl, fun _ _ h => h⟩

/-- A bridge grounded in some facts is grounded in any more. -/
theorem Grounded.mono (hf : f.Le f') (h : b.Grounded f) : b.Grounded f' where
  session addr session hget := by
    obtain ⟨hid, htopics⟩ := h.session addr session hget
    refine ⟨?_, fun topic htopic => hf.said _ _ (htopics topic htopic)⟩
    rw [hf.id]
    exact hid
  datagram d hd := by
    obtain ⟨msg, hmsg, hlength, hanswers⟩ := h.datagram d hd
    exact ⟨msg, hmsg, hlength, hanswers.mono hf fun _ hsome => hsome⟩

omit [LinearOrder Addr] in
/-- A command the facts sanction is sanctioned by any more. -/
theorem Sanctioned.mono (hf : f.Le f') {cmd : Command} (h : Sanctioned toVec f cmd) :
    Sanctioned toVec f' cmd := by
  cases cmd with
  | publish topic data =>
    obtain ⟨addr, msg, hsaid, hcauses⟩ := h
    refine ⟨addr, msg, hf.said _ _ hsaid, ?_⟩
    rw [hf.id]
    exact hcauses
  | _ => exact True.intro

/-- A bridge that has just started holds nothing to ground. -/
theorem grounded_start (f : Facts Addr) : (start : Bridge Addr).Grounded f where
  session addr session hget := by cases hget
  datagram d hd := by cases hd

/-- A session grounded in what its device said may take its place in the table. -/
theorem Grounded.setSession (h : b.Grounded f) {s : DeviceSession} (hid : s.deviceId = f.id addr)
    (htopics : ∀ topic ∈ s.subscriptions, f.said addr (.subscribe topic)) :
    (b.setSession addr s).Grounded f where
  session a s' hget := by
    rw [Bridge.setSession, SortedMap.get?_insert] at hget
    split_ifs at hget with ha
    · cases hget
      rw [ha]
      exact ⟨hid, htopics⟩
    · exact h.session a s' hget
  datagram d hd := by
    obtain ⟨msg, hmsg, hlength, hanswers⟩ := h.datagram d hd
    refine ⟨msg, hmsg, hlength, hanswers.mono (.refl f) ?_⟩
    intro a hsome
    rw [Bridge.setSession, SortedMap.get?_insert]
    split_ifs
    · rfl
    · exact hsome

/-- Sending a datagram changes no session. -/
theorem sessions_sendTo (b : Bridge Addr) (addr : Addr) (size : ℕ) (msg : DownlinkMessage) :
    (b.sendTo addr size msg).sessions = b.sessions := by
  unfold sendTo
  cases msg.toSlice size <;> rfl

/-- A datagram that answers its device may be sent. -/
theorem Grounded.sendTo (h : b.Grounded f) {size : ℕ} (hsize : size < 2 ^ 64)
    {msg : DownlinkMessage} (hmsg : Answers f b addr msg) :
    (b.sendTo addr size msg).Grounded f where
  session a s hget := by
    rw [sessions_sendTo] at hget
    exact h.session a s hget
  datagram d hd := by
    have hkeep : ∀ a, (b.sessions.get? a).isSome →
        ((b.sendTo addr size msg).sessions.get? a).isSome := by
      intro a hsome
      rw [sessions_sendTo]
      exact hsome
    unfold Bridge.sendTo DownlinkMessage.toSlice at hd
    by_cases hfits : msg.encode.length ≤ size
    · rw [if_pos hfits] at hd
      rcases List.mem_append.mp hd with hd | hd
      · obtain ⟨msg', hmsg', hlength, hanswers⟩ := h.datagram d hd
        exact ⟨msg', hmsg', hlength, hanswers.mono (.refl f) hkeep⟩
      · rw [List.mem_singleton.mp hd]
        exact ⟨msg, rfl, lt_of_le_of_lt hfits hsize, hmsg.mono (.refl f) hkeep⟩
    · rw [if_neg hfits] at hd
      obtain ⟨msg', hmsg', hlength, hanswers⟩ := h.datagram d hd
      exact ⟨msg', hmsg', hlength, hanswers.mono (.refl f) hkeep⟩

/-- The same addresses have sessions. -/
def Steady (b b' : Bridge Addr) : Prop :=
  ∀ addr, (b'.sessions.get? addr).isSome = (b.sessions.get? addr).isSome

/-- What a device with a session can make of the bridge `b`. -/
structure Keeps (f : Facts Addr) (b b' : Bridge Addr) : Prop where
  grounded : b'.Grounded f
  steady : Steady b b'

/-- Changing a session that exists keeps the table's addresses. -/
theorem Keeps.setSession (h : Keeps f b b') (hget : (b.sessions.get? addr).isSome)
    {s : DeviceSession} (hid : s.deviceId = f.id addr)
    (htopics : ∀ topic ∈ s.subscriptions, f.said addr (.subscribe topic)) :
    Keeps f b (b'.setSession addr s) where
  grounded := h.grounded.setSession hid htopics
  steady a := by
    rw [Bridge.setSession, SortedMap.get?_insert]
    split_ifs with ha
    · rw [ha, hget]
      rfl
    · exact h.steady a

/-- Sending a datagram keeps them too. -/
theorem Keeps.sendTo (h : Keeps f b b') {size : ℕ} (hsize : size < 2 ^ 64)
    {msg : DownlinkMessage} (hmsg : Answers f b' addr msg) :
    Keeps f b (b'.sendTo addr size msg) where
  grounded := h.grounded.sendTo hsize hmsg
  steady a := by
    rw [sessions_sendTo]
    exact h.steady a

/-- What is left of a packet: a new session, or what a device with a session can do. -/
def Rest (toVec : Value → Bytes) (f : Facts Addr) (b : Bridge Addr) :
    Caller (Bridge Addr) Command Reply → Prop
  | .idle => True
  | .ready p => (∃ b', p = .done b' ∧ b'.Grounded f ∧
      ∀ addr, (b.sessions.get? addr).isSome → (b'.sessions.get? addr).isSome) ∨
    p.Stays (Keeps f b) (Sanctioned toVec f)
  | .waiting cmd k => Sanctioned toVec f cmd ∧ ∀ r, (k r).Stays (Keeps f b) (Sanctioned toVec f)

/-- A `Hello` makes a session, and is answered. -/
theorem rest_hello (hb : b.Grounded f) {deviceId : UInt64} (hid : deviceId = f.id addr) :
    Rest toVec f b
      (.ready (.done ((b.setSession addr ⟨deviceId, .empty, ∅⟩).sendTo addr 64 .welcome))) := by
  have hsession := hb.setSession (s := ⟨deviceId, .empty, ∅⟩) hid
    fun topic htopic => absurd htopic (Finset.notMem_empty topic)
  refine Or.inl ⟨_, rfl, hsession.sendTo (by decide) ?_, ?_⟩
  · show ((b.sessions.insert addr _).get? addr).isSome = true
    rw [SortedMap.get?_insert_self]
    rfl
  · intro a ha
    rw [sessions_sendTo]
    show ((b.sessions.insert addr _).get? a).isSome = true
    rw [SortedMap.get?_insert]
    split_ifs
    · rfl
    · exact ha

/-- A subscription is stored and acknowledged, if the mesh accepts it. -/
theorem stays_subscribe (hb : b.Grounded f) {session : DeviceSession}
    (hget : b.sessions.get? addr = some session) {topic : String}
    (hmsg : f.said addr (.subscribe topic)) (now : UInt64) :
    (b.handleUplinkPacket toVec now addr (.subscribe topic)).Stays (Keeps f b)
      (Sanctioned toVec f) := by
  have hkeeps : Keeps f b b := ⟨hb, fun _ => rfl⟩
  have hsome : (b.sessions.get? addr).isSome := Option.isSome_iff_exists.mpr ⟨session, hget⟩
  obtain ⟨hid, htopics⟩ := hb.session addr session hget
  have hinsert : ∀ t ∈ insert topic session.subscriptions, f.said addr (.subscribe t) := by
    intro t ht
    rcases Finset.mem_insert.mp ht with rfl | ht
    · exact hmsg
    · exact htopics t ht
  have hsession := hkeeps.setSession hsome (s := { session with
    subscriptions := insert topic session.subscriptions }) hid hinsert
  simp only [handleUplinkPacket, hget]
  refine stays_callDone hkeeps True.intro ?_
  intro res
  rcases res with e | ⟨⟩
  · exact hkeeps
  · exact hsession.sendTo (by decide) hmsg

/-- A sensor value is published under the id of the device, and written into the context. -/
theorem stays_sensorUpdate (hb : b.Grounded f) {session : DeviceSession}
    (hget : b.sessions.get? addr = some session) {sensorName : String} {data : SensorValue}
    {customData : String} (hmsg : f.said addr (.sensorUpdate sensorName data customData))
    (now : UInt64) :
    (b.handleUplinkPacket toVec now addr (.sensorUpdate sensorName data customData)).Stays
      (Keeps f b) (Sanctioned toVec f) := by
  have hkeeps : Keeps f b b := ⟨hb, fun _ => rfl⟩
  have hid := (hb.session addr session hget).1
  simp only [handleUplinkPacket, hget]
  refine stays_callDone hkeeps ⟨addr, _, hmsg, ?_, now, rfl⟩ ?_
  · rw [hid]
  · -- whatever the mesh says, the document is fetched
    intro _
    refine stays_getRoot hkeeps True.intro ?_
    intro res
    cases res with
    | error e => exact hkeeps
    | ok doc =>
      dsimp only
      split
      · exact stays_callDone hkeeps True.intro fun _ => hkeeps
      · exact hkeeps

/-- Any packet but a `Hello` from a device with a session: it stores and answers what the
device has said, and publishes what the packet stands for. -/
theorem stays_handleUplinkPacket (now : UInt64) (hb : b.Grounded f) {session : DeviceSession}
    (hget : b.sessions.get? addr = some session) {msg : UplinkMessage} (hhello : ¬ IsHello msg)
    (hmsg : f.said addr msg) :
    (b.handleUplinkPacket toVec now addr msg).Stays (Keeps f b) (Sanctioned toVec f) := by
  have hkeeps : Keeps f b b := ⟨hb, fun _ => rfl⟩
  have hsome : (b.sessions.get? addr).isSome := Option.isSome_iff_exists.mpr ⟨session, hget⟩
  obtain ⟨hid, htopics⟩ := hb.session addr session hget
  cases msg with
  | hello deviceId => exact absurd True.intro hhello
  | subscribe topic => exact stays_subscribe hb hget hmsg now
  | unsubscribe topic =>
    -- the topic is forgotten before the mesh is asked
    have hsession := hkeeps.setSession hsome (s := { session with
      subscriptions := session.subscriptions.erase topic }) hid
      fun t ht => htopics t (Finset.mem_of_mem_erase ht)
    simp only [handleUplinkPacket, hget]
    exact stays_callDone hsession True.intro fun _ => hsession.sendTo (by decide) hmsg
  | publish topic data =>
    simp only [handleUplinkPacket, hget]
    exact stays_callDone hkeeps ⟨addr, _, hmsg, rfl, rfl⟩ fun _ => hkeeps
  | streamStart i target reason =>
    -- streams are stored with the session, and no topic changes
    simp only [handleUplinkPacket, hget]
    split_ifs
    · exact hkeeps
    · refine stays_requestStream hkeeps True.intro ?_
      intro res
      cases res with
      | error e => exact hkeeps
      | ok id => exact hkeeps.setSession hsome hid htopics
  | streamData i data =>
    simp only [handleUplinkPacket, hget]
    cases session.activeStreams.get? i with
    | none => exact hkeeps
    | some id => exact stays_callDone hkeeps True.intro fun _ => hkeeps
  | streamClose i =>
    simp only [handleUplinkPacket, hget]
    cases session.activeStreams.get? i with
    | none => exact hkeeps
    | some id =>
      have hsession := hkeeps.setSession hsome (s := { session with
        activeStreams := session.activeStreams.erase i }) hid htopics
      exact stays_callDone hsession True.intro fun _ => hsession
  | buttonPress buttonId pressType customData =>
    -- the topic names the id of the session
    simp only [handleUplinkPacket, hget]
    refine stays_callDone hkeeps ⟨addr, _, hmsg, ?_, now, rfl⟩ fun _ => hkeeps
    rw [hid]
  | sensorUpdate sensorName data customData => exact stays_sensorUpdate hb hget hmsg now

/-- **The handler**: a `Hello`, a packet of a stranger, which does nothing, or any other
packet of a device. -/
theorem rest_handleUplinkPacket (now : UInt64) (hb : b.Grounded f) {msg : UplinkMessage}
    (hmsg : f.said addr msg) (hid : ∀ i, msg = .hello i → i = f.id addr) :
    Rest toVec f b (.ready (b.handleUplinkPacket toVec now addr msg)) := by
  have hkeeps : Keeps f b b := ⟨hb, fun _ => rfl⟩
  revert hmsg hid msg
  intro msg
  apply handleUplinkPacket_cases toVec now addr b (motive := fun msg p => f.said addr msg →
    (∀ i, msg = .hello i → i = f.id addr) → Rest toVec f b (.ready p))
  · intro deviceId _ hid
    exact rest_hello hb (hid deviceId rfl)
  · intro msg _ _ _
    exact Or.inr hkeeps
  · intro session msg hget hhello hmsg _
    exact Or.inr (stays_handleUplinkPacket now hb hget hhello hmsg)

/-- The rest of a packet, when more has been said and heard. -/
theorem Rest.mono (hf : f.Le f') {task : Caller (Bridge Addr) Command Reply}
    (h : Rest toVec f b task) : Rest toVec f' b task := by
  have hstays : ∀ p : Code Addr, p.Stays (Keeps f b) (Sanctioned toVec f) →
      p.Stays (Keeps f' b) (Sanctioned toVec f') := by
    intro p hp
    exact hp.imp (fun b' hb' => ⟨hb'.grounded.mono hf, hb'.steady⟩)
      fun cmd hcmd => Sanctioned.mono hf hcmd
  cases task with
  | idle => exact True.intro
  | ready p =>
    rcases h with ⟨b', hp, hgrounded, hmore⟩ | hp
    · exact Or.inl ⟨b', hp, hgrounded.mono hf, hmore⟩
    · exact Or.inr (hstays p hp)
  | waiting cmd k => exact ⟨Sanctioned.mono hf h.1, fun r => hstays (k r) (h.2 r)⟩

/-- The task runs up to its next call. -/
theorem Rest.resume {p : Code Addr} (h : Rest toVec f b (.ready p)) :
    p.state.Grounded f ∧ Rest toVec f p.state p.stop ∧
      ∀ addr, (b.sessions.get? addr).isSome → (p.state.sessions.get? addr).isSome := by
  rcases h with ⟨b', rfl, hgrounded, hmore⟩ | hp
  · exact ⟨hgrounded, True.intro, hmore⟩
  · have hstate := hp.state
    refine ⟨hstate.grounded, ?_, ?_⟩
    · cases p with
      | done b' => exact True.intro
      | call b' cmd k =>
        refine ⟨hp.2.1, fun r => (hp.2.2 r).imp ?_ fun cmd hcmd => hcmd⟩
        intro b'' hb''
        refine ⟨hb''.grounded, fun a => ?_⟩
        rw [hb''.steady a]
        exact (hstate.steady a).symm
    · intro a ha
      rw [hstate.steady a]
      exact ha

/-- A subscriber gets a message of the mesh that fits. -/
theorem sentTo_message {Peer : Type} (env : Env Peer) (source : PeerId) {topic : String}
    {data : Bytes} (hsubscribes : b.Subscribes addr topic)
    (hfits : (DownlinkMessage.message topic data).encode.length ≤ maxPacketSize) :
    (b.handleDownlinkEvent env.order (.message source topic data)).sentTo addr =
      b.sentTo addr ++ [(DownlinkMessage.message topic data).encode] := by
  obtain ⟨session, hget, htopic⟩ := hsubscribes
  have hslice : (DownlinkMessage.message topic data).toSlice maxPacketSize = some _ := if_pos hfits
  have hsent : (b.handleDownlinkEvent env.order (.message source topic data)).sentTo addr = _ :=
    sentTo_turns (env.order b.sessions.entries) b topic (.message topic data) addr
  rw [hsent, filter_subscriber env hget htopic, List.flatMap_singleton, hslice]
  rfl

/-- A message of the mesh goes to those who have subscribed. -/
theorem Grounded.downlink {Peer : Type} (h : b.Grounded f) (env : Env Peer) {event : AviEvent}
    (hheard : ∀ source topic data, event = .message source topic data → f.heard topic data) :
    (b.handleDownlinkEvent env.order event).Grounded f := by
  cases event with
  | message source topic data =>
    have hentries : ∀ e ∈ env.order b.sessions.entries, topic ∈ e.2.subscriptions →
        f.said e.1 (.subscribe topic) := by
      intro e he htopic
      have hentry : (e.1, e.2) ∈ b.sessions.entries := (env.order_perm _).mem_iff.mp he
      exact (h.session e.1 e.2 (SortedMap.mem_entries.mp hentry)).2 topic htopic
    show ((env.order b.sessions.entries).foldl _ b).Grounded f
    -- by induction on the part of the table still to come
    generalize env.order b.sessions.entries = es at hentries
    induction es generalizing b with
    | nil => exact h
    | cons e es ih =>
      rw [List.foldl_cons]
      have hrest := fun e' he' => hentries e' (List.mem_cons_of_mem e he')
      by_cases htopic : topic ∈ e.2.subscriptions
      · rw [if_pos htopic]
        have hsent : (b.sendTo e.1 maxPacketSize (.message topic data)).Grounded f :=
          h.sendTo (by decide)
            ⟨hentries e List.mem_cons_self htopic, hheard source topic data rfl⟩
        exact ih hsent hrest
      · rw [if_neg htopic]
        exact ih h hrest
  | _ => exact h

end Grounded

end Bridge

/-! ## Devices -/

namespace Embedded.AviEmbedded

/-- After a send the device has one datagram more in flight, if the message fitted into the
scratch buffer. -/
theorem after_send (dev : AviEmbedded (Option Bytes)) (msg : UplinkMessage) :
    dev.after (sendPacket radio msg) =
      { dev with sent := dev.sent ++ (msg.toSlice dev.scratchLen).toList } := by
  rw [after, sendPacket_run]
  cases msg.toSlice dev.scratchLen with
  | none =>
    show dev = _
    rw [Option.toList_none, List.append_nil]
  | some packet => rfl

/-- After `connect` the socket has been read and the device waits for its `Welcome`. -/
theorem after_connect (dev : AviEmbedded (Option Bytes)) :
    dev.after (connect radio) = { dev with
      socket := none
      sent := dev.sent ++ ((UplinkMessage.hello dev.deviceId).toSlice dev.scratchLen).toList
      isConnected := dev.socket.any fun datagram =>
        decide (DownlinkMessage.fromBytes (datagram.take 128) = some .welcome) } := by
  have hconnect : (connect radio).run.run dev =
      (sendPacket radio (.hello dev.deviceId) >>= fun _ => awaitWelcome radio).run.run dev := rfl
  rw [after, hconnect, run_bind, sendPacket_run]
  obtain ⟨socket, id, len, connected, handler, sent⟩ := dev
  cases (UplinkMessage.hello id).toSlice len with
  | none =>
    cases socket with
    | none => simp; rfl
    | some datagram => simp; rfl
  | some packet =>
    cases socket with
    | none => simp; rfl
    | some datagram => simp; rfl

/-- After `poll` the socket has been read, and a message that arrived has gone to the handler. -/
theorem after_poll (dev : AviEmbedded (Option Bytes)) : dev.after (poll radio) =
    match dev.socket.bind fun datagram => DownlinkMessage.fromBytes (datagram.take 1024) with
    | some (.message topic data) =>
      { dev with socket := none, handler := dev.handler ++ [(topic, data)] }
    | some .welcome => { dev with socket := none, isConnected := true }
    | _ => { dev with socket := none } := by
  obtain ⟨socket, id, len, connected, handler, sent⟩ := dev
  cases socket with
  | none => rfl
  | some datagram =>
    have hrun : (receive radio 1024).run.run ⟨some datagram, id, len, connected, handler, sent⟩ =
        (.ok (datagram.take 1024), ⟨none, id, len, connected, handler, sent⟩) := rfl
    rw [after, poll, run_bind, hrun]
    simp only [Option.bind_some]
    cases DownlinkMessage.fromBytes (datagram.take 1024) with
    | none => rfl
    | some msg => cases msg <;> rfl

variable {Addr : Type} [LinearOrder Addr]

/-- A device at the address that has sent whole messages only, is connected with a
reason, and whose handler was called with a reason. -/
structure Grounded (f : Bridge.Facts Addr) (b : Bridge Addr) (addr : Addr)
    (dev : AviEmbedded (Option Bytes)) : Prop where
  sent : ∀ d ∈ dev.sent, ∃ msg : UplinkMessage, d = msg.encode ∧ msg.encode.length < 2 ^ 64 ∧
    ∀ i, msg = .hello i → i = dev.deviceId
  connected : dev.isConnected = true → (b.sessions.get? addr).isSome
  handler : ∀ m ∈ dev.handler, f.said addr (.subscribe m.1) ∧ f.heard m.1 m.2
  scratch : dev.scratchLen < 2 ^ 64

/-- What is read from the socket into `size` bytes has its reason. -/
def Receives (f : Bridge.Facts Addr) (b : Bridge Addr) (addr : Addr)
    (dev : AviEmbedded (Option Bytes)) : Prop :=
  ∀ datagram, dev.socket = some datagram → ∀ size msg,
    DownlinkMessage.fromBytes (datagram.take size) = some msg → Bridge.Answers f b addr msg

section Steps

variable {f f' : Bridge.Facts Addr} {b b' : Bridge Addr} {addr : Addr}
  {dev : AviEmbedded (Option Bytes)}

/-- A device grounded in some facts is grounded in any more, while its session stays. -/
theorem Grounded.mono (hf : f.Le f')
    (hb : ∀ addr, (b.sessions.get? addr).isSome → (b'.sessions.get? addr).isSome)
    (h : dev.Grounded f b addr) : dev.Grounded f' b' addr where
  sent := h.sent
  connected hconnected := hb addr (h.connected hconnected)
  handler m hm := ⟨hf.said _ _ (h.handler m hm).1, hf.heard _ _ (h.handler m hm).2⟩
  scratch := h.scratch

/-- One more message in the scratch buffer. -/
theorem Grounded.sent_append (h : dev.Grounded f b addr) {msg : UplinkMessage}
    (hid : ∀ i, msg = .hello i → i = dev.deviceId) :
    ∀ d ∈ dev.sent ++ (msg.toSlice dev.scratchLen).toList, ∃ msg : UplinkMessage,
      d = msg.encode ∧ msg.encode.length < 2 ^ 64 ∧ ∀ i, msg = .hello i → i = dev.deviceId := by
  intro d hd
  rcases List.mem_append.mp hd with hd | hd
  · exact h.sent d hd
  · unfold UplinkMessage.toSlice at hd
    split_ifs at hd with hfits
    · rw [Option.toList_some, List.mem_singleton] at hd
      exact ⟨msg, hd, lt_of_le_of_lt hfits h.scratch, hid⟩
    · cases hd

/-- A device may say what it likes, a `Hello` apart. -/
theorem Grounded.afterSend (h : dev.Grounded f b addr) {msg : UplinkMessage}
    (hhello : ∀ i, msg ≠ .hello i) :
    (dev.after (sendPacket radio msg)).Grounded f b addr := by
  rw [after_send]
  exact ⟨h.sent_append fun i hi => absurd hi (hhello i), h.connected, h.handler, h.scratch⟩

/-- `connect` takes a `Welcome` only from what was sent to the device. -/
theorem Grounded.afterConnect (h : dev.Grounded f b addr) (hread : dev.Receives f b addr) :
    (dev.after (connect radio)).Grounded f b addr := by
  rw [after_connect]
  refine ⟨h.sent_append fun i hi => ?_, ?_, h.handler, h.scratch⟩
  · cases hi
    rfl
  · intro hconnected
    obtain ⟨datagram, hsocket, hwelcome⟩ := (Option.any_eq_true _ _).mp hconnected
    exact hread datagram hsocket 128 .welcome (of_decide_eq_true hwelcome)

/-- `poll` hands over only what was sent to the device. -/
theorem Grounded.afterPoll (h : dev.Grounded f b addr) (hread : dev.Receives f b addr) :
    (dev.after (poll radio)).Grounded f b addr := by
  rw [after_poll]
  have hmsg : ∀ msg, (dev.socket.bind fun datagram =>
      DownlinkMessage.fromBytes (datagram.take 1024)) = some msg → Bridge.Answers f b addr msg := by
    intro msg hbind
    rcases Option.bind_eq_some_iff.mp hbind with ⟨datagram, hsocket, hfrom⟩
    exact hread datagram hsocket 1024 msg hfrom
  split
  · rename_i topic data hbind
    refine ⟨h.sent, h.connected, ?_, h.scratch⟩
    intro m hm
    rcases List.mem_append.mp hm with hm | hm
    · exact h.handler m hm
    · rw [List.mem_singleton.mp hm]
      exact hmsg _ hbind
  · rename_i hbind
    exact ⟨h.sent, fun _ => hmsg _ hbind, h.handler, h.scratch⟩
  · exact ⟨h.sent, h.connected, h.handler, h.scratch⟩

end Steps

end Embedded.AviEmbedded

/-! ## Invariants -/

namespace Deployment

variable {ι Peer Addr : Type} [DecidableEq ι] [LinearOrder Peer] [LinearOrder Addr]

/-- What the bridge of `g` has to go by. -/
def facts (s : Deployment ι Peer Addr) (g : ι) : Bridge.Facts Addr where
  said addr msg := msg.encode ∈ (s.device g addr).sent
  id addr := (s.device g addr).deviceId
  heard topic data := ∃ source, AviEvent.message source topic data ∈ s.events g

/-- An application has asked for it, or a device has sent a packet that stands for it. -/
def Published (toVec : Value → Bytes) (s : Deployment ι Peer Addr) (topic : String)
    (data : Bytes) : Prop :=
  (topic, data) ∈ s.applications ∨ ∃ g addr msg, (s.facts g).said addr msg ∧
    Causes toVec ((s.facts g).id addr) msg topic data

/-- What every run keeps. -/
structure Inv (toVec : Value → Bytes) (s : Deployment ι Peer Addr) : Prop where
  bridge : ∀ g, (s.gw g).bridge.Grounded (s.facts g)
  task : ∀ g, Bridge.Rest toVec (s.facts g) (s.gw g).bridge (s.gw g).task
  device : ∀ g addr, (s.device g addr).Grounded (s.facts g) (s.gw g).bridge addr
  events : ∀ g topic data, (s.facts g).heard topic data → s.Published toVec topic data
  gossip : ∀ m ∈ s.gossip, m.2.1 = Runtime.contextTopic ∨ s.Published toVec m.2.1 m.2.2
  handled : ∀ g, s.handled g ≤ (s.events g).length

section Steps

variable {lib : External Peer} {toVec : Value → Bytes} {s t : Deployment ι Peer Addr} {g : ι}

/-- Gateways and devices that have just started satisfy the invariant. -/
theorem init_inv (h : (deployment lib toVec).Init s) : s.Inv toVec := by
  obtain ⟨hgw, hdevice, hgossip⟩ := h
  refine ⟨?_, ?_, ?_, ?_, ?_, ?_⟩
  · -- no session
    intro g
    rw [(hgw g).1]
    exact Bridge.grounded_start _
  · intro g
    rw [(hgw g).2.1]
    exact True.intro
  · -- nothing sent, nothing handled
    intro g addr
    obtain ⟨hsent, hhandler, hconnected, hscratch⟩ := hdevice g addr
    refine ⟨?_, ?_, ?_, hscratch⟩
    · intro d hd
      rw [hsent] at hd
      cases hd
    · intro hc
      rw [hconnected] at hc
      cases hc
    · intro m hm
      rw [hhandler] at hm
      cases hm
  · -- no event
    intro g topic data hheard
    obtain ⟨source, hmem⟩ := hheard
    rw [(hgw g).2.2.1] at hmem
    cases hmem
  · -- no gossip
    intro m hm
    rw [hgossip] at hm
    cases hm
  · -- nothing passed on
    intro g
    rw [(hgw g).2.2.2]
    exact Nat.zero_le _

omit [DecidableEq ι] in
/-- Published is published. -/
theorem Published.mono (hf : ∀ g, (s.facts g).Le (t.facts g))
    (happlications : s.applications ⊆ t.applications) {topic : String} {data : Bytes}
    (h : s.Published toVec topic data) : t.Published toVec topic data := by
  rcases h with h | ⟨g, addr, msg, hsaid, hcauses⟩
  · exact Or.inl (happlications h)
  · refine Or.inr ⟨g, addr, msg, (hf g).said _ _ hsaid, ?_⟩
    rw [(hf g).id]
    exact hcauses

/-- One device has moved. -/
theorem Inv.setDevice (h : s.Inv toVec) {addr : Addr} {dev : AviEmbedded (Option Bytes)}
    (hid : dev.deviceId = (s.device g addr).deviceId) (hsent : (s.device g addr).sent ⊆ dev.sent)
    (hdev : dev.Grounded (s.facts g) (s.gw g).bridge addr) :
    (s.setDevice g addr dev).Inv toVec := by
  -- only this device has changed
  have hdevice : ∀ g' a, ((s.setDevice g addr dev).device g' a) =
      if g' = g ∧ a = addr then dev else s.device g' a := by
    intro g' a
    by_cases hg : g' = g
    · subst hg
      by_cases ha : a = addr
      · subst ha
        simp [Deployment.setDevice]
      · simp [Deployment.setDevice, ha]
    · simp [Deployment.setDevice, hg]
  -- and it has only said more
  have hf : ∀ g', (s.facts g').Le ((s.setDevice g addr dev).facts g') := by
    intro g'
    refine ⟨?_, ?_, fun topic data hheard => hheard⟩
    · intro a msg hsaid
      show msg.encode ∈ ((s.setDevice g addr dev).device g' a).sent
      rw [hdevice]
      split_ifs with hga
      · rw [hga.1, hga.2] at hsaid
        exact hsent hsaid
      · exact hsaid
    · funext a
      show ((s.setDevice g addr dev).device g' a).deviceId = (s.device g' a).deviceId
      rw [hdevice]
      split_ifs with hga
      · rw [hga.1, hga.2]
        exact hid
      · rfl
  refine ⟨fun g' => (h.bridge g').mono (hf g'), fun g' => (h.task g').mono (hf g'), ?_, ?_, ?_,
    h.handled⟩
  · intro g' a
    rw [hdevice]
    split_ifs with hga
    · rw [hga.1, hga.2]
      exact hdev.mono (hf g) fun _ hsome => hsome
    · exact (h.device g' a).mono (hf g') fun _ hsome => hsome
  · intro g' topic data hheard
    exact (h.events g' topic data hheard).mono hf (List.Subset.refl _)
  · intro m hm
    exact (h.gossip m hm).imp_right fun hp => hp.mono hf (List.Subset.refl _)

omit [DecidableEq ι] in
/-- What a device finds in its socket has its reason, however much of it is read. -/
theorem Inv.receives (h : s.Inv toVec) (addr : Addr) (k : Option ℕ) :
    ({ s.device g addr with socket := s.arriving g addr k } :
      AviEmbedded (Option Bytes)).Receives (s.facts g) (s.gw g).bridge addr := by
  intro datagram hsocket size msg hread
  obtain ⟨k, -, hget⟩ := Option.bind_eq_some_iff.mp hsocket
  -- it is one of the datagrams sent to this address
  rcases List.mem_map.mp (List.mem_of_getElem? hget) with ⟨d, hd, rfl⟩
  rcases List.mem_filter.mp hd with ⟨hd, haddr⟩
  obtain ⟨msg', hmsg', hlength, hanswers⟩ := (h.bridge g).datagram d hd
  rw [hmsg'] at hread
  have hreads := DownlinkMessage.reads (DownlinkMessage.representable_of_length hlength)
  rw [hreads.front_take DownlinkMessage.local_read hread, ← of_decide_eq_true haddr]
  exact hanswers

/-- One gateway has moved, unseen from outside. -/
theorem Inv.setGateway (h : s.Inv toVec) (gw : Gateway Peer Addr)
    (hbridge : gw.bridge.Grounded (s.facts g))
    (htask : Bridge.Rest toVec (s.facts g) gw.bridge gw.task)
    (hmore : ∀ addr, ((s.gw g).bridge.sessions.get? addr).isSome →
      (gw.bridge.sessions.get? addr).isSome) : (s.setGateway g gw).Inv toVec := by
  have hgw : ∀ g', (s.setGateway g gw).gw g' = if g' = g then gw else s.gw g' := by
    intro g'
    exact Function.update_apply s.gw g gw g'
  refine ⟨?_, ?_, ?_, h.events, h.gossip, h.handled⟩
  · -- the sessions
    intro g'
    rw [hgw]
    split_ifs with hg
    · rw [hg]
      exact hbridge
    · exact h.bridge g'
  · -- the code that is left
    intro g'
    rw [hgw]
    split_ifs with hg
    · rw [hg]
      exact htask
    · exact h.task g'
  · -- the devices, whose sessions are still there
    intro g' addr
    rw [hgw]
    split_ifs with hg
    · rw [hg]
      exact (h.device g addr).mono (.refl _) hmore
    · exact h.device g' addr

/-- The downlink task moves on. -/
theorem Inv.passOn (h : s.Inv toVec) (hnext : s.handled g < (s.events g).length) :
    (s.passOn g).Inv toVec := by
  refine ⟨h.bridge, h.task, h.device, h.events, h.gossip, ?_⟩
  intro g'
  have hhandled : (s.passOn g).handled g' = if g' = g then s.handled g + 1 else s.handled g' :=
    Function.update_apply s.handled g _ g'
  rw [hhandled]
  split_ifs with hg
  · rw [hg]
    exact hnext
  · exact h.handled g'

/-- A turn is seen from outside. -/
theorem Inv.observe (h : s.Inv toVec) {effects : List (Effect Peer)}
    (hpublished : ∀ topic data, .published topic data ∈ effects →
      topic = Runtime.contextTopic ∨ s.Published toVec topic data)
    (hmessage : ∀ source topic data, .event (.message source topic data) ∈ effects →
      s.Published toVec topic data) : (s.observe g effects).Inv toVec := by
  -- only this gateway's events have grown
  have hevents : ∀ g', (s.observe g effects).events g' =
      if g' = g then s.events g ++ Runtime.eventsOf effects else s.events g' := by
    intro g'
    exact Function.update_apply s.events g _ g'
  have hf : ∀ g', (s.facts g').Le ((s.observe g effects).facts g') := by
    intro g'
    refine ⟨fun a msg hsaid => hsaid, rfl, ?_⟩
    rintro topic data ⟨source, hmem⟩
    refine ⟨source, ?_⟩
    rw [hevents]
    split_ifs with hg
    · rw [hg] at hmem
      exact List.mem_append_left _ hmem
    · exact hmem
  refine ⟨fun g' => (h.bridge g').mono (hf g'), fun g' => (h.task g').mono (hf g'),
    fun g' addr => (h.device g' addr).mono (hf g') fun _ hsome => hsome, ?_, ?_, ?_⟩
  · -- a message it has heard now, or before
    rintro g' topic data ⟨source, hmem⟩
    have hold : ∀ g', AviEvent.message source topic data ∈ s.events g' →
        s.Published toVec topic data := fun g' hmem => h.events g' topic data ⟨source, hmem⟩
    rw [hevents] at hmem
    split_ifs at hmem with hg
    · rcases List.mem_append.mp hmem with hmem | hmem
      · exact hold g hmem
      · rcases List.mem_filterMap.mp hmem with ⟨e, he, hevent⟩
        cases e with
        | event e =>
          cases hevent
          exact hmessage source topic data he
        | _ => cases hevent
    · exact hold g' hmem
  · -- what it has published now, or before
    intro m hm
    rcases List.mem_append.mp hm with hm | hm
    · exact h.gossip m hm
    · rcases List.mem_map.mp hm with ⟨⟨topic, data⟩, hp, rfl⟩
      rcases List.mem_filterMap.mp hp with ⟨e, he, hpub⟩
      cases e with
      | published topic data =>
        cases hpub
        exact hpublished topic data he
      | _ => cases hpub
  · -- what it has passed on was there to pass on
    intro g'
    have hkept := h.handled g'
    show s.handled g' ≤ _
    rw [hevents]
    split_ifs with hg
    · rw [hg] at hkept ⊢
      rw [List.length_append]
      omega
    · exact hkept

omit [DecidableEq ι] in
/-- An application asks for something. -/
theorem Inv.ask (h : s.Inv toVec) (more : List (String × Bytes)) :
    Inv toVec { s with applications := s.applications ++ more } := by
  have hmono : ∀ {topic data}, s.Published toVec topic data →
      Published toVec { s with applications := s.applications ++ more } topic data := by
    intro topic data hp
    exact Published.mono (t := { s with applications := s.applications ++ more })
      (fun g => .refl (s.facts g)) (List.subset_append_left _ _) hp
  exact ⟨h.bridge, h.task, h.device,
    fun g topic data hheard => hmono (h.events g topic data hheard),
    fun m hm => (h.gossip m hm).imp_right hmono, h.handled⟩

omit [DecidableEq ι] in
/-- A message on the air, at a node. -/
theorem Inv.heard (h : s.Inv toVec) {source : Peer} {topic : String} {data : Bytes}
    (hheard : s.Heard (.swarm (.gossip source topic data)))
    (htopic : topic ≠ Runtime.contextTopic) : s.Published toVec topic data := by
  obtain ⟨m, hm, hsame⟩ := hheard
  have hgossip := h.gossip m hm
  rw [hsame] at hgossip
  exact hgossip.resolve_left htopic

/-- A gateway takes a turn and leaves the table of sessions alone. -/
theorem Inv.served (h : s.Inv toVec) {env : Env Peer} {l : Runtime.Label Peer}
    {task : Caller (Bridge Addr) Command Reply}
    (htask : Bridge.Rest toVec (s.facts g) (s.gw g).bridge task)
    (hasked : ∀ topic data, l = .command (.publish topic data) → s.Published toVec topic data)
    (hheard : s.Heard l) : Inv toVec ((s.setGateway g
      ⟨((s.gw g).rt.turn lib env l).1, (s.gw g).bridge, task⟩).observe g
        ((s.gw g).rt.turn lib env l).2) := by
  have hmoved := h.setGateway (g := g) ⟨((s.gw g).rt.turn lib env l).1,
    (s.gw g).bridge, task⟩ (h.bridge g) htask fun _ hsome => hsome
  apply hmoved.observe
  · intro topic data he
    cases Runtime.does_of_mem_turn he with
    | publish topic data => exact Or.inr (hasked topic data rfl)
    | update patch data => exact Or.inl rfl
    | replace doc data => exact Or.inl rfl
  · intro source topic data he
    cases Runtime.does_of_mem_turn he with
    | message source topic data htopic => exact h.heard hheard htopic
    | request peer msg e hof => exact hof.elim

/-- A device sends a packet that is no `Hello`. -/
theorem Inv.send (h : s.Inv toVec) (g : ι) (addr : Addr) {msg : UplinkMessage}
    (hmsg : ∀ i, msg ≠ .hello i) : (s.setDevice g addr
      ((s.device g addr).after (AviEmbedded.sendPacket radio msg))).Inv toVec := by
  refine h.setDevice ?_ ?_ ((h.device g addr).afterSend hmsg)
  · rw [AviEmbedded.after_send]
  · rw [AviEmbedded.after_send]
    exact List.subset_append_left _ _

/-- A device connects. -/
theorem Inv.connect (h : s.Inv toVec) (g : ι) (addr : Addr) (k : Option ℕ) :
    (s.setDevice g addr (({ s.device g addr with socket := s.arriving g addr k }).after
      (AviEmbedded.connect radio))).Inv toVec := by
  refine h.setDevice ?_ ?_ (AviEmbedded.Grounded.afterConnect ?_ (h.receives addr k))
  · rw [AviEmbedded.after_connect]
  · rw [AviEmbedded.after_connect]
    exact List.subset_append_left _ _
  · have hdev := h.device g addr
    exact ⟨hdev.sent, hdev.connected, hdev.handler, hdev.scratch⟩

/-- A device polls. -/
theorem Inv.poll (h : s.Inv toVec) (g : ι) (addr : Addr) (k : Option ℕ) :
    (s.setDevice g addr (({ s.device g addr with socket := s.arriving g addr k }).after
      (AviEmbedded.poll radio))).Inv toVec := by
  have hsame : ∀ dev : AviEmbedded (Option Bytes),
      (dev.after (AviEmbedded.poll radio)).deviceId = dev.deviceId ∧
      (dev.after (AviEmbedded.poll radio)).sent = dev.sent := by
    intro dev
    rw [AviEmbedded.after_poll]
    split <;> exact ⟨rfl, rfl⟩
  refine h.setDevice (hsame _).1 ?_ (AviEmbedded.Grounded.afterPoll ?_ (h.receives addr k))
  · rw [(hsame _).2]
    exact List.Subset.refl _
  · have hdev := h.device g addr
    exact ⟨hdev.sent, hdev.connected, hdev.handler, hdev.scratch⟩

omit [DecidableEq ι] in
/-- What a gateway reads of a datagram is what the device has sent, and says its id. -/
theorem Inv.said (h : s.Inv toVec) {g : ι} {addr : Addr} {datagram : Bytes} {msg : UplinkMessage}
    (hdatagram : datagram ∈ (s.device g addr).sent)
    (hread : UplinkMessage.fromBytes (Embedded.recvFrom datagram) = some msg) :
    (s.facts g).said addr msg ∧ ∀ i, msg = .hello i → i = (s.facts g).id addr := by
  obtain ⟨msg', rfl, hlength, hid⟩ := (h.device g addr).sent datagram hdatagram
  have hreads := UplinkMessage.reads (UplinkMessage.representable_of_length hlength)
  have hsame : msg = msg' := hreads.front_take UplinkMessage.local_read hread
  rw [hsame]
  exact ⟨hdatagram, hid⟩

/-- The uplink task of a gateway takes a step: a packet, or the rest of one. -/
theorem Inv.uplink (h : s.Inv toVec) {g : ι} {now : UInt64} {addr : Addr} {msg : UplinkMessage}
    (hsaid : (s.facts g).said addr msg ∧ ∀ i, msg = .hello i → i = (s.facts g).id addr)
    {gw : Gateway Peer Addr} (hgw : (s.gw g).step lib toVec (.packet now addr msg) = some gw) :
    (s.setGateway g gw).Inv toVec := by
  simp only [Gateway.step] at hgw
  split at hgw
  · cases hgw
    refine h.setGateway _ (h.bridge g) ?_ fun _ hsome => hsome
    exact Bridge.rest_handleUplinkPacket now (h.bridge g) hsaid.1 hsaid.2
  · cases hgw

/-- The rest of a packet, up to the next command. -/
theorem Inv.resume (h : s.Inv toVec) {g : ι} {gw : Gateway Peer Addr}
    (hgw : (s.gw g).step lib toVec .resume = some gw) : (s.setGateway g gw).Inv toVec := by
  simp only [Gateway.step] at hgw
  split at hgw
  · rename_i p hp
    cases hgw
    have hrest := h.task g
    rw [hp] at hrest
    obtain ⟨hgrounded, htask, hmore⟩ := hrest.resume
    exact h.setGateway _ hgrounded htask hmore
  · cases hgw

/-- The node answers a command of the uplink task, for a packet that a device has sent. -/
theorem Inv.serve (h : s.Inv toVec) {g : ι} {env : Env Peer} {cmd : Command}
    {k : Reply → Bridge.Code Addr} (htask : (s.gw g).task = .waiting cmd k)
    {gw : Gateway Peer Addr} (hgw : (s.gw g).step lib toVec (.serve env) = some gw) :
    ((s.setGateway g gw).observe g ((s.gw g).rt.turn lib env (.command cmd)).2).Inv toVec := by
  simp only [Gateway.step, htask] at hgw
  rcases Option.map_eq_some_iff.mp hgw with ⟨r, -, rfl⟩
  have hrest := h.task g
  rw [htask] at hrest
  have hanswered : Bridge.Rest toVec (s.facts g) (s.gw g).bridge (.ready (k r)) :=
    Or.inr (hrest.2 r)
  apply h.served (l := .command cmd) hanswered _ True.intro
  intro topic data hcmd
  cases hcmd
  obtain ⟨addr, msg, hsaid, hcauses⟩ := hrest.1
  exact Or.inr ⟨g, addr, msg, hsaid, hcauses⟩

/-- The downlink task hands on an event that the node has emitted. -/
theorem Inv.downlink (h : s.Inv toVec) {g : ι} {env : Env Peer} {event : AviEvent}
    (hevent : (s.events g)[s.handled g]? = some event) (htask : (s.gw g).task = .idle) :
    ((s.setGateway g { s.gw g with
      bridge := (s.gw g).bridge.handleDownlinkEvent env.order event }).passOn g).Inv toVec := by
  have hheard : ∀ source topic data, event = .message source topic data →
      (s.facts g).heard topic data := by
    intro source topic data he
    exact ⟨source, he ▸ List.mem_of_getElem? hevent⟩
  have hnext := (List.getElem?_eq_some_iff.mp hevent).1
  refine Inv.passOn ?_ hnext
  refine h.setGateway _ ((h.bridge g).downlink env hheard) ?_ ?_
  · show Bridge.Rest toVec _ _ (s.gw g).task
    rw [htask]
    exact True.intro
  · intro addr hsome
    show ((Bridge.handleDownlinkEvent env.order (s.gw g).bridge event).sessions.get?
      addr).isSome = true
    rw [MeshStreams.sessions_handleDownlinkEvent]
    exact hsome

/-- **The step lemma**: one case for each kind of step. -/
theorem step_inv (s : Deployment ι Peer Addr) (l : Label ι Peer Addr) (t : Deployment ι Peer Addr)
    (hstep : (deployment lib toVec).step s l = some t) (h : s.Inv toVec) : t.Inv toVec := by
  cases l with
  | send g addr msg =>
    -- only `connect` says `Hello`
    cases msg with
    | hello deviceId => cases hstep
    | _ =>
      cases hstep
      exact h.send g addr fun i hi => by cases hi
  | connect g addr k =>
    cases hstep
    exact h.connect g addr k
  | poll g addr k =>
    cases hstep
    exact h.poll g addr k
  | uplink g now addr k =>
    -- a datagram that cannot be read is left alone
    simp only [deployment, step] at hstep
    split at hstep
    · rename_i datagram hdatagram
      split at hstep
      · rename_i msg hread
        rcases Option.map_eq_some_iff.mp hstep with ⟨gw, hgw, rfl⟩
        exact h.uplink (h.said (List.mem_of_getElem? hdatagram) hread) hgw
      · cases hstep
        exact h
    · cases hstep
  | resume g =>
    rcases Option.map_eq_some_iff.mp hstep with ⟨gw, hgw, rfl⟩
    exact h.resume hgw
  | serve g env =>
    simp only [deployment, step] at hstep
    split at hstep
    · rename_i cmd k htask
      rcases Option.map_eq_some_iff.mp hstep with ⟨gw, hgw, rfl⟩
      exact h.serve htask hgw
    · cases hstep
  | turn g env l =>
    -- what the node publishes itself, an application has asked for
    simp only [deployment, step] at hstep
    split_ifs at hstep with hheard
    rcases Option.map_eq_some_iff.mp hstep with ⟨gw, hgw, rfl⟩
    cases hgw
    apply (h.ask (asked l)).served (h.task g) _ hheard
    intro topic data hl
    rw [hl]
    exact Or.inl (List.mem_append_right _ List.mem_cons_self)
  | downlink g env =>
    simp only [deployment, step] at hstep
    split_ifs at hstep
    split at hstep
    · rename_i event hevent htask
      cases hstep
      exact h.downlink hevent htask
    · cases hstep

end Steps

/-! ## From end to end -/

/-- **No message out of thin air**: a device that is connected has a session under its
id, and what its handler was called with is on a topic it has sent a `Subscribe` for,
and was published in these bytes by an application or for a packet of a device. -/
theorem delivered_was_published {lib : External Peer} {toVec : Value → Bytes}
    {s t : Deployment ι Peer Addr} {ls : List (Label ι Peer Addr)}
    (h₀ : (deployment lib toVec).Init s) (hrun : (deployment lib toVec).run s ls = some t)
    (g : ι) (addr : Addr) :
    ((t.device g addr).isConnected = true → ∃ session,
      (t.gw g).bridge.sessions.get? addr = some session ∧
      session.deviceId = (t.device g addr).deviceId) ∧
    ∀ topic data, (topic, data) ∈ (t.device g addr).handler →
      (UplinkMessage.subscribe topic).encode ∈ (t.device g addr).sent ∧
      t.Published toVec topic data := by
  have h : t.Inv toVec := (deployment lib toVec).run_invariant step_inv hrun (init_inv h₀)
  constructor
  · intro hconnected
    rcases Option.isSome_iff_exists.mp ((h.device g addr).connected hconnected) with ⟨session, hget⟩
    exact ⟨session, hget, ((h.bridge g).session addr session hget).1⟩
  · intro topic data hmem
    obtain ⟨hsaid, hheard⟩ := (h.device g addr).handler (topic, data) hmem
    exact ⟨hsaid, h.events g topic data hheard⟩

/-! ## A way from end to end -/

section Delivery

variable (lib : External Peer) (toVec : Value → Bytes) {s : Deployment ι Peer Addr} {g g' : ι}
  {addr : Addr} {topic : String} {data : Bytes}

/-- A message to the device is no longer than the packet that asked to publish it. -/
theorem length_encode_message (topic : String) (data : Bytes) :
    (DownlinkMessage.message topic data).encode.length =
      (UplinkMessage.publish topic data).encode.length := by
  simp only [DownlinkMessage.encode, UplinkMessage.encode, List.length_append]
  exact Nat.add_assoc _ _ _

/-- The first leg: a packet of a device with a session, published. -/
theorem run_publish {session : DeviceSession} (hidle : (s.gw g).task = .idle)
    (hsession : (s.gw g).bridge.sessions.get? addr = some session)
    (hfits : (UplinkMessage.publish topic data).encode.length ≤ maxPacketSize)
    (hscratch : maxPacketSize ≤ (s.device g addr).scratchLen) (now : UInt64) {env : Env Peer}
    (hpublish : env.publish = .ok) : ∃ t, (deployment lib toVec).run s
      [.send g addr (.publish topic data), .uplink g now addr (s.device g addr).sent.length,
        .resume g, .serve g env, .resume g] = some t ∧
      (g, topic, data) ∈ t.gossip ∧
      ∀ g', g' ≠ g → t.gw g' = s.gw g' ∧ t.device g' = s.device g' ∧
        t.events g' = s.events g' ∧ t.handled g' = s.handled g' := by
  have hslice : (UplinkMessage.publish topic data).toSlice (s.device g addr).scratchLen =
      some (UplinkMessage.publish topic data).encode := if_pos (hfits.trans hscratch)
  have hread : UplinkMessage.fromBytes
      (Embedded.recvFrom (UplinkMessage.publish topic data).encode) =
        some (.publish topic data) := by
    rw [Embedded.recvFrom, List.take_of_length_le hfits]
    exact UplinkMessage.fromBytes_encode (lt_of_le_of_lt hfits (by decide))
  simp only [Machine.run, deployment, step, AviEmbedded.after_send, hslice, setDevice,
    Function.update_self, Option.toList_some, List.getElem?_concat_length, hread, Gateway.step,
    hidle, Option.map_some, Option.bind_some, setGateway, Bridge.handleUplinkPacket, hsession]
  -- the mesh publishes it and answers
  have hturn : (s.gw g).rt.turn lib env (.command (.publish topic data)) =
      ((s.gw g).rt, [.published topic data, .reply (.done (.ok ()))]) := by
    simp only [Runtime.turn, Runtime.handleCommand, hpublish]
  -- the gateway goes on with the answer
  simp only [Bridge.callDone, Program.stop, Program.state, hturn, Runtime.replyOf,
    Option.map_some, Option.bind_some, observe, Function.update_self]
  refine ⟨_, rfl, ?_, ?_⟩
  · exact List.mem_append_right _ List.mem_cons_self
  · intro g' hg
    simp [Function.update_of_ne hg, setGateway]

/-- The downlink task handles an event. -/
theorem run_downlink (env : Env Peer) (hidle : (s.gw g).task = .idle)
    (hlate : (s.events g).length - s.handled g ≤ eventCapacity) {event : AviEvent}
    (hevent : (s.events g)[s.handled g]? = some event) :
    (deployment lib toVec).run s [.downlink g env] = some ((s.setGateway g
      ⟨(s.gw g).rt, (s.gw g).bridge.handleDownlinkEvent env.order event, .idle⟩).passOn g) := by
  simp only [Machine.run, deployment, step, if_neg (Nat.not_lt.mpr hlate), hevent, hidle,
    Option.bind_some]

/-- It handles events one after the other. -/
theorem run_downlinks (env : Env Peer) (hidle : (s.gw g).task = .idle)
    (hlate : (s.events g).length - s.handled g ≤ eventCapacity) {n : ℕ}
    (hn : s.handled g + n ≤ (s.events g).length) : ∃ t,
      (deployment lib toVec).run s (List.replicate n (.downlink g env)) = some t ∧
      t.device = s.device ∧ t.events = s.events ∧ t.handled g = s.handled g + n ∧
      (t.gw g).task = .idle ∧ (t.gw g).bridge.sessions = (s.gw g).bridge.sessions := by
  induction n with
  | zero => exact ⟨s, rfl, rfl, rfl, rfl, hidle, rfl⟩
  | succ n ih =>
    rcases ih (by omega) with ⟨u, hu, hdevice, hevents, hhandled, htask, hsessions⟩
    -- the event after those
    have hnext : s.handled g + n < (s.events g).length := by omega
    have hevent : (u.events g)[u.handled g]? = some (s.events g)[s.handled g + n] := by
      rw [hevents, hhandled]
      exact List.getElem?_eq_getElem hnext
    have hroom : (u.events g).length - u.handled g ≤ eventCapacity := by
      rw [hevents, hhandled]
      omega
    rw [List.replicate_succ']
    refine ⟨_, (deployment lib toVec).run_append_eq_some.mpr
      ⟨u, hu, run_downlink lib toVec env htask hroom hevent⟩, hdevice, hevents, ?_, ?_, ?_⟩
    · show Function.update u.handled g (u.handled g + 1) g = _
      rw [Function.update_self, hhandled]
      omega
    · simp only [Deployment.passOn, setGateway, Function.update_self]
    · simp only [Deployment.passOn, setGateway, Function.update_self]
      rw [MeshStreams.sessions_handleDownlinkEvent]
      exact hsessions

/-- The second leg: gossip brings it to another node, whose downlink task gets to it. -/
theorem run_gossip (peer : Peer) (env : Env Peer) (hidle : (s.gw g').task = .idle)
    (hlate : (s.events g').length - s.handled g' < eventCapacity)
    (hhandled : s.handled g' ≤ (s.events g').length)
    (hgossip : (g, topic, data) ∈ s.gossip) (htopic : topic ≠ Runtime.contextTopic)
    (hfits : (DownlinkMessage.message topic data).encode.length ≤ maxPacketSize)
    (hsubscribes : (s.gw g').bridge.Subscribes addr topic) : ∃ t,
      (deployment lib toVec).run s (.turn g' env (.swarm (.gossip peer topic data)) ::
        List.replicate ((s.events g').length - s.handled g' + 1) (.downlink g' env)) = some t ∧
      t.device = s.device ∧
      (DownlinkMessage.message topic data).encode ∈ (t.gw g').bridge.sentTo addr := by
  have hheard : s.Heard (.swarm (.gossip peer topic data)) := ⟨_, hgossip, rfl⟩
  -- the runtime tells it to the application, since the topic is not that of the contexts
  have hturn : (s.gw g').rt.turn lib env (.swarm (.gossip peer topic data)) =
      ((s.gw g').rt, [.event (.message (lib.peerId peer) topic data)]) := by
    simp only [Runtime.turn, Runtime.handleSwarmEvent, if_neg htopic]
  have hheard' : ∃ u, (deployment lib toVec).step s
      (.turn g' env (.swarm (.gossip peer topic data))) = some u ∧
      u.events g' = s.events g' ++ [.message (lib.peerId peer) topic data] ∧
      u.gw g' = s.gw g' ∧ u.handled g' = s.handled g' ∧ u.device = s.device := by
    simp only [deployment, step, if_pos hheard, Gateway.step, hturn, Option.map_some]
    exact ⟨_, rfl, Function.update_self _ _ _, Function.update_self _ _ _, rfl, rfl⟩
  rcases hheard' with ⟨u, hu, hevents, hgw, hsame, hdevice⟩
  have hlength : (u.events g').length = (s.events g').length + 1 := by
    rw [hevents, List.length_append, List.length_singleton]
  -- the events before it
  rcases run_downlinks lib toVec (s := u) (g := g') (n := (s.events g').length - s.handled g') env
    (by rw [hgw]; exact hidle) (by omega) (by omega) with
    ⟨v, hv, hdevice', hevents', hhandled', htask, hsessions⟩
  have hroom : (v.events g').length - v.handled g' ≤ eventCapacity := by
    rw [hevents', hhandled']
    omega
  have hevent : (v.events g')[v.handled g']? =
      some (.message (lib.peerId peer) topic data) := by
    have hlast : v.handled g' = (s.events g').length := by omega
    rw [hevents', hevents, hlast]
    exact List.getElem?_concat_length
  have hstill : (v.gw g').bridge.Subscribes addr topic := by
    obtain ⟨session, hget, hmem⟩ := hsubscribes
    refine ⟨session, ?_, hmem⟩
    rw [hsessions, hgw]
    exact hget
  have hsent := Bridge.sentTo_message env (lib.peerId peer) hstill hfits
  rw [List.replicate_succ']
  refine ⟨_, (deployment lib toVec).run_cons_eq_some.mpr ⟨u, hu,
    (deployment lib toVec).run_append_eq_some.mpr
      ⟨v, hv, run_downlink lib toVec env htask hroom hevent⟩⟩, hdevice'.trans hdevice, ?_⟩
  simp only [Deployment.passOn, setGateway, Function.update_self]
  rw [hsent]
  exact List.mem_append_right _ List.mem_cons_self

/-- The last leg: the device polls. -/
theorem run_poll {k : ℕ}
    (hfits : (DownlinkMessage.message topic data).encode.length ≤ maxPacketSize)
    (hsent : ((s.gw g).bridge.sentTo addr)[k]? =
      some (DownlinkMessage.message topic data).encode) : ∃ t,
      (deployment lib toVec).run s [.poll g addr (some k)] = some t ∧
      (t.device g addr).handler = (s.device g addr).handler ++ [(topic, data)] := by
  have harriving : s.arriving g addr (some k) = some _ := hsent
  have htake : (DownlinkMessage.message topic data).encode.take 1024 = _ :=
    List.take_of_length_le hfits
  have hread : DownlinkMessage.fromBytes (DownlinkMessage.message topic data).encode =
      some (.message topic data) :=
    DownlinkMessage.fromBytes_encode (lt_of_le_of_lt hfits (by decide))
  simp only [Machine.run, deployment, step, harriving, AviEmbedded.after_poll, Option.bind_some,
    htake, hread]
  refine ⟨_, rfl, ?_⟩
  simp only [setDevice, Function.update_self]

end Delivery

/-- The way of a message from a device of `g` to a device of `g'`: what they do, which
datagrams are delivered, and that gossip brings the message from one node to the other. -/
def way (s : Deployment ι Peer Addr) (g : ι) (addr : Addr) (g' : ι) (addr' : Addr)
    (topic : String) (data : Bytes) (now : UInt64) (peer : Peer) (env env' : Env Peer) (k : ℕ) :
    List (Label ι Peer Addr) :=
  [.send g addr (.publish topic data), .uplink g now addr (s.device g addr).sent.length,
    .resume g, .serve g env, .resume g] ++
  ((.turn g' env' (.swarm (.gossip peer topic data)) ::
    List.replicate ((s.events g').length - s.handled g' + 1) (.downlink g' env')) ++
    [.poll g' addr' (some k)])

/-- Two gateways and their devices, all just started. -/
def twoGateways : Deployment Bool String ℕ where
  gw _ := ⟨.new External.plain "node" 0, .start, .idle⟩
  device _ _ := ⟨none, 7, 1024, false, [], []⟩
  events _ := []
  handled _ := 0
  gossip := []
  applications := []

theorem init_twoGateways : (deployment External.plain fun _ => []).Init twoGateways := by
  have hscratch : 1024 < 2 ^ 64 := by decide
  exact ⟨fun _ => ⟨rfl, rfl, rfl, rfl⟩, fun _ _ => ⟨rfl, rfl, rfl, hscratch⟩, rfl⟩

/-- One device connects, the other connects and subscribes. -/
def bothJoin : List (Label Bool String ℕ) :=
  [.connect false 1 none, .uplink false 0 1 0, .resume false, .poll false 1 (some 0),
    .connect true 2 none, .uplink true 0 2 0, .resume true,
    .send true 2 (.subscribe ""), .uplink true 0 2 1, .resume true,
    .serve true (.calm String), .resume true]

/-- A run in which a device joins at each gateway and one of them subscribes. -/
theorem run_bothJoin : ∃ s, (deployment External.plain fun _ => []).run twoGateways bothJoin =
    some s ∧ (s.gw false).task = .idle ∧ (s.gw true).task = .idle ∧
    (s.device false 1).isConnected = true ∧ (s.device false 1).scratchLen = maxPacketSize ∧
    (s.gw true).bridge.Subscribes 2 "" ∧ s.events true = [] := by
  have hrun : ((deployment External.plain fun _ => []).run twoGateways bothJoin).map (fun s =>
      ((s.gw false).task.isIdle && (s.gw true).task.isIdle && (s.device false 1).isConnected &&
        decide ((s.device false 1).scratchLen = maxPacketSize) && (s.events true).isEmpty &&
        ((s.gw true).bridge.sessions.get? 2).any fun session =>
          decide ("" ∈ session.subscriptions))) = some true := by
    decide +kernel
  rcases Option.map_eq_some_iff.mp hrun with ⟨s, hs, hall⟩
  simp only [Bool.and_eq_true, decide_eq_true_eq] at hall
  obtain ⟨⟨⟨⟨⟨hidle, hidle'⟩, hconnected⟩, hscratch⟩, hevents⟩, hsubscribes⟩ := hall
  obtain ⟨session, hget, htopic⟩ := (Option.any_eq_true _ _).mp hsubscribes
  exact ⟨s, hs, Caller.eq_idle hidle, Caller.eq_idle hidle', hconnected, hscratch,
    ⟨session, hget, of_decide_eq_true htopic⟩, List.isEmpty_iff.mp hevents⟩

/-- A message of the one is handed to the other, and was published. -/
theorem delivered_was_published_joined : ∃ s, (deployment External.plain fun _ => []).run
    twoGateways (bothJoin ++ [.send false 1 (.publish "" [1]), .uplink false 0 1 1,
      .resume false, .serve false (.calm String), .resume false,
      .turn true (.calm String) (.swarm (.gossip "node" "" [1])),
      .downlink true (.calm String), .poll true 2 (some 2)]) = some s ∧
    s.Published (fun _ => []) "" [1] := by
  have hrun : ((deployment External.plain fun _ => []).run twoGateways (bothJoin ++
      [.send false 1 (.publish "" [1]), .uplink false 0 1 1,
        .resume false, .serve false (.calm String), .resume false,
        .turn true (.calm String) (.swarm (.gossip "node" "" [1])),
        .downlink true (.calm String), .poll true 2 (some 2)])).map (fun s =>
      decide (("", [1]) ∈ (s.device true 2).handler)) = some true := by
    decide +kernel
  rcases Option.map_eq_some_iff.mp hrun with ⟨s, hs, hmem⟩
  exact ⟨s, hs, (delivered_was_published init_twoGateways hs true 2).2 "" [1]
    (of_decide_eq_true hmem) |>.2⟩

end Deployment

end AviNet
