import AviNet.Embedded.Client
import AviNet.Lib.Machine

/-!
# Embedded.Deliveries — what a client does with the datagrams it receives

`poll` and `connect` read the same socket. `poll` hands a message to the
handler; `connect` looks for a `Welcome` and drops what else it receives.

* `messages_kept_iff`: no message is lost, and no `Welcome` is forgotten, as long as no
  `connect` receives a message;
* `message_dropped`: a `connect` that receives one.
-/

namespace AviNet.Embedded

variable {S E : Type}

/-- The socket together with the datagrams it has handed over. -/
def UdpClient.recorded (udp : UdpClient S E) : UdpClient (S × List Bytes) E where
  send buf s := ((udp.send buf s.1).1, (udp.send buf s.1).2, s.2)
  receive size s :=
    ((udp.receive size s.1).1, (udp.receive size s.1).2,
      s.2 ++ (udp.receive size s.1).1.toOption.toList)
  receive_le size s packet h := udp.receive_le size s.1 packet h

namespace AviEmbedded

/-! ## Model layer -/

/-- The calls of a client. -/
inductive Call where
  | connect
  | poll
  | subscribe (topic : String)
  | unsubscribe (topic : String)
  | publish (topic : String) (data : Bytes)
  | startStream (id : UInt8) (targetPeer reason : String)
  | sendAudio (id : UInt8) (pcmData : Bytes)
  | closeStream (id : UInt8)
  | buttonPressed (buttonId : UInt8) (pressType : PressType) (customData : String)
  | updateSensor (name : String) (data : SensorValue) (customData : String)
  deriving DecidableEq

/-- The method that is called. -/
def Call.method (udp : UdpClient S E) : Call → Method S E Unit
  | .connect => AviEmbedded.connect udp
  | .poll => AviEmbedded.poll udp
  | .subscribe topic => AviEmbedded.subscribe udp topic
  | .unsubscribe topic => AviEmbedded.unsubscribe udp topic
  | .publish topic data => AviEmbedded.publish udp topic data
  | .startStream id target reason => AviEmbedded.startStream udp id target reason
  | .sendAudio id data => AviEmbedded.sendAudio udp id data
  | .closeStream id => AviEmbedded.closeStream udp id
  | .buttonPressed id press data => AviEmbedded.buttonPressed udp id press data
  | .updateSensor name data custom => AviEmbedded.updateSensor udp name data custom

/-- A client, and how many datagrams it had received when it last called `connect`. -/
structure Session (S : Type) where
  client : AviEmbedded (S × List Bytes)
  mark : ℕ

/-- The datagrams received so far. -/
def Session.received (s : Session S) : List Bytes := s.client.socket.2

/-- The machine of one client on a socket. -/
def clients (udp : UdpClient S E) : Machine (Session S) Call where
  Init s := ∃ socket deviceId scratchLen,
    s = ⟨⟨(socket, []), deviceId, scratchLen, false, [], []⟩, 0⟩
  step s call := some {
    client := s.client.after (call.method udp.recorded)
    mark := if call = .connect then s.received.length else s.mark }

/-- The call of the handler that a datagram asks for. -/
def messageOf (packet : Bytes) : Option (String × Bytes) :=
  match DownlinkMessage.fromBytes packet with
  | some (.message topic data) => some (topic, data)
  | _ => none

/-- The datagram is a `Welcome`. -/
def Welcomes (packet : Bytes) : Prop := DownlinkMessage.fromBytes packet = some .welcome

/-- The handler has seen the messages received, in order and once each, and the
client is connected if it has been welcomed since it last called `connect`. -/
def Session.Kept (s : Session S) : Prop :=
  s.client.handler = s.received.filterMap messageOf ∧
    ((∃ packet ∈ s.received.drop s.mark, Welcomes packet) → s.client.isConnected = true)

/-- The datagram that `connect` receives once its `Hello` is sent. -/
def handed (udp : UdpClient S E) (self : AviEmbedded S) : Option Bytes :=
  match (sendPacket udp (.hello self.deviceId)).run.run self with
  | (.ok _, self') => (udp.receive 128 self'.socket).1.toOption
  | (.error _, _) => none

/-- What a `connect` receives is no message. -/
def TakesNoMessage (udp : UdpClient S E) (s : Session S) : Call → Prop
  | .connect => ∀ packet ∈ handed udp.recorded s.client, messageOf packet = none
  | _ => True

/-! ## Effects -/

variable {udp : UdpClient S E} {self : AviEmbedded (S × List Bytes)}

/-- Nothing was received. -/
structure Unmoved (old new : AviEmbedded (S × List Bytes)) : Prop where
  received : new.socket.2 = old.socket.2
  handler : new.handler = old.handler
  isConnected : new.isConnected = old.isConnected

/-- Sending reads nothing from the socket and calls no handler. -/
theorem sendPacket_unmoved (msg : UplinkMessage) :
    Unmoved self ((sendPacket udp.recorded msg).run.run self).2 := by
  rw [sendPacket_run]
  cases msg.toSlice self.scratchLen with
  | none => exact ⟨rfl, rfl, rfl⟩
  | some usedSlice => exact ⟨rfl, rfl, rfl⟩

/-- Receiving takes what the socket gives and records it. -/
theorem receive_run (size : ℕ) :
    (receive udp.recorded size).run.run self =
      ((udp.receive size self.socket.1).1, { self with
        socket := ((udp.receive size self.socket.1).2,
          self.socket.2 ++ (udp.receive size self.socket.1).1.toOption.toList) }) := rfl

variable (udp self) in
/-- `poll` receives nothing, or handles the datagram. -/
theorem poll_takes : Unmoved self (self.after (poll udp.recorded)) ∨
    ∃ packet, (self.after (poll udp.recorded)).socket.2 = self.socket.2 ++ [packet] ∧
      (self.after (poll udp.recorded)).handler = self.handler ++ (messageOf packet).toList ∧
      ((self.after (poll udp.recorded)).isConnected = true ↔
        self.isConnected = true ∨ Welcomes packet) := by
  unfold after poll
  rw [run_bind, receive_run]
  cases udp.receive 1024 self.socket.1 with
  | mk result socket =>
  cases result with
  | error e =>
    -- nothing was received
    left
    exact ⟨List.append_nil _, rfl, rfl⟩
  | ok packet =>
    -- a datagram: is it a message?
    right
    refine ⟨packet, ?_⟩
    dsimp only [Except.toOption, Option.toList]
    unfold messageOf Welcomes
    cases DownlinkMessage.fromBytes packet with
    | none =>
      refine ⟨rfl, (List.append_nil _).symm, ?_⟩
      exact (or_iff_left (fun h => by cases h)).symm
    | some msg =>
      cases msg with
      | message topic data => exact ⟨rfl, rfl, (or_iff_left (fun h => by cases h)).symm⟩
      | welcome => exact ⟨rfl, (List.append_nil _).symm, iff_of_true rfl (Or.inr rfl)⟩
      | _ =>
        refine ⟨rfl, (List.append_nil _).symm, ?_⟩
        exact (or_iff_left (fun h => by cases h)).symm

/-- Waiting for the `Welcome` takes one datagram, whatever it is. -/
theorem awaitWelcome_run : (awaitWelcome udp.recorded).run.run self = (.ok (), { self with
    socket := ((udp.receive 128 self.socket.1).2,
      self.socket.2 ++ (udp.receive 128 self.socket.1).1.toOption.toList)
    isConnected := (udp.receive 128 self.socket.1).1.toOption.any fun packet =>
      DownlinkMessage.fromBytes packet = some .welcome }) := by
  have hwelcome : (tryCatch (receiveWelcome udp.recorded) fun _ => pure false :
      Method (S × List Bytes) E Bool).run.run self =
        (.ok ((udp.receive 128 self.socket.1).1.toOption.any fun packet =>
            DownlinkMessage.fromBytes packet = some .welcome), { self with
          socket := ((udp.receive 128 self.socket.1).2,
            self.socket.2 ++ (udp.receive 128 self.socket.1).1.toOption.toList) }) := by
    rw [ExceptT.run_tryCatch, StateT.run_bind]
    unfold receiveWelcome
    rw [run_bind, receive_run]
    cases udp.receive 128 self.socket.1 with
    | mk result socket =>
      cases result with
      | error e => rfl
      | ok packet => rfl
  unfold awaitWelcome
  rw [run_bind, hwelcome]
  rfl

variable (udp self) in
/-- `connect` receives nothing, or drops the datagram unless it is a `Welcome`. -/
theorem connect_takes :
    (handed udp.recorded self = none ∧
      (self.after (connect udp.recorded)).socket.2 = self.socket.2 ∧
      (self.after (connect udp.recorded)).handler = self.handler) ∨
    ∃ packet, handed udp.recorded self = some packet ∧
      (self.after (connect udp.recorded)).socket.2 = self.socket.2 ++ [packet] ∧
      (self.after (connect udp.recorded)).handler = self.handler ∧
      (Welcomes packet → (self.after (connect udp.recorded)).isConnected = true) := by
  have hconnect : (connect udp.recorded).run.run self =
      (sendPacket udp.recorded (.hello self.deviceId) >>= fun _ =>
        awaitWelcome udp.recorded).run.run self := rfl
  have hsent : Unmoved self
      ((sendPacket udp.recorded (.hello self.deviceId)).run.run self).2 :=
    sendPacket_unmoved (.hello self.deviceId)
  unfold after handed
  rw [hconnect, run_bind]
  cases hsend : (sendPacket udp.recorded (.hello self.deviceId)).run.run self with
  | mk result self' =>
  rw [hsend] at hsent
  cases result with
  | error e =>
    -- the `Hello` could not be sent
    left
    exact ⟨rfl, hsent.received, hsent.handler⟩
  | ok u =>
    -- one datagram is awaited
    dsimp only
    rw [awaitWelcome_run]
    cases hreceive : udp.receive 128 self'.socket.1 with
    | mk result socket =>
    have hresult : (udp.recorded.receive 128 self'.socket).1 = result := by
      show (udp.receive 128 self'.socket.1).1 = result
      rw [hreceive]
    rw [hresult]
    cases result with
    | error e =>
      left
      refine ⟨rfl, ?_, hsent.handler⟩
      exact (List.append_nil _).trans hsent.received
    | ok packet =>
      -- whatever it is, no handler sees it
      right
      refine ⟨packet, rfl, ?_, hsent.handler, ?_⟩
      · exact congrArg (fun log => log ++ [packet]) hsent.received
      · intro hwelcome
        exact decide_eq_true hwelcome

/-! ## Runs -/

/-- One more datagram adds the message it may hold. -/
theorem messages_append (received : List Bytes) (packet : Bytes) :
    (received ++ [packet]).filterMap messageOf =
      received.filterMap messageOf ++ (messageOf packet).toList := by
  rw [List.filterMap_append]
  cases h : messageOf packet with
  | none => rw [List.filterMap_cons_none h]; rfl
  | some call => rw [List.filterMap_cons_some h]; rfl

/-- Since the last `connect` at most what was received so far has been received. -/
def Session.Marked (s : Session S) : Prop := s.mark ≤ s.received.length

/-- A call that leaves socket and handler alone keeps every message. -/
theorem Session.Kept.of_unmoved {s : Session S} (h : s.Kept) {client : AviEmbedded (S × List Bytes)}
    (hunmoved : Unmoved s.client client) : Session.Kept ⟨client, s.mark⟩ := by
  unfold Session.Kept Session.received
  rw [hunmoved.received, hunmoved.handler, hunmoved.isConnected]
  exact h

/-- Handling one more datagram keeps everything. -/
theorem Session.Kept.of_handled {s : Session S} (h : s.Kept) (hmark : s.Marked) {packet : Bytes}
    {client : AviEmbedded (S × List Bytes)} (hreceived : client.socket.2 = s.received ++ [packet])
    (hhandler : client.handler = s.client.handler ++ (messageOf packet).toList)
    (hconnected : client.isConnected = true ↔ s.client.isConnected = true ∨ Welcomes packet) :
    Session.Kept ⟨client, s.mark⟩ := by
  unfold Session.Kept Session.received
  dsimp only
  rw [hreceived, hhandler, h.1, hconnected, messages_append,
    List.drop_append_of_le_length hmark]
  refine ⟨rfl, ?_⟩
  rintro ⟨p, hp, hwelcome⟩
  rcases List.mem_append.mp hp with hp | hp
  · exact Or.inl (h.2 ⟨p, hp, hwelcome⟩)
  · rw [List.mem_singleton.mp hp] at hwelcome
    exact Or.inr hwelcome

/-- A `connect` keeps everything exactly if it receives no message. -/
theorem connect_kept_iff {s : Session S} (h : s.Kept) :
    Session.Kept ⟨s.client.after (connect udp.recorded), s.received.length⟩ ↔
      TakesNoMessage udp s .connect := by
  unfold Session.Kept TakesNoMessage Session.received
  dsimp only
  rcases connect_takes udp s.client with
    ⟨hhanded, hreceived, hhandler⟩ | ⟨packet, hhanded, hreceived, hhandler, hwelcome⟩
  · -- nothing was received
    rw [hhanded, hreceived, hhandler, List.drop_length]
    refine iff_of_true ⟨h.1, ?_⟩ ?_
    · rintro ⟨p, hp, -⟩
      cases hp
    · intro p hp
      cases hp
  · rw [hhanded, hreceived, hhandler, List.drop_left, messages_append]
    constructor
    · rintro ⟨hall, -⟩ p hp
      cases hp
      -- the handler has not grown
      have hlength := congrArg List.length (h.1.symm.trans hall)
      rw [List.length_append] at hlength
      have hnil : (messageOf packet).toList.length = 0 := by
        unfold Session.received at hlength
        omega
      exact Option.toList_eq_nil_iff.mp (List.length_eq_zero_iff.mp hnil)
    · intro hnone
      rw [hnone packet rfl]
      refine ⟨h.1.trans (List.append_nil _).symm, ?_⟩
      rintro ⟨p, hp, hp'⟩
      rw [List.mem_singleton.mp hp] at hp'
      exact hwelcome hp'

/-- A call keeps every message exactly if it does not take one that it hands to nobody. -/
theorem step_kept_iff (s : Session S) (call : Call) (t : Session S)
    (hstep : (clients udp).step s call = some t) (hmark : s.Marked) (h : s.Kept) :
    t.Kept ↔ TakesNoMessage udp s call := by
  cases hstep
  cases call with
  | connect => exact connect_kept_iff h
  | poll =>
    refine iff_of_true ?_ True.intro
    rcases poll_takes udp s.client with
      hunmoved | ⟨packet, hreceived, hhandler, hconnected⟩
    · exact h.of_unmoved hunmoved
    · exact h.of_handled hmark hreceived hhandler hconnected
  | _ => exact iff_of_true (h.of_unmoved (sendPacket_unmoved _)) True.intro

/-- Every call keeps the mark. -/
theorem step_marked (s : Session S) (call : Call) (t : Session S)
    (hstep : (clients udp).step s call = some t) (hmark : s.Marked) : t.Marked := by
  cases hstep
  unfold Session.Marked Session.received at *
  cases call with
  | connect =>
    -- `connect` sets the mark to what has been received
    dsimp only [Call.method]
    rw [if_pos rfl]
    rcases connect_takes udp s.client with
      ⟨-, hreceived, -⟩ | ⟨packet, -, hreceived, -⟩
    · rw [hreceived]
    · rw [hreceived, List.length_append]
      omega
  | poll =>
    -- `poll` leaves it, and receives one datagram at most
    dsimp only [Call.method]
    rw [if_neg (by decide)]
    rcases poll_takes udp s.client with hunmoved | ⟨packet, hreceived, -⟩
    · rw [hunmoved.received]
      exact hmark
    · rw [hreceived, List.length_append]
      omega
  | _ =>
    -- the other calls only send
    have hunmoved : ∀ msg, Unmoved s.client (s.client.after (sendPacket udp.recorded msg)) :=
      fun msg => sendPacket_unmoved msg
    show _ ≤ (s.client.after (sendPacket udp.recorded _)).socket.2.length
    rw [(hunmoved _).received, if_neg (by simp)]
    exact hmark

/-- Before the first call nothing has arrived. -/
theorem init_kept {s : Session S} (h₀ : (clients udp).Init s) : s.Marked ∧ s.Kept := by
  obtain ⟨socket, deviceId, scratchLen, rfl⟩ := h₀
  refine ⟨Nat.zero_le _, rfl, ?_⟩
  rintro ⟨packet, hp, -⟩
  cases hp

/-- **No message is lost and no `Welcome` forgotten**, in every run of calls on any
socket, exactly as long as no `connect` receives a message: each message received
is one call of the handler, in order, and a client that has been welcomed stays
connected until the next `connect`. -/
theorem messages_kept_iff (udp : UdpClient S E) (s t : Session S) (h₀ : (clients udp).Init s)
    (calls : List Call) (hrun : (clients udp).run s calls = some t) :
    (clients udp).AllStates Session.Kept s calls ↔
      (clients udp).AllSteps (TakesNoMessage udp) s calls := by
  obtain ⟨hmark, hkept⟩ := init_kept h₀
  exact (clients udp).allStates_iff_of_invariant step_marked step_kept_iff hrun hmark hkept

/-! ## A message that meets a `connect` -/

/-- A socket that hands over the datagrams in its state, one at a time. -/
def inbox : UdpClient (List Bytes) Unit where
  send _ s := (.ok (), s)
  receive size s :=
    match s with
    | packet :: rest => (.ok (packet.take size), rest)
    | [] => (.error (), [])
  receive_le size s packet h := by
    cases s with
    | nil => cases h
    | cons p rest =>
      cases h
      exact List.length_take_le size p

/-- A client with these datagrams before it. -/
def before (datagrams : List Bytes) : Session (List Bytes) :=
  ⟨⟨(datagrams, []), 7, 1024, false, [], []⟩, 0⟩

/-- A message of the bridge. -/
def news : Bytes := (DownlinkMessage.message "t" [1]).encode

/-- The datagram of the example holds a message. -/
theorem messageOf_news : messageOf news = some ("t", [1]) := by
  have hsent : (DownlinkMessage.message "t" [1]).toSlice maxPacketSize = some news :=
    if_pos (by decide +kernel)
  have hread := DownlinkMessage.fromBytes_toSlice hsent
  unfold messageOf
  rw [hread]

theorem messages_kept_iff_poll : (clients inbox).AllStates Session.Kept (before [news]) [.poll] ↔
    (clients inbox).AllSteps (TakesNoMessage inbox) (before [news]) [.poll] :=
  messages_kept_iff inbox (before [news]) _ ⟨[news], 7, 1024, rfl⟩ [.poll] rfl

/-- A message that arrives before the `Welcome` is lost. -/
theorem message_dropped : ¬ ∀ (udp : UdpClient (List Bytes) Unit) (s t : Session (List Bytes))
    calls, (clients udp).Init s → (clients udp).run s calls = some t →
      (clients udp).AllStates Session.Kept s calls := by
  intro h
  have hinit : (clients inbox).Init (before [news]) := ⟨[news], 7, 1024, rfl⟩
  have hall := h inbox (before [news]) _ [.connect] hinit rfl
  have hkept := Machine.AllStates.head _ (hall.2 _ rfl)
  have hnone := (connect_kept_iff (init_kept hinit).2).mp hkept news (by decide +kernel)
  rw [messageOf_news] at hnone
  cases hnone

end AviEmbedded

end AviNet.Embedded
