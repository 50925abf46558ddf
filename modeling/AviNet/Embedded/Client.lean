import AviNet.Wire

/-!
# Embedded.Client — the client on a device

`AviEmbedded` over any socket: each method makes a message of its arguments,
and `send_packet` writes it to the scratch buffer and hands it to the socket.
`connect` and `poll` read one packet each.

* `sendPacket_run`: one packet, if the scratch buffer holds it;
* `connect_sent`: whatever comes back, `connect` sends its `Hello` only;
* `poll_message`: a message of the bridge reaches the handler.
-/

namespace AviNet.Embedded

/-! ## Model layer -/

/-- `UdpClient`: the calls of a socket with states `S` and errors `E`. -/
structure UdpClient (S E : Type) where
  send : Bytes → S → Except E Unit × S
  /-- what is received into a buffer of this size -/
  receive : ℕ → S → Except E Bytes × S
  receive_le : ∀ size s packet, (receive size s).1 = .ok packet → packet.length ≤ size

/-- `AviEmbedded`. The handler is the calls of `on_message` so far. -/
structure AviEmbedded (S : Type) where
  socket : S
  deviceId : UInt64
  scratchLen : ℕ
  isConnected : Bool
  handler : List (String × Bytes)
  /-- what was handed to the socket -/
  sent : List Bytes

/-- An `async` method; an error keeps what was done before it. -/
abbrev Method (S E α : Type) := ExceptT E (StateM (AviEmbedded S)) α

namespace AviEmbedded

variable {S E : Type} (udp : UdpClient S E)

/-- `self.socket.send`. -/
def send (buf : Bytes) : Method S E Unit :=
  ExceptT.mk fun self =>
    let (result, socket) := udp.send buf self.socket
    (result, { self with socket := socket, sent := self.sent ++ [buf] })

/-- `self.socket.receive`. -/
def receive (size : ℕ) : Method S E Bytes :=
  ExceptT.mk fun self =>
    let (result, socket) := udp.receive size self.socket
    (result, { self with socket := socket })

/-- `send_packet`. -/
def sendPacket (msg : UplinkMessage) : Method S E Unit := do
  match msg.toSlice (← get).scratchLen with
  | some usedSlice => send udp usedSlice
  | none => return ()

/-- A `Welcome` in a buffer of 128 bytes. -/
def receiveWelcome : Method S E Bool := do
  let packet ← receive udp 128
  return DownlinkMessage.fromBytes packet = some .welcome

/-- The second half of `connect`. An error of the socket is no `Welcome`. -/
def awaitWelcome : Method S E Unit := do
  let welcome ← tryCatch (receiveWelcome udp) fun _ => pure false
  modify fun self => { self with isConnected := welcome }

def connect : Method S E Unit := do
  sendPacket udp (.hello (← get).deviceId)
  awaitWelcome udp

def subscribe (topic : String) : Method S E Unit := sendPacket udp (.subscribe topic)

def unsubscribe (topic : String) : Method S E Unit := sendPacket udp (.unsubscribe topic)

def publish (topic : String) (data : Bytes) : Method S E Unit :=
  sendPacket udp (.publish topic data)

def startStream (id : UInt8) (targetPeer reason : String) : Method S E Unit :=
  sendPacket udp (.streamStart id targetPeer reason)

def sendAudio (id : UInt8) (pcmData : Bytes) : Method S E Unit :=
  sendPacket udp (.streamData id pcmData)

def closeStream (id : UInt8) : Method S E Unit := sendPacket udp (.streamClose id)

def buttonPressed (buttonId : UInt8) (pressType : PressType) (customData : String) :
    Method S E Unit :=
  sendPacket udp (.buttonPress buttonId pressType customData)

def updateSensor (name : String) (data : SensorValue) (customData : String) : Method S E Unit :=
  sendPacket udp (.sensorUpdate name data customData)

def poll : Method S E Unit := do
  let packet ← receive udp 1024
  match DownlinkMessage.fromBytes packet with
  | some (.message topic data) =>
    modify fun self => { self with handler := self.handler ++ [(topic, data)] }
  | some .welcome => modify fun self => { self with isConnected := true }
  -- acknowledgements, errors and what is no message
  | _ => return ()

/-- The client after a method. -/
def after (self : AviEmbedded S) (m : Method S E Unit) : AviEmbedded S := (m.run.run self).2

/-! ## What is sent -/

variable {udp} {self : AviEmbedded S} {α β : Type}

/-- A method runs its first part, then the second on the client it left behind. -/
theorem run_bind (m : Method S E α) (f : α → Method S E β) :
    (m >>= f).run.run self = match m.run.run self with
      | (.ok a, self') => (f a).run.run self'
      | (.error e, self') => (.error e, self') := by
  rw [ExceptT.run_bind, StateT.run_bind]
  obtain ⟨_ | a, self'⟩ := m.run.run self
  · rfl
  · rfl

/-- A method that hands nothing to the socket, whether it fails or not. -/
def Quiet (m : Method S E α) : Prop :=
  ∀ self, (m.run.run self).2.sent = self.sent

theorem quiet_pure (a : α) : Quiet (pure a : Method S E α) := fun _ => rfl

theorem quiet_receive (size : ℕ) : Quiet (receive udp size) := fun _ => rfl

theorem quiet_modify {f : AviEmbedded S → AviEmbedded S} (hf : ∀ self, (f self).sent = self.sent) :
    Quiet (modify f : Method S E Unit) := hf

/-- What follows quietly sends nothing more. -/
theorem sent_bind {m : Method S E α} {f : α → Method S E β} (hf : ∀ a, Quiet (f a)) :
    ((m >>= f).run.run self).2.sent = (m.run.run self).2.sent := by
  rw [run_bind]
  obtain ⟨e | a, self'⟩ := m.run.run self
  · rfl
  · exact hf a self'

theorem Quiet.bind {m : Method S E α} {f : α → Method S E β} (hm : Quiet m)
    (hf : ∀ a, Quiet (f a)) : Quiet (m >>= f) := by
  intro self
  rw [sent_bind hf]
  exact hm self

theorem Quiet.catch {m : Method S E α} {f : E → Method S E α} (hm : Quiet m)
    (hf : ∀ e, Quiet (f e)) : Quiet (tryCatch m f) := by
  intro self
  have h := hm self
  have hrun : (tryCatch m f).run.run self = match m.run.run self with
      | (.ok a, self') => (.ok a, self')
      | (.error e, self') => (f e).run.run self' := by
    rw [ExceptT.run_tryCatch, StateT.run_bind]
    obtain ⟨_ | a, self'⟩ := m.run.run self
    · rfl
    · rfl
  rw [hrun]
  generalize m.run.run self = r at h
  obtain ⟨e | a, self'⟩ := r
  · exact (hf e self').trans h
  · exact h

/-- One packet, if the scratch buffer holds it. -/
theorem sendPacket_run (msg : UplinkMessage) : (sendPacket udp msg).run.run self =
    ((msg.toSlice self.scratchLen).elim (pure ()) fun usedSlice =>
      send udp usedSlice).run.run self := by
  show (match msg.toSlice self.scratchLen with
    | some usedSlice => send udp usedSlice
    | none => pure ()).run.run self = _
  cases msg.toSlice self.scratchLen <;> rfl

variable (udp) in
/-- A message that fits into the scratch buffer is sent. -/
theorem sendPacket_sent {msg : UplinkMessage} (h : msg.encode.length ≤ self.scratchLen) :
    (self.after (sendPacket udp msg)).sent = self.sent ++ [msg.encode] := by
  have hslice : msg.toSlice self.scratchLen = some msg.encode := if_pos h
  rw [after, sendPacket_run, hslice]
  rfl

/-- Waiting for the `Welcome` sends nothing. -/
theorem quiet_awaitWelcome : Quiet (awaitWelcome udp) := by
  apply Quiet.bind
  · apply Quiet.catch
    · exact (quiet_receive 128).bind fun _ => quiet_pure _
    · exact fun _ => quiet_pure false
  · exact fun welcome => quiet_modify fun _ => rfl

/-- `connect` sends its `Hello` and nothing else, whatever comes back. -/
theorem connect_sent (h : (UplinkMessage.hello self.deviceId).encode.length ≤ self.scratchLen) :
    (self.after (connect udp)).sent =
      self.sent ++ [(UplinkMessage.hello self.deviceId).encode] := by
  have hconnect : (connect udp).run.run self =
      (sendPacket udp (.hello self.deviceId) >>= fun _ => awaitWelcome udp).run.run self := rfl
  rw [after, hconnect, sent_bind fun _ => quiet_awaitWelcome]
  exact sendPacket_sent udp h

/-! ## What is received -/

/-- A message that the bridge has sent reaches the handler. -/
theorem poll_message {topic : String} {data packet : Bytes}
    (hpacket : (DownlinkMessage.message topic data).toSlice maxPacketSize = some packet)
    (hreceive : (udp.receive 1024 self.socket).1 = .ok packet) :
    (self.after (poll udp)).handler = self.handler ++ [(topic, data)] := by
  have hread := DownlinkMessage.fromBytes_toSlice hpacket
  have hrun : (receive udp 1024).run.run self =
      (.ok packet, { self with socket := (udp.receive 1024 self.socket).2 }) := by
    rw [← hreceive]
    rfl
  rw [after, poll, run_bind, hrun]
  show ((match DownlinkMessage.fromBytes packet with
    | some (.message topic data) =>
      modify fun self => { self with handler := self.handler ++ [(topic, data)] }
    | some .welcome => modify fun self => { self with isConnected := true }
    | _ => pure () : Method S E Unit).run.run _).2.handler = _
  rw [hread]
  rfl

end AviEmbedded

end AviNet.Embedded
