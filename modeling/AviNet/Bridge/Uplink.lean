import AviNet.ContextApi
import AviNet.Lib.Program
import AviNet.Protocol

/-!
# Bridge.Uplink — `handle_uplink_packet`

The table of device sessions and what one packet does to it. The handler holds
the lock of the table from its first to its last line, and between two of its
lines it may wait for the runtime: it is a `Program` over the bridge's state
whose calls are commands.
-/

namespace AviNet

instance linearOrderUInt8 : LinearOrder UInt8 where
  le_refl := UInt8.le_refl
  le_trans _ _ _ := UInt8.le_trans
  le_antisymm _ _ := UInt8.le_antisymm
  le_total := UInt8.le_total
  lt_iff_le_not_ge a b := by
    rw [UInt8.lt_iff_toNat_lt, UInt8.le_iff_toNat_le, UInt8.le_iff_toNat_le]
    omega
  toDecidableLE := inferInstance
  toDecidableEq := inferInstance
  toDecidableLT := inferInstance

/-- `DeviceSession`. -/
structure DeviceSession where
  deviceId : UInt64
  activeStreams : SortedMap UInt8 StreamId
  subscriptions : Finset String

/-- The sessions, by socket address, and the datagrams sent so far. -/
structure Bridge (Addr : Type) [LinearOrder Addr] where
  sessions : SortedMap Addr DeviceSession
  sent : List (Addr × Bytes)

namespace Bridge

variable {Addr : Type} [LinearOrder Addr]

/-- `EmbeddedBridge::start`: no session yet. -/
def start : Bridge Addr := ⟨.empty, []⟩

/-- Store a session. -/
def setSession (self : Bridge Addr) (addr : Addr) (session : DeviceSession) : Bridge Addr :=
  { self with sessions := self.sessions.insert addr session }

/-- Encode into a buffer of `size` bytes and send; nothing is sent if it does not fit. -/
def sendTo (self : Bridge Addr) (addr : Addr) (size : ℕ) (msg : DownlinkMessage) : Bridge Addr :=
  match msg.toSlice size with
  | some data => { self with sent := self.sent ++ [(addr, data)] }
  | none => self

/-! ## Calls of the handle -/

/-- The code of a task of the bridge. -/
abbrev Code (Addr : Type) [LinearOrder Addr] := Program (Bridge Addr) Command Reply

/-- A command that is answered by `Ok(())` or an error. -/
def callDone (self : Bridge Addr) (cmd : Command) (k : Except AviP2pError Unit → Code Addr) :
    Code Addr :=
  .call self cmd fun
    | .done res => k res
    | _ => k (.error .channelClosed)

/-- `handle.request_stream`. -/
def requestStream (self : Bridge Addr) (peerId : PeerId) (reason : String)
    (k : Except AviP2pError StreamId → Code Addr) : Code Addr :=
  .call self (.requestStream peerId reason) fun
    | .stream res => k res
    | _ => k (.error .channelClosed)

/-- `handle.get_ctx("")`. -/
def getRoot (self : Bridge Addr) (k : Except AviP2pError Value → Code Addr) : Code Addr :=
  .call self (.getPeerContext none) fun
    | .value res => k res
    | _ => k (.error .channelClosed)

/-! ## Payloads -/

/-- `json!` of an unsigned number. -/
def jsonNat (n : UInt64) : Value := .number (.posInt n)

/-- `json!` of an `f32`: what is not finite becomes `null`. -/
def jsonF32 (x : F32) : Value :=
  match x.toRat? with
  | some q => .number (.float q)
  | none => .null

/-- `json!` of an `i32`. -/
def jsonI32 (n : Int32) : Value :=
  if n < 0 then .number (.negInt n.toInt64) else .number (.posInt n.toInt64.toUInt64)

/-- The `Debug` text of a `PressType`. -/
def pressName : PressType → String
  | .single => "Single"
  | .double => "Double"
  | .long => "Long"

/-- The payload published for a `ButtonPress`. -/
def buttonPayload (buttonId : UInt8) (pressType : PressType) (customData : String)
    (now : UInt64) : Value :=
  .object [("button_id", jsonNat buttonId.toUInt64), ("type", .string (pressName pressType)),
    ("data", .string customData), ("ts", jsonNat now)]

/-- The value of a sensor. -/
def sensorJson : SensorValue → Value
  | .temperature v => jsonF32 v
  | .humidity v => jsonF32 v
  | .battery v => jsonNat v.toUInt64
  | .status v => .bool v
  | .raw v => jsonI32 v

/-- The unit of a sensor. -/
def sensorUnit : SensorValue → String
  | .temperature _ => "C"
  | .humidity _ => "%"
  | _ => ""

/-- The payload published for a `SensorUpdate`, which also goes into the context. -/
def sensorPayload (sensorName : String) (data : SensorValue) (customData : String)
    (now : UInt64) : Value :=
  .object [("name", .string sensorName),
    ("data", .object [("value", sensorJson data), ("unit", .string (sensorUnit data)),
      ("custom", .string customData)]),
    ("ts", jsonNat now)]

/-! ## The handler -/

/-- `handle_uplink_packet`; `now` is the system time in seconds, `toVec` is
`serde_json::to_vec` on documents, which never fails. -/
def handleUplinkPacket (toVec : Value → Bytes) (now : UInt64) (addr : Addr)
    (self : Bridge Addr) : UplinkMessage → Code Addr
  | .hello deviceId =>
    let self := self.setSession addr ⟨deviceId, .empty, ∅⟩
    .done (self.sendTo addr 64 .welcome)
  | .subscribe topic =>
    match self.sessions.get? addr with
    | some session =>
      self.callDone (.subscribe topic) fun
        | .ok () =>
          let session := { session with subscriptions := insert topic session.subscriptions }
          .done ((self.setSession addr session).sendTo addr 256 (.subscribeAck topic))
        | .error _ => .done self
    | none => .done self
  | .unsubscribe topic =>
    match self.sessions.get? addr with
    | some session =>
      let session := { session with subscriptions := session.subscriptions.erase topic }
      let self := self.setSession addr session
      -- the mesh subscription goes whoever else uses it, and whatever the outcome
      self.callDone (.unsubscribe topic) fun _ =>
        .done (self.sendTo addr 256 (.unsubscribeAck topic))
    | none => .done self
  | .publish topic data =>
    match self.sessions.get? addr with
    | some _ => self.callDone (.publish topic data) fun _ => .done self
    | none => .done self
  | .streamStart localStreamId targetPeerId reason =>
    match self.sessions.get? addr with
    | some session =>
      if targetPeerId.isEmpty then .done self
      else
        self.requestStream ⟨targetPeerId⟩ reason fun
          | .ok meshStreamId =>
            .done (self.setSession addr { session with
              activeStreams := session.activeStreams.insert localStreamId meshStreamId })
          | .error _ => .done self
    | none => .done self
  | .streamData localStreamId data =>
    match self.sessions.get? addr with
    | some session =>
      match session.activeStreams.get? localStreamId with
      | some meshId => self.callDone (.sendStreamData meshId data) fun _ => .done self
      | none => .done self
    | none => .done self
  | .streamClose localStreamId =>
    match self.sessions.get? addr with
    | some session =>
      match session.activeStreams.get? localStreamId with
      | some meshId =>
        let self := self.setSession addr { session with
          activeStreams := session.activeStreams.erase localStreamId }
        self.callDone (.closeStream meshId) fun _ => .done self
      | none => .done self
    | none => .done self
  | .buttonPress buttonId pressType customData =>
    match self.sessions.get? addr with
    | some session =>
      let topic := "device/" ++ toString session.deviceId.toNat ++ "/button"
      let payload := buttonPayload buttonId pressType customData now
      self.callDone (.publish topic (toVec payload)) fun _ => .done self
    | none => .done self
  | .sensorUpdate sensorName data customData =>
    match self.sessions.get? addr with
    | some session =>
      let devId := session.deviceId.toNat
      let topic := "device/" ++ toString devId ++ "/sensor/" ++ sensorName
      let payload := sensorPayload sensorName data customData now
      self.callDone (.publish topic (toVec payload)) fun _ =>
        self.getRoot fun
          | .ok currentCtx =>
            match (PathOp.sensorUpdate devId sensorName payload).editCopy currentCtx with
            | (currentCtx, .ok ()) =>
              self.callDone (.updateSelfContext currentCtx) fun _ => .done self
            | (_, .error _) => .done self
          | .error _ => .done self
    | none => .done self

/-! ## Cases of the handler -/

/-- The packet that starts a session. -/
def IsHello : UplinkMessage → Prop
  | .hello _ => True
  | _ => False

/-- An address without a session gets nothing done but a `Hello`. -/
theorem handleUplinkPacket_stranger (toVec : Value → Bytes) (now : UInt64) {addr : Addr}
    {b : Bridge Addr} {msg : UplinkMessage} (h : b.sessions.get? addr = none)
    (hmsg : ¬ IsHello msg) : b.handleUplinkPacket toVec now addr msg = .done b := by
  cases msg with
  | hello deviceId => exact absurd True.intro hmsg
  | _ => simp only [handleUplinkPacket, h]

/-- **Case analysis** of the handler: a `Hello`, another packet from an address
without a session, and another packet from a device. -/
theorem handleUplinkPacket_cases (toVec : Value → Bytes) (now : UInt64) (addr : Addr)
    (b : Bridge Addr) {motive : UplinkMessage → Code Addr → Prop}
    (hello : ∀ deviceId, motive (.hello deviceId)
      (.done ((b.setSession addr ⟨deviceId, .empty, ∅⟩).sendTo addr 64 .welcome)))
    (stranger : ∀ msg, ¬ IsHello msg → motive msg (.done b))
    (known : ∀ session msg, b.sessions.get? addr = some session → ¬ IsHello msg →
      motive msg (b.handleUplinkPacket toVec now addr msg)) (msg : UplinkMessage) :
    motive msg (b.handleUplinkPacket toVec now addr msg) := by
  by_cases hmsg : IsHello msg
  · cases msg with
    | hello deviceId => exact hello deviceId
    | _ => exact hmsg.elim
  · cases hget : b.sessions.get? addr with
    | none =>
      rw [handleUplinkPacket_stranger toVec now hget hmsg]
      exact stranger msg hmsg
    | some session => exact known session msg hget hmsg

end Bridge

end AviNet
