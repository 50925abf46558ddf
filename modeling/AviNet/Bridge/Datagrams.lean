import AviNet.Bridge.Backing
import AviNet.Bridge.Downlink
import AviNet.Wire

/-!
# Bridge.Datagrams — what the bridge sends to its devices

Every datagram is encoded into a buffer of fixed size first, and what does not
fit is dropped without a word: messages of the mesh in `MAX_PACKET_SIZE` bytes,
acknowledgements in 256.

* `message_delivered_iff`: a message of the mesh reaches each device that
  subscribes to its topic exactly if it fits, or nobody subscribes;
* `acknowledged_iff`: session and acknowledgement agree exactly for topics of at
  most 253 bytes.
-/

namespace AviNet

namespace Bridge

variable {Addr : Type} [LinearOrder Addr] {b t : Bridge Addr} {addr : Addr}

/-! ## Datagrams -/

/-- The datagrams sent to an address so far. -/
def sentTo (b : Bridge Addr) (addr : Addr) : List Bytes :=
  (b.sent.filter fun d => d.1 = addr).map Prod.snd

/-- What `sendTo` sends, if anything. -/
theorem sentTo_sendTo (b : Bridge Addr) (dest : Addr) (size : ℕ) (msg : DownlinkMessage)
    (addr : Addr) : (b.sendTo dest size msg).sentTo addr =
      b.sentTo addr ++ if dest = addr then (msg.toSlice size).toList else [] := by
  unfold sendTo sentTo
  cases msg.toSlice size with
  | none =>
    rw [Option.toList_none, ite_self, List.append_nil]
  | some data =>
    dsimp only
    rw [List.filter_append, List.map_append]
    by_cases hdest : dest = addr
    · simp [hdest]
    · simp [hdest]

/-- One more datagram has been sent: to `addr`, and it decodes to `msg`. -/
def Sends (b t : Bridge Addr) (addr : Addr) (msg : DownlinkMessage) : Prop :=
  ∃ packet, t.sent = b.sent ++ [(addr, packet)] ∧ DownlinkMessage.fromBytes packet = some msg

/-- A message is sent exactly if it fits into the buffer. -/
theorem sends_iff (b : Bridge Addr) (addr : Addr) {size : ℕ} (hsize : size < 2 ^ 64)
    (msg : DownlinkMessage) :
    b.Sends (b.sendTo addr size msg) addr msg ↔ msg.encode.length ≤ size := by
  unfold sendTo DownlinkMessage.toSlice
  by_cases hfits : msg.encode.length ≤ size
  · rw [if_pos hfits]
    have hread : DownlinkMessage.fromBytes msg.encode = some msg :=
      DownlinkMessage.fromBytes_encode (lt_of_le_of_lt hfits hsize)
    exact iff_of_true ⟨msg.encode, rfl, hread⟩ hfits
  · rw [if_neg hfits]
    refine iff_of_false ?_ hfits
    rintro ⟨packet, hsent, -⟩
    have hlength : b.sent.length = _ := congrArg List.length hsent
    rw [List.length_append, List.length_singleton] at hlength
    omega

/-! ## Messages of the mesh -/

/-- The session of the address holds the topic. -/
def Subscribes (b : Bridge Addr) (addr : Addr) (topic : String) : Prop :=
  ∃ session, b.sessions.get? addr = some session ∧ topic ∈ session.subscriptions

/-- Every device that subscribes to the topic has been sent one more datagram, which
is the message, and no other device has been sent any. -/
def Delivered (b t : Bridge Addr) (topic : String) (data : Bytes) : Prop :=
  ∀ addr,
    (b.Subscribes addr topic → ∃ packet, t.sentTo addr = b.sentTo addr ++ [packet] ∧
      DownlinkMessage.fromBytes packet = some (.message topic data)) ∧
    (¬ b.Subscribes addr topic → t.sentTo addr = b.sentTo addr)

/-- The message with its topic and both lengths fits into a packet. -/
def FitsPacket (topic : String) (data : Bytes) : Prop :=
  1 + (shortLength topic.utf8ByteSize + topic.utf8ByteSize) +
    (shortLength data.length + data.length) ≤ maxPacketSize

/-- The bound on topic and data is the bound on the encoded message. -/
theorem fitsPacket_iff {topic : String} {data : Bytes} : FitsPacket topic data ↔
    (DownlinkMessage.message topic data).encode.length ≤ maxPacketSize := by
  have hlength : (DownlinkMessage.message topic data).encode.length =
      1 + (encodeText topic).length + (encodeBytes data).length := by
    rw [DownlinkMessage.encode, List.length_append, List.length_append]
    rfl
  rw [hlength]
  unfold FitsPacket maxPacketSize
  by_cases hlong : topic.utf8ByteSize < 16384 ∧ data.length < 16384
  · rw [length_encodeText_of_lt hlong.1, length_encodeBytes_of_lt hlong.2]
  · -- one of the two alone is too long
    rw [length_encodeText, length_encodeBytes]
    rw [not_and_or, Nat.not_lt, Nat.not_lt] at hlong
    omega

/-- The entry is that of the address, and its session holds the topic. -/
def isSubscriber (addr : Addr) (topic : String) (e : Addr × DeviceSession) : Bool :=
  e.1 = addr ∧ topic ∈ e.2.subscriptions

theorem isSubscriber_iff {topic : String} {e : Addr × DeviceSession} :
    isSubscriber addr topic e = true ↔ e.1 = addr ∧ topic ∈ e.2.subscriptions :=
  decide_eq_true_iff

/-- The turns of the loop over a part of the table. -/
theorem sentTo_turns (es : List (Addr × DeviceSession)) (b : Bridge Addr) (topic : String)
    (msg : DownlinkMessage) (addr : Addr) :
    (es.foldl (fun self e => if topic ∈ e.2.subscriptions then self.sendTo e.1 maxPacketSize msg
      else self) b).sentTo addr = b.sentTo addr ++
        (es.filter (isSubscriber addr topic)).flatMap
          fun _ => (msg.toSlice maxPacketSize).toList := by
  induction es generalizing b with
  | nil => rw [List.foldl_nil, List.filter_nil, List.flatMap_nil, List.append_nil]
  | cons e es ih =>
    rw [List.foldl_cons, ih, List.filter_cons]
    by_cases htopic : topic ∈ e.2.subscriptions
    · rw [if_pos htopic, sentTo_sendTo]
      by_cases haddr : e.1 = addr
      · rw [if_pos haddr, if_pos (isSubscriber_iff.mpr ⟨haddr, htopic⟩), List.flatMap_cons,
          List.append_assoc]
      · rw [if_neg haddr, if_neg fun h => haddr (isSubscriber_iff.mp h).1, List.append_nil]
    · rw [if_neg htopic, if_neg fun h => htopic (isSubscriber_iff.mp h).2]

/-- The loop comes to each subscriber once. -/
theorem filter_subscriber {Peer : Type} (env : Env Peer) {session : DeviceSession}
    {topic : String} (hget : b.sessions.get? addr = some session)
    (htopic : topic ∈ session.subscriptions) :
    (env.order b.sessions.entries).filter (isSubscriber addr topic) = [(addr, session)] := by
  have hperm := env.order_perm b.sessions.entries
  have hnodup : (env.order b.sessions.entries).Nodup :=
    hperm.nodup_iff.mpr b.sessions.nodup_keys.of_map
  apply List.perm_singleton.mp
  apply (List.perm_ext_iff_of_nodup (hnodup.filter _) (List.nodup_singleton _)).mpr
  rintro ⟨a, s⟩
  rw [List.mem_filter, List.mem_singleton, hperm.mem_iff, SortedMap.mem_entries, isSubscriber_iff]
  constructor
  · rintro ⟨hentry, haddr, -⟩
    rw [show a = addr from haddr, hget, Option.some.injEq] at hentry
    exact Prod.ext haddr hentry.symm
  · intro h
    cases h
    exact ⟨hget, rfl, htopic⟩

/-- And to nobody else. -/
theorem filter_stranger {Peer : Type} (env : Env Peer) {topic : String}
    (hnone : ¬ b.Subscribes addr topic) :
    (env.order b.sessions.entries).filter (isSubscriber addr topic) = [] := by
  rw [List.filter_eq_nil_iff]
  rintro ⟨a, s⟩ he hkey
  rcases isSubscriber_iff.mp hkey with ⟨haddr, htopic⟩
  have hentry : b.sessions.get? a = some s :=
    SortedMap.mem_entries.mp ((env.order_perm b.sessions.entries).mem_iff.mp he)
  rw [show a = addr from haddr] at hentry
  exact hnone ⟨s, hentry, htopic⟩

/-- One message of the mesh, at any table. -/
theorem delivered_iff {Peer : Type} (env : Env Peer) (b : Bridge Addr) (source : PeerId)
    (topic : String) (data : Bytes) :
    b.Delivered (b.handleDownlinkEvent env.order (.message source topic data)) topic data ↔
      (b.Holds topic → FitsPacket topic data) := by
  have hsent : ∀ addr, (b.handleDownlinkEvent env.order (.message source topic data)).sentTo
      addr = _ := sentTo_turns (env.order b.sessions.entries) b topic (.message topic data)
  unfold Delivered
  simp only [hsent]
  constructor
  · rintro h ⟨addr, session, hget, htopic⟩
    rcases (h addr).1 ⟨session, hget, htopic⟩ with ⟨packet, hpacket, -⟩
    rw [filter_subscriber env hget htopic, List.flatMap_singleton,
      List.append_cancel_left_eq] at hpacket
    -- a datagram was sent, so the message was encoded
    rw [fitsPacket_iff]
    by_contra hlong
    rw [DownlinkMessage.toSlice, if_neg hlong] at hpacket
    cases hpacket
  · intro h addr
    constructor
    · rintro ⟨session, hget, htopic⟩
      have hfits := fitsPacket_iff.mp (h ⟨addr, session, hget, htopic⟩)
      have hslice : (DownlinkMessage.message topic data).toSlice maxPacketSize = some _ :=
        if_pos hfits
      refine ⟨(DownlinkMessage.message topic data).encode, ?_,
        DownlinkMessage.fromBytes_toSlice hslice⟩
      rw [filter_subscriber env hget htopic, List.flatMap_singleton, hslice]
      rfl
    · intro hnone
      rw [filter_stranger env hnone, List.flatMap_nil, List.append_nil]

end Bridge

namespace Downlink

variable {Peer Addr : Type} [LinearOrder Peer] [LinearOrder Addr]

/-- The message that the task handles is delivered. -/
def Delivers (s : Downlink Peer Addr) : Label Peer Addr → Prop
  | .handle env => ∀ source topic data, s.loop = .handling (.message source topic data) →
    s.gw.bridge.Delivered
      (s.gw.bridge.handleDownlinkEvent env.order (.message source topic data)) topic data
  | _ => True

/-- The message that the task handles fits into a packet, unless nobody subscribes. -/
def HandlesFitting (s : Downlink Peer Addr) : Label Peer Addr → Prop
  | .handle _ => ∀ source topic data, s.loop = .handling (.message source topic data) →
    s.gw.bridge.Holds topic → Bridge.FitsPacket topic data
  | _ => True

/-- A step delivers exactly if it handles a message whose packet fits. -/
theorem delivers_iff (s : Downlink Peer Addr) (l : Label Peer Addr) :
    s.Delivers l ↔ s.HandlesFitting l := by
  cases l with
  | handle env =>
    constructor
    · intro h source topic data hloop
      exact (Bridge.delivered_iff env s.gw.bridge source topic data).mp (h source topic data hloop)
    · intro h source topic data hloop
      exact (Bridge.delivered_iff env s.gw.bridge source topic data).mpr (h source topic data hloop)
  | _ => exact Iff.rfl

/-- **Messages of the mesh.** At every table, every device that subscribes to the
topic is sent the message whole and nobody else anything exactly if the message
fits into a packet or nobody subscribes. In a run of the gateway all messages are
so delivered exactly if each fits at the moment it is handled. -/
theorem message_delivered_iff (lib : External Peer) (toVec : Value → Bytes) :
    (∀ (env : Env Peer) (b : Bridge Addr) (source : PeerId) (topic : String) (data : Bytes),
      b.Delivered (b.handleDownlinkEvent env.order (.message source topic data)) topic data ↔
        (b.Holds topic → Bridge.FitsPacket topic data)) ∧
    ∀ (s : Downlink Peer Addr) ls, (downlink Addr lib toVec).AllSteps Delivers s ls ↔
      (downlink Addr lib toVec).AllSteps HandlesFitting s ls := by
  constructor
  · intro env b source topic data
    exact Bridge.delivered_iff env b source topic data
  · intro s ls
    exact (downlink Addr lib toVec).allSteps_iff_allSteps (J := fun _ => True)
      (fun _ _ _ _ _ _ => True.intro) (fun s l _ => delivers_iff s l) True.intro ls

end Downlink

namespace Gateway

/-- The device at address 1 subscribes, and a message of 1024 bytes arrives. -/
theorem long_message_lost : ¬ ∀ s ls t, plainGateway.Init s → plainGateway.run s ls = some t →
    ∀ (env : Env String) source topic data, t.bridge.Delivered
      (t.bridge.handleDownlinkEvent env.order (.message source topic data)) topic data := by
  intro h
  have hrun : (plainGateway.run booted (joins 1 "news")).isSome = true := by
    decide +kernel
  rcases Option.isSome_iff_exists.mp hrun with ⟨t, ht⟩
  have hholds : t.bridge.Holds "news" := by
    apply holds_after_run 1 ht
    decide +kernel
  have hfits := (Bridge.delivered_iff (.calm String) t.bridge ⟨"peer"⟩ "news"
    (List.replicate 1024 0)).mp (h booted _ t ⟨rfl, rfl⟩ ht _ _ _ _) hholds
  rw [Bridge.FitsPacket, List.length_replicate] at hfits
  exact absurd hfits (by decide)

end Gateway

namespace Bridge

variable {Addr : Type} [LinearOrder Addr] {b t : Bridge Addr} {addr : Addr}

/-! ## Acknowledgements -/

/-- Session and acknowledgement agree: a `Subscribe` that the mesh grants puts the topic
into the session and is acknowledged, one that it does not grant changes and
sends nothing, and an `Unsubscribe` takes the topic out and is acknowledged,
whatever the mesh answers. -/
structure Acknowledges (toVec : Value → Bytes) (now : UInt64) (b : Bridge Addr) (addr : Addr)
    (session : DeviceSession) (topic : String) : Prop where
  subscribe : (b.handleUplinkPacket toVec now addr (.subscribe topic)).CallsOnce
    (.subscribe topic) fun r t =>
      (r = .done (.ok ()) → b.Sends t addr (.subscribeAck topic) ∧
        t.sessions = b.sessions.insert addr
          { session with subscriptions := insert topic session.subscriptions }) ∧
      (r ≠ .done (.ok ()) → t = b)
  unsubscribe : (b.handleUplinkPacket toVec now addr (.unsubscribe topic)).CallsOnce
    (.unsubscribe topic) fun _ t => b.Sends t addr (.unsubscribeAck topic) ∧
      t.sessions = b.sessions.insert addr
        { session with subscriptions := session.subscriptions.erase topic }

/-- What an acknowledgement leaves behind. -/
theorem acked_iff {session : DeviceSession} {msg : DownlinkMessage} :
    b.Sends ((b.setSession addr session).sendTo addr 256 msg) addr msg ∧
        ((b.setSession addr session).sendTo addr 256 msg).sessions =
          b.sessions.insert addr session ↔
      msg.encode.length ≤ 256 := by
  have hsize : 256 < 2 ^ 64 := by decide
  have hsends := sends_iff (b.setSession addr session) addr hsize msg
  have hsessions : ((b.setSession addr session).sendTo addr 256 msg).sessions =
      b.sessions.insert addr session := by
    unfold sendTo
    cases msg.toSlice 256 <;> rfl
  rw [and_iff_left hsessions]
  exact hsends

/-- An acknowledgement is the topic behind its length and one byte. -/
theorem fits_ack_iff {topic : String} :
    ((DownlinkMessage.subscribeAck topic).encode.length ≤ 256 ↔ topic.utf8ByteSize ≤ 253) ∧
      ((DownlinkMessage.unsubscribeAck topic).encode.length ≤ 256 ↔
        topic.utf8ByteSize ≤ 253) := by
  have hlength : 1 + (encodeText topic).length ≤ 256 ↔ topic.utf8ByteSize ≤ 253 := by
    by_cases hlong : topic.utf8ByteSize < 16384
    · rw [length_encodeText_of_lt hlong]
      unfold shortLength
      split_ifs <;> omega
    · rw [length_encodeText]
      omega
  constructor
  · rw [DownlinkMessage.encode, List.length_append]
    exact hlength
  · rw [DownlinkMessage.encode, List.length_append]
    exact hlength

/-- The result in an answer. -/
def resultOf : Reply → Except AviP2pError Unit
  | .done res => res
  | _ => .error .channelClosed

theorem resultOf_eq_ok_iff {r : Reply} : resultOf r = .ok () ↔ r = .done (.ok ()) := by
  cases r <;> simp [resultOf]

theorem callsOnce_callDone {cmd : Command} {k : Except AviP2pError Unit → Code Addr}
    {post : Reply → Bridge Addr → Prop} : (b.callDone cmd k).CallsOnce cmd post ↔
      ∀ r, ∃ t, k (resultOf r) = .done t ∧ post r t := by
  have heq : b.callDone cmd k = .call b cmd fun r => k (resultOf r) := by
    unfold callDone
    congr 1
    funext r
    cases r <;> rfl
  rw [heq]
  constructor
  · rintro ⟨_, _, hcall, hend⟩
    cases hcall
    exact hend
  · intro hend
    exact ⟨b, _, rfl, hend⟩

section Known

variable {session : DeviceSession} {topic : String}

/-- A subscription that is acknowledged has a short topic. -/
theorem short_of_acknowledges (toVec : Value → Bytes) (now : UInt64)
    (hget : b.sessions.get? addr = some session)
    (h : b.Acknowledges toVec now addr session topic) : topic.utf8ByteSize ≤ 253 := by
  have hsub := h.subscribe
  simp only [handleUplinkPacket, hget] at hsub
  rcases callsOnce_callDone.mp hsub (.done (.ok ())) with ⟨t, ht, hgranted, -⟩
  cases ht
  exact fits_ack_iff.1.mp (acked_iff.mp (hgranted rfl))

/-- A subscription to a short topic is acknowledged. -/
theorem acknowledges_of_short (toVec : Value → Bytes) (now : UInt64)
    (hget : b.sessions.get? addr = some session) (hshort : topic.utf8ByteSize ≤ 253) :
    b.Acknowledges toVec now addr session topic := by
  constructor
  · simp only [handleUplinkPacket, hget]
    apply callsOnce_callDone.mpr
    intro r
    cases hres : resultOf r with
    | ok u =>
      have hgranted : r = .done (.ok ()) := resultOf_eq_ok_iff.mp hres
      exact ⟨_, rfl, fun _ => acked_iff.mpr (fits_ack_iff.1.mpr hshort),
        fun hne => absurd hgranted hne⟩
    | error e =>
      refine ⟨b, rfl, ?_, fun _ => rfl⟩
      intro hgranted
      rw [resultOf_eq_ok_iff.mpr hgranted] at hres
      cases hres
  · simp only [handleUplinkPacket, hget]
    apply callsOnce_callDone.mpr
    intro r
    exact ⟨_, rfl, acked_iff.mpr (fits_ack_iff.2.mpr hshort)⟩

end Known

/-- **Acknowledgements.** At every table, session and acknowledgement agree exactly for
topics of at most 253 bytes; those of 254 to 1021 bytes still fit into the request. -/
theorem acknowledged_iff (toVec : Value → Bytes) (now : UInt64) (b : Bridge Addr) (addr : Addr)
    (session : DeviceSession) (topic : String) (hget : b.sessions.get? addr = some session) :
    b.Acknowledges toVec now addr session topic ↔ topic.utf8ByteSize ≤ 253 := by
  constructor
  · intro h
    exact short_of_acknowledges toVec now hget h
  · intro hshort
    exact acknowledges_of_short toVec now hget hshort

end Bridge

namespace Gateway

/-- The device at address 1 says hello. -/
def hello : List (Label String ℕ) := [.packet 0 1 (.hello 7), .resume]

/-- The session it gets. -/
theorem session_hello : ∃ t, plainGateway.run booted hello = some t ∧
    t.bridge.sessions.get? 1 = some ⟨7, .empty, ∅⟩ := by
  refine ⟨_, rfl, ?_⟩
  rfl

theorem acknowledged_iff_news : ∃ t : Bridge ℕ, t.sessions.get? 1 = some ⟨7, .empty, ∅⟩ ∧
    (t.Acknowledges (fun _ => []) 0 1 ⟨7, .empty, ∅⟩ "news" ↔ "news".utf8ByteSize ≤ 253) := by
  rcases session_hello with ⟨t, -, hget⟩
  exact ⟨t.bridge, hget, Bridge.acknowledged_iff (fun _ => []) 0 t.bridge 1 _ "news" hget⟩

/-- A topic of 254 bytes fits into a request, but not into its acknowledgement. -/
theorem acknowledgement_lost : ¬ ∀ s ls t, plainGateway.Init s →
    plainGateway.run s ls = some t → ∀ now addr session topic,
      t.bridge.sessions.get? addr = some session →
        (UplinkMessage.subscribe topic).encode.length ≤ maxPacketSize →
          t.bridge.Acknowledges (fun _ => []) now addr session topic := by
  intro h
  rcases session_hello with ⟨t, ht, hget⟩
  have hsize : (String.ofList (List.replicate 254 'a')).utf8ByteSize = 254 := by
    decide +kernel
  have hfits : (UplinkMessage.subscribe (String.ofList (List.replicate 254 'a'))).encode.length ≤
      maxPacketSize := by
    rw [UplinkMessage.encode, List.length_append, length_encodeText_of_lt (by omega), hsize]
    decide
  have hshort := Bridge.short_of_acknowledges _ 0 hget
    (h booted hello t ⟨rfl, rfl⟩ ht 0 1 _ _ hget hfits)
  rw [hsize] at hshort
  omega

end Gateway

end AviNet
