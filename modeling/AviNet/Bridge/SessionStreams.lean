import AviNet.Bridge.Uplink
import Mathlib.Logic.Function.Basic

/-!
# Bridge.SessionStreams — the mesh streams of the sessions

Each session maps the ids its device uses to mesh streams. Of the nine kinds of
packets three change these maps: `Hello` empties one, `StreamStart` stores a
stream if the mesh grants it, `StreamClose` forgets one before it is closed.

* `StreamShape`: what a handler does to the maps and to mesh streams;
* `handleUplinkPacket_shape`: that is all it does;
* `handleUplinkPacket_frame`: other sessions stay, datagrams go to the sender only.
-/

namespace AviNet.Bridge

variable {Addr : Type} [LinearOrder Addr]

/-- The mesh stream the device at `addr` calls `i`. -/
def stored (b : Bridge Addr) (addr : Addr) (i : UInt8) : Option StreamId :=
  (b.sessions.get? addr).bind fun session => session.activeStreams.get? i

/-- The maps with another entry under `i` for the device at `addr`. -/
def assign (v : Addr → UInt8 → Option StreamId) (addr : Addr) (i : UInt8) (x : Option StreamId) :
    Addr → UInt8 → Option StreamId :=
  Function.update v addr (Function.update (v addr) i x)

section Assign

variable {v : Addr → UInt8 → Option StreamId} {addr : Addr} {i : UInt8} {x : Option StreamId}

/-- What is stored after an assignment. -/
theorem assign_eq_some {a : Addr} {j : UInt8} {id : StreamId}
    (h : assign v addr i x a j = some id) :
    (a = addr ∧ j = i ∧ x = some id) ∨ (¬ (a = addr ∧ j = i) ∧ v a j = some id) := by
  unfold assign at h
  by_cases ha : a = addr
  · subst ha
    rw [Function.update_self] at h
    by_cases hj : j = i
    · subst hj
      rw [Function.update_self] at h
      exact Or.inl ⟨rfl, rfl, h⟩
    · rw [Function.update_of_ne hj] at h
      exact Or.inr ⟨fun heq => hj heq.2, h⟩
  · rw [Function.update_of_ne ha] at h
    exact Or.inr ⟨fun heq => ha heq.1, h⟩

variable (v addr i x) in
theorem assign_self : assign v addr i x addr i = x := by
  unfold assign
  rw [Function.update_self, Function.update_self]

theorem assign_of_ne {a : Addr} {j : UInt8} (h : ¬ (a = addr ∧ j = i)) :
    assign v addr i x a j = v a j := by
  unfold assign
  by_cases ha : a = addr
  · subst ha
    rw [Function.update_self, Function.update_of_ne fun hj => h ⟨rfl, hj⟩]
  · rw [Function.update_of_ne ha]

end Assign

/-- The mesh stream a command of the bridge is about. -/
def meshStream : Command → Option StreamId
  | .sendStreamData id _ | .closeStream id => some id
  | _ => none

/-- The command opens no stream and closes none, and data are sent on a stream in `v`. -/
def Quiet (v : UInt8 → Option StreamId) : Command → Prop
  | .requestStream _ _ | .closeStream _ | .acceptStream _ | .rejectStream _ _ => False
  | .sendStreamData id _ => ∃ i, v i = some id
  | _ => True

/-! ## Storing a session -/

section Stored

variable {b : Bridge Addr} {addr : Addr} {session session' : DeviceSession}

@[simp] theorem stored_sendTo (size : ℕ) (msg : DownlinkMessage) :
    (b.sendTo addr size msg).stored = b.stored := by
  unfold sendTo
  cases msg.toSlice size <;> rfl

/-- A session put into the table changes the map of its own device. -/
theorem stored_setSession :
    (b.setSession addr session).stored =
      Function.update b.stored addr session.activeStreams.get? := by
  funext a i
  unfold stored setSession
  rw [SortedMap.get?_insert]
  by_cases ha : a = addr
  · subst ha
    rw [if_pos rfl, Function.update_self]
    rfl
  · rw [if_neg ha, Function.update_of_ne ha]

/-- The map of a device is that of its session. -/
theorem stored_eq (h : b.sessions.get? addr = some session) :
    b.stored addr = session.activeStreams.get? := by
  funext i
  unfold stored
  rw [h]
  rfl

/-- A session that is stored again with the same streams. -/
theorem stored_setSession_same (h : b.sessions.get? addr = some session)
    (hsame : session'.activeStreams = session.activeStreams) :
    (b.setSession addr session').stored = b.stored := by
  rw [stored_setSession, hsame, ← stored_eq h, Function.update_eq_self]

/-- An entry in a session is an assignment to the device's map. -/
theorem stored_insert (h : b.sessions.get? addr = some session) (i : UInt8) (id : StreamId) :
    (b.setSession addr { session with
      activeStreams := session.activeStreams.insert i id }).stored =
        assign b.stored addr i (some id) := by
  rw [stored_setSession]
  unfold assign
  rw [stored_eq h]
  congr 1
  funext j
  rw [SortedMap.get?_insert, Function.update_apply]

/-- An erased entry is an assignment as well. -/
theorem stored_erase (h : b.sessions.get? addr = some session) (i : UInt8) :
    (b.setSession addr { session with
      activeStreams := session.activeStreams.erase i }).stored = assign b.stored addr i none := by
  rw [stored_setSession]
  unfold assign
  rw [stored_eq h]
  congr 1
  funext j
  rw [SortedMap.get?_erase, Function.update_apply]

end Stored

/-! ## The shape of a handler -/

/-- What the handler of a packet from `addr` does to the streams of the sessions. -/
inductive StreamShape (b : Bridge Addr) (addr : Addr) : UplinkMessage → Code Addr → Prop
  /-- nothing, except that it may send data on a stream of the device -/
  | quiet {msg : UplinkMessage} {p : Code Addr} (hmsg : ¬ IsHello msg)
      (h : p.Stays (fun b' => b'.stored = b.stored) (Quiet (b.stored addr))) :
      StreamShape b addr msg p
  /-- the new session has no streams -/
  | hello {deviceId : UInt64} {b' : Bridge Addr}
      (h : b'.stored = Function.update b.stored addr fun _ => none) :
      StreamShape b addr (.hello deviceId) (.done b')
  /-- the stream is stored once it is granted -/
  | streamStart {i : UInt8} {target reason : String} {k : Reply → Code Addr}
      (htarget : target.isEmpty = false) (h : ∀ r, ∃ b', k r = .done b' ∧ b'.stored = match r with
        | .stream (.ok id) => assign b.stored addr i (some id)
        | _ => b.stored) :
      StreamShape b addr (.streamStart i target reason)
        (.call b (.requestStream ⟨target⟩ reason) k)
  /-- the stream is forgotten before it is closed -/
  | streamClose {i : UInt8} {id : StreamId} {b' : Bridge Addr} {k : Reply → Code Addr}
      (hget : b.stored addr i = some id) (h : b'.stored = assign b.stored addr i none)
      (hk : ∀ r, k r = .done b') :
      StreamShape b addr (.streamClose i) (.call b' (.closeStream id) k)

/-! ## Quiet calls -/

section Calls

variable {b : Bridge Addr} {I : Bridge Addr → Prop} {C : Command → Prop}

/-- A call that is waited for keeps what holds before it and after every answer. -/
theorem stays_callDone {cmd : Command} {k : Except AviP2pError Unit → Code Addr} (hb : I b)
    (hcmd : C cmd) (hk : ∀ res, (k res).Stays I C) : (b.callDone cmd k).Stays I C := by
  refine ⟨hb, hcmd, ?_⟩
  intro r
  cases r <;> exact hk _

/-- So does reading the root of the context. -/
theorem stays_getRoot {k : Except AviP2pError Value → Code Addr} (hb : I b)
    (hcmd : C (.getPeerContext none)) (hk : ∀ res, (k res).Stays I C) :
    (b.getRoot k).Stays I C := by
  refine ⟨hb, hcmd, ?_⟩
  intro r
  cases r <;> exact hk _

/-- So does opening a stream. -/
theorem stays_requestStream {peerId : PeerId} {reason : String}
    {k : Except AviP2pError StreamId → Code Addr} (hb : I b)
    (hcmd : C (.requestStream peerId reason)) (hk : ∀ res, (k res).Stays I C) :
    (b.requestStream peerId reason k).Stays I C := by
  refine ⟨hb, hcmd, ?_⟩
  intro r
  cases r <;> exact hk _

end Calls

/-- **The handler**, as far as the streams of the sessions are concerned. -/
theorem handleUplinkPacket_shape (toVec : Value → Bytes) (now : UInt64) (addr : Addr)
    (b : Bridge Addr) (msg : UplinkMessage) :
    StreamShape b addr msg (b.handleUplinkPacket toVec now addr msg) := by
  revert msg
  apply handleUplinkPacket_cases toVec now addr b (motive := StreamShape b addr)
  · -- hello: no streams
    intro deviceId
    refine .hello ?_
    rw [stored_sendTo, stored_setSession]
    rfl
  · -- no session: nothing happens
    intro msg hmsg
    exact .quiet hmsg rfl
  · intro session msg hget hmsg
    cases msg with
    | hello deviceId => exact absurd True.intro hmsg
    | subscribe topic =>
      simp only [handleUplinkPacket, hget]
      refine .quiet hmsg (stays_callDone rfl True.intro ?_)
      intro res
      rcases res with e | ⟨⟩
      · -- not granted
        rfl
      · -- a topic more, the streams as before
        exact (stored_sendTo _ _).trans (stored_setSession_same hget rfl)
    | unsubscribe topic =>
      simp only [handleUplinkPacket, hget]
      refine .quiet hmsg (stays_callDone (stored_setSession_same hget rfl) True.intro ?_)
      intro res
      exact (stored_sendTo _ _).trans (stored_setSession_same hget rfl)
    | publish topic data | buttonPress buttonId pressType customData =>
      simp only [handleUplinkPacket, hget]
      exact .quiet hmsg (stays_callDone rfl True.intro fun _ => rfl)
    | streamStart i target reason =>
      simp only [handleUplinkPacket, hget]
      split_ifs with hempty
      · exact .quiet hmsg rfl
      · refine .streamStart (Bool.eq_false_iff.mpr hempty) ?_
        intro r
        -- only a granted stream is stored
        cases r with
        | stream res =>
          cases res with
          | error e => exact ⟨b, rfl, rfl⟩
          | ok id => exact ⟨_, rfl, stored_insert hget i id⟩
        | _ => exact ⟨b, rfl, rfl⟩
    | streamData i data =>
      simp only [handleUplinkPacket, hget]
      cases hi : session.activeStreams.get? i with
      | none => exact .quiet hmsg rfl
      | some id =>
        -- a stream that is known here
        refine .quiet hmsg (stays_callDone rfl ⟨i, ?_⟩ fun _ => rfl)
        rw [stored_eq hget, hi]
    | streamClose i =>
      simp only [handleUplinkPacket, hget]
      cases hi : session.activeStreams.get? i with
      | none => exact .quiet hmsg rfl
      | some id =>
        -- its entry goes before the mesh is told
        refine .streamClose ?_ (stored_erase hget i) ?_
        · rw [stored_eq hget, hi]
        · intro r
          cases r <;> rfl
    | sensorUpdate sensorName data customData =>
      -- three calls, none about streams
      simp only [handleUplinkPacket, hget]
      refine .quiet hmsg (stays_callDone rfl True.intro ?_)
      intro _
      refine stays_getRoot rfl True.intro ?_
      intro res
      cases res with
      | error e => rfl
      | ok doc =>
        dsimp only
        split
        · exact stays_callDone rfl True.intro fun _ => rfl
        · rfl

/-! ## The frame of a handler -/

/-- From `b` to `b'` only the session of `addr` has changed, and only `addr` has
been sent datagrams. -/
def Local (b : Bridge Addr) (addr : Addr) (b' : Bridge Addr) : Prop :=
  (∀ a, a ≠ addr → b'.sessions.get? a = b.sessions.get? a) ∧
    ∃ out, b'.sent = b.sent ++ out ∧ ∀ d ∈ out, d.1 = addr

section Frame

variable {b b' : Bridge Addr} {addr : Addr}

variable (b addr) in
theorem Local.refl : Local b addr b :=
  ⟨fun _ _ => rfl, [], (List.append_nil _).symm, fun _ hd => absurd hd List.not_mem_nil⟩

/-- Changing the session of the same device stays local. -/
theorem Local.setSession (h : Local b addr b') (session : DeviceSession) :
    Local b addr (b'.setSession addr session) := by
  refine ⟨?_, h.2⟩
  intro a ha
  rw [Bridge.setSession, SortedMap.get?_insert_ne _ _ ha]
  exact h.1 a ha

/-- Sending to the same device stays local. -/
theorem Local.sendTo (h : Local b addr b') (size : ℕ) (msg : DownlinkMessage) :
    Local b addr (b'.sendTo addr size msg) := by
  unfold Bridge.sendTo
  cases msg.toSlice size with
  | none => exact h
  | some data =>
    rcases h with ⟨hsessions, out, hout, hdest⟩
    refine ⟨hsessions, out ++ [(addr, data)], ?_, ?_⟩
    · dsimp only
      rw [hout, List.append_assoc]
    · intro d hd
      rcases List.mem_append.mp hd with hd | hd
      · exact hdest d hd
      · rw [List.mem_singleton.mp hd]

end Frame

/-- **The frame**: a packet changes the session of its sender only and is answered
to its sender only. -/
theorem handleUplinkPacket_frame (toVec : Value → Bytes) (now : UInt64) (addr : Addr)
    (b : Bridge Addr) (msg : UplinkMessage) :
    (b.handleUplinkPacket toVec now addr msg).Stays (Local b addr) fun _ => True := by
  have hb : Local b addr b := .refl b addr
  revert msg
  apply handleUplinkPacket_cases toVec now addr b
    (motive := fun _ p => p.Stays (Local b addr) fun _ => True)
  · -- hello: the session of the sender, and the Welcome to it
    intro deviceId
    exact (hb.setSession _).sendTo _ _
  · intro msg _
    exact hb
  · intro session msg hget hmsg
    cases msg with
    | hello deviceId => exact absurd True.intro hmsg
    | subscribe topic =>
      simp only [handleUplinkPacket, hget]
      refine stays_callDone hb True.intro ?_
      -- the Ack goes to the sender
      intro res
      rcases res with e | ⟨⟩
      · exact hb
      · exact (hb.setSession _).sendTo _ _
    | unsubscribe topic =>
      simp only [handleUplinkPacket, hget]
      exact stays_callDone (hb.setSession _) True.intro fun _ => (hb.setSession _).sendTo _ _
    | publish topic data | buttonPress buttonId pressType customData =>
      simp only [handleUplinkPacket, hget]
      exact stays_callDone hb True.intro fun _ => hb
    | streamStart i target reason =>
      simp only [handleUplinkPacket, hget]
      split_ifs
      · exact hb
      · refine stays_requestStream hb True.intro ?_
        -- the stream is entered in the sender's session
        intro res
        cases res with
        | error e => exact hb
        | ok id => exact hb.setSession _
    | streamData i data =>
      simp only [handleUplinkPacket, hget]
      cases session.activeStreams.get? i with
      | none => exact hb
      | some id => exact stays_callDone hb True.intro fun _ => hb
    | streamClose i =>
      simp only [handleUplinkPacket, hget]
      cases session.activeStreams.get? i with
      | none => exact hb
      | some id => exact stays_callDone (hb.setSession _) True.intro fun _ => hb.setSession _
    | sensorUpdate sensorName data customData =>
      simp only [handleUplinkPacket, hget]
      refine stays_callDone hb True.intro fun _ => stays_getRoot hb True.intro ?_
      intro res
      cases res with
      | error e => exact hb
      | ok doc =>
        -- only the runtime is called
        dsimp only
        split
        · exact stays_callDone hb True.intro fun _ => hb
        · exact hb

end AviNet.Bridge
