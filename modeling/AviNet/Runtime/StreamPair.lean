import AviNet.Runtime.StreamTable

/-!
# Runtime.StreamPair — two nodes that open streams to each other

Two runtimes and the stream messages between them, each delivered at most once
and in any order. Ids come from one counter for each process, so the code tells
streams apart by an id alone; history variables say which stream an entry or a
message is really about: `stands` for the tables, `Packet.stream` for messages.

* `SameStream`: whatever message is handled next meets no entry, or the entry
  of its own stream with the roles exchanged;
* `no_collision`: that holds in every state of a run in which each newly drawn
  id is used neither by the other table nor by a message in flight; and a run
  that draws another one can be continued to a collision;
* `both_open`: two nodes that open their first stream at the same time.
-/

namespace AviNet

/-- One stream: the how-many-th it is, who opened it and why. -/
structure Stream where
  serial : ℕ
  opener : Bool
  reason : String
  deriving DecidableEq

/-- A message in flight, with the stream its sender meant. -/
structure Packet where
  dest : Bool
  msg : StreamMessage
  stream : Stream
  deriving DecidableEq

/-- Two nodes and the messages between them. -/
structure StreamPair where
  rt : Bool → Runtime Bool
  /-- the stream each entry stands for -/
  stands : Bool → UInt64 → Option Stream
  flight : List Packet
  opened : ℕ

namespace StreamPair

/-! ## Model layer -/

inductive Label where
  /-- `RequestStream` to the other node -/
  | open (i : Bool) (env : Env Bool) (reason : String)
  /-- any of the other four stream commands -/
  | act (i : Bool) (env : Env Bool) (cmd : Command)
  /-- a message in flight is handled -/
  | deliver (m : Packet)

/-- An entry that is gone stands for nothing. -/
def prune (rt : Runtime Bool) (stands : UInt64 → Option Stream) (id : UInt64) : Option Stream :=
  if (rt.streams.get? id).isSome then stands id else none

/-- The messages among the effects of a handler, as packets about `stream`. -/
def packets (effects : List (Effect Bool)) (stream : Stream) : List Packet :=
  (Runtime.sentOf effects).map fun e => ⟨e.1, e.2, stream⟩

def step (lib : External Bool) (s : StreamPair) : Label → Option StreamPair
  | .open i env reason =>
    let r := (s.rt i).handleCommand lib env (.requestStream (lib.peerId (!i)) reason)
    let stream : Stream := ⟨s.opened, i, reason⟩
    let stands := Function.update (s.stands i) (s.rt i).nextStreamId (some stream)
    some {
      rt := Function.update s.rt i r.1
      stands := Function.update s.stands i (prune r.1 stands)
      flight := packets r.2 stream ++ s.flight
      opened := s.opened + 1 }
  | .act i env cmd =>
    match Runtime.commandStream cmd with
    | some id =>
      let r := (s.rt i).handleCommand lib env cmd
      some { s with
        rt := Function.update s.rt i r.1
        stands := Function.update s.stands i (prune r.1 (s.stands i))
        flight := ((s.stands i id).elim [] (packets r.2)) ++ s.flight }
    | none => none
  | .deliver m =>
    if m ∈ s.flight then
      let r := (s.rt m.dest).handleStreamMessage lib (!m.dest) m.msg
      let stands := match m.msg with
        | .requestStream id _ => Function.update (s.stands m.dest) id (some m.stream)
        | _ => s.stands m.dest
      some { s with
        rt := Function.update s.rt m.dest r.1
        stands := Function.update s.stands m.dest (prune r.1 stands)
        flight := s.flight.erase m }
    else none

/-- Two processes that have just started. -/
def Init (lib : External Bool) (s : StreamPair) : Prop :=
  (∀ i, ∃ now, s.rt i = .new lib i now) ∧ (∀ i id, s.stands i id = none) ∧ s.flight = []

end StreamPair

open StreamPair in
/-- The machine of two nodes. -/
def streamPair (lib : External Bool) : Machine StreamPair StreamPair.Label where
  Init := Init lib
  step := step lib

namespace StreamPair

/-- The entry of `id` at node `i` is `e`. -/
def Entry (s : StreamPair) (i : Bool) (id : UInt64) (e : StreamState Bool) : Prop :=
  (s.rt i).streams.get? id = some e

/-- Whatever message is handled next meets no entry under its id, or the entry
of its own stream. -/
def SameStream (s : StreamPair) : Prop :=
  ∀ m ∈ s.flight, ∀ id e, Runtime.namedStream m.msg = some id → s.Entry m.dest id e →
    s.stands m.dest id = some m.stream ∧ e.reason = m.stream.reason ∧
      (e.direction = .outbound ↔ m.stream.opener = m.dest)

/-- A newly drawn id is used neither in the other table nor in flight. -/
def FreshId (s : StreamPair) : Label → Prop
  | .open i _ _ =>
    (s.rt (!i)).streams.get? (s.rt i).nextStreamId = none ∧
      ∀ m ∈ s.flight, Runtime.namedStream m.msg ≠ some (s.rt i).nextStreamId
  | .act _ _ _ | .deliver _ => True

instance (s : StreamPair) : ∀ l, Decidable (s.FreshId l)
  | .open i _ _ =>
    inferInstanceAs (Decidable ((s.rt (!i)).streams.get? (s.rt i).nextStreamId = none ∧
      ∀ m ∈ s.flight, Runtime.namedStream m.msg ≠ some (s.rt i).nextStreamId))
  | .act _ _ _ | .deliver _ => inferInstanceAs (Decidable True)

/-! ## The invariant -/

/-- `stream` is what somebody means by `id`. -/
def Means (s : StreamPair) (id : UInt64) (stream : Stream) : Prop :=
  (∃ i, s.stands i id = some stream) ∨
    ∃ m ∈ s.flight, Runtime.namedStream m.msg = some id ∧ m.stream = stream

/-- What every run with fresh ids keeps. -/
structure Inv (s : StreamPair) : Prop where
  /-- an entry plays its part in the stream it stands for -/
  entry : ∀ i id e, s.Entry i id e → ∃ stream, s.stands i id = some stream ∧ e.peer = !i ∧
    e.reason = stream.reason ∧ (e.direction = .outbound ↔ stream.opener = i)
  live : ∀ i id stream, s.stands i id = some stream → ∃ e, s.Entry i id e
  /-- an opening message goes from the opener to the other node -/
  opening : ∀ m ∈ s.flight, ∀ id reason, m.msg = .requestStream id reason →
    m.stream.reason = reason ∧ m.stream.opener = !m.dest
  /-- an id means one stream at a time -/
  unique : ∀ id a b, s.Means id a → s.Means id b → a = b
  serial : ∀ id a, s.Means id a → a.serial < s.opened

theorem Inv.sameStream {s : StreamPair} (h : s.Inv) : s.SameStream := by
  intro m hm id e hid he
  rcases h.entry _ _ _ he with ⟨stream, hs, -, hreason, hdir⟩
  have heq : stream = m.stream :=
    h.unique id _ _ (Or.inl ⟨m.dest, hs⟩) (Or.inr ⟨m, hm, hid, rfl⟩)
  subst heq
  exact ⟨hs, hreason, hdir⟩

theorem init_inv {lib : External Bool} {s : StreamPair} (h : (streamPair lib).Init s) : s.Inv := by
  rcases h with ⟨hrt, hstands, hflight⟩
  have hmeans : ∀ id a, ¬ s.Means id a := by
    rintro id a (⟨i, hi⟩ | ⟨m, hm, -⟩)
    · rw [hstands] at hi
      cases hi
    · rw [hflight] at hm
      cases hm
  refine ⟨?_, ?_, ?_, fun id a _ ha _ => absurd ha (hmeans id a),
    fun id a ha => absurd ha (hmeans id a)⟩
  · intro i id e he
    obtain ⟨now, hi⟩ := hrt i
    unfold Entry at he
    rw [hi] at he
    cases he
  · intro i id a ha
    rw [hstands] at ha
    cases ha
  · intro m hm
    rw [hflight] at hm
    cases hm

/-! ## Steps -/

theorem prune_eq_some_iff {rt : Runtime Bool} {stands : UInt64 → Option Stream} {id : UInt64}
    {a : Stream} : prune rt stands id = some a ↔
      (∃ e, rt.streams.get? id = some e) ∧ stands id = some a := by
  unfold prune
  rw [← Option.isSome_iff_exists]
  split_ifs with h
  · simp [h]
  · simp [h]

/-- A node's new table keeps the invariant if its entries stand for the right
streams and no id gets a second meaning. -/
theorem Inv.change {s t : StreamPair} (h : s.Inv) {i : Bool} {rt : Runtime Bool}
    {stands : UInt64 → Option Stream} (hrt : t.rt = Function.update s.rt i rt)
    (hst : t.stands = Function.update s.stands i (prune rt stands))
    (hentry : ∀ id e, rt.streams.get? id = some e → ∃ stream, stands id = some stream ∧
      e.peer = !i ∧ e.reason = stream.reason ∧ (e.direction = .outbound ↔ stream.opener = i))
    (hopening : ∀ m ∈ t.flight, ∀ id reason, m.msg = .requestStream id reason →
      m.stream.reason = reason ∧ m.stream.opener = !m.dest)
    (hunique : ∀ id a b, t.Means id a → t.Means id b → a = b)
    (hserial : ∀ id a, t.Means id a → a.serial < t.opened) : t.Inv := by
  refine ⟨?_, ?_, hopening, hunique, hserial⟩
  · -- an entry stands for a stream
    intro j id e he
    unfold Entry at he
    by_cases hj : j = i
    · subst hj
      rw [hrt, Function.update_self] at he
      rcases hentry id e he with ⟨stream, hs, hrest⟩
      refine ⟨stream, ?_, hrest⟩
      rw [hst, Function.update_self]
      exact prune_eq_some_iff.mpr ⟨⟨e, he⟩, hs⟩
    · rw [hrt, Function.update_of_ne hj] at he
      rw [hst, Function.update_of_ne hj]
      exact h.entry j id e he
  · -- and each stream that stands has an entry
    intro j id a ha
    unfold Entry
    by_cases hj : j = i
    · subst hj
      rw [hst, Function.update_self] at ha
      rw [hrt, Function.update_self]
      exact (prune_eq_some_iff.mp ha).1
    · rw [hst, Function.update_of_ne hj] at ha
      rw [hrt, Function.update_of_ne hj]
      exact h.live j id a ha

/-- What an id means after node `i` has changed. -/
theorem Means.change {s t : StreamPair} {i : Bool} {rt : Runtime Bool}
    {stands : UInt64 → Option Stream}
    (hst : t.stands = Function.update s.stands i (prune rt stands)) {id : UInt64} {a : Stream}
    (h : t.Means id a) : stands id = some a ∨ s.stands (!i) id = some a ∨
      ∃ m ∈ t.flight, Runtime.namedStream m.msg = some id ∧ m.stream = a := by
  rcases h with ⟨j, hj⟩ | hm
  · by_cases hji : j = i
    · rw [hji, hst, Function.update_self] at hj
      exact Or.inl (prune_eq_some_iff.mp hj).2
    · rw [hst, Function.update_of_ne hji] at hj
      rw [Bool.eq_not.mpr hji] at hj
      exact Or.inr (Or.inl hj)
  · exact Or.inr (Or.inr hm)

/-- The same for a change after which no id means anything new. -/
theorem Inv.change_old {s t : StreamPair} (h : s.Inv) {i : Bool} {rt : Runtime Bool}
    {stands : UInt64 → Option Stream} (hrt : t.rt = Function.update s.rt i rt)
    (hst : t.stands = Function.update s.stands i (prune rt stands))
    (hopened : t.opened = s.opened)
    (hentry : ∀ id e, rt.streams.get? id = some e → ∃ stream, stands id = some stream ∧
      e.peer = !i ∧ e.reason = stream.reason ∧ (e.direction = .outbound ↔ stream.opener = i))
    (hopening : ∀ m ∈ t.flight, ∀ id reason, m.msg = .requestStream id reason →
      m.stream.reason = reason ∧ m.stream.opener = !m.dest)
    (hmeans : ∀ id a, t.Means id a → s.Means id a) : t.Inv := by
  apply h.change hrt hst hentry hopening
  · intro id a b ha hb
    exact h.unique id a b (hmeans id a ha) (hmeans id b hb)
  · intro id a ha
    rw [hopened]
    exact h.serial id a (hmeans id a ha)

section Steps

variable {lib : External Bool} {s t : StreamPair}

/-- What a stream command sends is about the stream of its entry, and opens none. -/
theorem packets_act {i : Bool} {env : Env Bool} {cmd : Command} {id : UInt64} (h : s.Inv)
    (hcmd : Runtime.commandStream cmd = some id) {m : Packet}
    (hm : m ∈ (s.stands i id).elim [] (packets ((s.rt i).handleCommand lib env cmd).2)) :
    Runtime.namedStream m.msg = some id ∧ s.stands i id = some m.stream ∧
      ∀ j reason, m.msg ≠ .requestStream j reason := by
  cases hs : s.stands i id with
  | none =>
    rw [hs] at hm
    cases hm
  | some stream =>
    rw [hs] at hm
    obtain ⟨e, he⟩ := h.live i id stream hs
    rcases List.mem_map.mp hm with ⟨⟨p, msg⟩, hsent, rfl⟩
    rw [(Runtime.handleCommand_found hcmd he).2] at hsent
    rcases List.mem_map.mp hsent with ⟨msg', hmsg, heq⟩
    cases heq
    have hnamed := Runtime.named_commandEntry hcmd (Option.mem_toList.mp hmsg)
    exact ⟨hnamed.1, rfl, hnamed.2⟩

/-- A stream command: its message is about the stream of the entry it is for. -/
theorem act_inv {i : Bool} {env : Env Bool} {cmd : Command} (h : s.Inv)
    (hstep : (streamPair lib).step s (.act i env cmd) = some t) : t.Inv := by
  simp only [streamPair, step] at hstep
  cases hcmd : Runtime.commandStream cmd with
  | none =>
    rw [hcmd] at hstep
    cases hstep
  | some id =>
    simp only [hcmd, Option.some.injEq] at hstep
    -- no id gets a new meaning
    have hmeans : ∀ j a, t.Means j a → s.Means j a := by
      intro j a ha
      rcases Means.change (by rw [← hstep]) ha with hi | ho | ⟨m, hm, hj, rfl⟩
      · exact Or.inl ⟨i, hi⟩
      · exact Or.inl ⟨!i, ho⟩
      · rw [← hstep] at hm
        rcases List.mem_append.mp hm with hm | hm
        · obtain ⟨hid, hs, -⟩ := packets_act h hcmd hm
          rw [hid] at hj
          cases hj
          exact Or.inl ⟨i, hs⟩
        · exact Or.inr ⟨m, hm, hj, rfl⟩
    refine h.change_old (by rw [← hstep]) (by rw [← hstep]) (by rw [← hstep]) ?_ ?_ hmeans
    · -- the entry named keeps its role, the others stay
      intro j e he
      cases hget : (s.rt i).streams.get? id with
      | none =>
        rw [(Runtime.handleCommand_not_found hcmd hget).1] at he
        exact h.entry i j e he
      | some state =>
        rw [(Runtime.handleCommand_found hcmd hget).1] at he
        split_ifs at he with hj
        · obtain ⟨hp, hr, hd⟩ := Runtime.commandEntry_role he
          rw [hp, hr, hd, hj]
          exact h.entry i id state hget
        · exact h.entry i j e he
    · -- a command sends no request
      intro m hm j reason hmsg
      rw [← hstep] at hm
      rcases List.mem_append.mp hm with hm | hm
      · exact absurd hmsg ((packets_act h hcmd hm).2.2 j reason)
      · exact h.opening m hm j reason hmsg

/-- A delivery: an opening message makes an entry for its stream, any other one
acts on the stream it is about. -/
theorem deliver_inv {m : Packet} (h : s.Inv)
    (hstep : (streamPair lib).step s (.deliver m) = some t) : t.Inv := by
  simp only [streamPair, step] at hstep
  split_ifs at hstep with hm
  rw [Option.some.injEq] at hstep
  have hsub : ∀ m' ∈ t.flight, m' ∈ s.flight := by
    intro m' hm'
    rw [← hstep] at hm'
    exact List.mem_of_mem_erase hm'
  -- the table of the receiver may only get what the message means
  have hstands : ∀ id a, (match m.msg with
      | .requestStream id _ => Function.update (s.stands m.dest) id (some m.stream)
      | _ => s.stands m.dest) id = some a → s.Means id a := by
    intro id a ha
    cases hmsg : m.msg with
    | requestStream j reason =>
      simp only [hmsg] at ha
      by_cases hj : id = j
      · rw [hj, Function.update_self] at ha
        cases ha
        exact Or.inr ⟨m, hm, by rw [hmsg, hj]; rfl, rfl⟩
      · rw [Function.update_of_ne hj] at ha
        exact Or.inl ⟨_, ha⟩
    | _ =>
      simp only [hmsg] at ha
      exact Or.inl ⟨_, ha⟩
  have hmeans : ∀ id a, t.Means id a → s.Means id a := by
    intro id a ha
    rcases Means.change (by rw [← hstep]) ha with hi | ho | ⟨m', hm', hid, rfl⟩
    · exact hstands id a hi
    · exact Or.inl ⟨_, ho⟩
    · exact Or.inr ⟨m', hsub m' hm', hid, rfl⟩
  refine h.change_old (by rw [← hstep]) (by rw [← hstep]) (by rw [← hstep]) ?_
    (fun m' hm' => h.opening m' (hsub m' hm')) hmeans
  intro id e he
  cases hn : Runtime.namedStream m.msg with
  | none =>
    cases hmsg : m.msg with
    | syncContext incoming =>
      rw [hmsg] at he
      exact h.entry m.dest id e he
    | _ =>
      rw [hmsg] at hn
      cases hn
  | some i =>
    rw [Runtime.get?_handleStreamMessage hn] at he
    split_ifs at he with hid
    · subst hid
      rcases Runtime.messageEntry_role he with ⟨j, reason, hmsg, rfl⟩ | ⟨e₀, he₀, hp, hr, hd⟩
      · -- a new entry, for the stream that is opened
        rw [hmsg] at hn ⊢
        cases hn
        rcases h.opening m hm id reason hmsg with ⟨hreason, hopener⟩
        refine ⟨m.stream, Function.update_self .., rfl, hreason.symm, iff_of_false nofun ?_⟩
        rw [hopener]
        exact Bool.not_ne_self _
      · -- the entry that was there, for the same stream
        rcases h.entry m.dest id e₀ he₀ with ⟨a, ha, hpeer, hreason, hdir⟩
        have ham : a = m.stream :=
          h.unique id _ _ (Or.inl ⟨m.dest, ha⟩) (Or.inr ⟨m, hm, hn, rfl⟩)
        refine ⟨a, ?_, hp.trans hpeer, hr.trans hreason, hd ▸ hdir⟩
        cases hmsg : m.msg with
        | requestStream j reason =>
          rw [hmsg] at hn
          cases hn
          rw [ham]
          exact Function.update_self ..
        | _ => exact ha
    · rcases h.entry m.dest id e he with ⟨a, ha, hrest⟩
      refine ⟨a, ?_, hrest⟩
      cases hmsg : m.msg with
      | requestStream j reason =>
        rw [hmsg] at hn
        cases hn
        exact (Function.update_of_ne hid ..).trans ha
      | _ => exact ha

/-- The stream an opening at `i` makes. -/
def opening (s : StreamPair) (i : Bool) (reason : String) : Stream := ⟨s.opened, i, reason⟩

/-- The message an opening at `i` sends. -/
def request (s : StreamPair) (i : Bool) (reason : String) : Packet :=
  ⟨!i, .requestStream (s.rt i).nextStreamId reason, s.opening i reason⟩

/-- What an opening does: the new table has the new entry in place of whatever
was there. -/
theorem step_open {i : Bool} {env : Env Bool} {reason : String}
    (hstep : (streamPair lib).step s (.open i env reason) = some t) :
    ∃ rt, (∀ id, rt.streams.get? id = if id = (s.rt i).nextStreamId then
        some ⟨!i, reason, .requested, .outbound⟩ else (s.rt i).streams.get? id) ∧
      t.rt = Function.update s.rt i rt ∧
      t.stands = Function.update s.stands i (prune rt (Function.update (s.stands i)
        (s.rt i).nextStreamId (some (s.opening i reason)))) ∧
      t.flight = s.request i reason :: s.flight ∧ t.opened = s.opened + 1 := by
  simp only [streamPair, step, Option.some.injEq] at hstep
  obtain ⟨hget, hsent⟩ := Runtime.handleCommand_open lib env (s.rt i) (!i) reason
  have hflight : t.flight = s.request i reason :: s.flight := by
    rw [← hstep]
    simp only [packets, hsent]
    rfl
  rw [← hstep] at hflight ⊢
  exact ⟨_, hget, rfl, rfl, hflight, rfl⟩

/-- After an opening with a fresh id, the id means the new stream and nothing else. -/
theorem means_open {i : Bool} {env : Env Bool} {reason : String} (h : s.Inv)
    (hfresh : s.FreshId (.open i env reason))
    (hstep : (streamPair lib).step s (.open i env reason) = some t) {id : UInt64} {a : Stream}
    (ha : t.Means id a) : (id = (s.rt i).nextStreamId ∧ a = s.opening i reason) ∨
      (id ≠ (s.rt i).nextStreamId ∧ s.Means id a) := by
  rcases hfresh with ⟨htable, hquiet⟩
  obtain ⟨rt, -, -, hst, hflight, -⟩ := step_open hstep
  rcases Means.change hst ha with hown | hother | ⟨m, hm, hnamed, rfl⟩
  · by_cases hid : id = (s.rt i).nextStreamId
    · rw [hid, Function.update_self] at hown
      exact Or.inl ⟨hid, (Option.some.inj hown).symm⟩
    · rw [Function.update_of_ne hid] at hown
      exact Or.inr ⟨hid, Or.inl ⟨i, hown⟩⟩
  · -- the other table does not know the new id
    refine Or.inr ⟨?_, Or.inl ⟨_, hother⟩⟩
    intro hid
    rcases h.live _ _ _ hother with ⟨e, he⟩
    rw [hid] at he
    exact Option.some_ne_none e (he.symm.trans htable)
  · rw [hflight] at hm
    rcases List.mem_cons.mp hm with rfl | hm
    · exact Or.inl ⟨(Option.some.inj hnamed).symm, rfl⟩
    · refine Or.inr ⟨?_, Or.inr ⟨m, hm, hnamed, rfl⟩⟩
      intro hid
      exact hquiet m hm (hid ▸ hnamed)

/-- An opening with a fresh id. -/
theorem open_inv {i : Bool} {env : Env Bool} {reason : String} (h : s.Inv)
    (hfresh : s.FreshId (.open i env reason))
    (hstep : (streamPair lib).step s (.open i env reason) = some t) : t.Inv := by
  have hmeans : ∀ id a, t.Means id a → _ := fun id a ha => means_open h hfresh hstep ha
  obtain ⟨rt, hget, hrt, hst, hflight, hopened⟩ := step_open hstep
  refine h.change hrt hst ?_ ?_ ?_ ?_
  · -- the new entry, and the old ones
    intro id e he
    rw [hget] at he
    split_ifs at he with hid
    · cases he
      rw [hid]
      exact ⟨_, Function.update_self .., rfl, rfl, iff_of_true rfl rfl⟩
    · rcases h.entry i id e he with ⟨a, ha, hrest⟩
      exact ⟨a, (Function.update_of_ne hid ..).trans ha, hrest⟩
  · -- the request in flight
    intro m hm id r hmsg
    rw [hflight] at hm
    rcases List.mem_cons.mp hm with rfl | hm
    · cases hmsg
      exact ⟨rfl, (Bool.not_not i).symm⟩
    · exact h.opening m hm id r hmsg
  · -- the new id meant nothing before
    intro id a b ha hb
    rcases hmeans id a ha with ⟨hid, rfl⟩ | ⟨hid, ha⟩
    · rcases hmeans id b hb with ⟨-, rfl⟩ | ⟨hid', -⟩
      · rfl
      · exact absurd hid hid'
    · rcases hmeans id b hb with ⟨hid', -⟩ | ⟨-, hb⟩
      · exact absurd hid' hid
      · exact h.unique id a b ha hb
  · -- streams are numbered as they are opened
    intro id a ha
    rw [hopened]
    rcases hmeans id a ha with ⟨-, rfl⟩ | ⟨-, ha⟩
    · exact Nat.lt_succ_self _
    · exact Nat.lt_succ_of_lt (h.serial id a ha)

/-- Every step that draws a fresh id, if any, keeps the invariant. -/
theorem step_inv (s : StreamPair) (l : Label) (t : StreamPair)
    (hstep : (streamPair lib).step s l = some t) (hfresh : s.FreshId l) (h : s.Inv) : t.Inv := by
  cases l with
  | «open» i env reason => exact open_inv h hfresh hstep
  | act i env cmd => exact act_inv h hstep
  | deliver m => exact deliver_inv h hstep

/-! ## Collisions -/

variable (lib) in
/-- An opening message that arrives takes its id. -/
theorem deliver_request {i : Bool} {id : UInt64} {reason : String} {stream : Stream}
    (hm : ⟨i, .requestStream id reason, stream⟩ ∈ s.flight) :
    ∃ t, (streamPair lib).step s (.deliver ⟨i, .requestStream id reason, stream⟩) = some t ∧
      t.Entry i id ⟨!i, reason, .requested, .inbound⟩ ∧ t.stands i id = some stream ∧
      t.flight = s.flight.erase ⟨i, .requestStream id reason, stream⟩ := by
  have hget : ((s.rt i).handleStreamMessage lib (!i) (.requestStream id reason)).1.streams.get? id =
      some ⟨!i, reason, .requested, .inbound⟩ := by
    rw [Runtime.get?_handleStreamMessage rfl, if_pos rfl]
    rfl
  refine ⟨_, if_pos hm, ?_, ?_, rfl⟩
  · unfold Entry
    simp only [Function.update_self]
    exact hget
  · simp only [Function.update_self]
    exact prune_eq_some_iff.mpr ⟨⟨_, hget⟩, Function.update_self ..⟩

/-- An id that is not fresh means another stream to somebody, now or once the
opening message has arrived. -/
theorem collides {i : Bool} {env : Env Bool} {reason : String} (h : s.Inv)
    (hused : ¬ s.FreshId (.open i env reason))
    (hstep : (streamPair lib).step s (.open i env reason) = some t) :
    ∃ ks u, (streamPair lib).run t ks = some u ∧ ¬ u.SameStream := by
  obtain ⟨rt, hget, hrt, hst, hflight, -⟩ := step_open hstep
  have hne : (!i) ≠ i := Bool.not_ne_self i
  have hnew : ∀ a, s.Means (s.rt i).nextStreamId a → a ≠ s.opening i reason := by
    intro a ha heq
    have hlt := h.serial _ a ha
    rw [heq] at hlt
    exact lt_irrefl _ hlt
  have hreq : s.request i reason ∈ t.flight := by
    rw [hflight]
    exact List.mem_cons_self
  by_cases htable : (s.rt (!i)).streams.get? (s.rt i).nextStreamId = none
  · have hm : ∃ m ∈ s.flight, Runtime.namedStream m.msg = some (s.rt i).nextStreamId := by
      by_contra hno
      exact hused ⟨htable, fun m hm hnamed => hno ⟨m, hm, hnamed⟩⟩
    rcases hm with ⟨m, hm, hnamed⟩
    have hold : m ∈ t.flight := by
      rw [hflight]
      exact List.mem_cons_of_mem _ hm
    have hother : m.stream ≠ s.opening i reason := hnew _ (Or.inr ⟨m, hm, hnamed, rfl⟩)
    by_cases hdest : m.dest = i
    · -- on its way to the opener
      have hentry : t.Entry m.dest (s.rt i).nextStreamId ⟨!i, reason, .requested, .outbound⟩ := by
        unfold Entry
        rw [hdest, hrt, Function.update_self, hget, if_pos rfl]
      refine ⟨[], t, rfl, ?_⟩
      intro hsame
      have hs := (hsame m hold _ _ hnamed hentry).1
      rw [hdest, hst, Function.update_self] at hs
      have hs' := (prune_eq_some_iff.mp hs).2
      rw [Function.update_self] at hs'
      exact hother (Option.some.inj hs').symm
    · -- on its way to the other node: the opening message overtakes it
      obtain ⟨u, hu, hentry, hstands, hflight'⟩ := deliver_request lib hreq
      have hm' : m ∈ u.flight := by
        rw [hflight']
        refine (List.mem_erase_of_ne ?_).mpr hold
        intro heq
        exact hother (congrArg Packet.stream heq)
      refine ⟨[.deliver (s.request i reason)], u,
        (streamPair lib).run_cons_eq_some.mpr ⟨u, hu, rfl⟩, ?_⟩
      intro hsame
      rw [← Bool.eq_not.mpr hdest] at hentry hstands
      have hs := (hsame m hm' _ _ hnamed hentry).1
      rw [hstands] at hs
      exact hother (Option.some.inj hs).symm
  · -- the other table has the id
    obtain ⟨e, he⟩ := Option.ne_none_iff_exists'.mp htable
    have hentry : t.Entry (!i) (s.rt i).nextStreamId e := by
      unfold Entry
      rw [hrt, Function.update_of_ne hne]
      exact he
    refine ⟨[], t, rfl, ?_⟩
    intro hsame
    have hs := (hsame _ hreq _ _ rfl hentry).1
    rw [show (s.request i reason).dest = !i from rfl, hst, Function.update_of_ne hne] at hs
    exact hnew _ (Or.inl ⟨_, hs⟩) rfl

end Steps

/-- **Streams from both ends**: as long as every newly drawn id is used neither by
the other table nor by a message in flight, every message acts on the entry of
its own stream or on none; a run that draws a used id can be continued to a
state in which a message is about to act on the entry of another stream. -/
theorem no_collision (lib : External Bool) (s : StreamPair) (h₀ : (streamPair lib).Init s)
    (ls : List Label) (hfresh : (streamPair lib).AllSteps FreshId s ls) :
    (streamPair lib).AllStates SameStream s ls ∧
      ∀ t i env reason u, (streamPair lib).run s ls = some t →
        ¬ t.FreshId (.open i env reason) →
        (streamPair lib).step t (.open i env reason) = some u →
        ∃ ks v, (streamPair lib).run u ks = some v ∧ ¬ v.SameStream := by
  constructor
  · have hinv : (streamPair lib).AllStates Inv s ls :=
      (streamPair lib).allStates_of_allSteps step_inv (init_inv h₀) hfresh
    exact Machine.AllStates.mono _ (fun _ h => h.sameStream) hinv
  · intro t i env reason u hrun hused hstep
    have hinv : t.Inv := (streamPair lib).run_invariant_of step_inv hrun (init_inv h₀) hfresh
    exact collides hinv hused hstep

/-! ## Both ends at once -/

/-- Two peers called "A" and "B". -/
def twoNames : External Bool where
  toBase58 b := if b then "B" else "A"
  fromStr s := if s = "B" then some true else if s = "A" then some false else none
  fromStr_toBase58 b := by cases b <;> rfl
  encodeContext _ := none
  decodeContext _ := none
  json := .table []

/-- Two nodes that have just started. -/
def booted : StreamPair where
  rt i := .new twoNames i 0
  stands _ _ := none
  flight := []
  opened := 0

theorem booted_init : (streamPair twoNames).Init booted :=
  ⟨fun _ => ⟨0, rfl⟩, fun _ _ => rfl, rfl⟩

/-- "A" opens a stream, which "B" accepts and closes. -/
def oneSided : List Label :=
  [.open false (.calm Bool) "chat",
    .deliver ⟨true, .requestStream 1 "chat", ⟨0, false, "chat"⟩⟩,
    .act true (.calm Bool) (.acceptStream ⟨1⟩),
    .deliver ⟨false, .acceptStream 1, ⟨0, false, "chat"⟩⟩,
    .act true (.calm Bool) (.closeStream ⟨1⟩)]

theorem no_collision_oneSided : (streamPair twoNames).AllStates SameStream booted oneSided :=
  (no_collision twoNames booted booted_init oneSided (by decide +kernel)).1

/-- "A" and "B" open their first streams to each other at the same time. -/
theorem both_open : ¬ ∀ (lib : External Bool) s ls, (streamPair lib).Init s →
    (streamPair lib).AllStates SameStream s ls := by
  intro h
  have hall := h twoNames booted
    [.open false (.calm Bool) "chat", .open true (.calm Bool) "file"] booted_init
  have hsame := (hall.2 _ rfl).2 _ rfl
  -- the entry of "B" is about its own file
  have hreason := (hsame ⟨true, .requestStream 1 "chat", ⟨0, false, "chat"⟩⟩ (by decide +kernel) 1
    ⟨false, "file", .requested, .outbound⟩ rfl (by unfold Entry; decide +kernel)).2.1
  exact absurd hreason (by decide)

end StreamPair

end AviNet
