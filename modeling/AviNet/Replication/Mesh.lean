import AviNet.Replication.ContextPair
import AviNet.Replication.Network
import AviNet.Runtime.ContextTurns

/-!
# Replication.Mesh — any number of runtimes and the contexts between them

The nodes of `Network` with their whole runtimes: each takes turns of its event
loop, with any commands, connections, streams and messages, and the contexts
they send as `SyncContext` requests or as gossip reach anybody, late, twice or
never, and as `serde_json` reads them. The results are about runs in which the
contexts of the nodes are read as they were written (`ReadsBack`).

* `run_refines`: seen from their contexts the runtimes are a `Network`;
* `clocks_count_commands`: the entry of a node in any clock anywhere is at most
  the number of context commands that node has handled, and its own entry is
  exactly that number.
-/

namespace AviNet

/-- A context on its way to other nodes. -/
inductive Parcel where
  /-- a `SyncContext` request -/
  | sync (ctx : AviContext)
  /-- a message on the context topic -/
  | gossip (data : Bytes)
  deriving DecidableEq

/-- The event at a node that the parcel reaches. -/
def Parcel.event {Peer : Type} (lib : External Peer) (source : Peer) : Parcel → SwarmEvent Peer
  | .sync ctx => StreamCodec.arrival lib source (.syncContext ctx)
  | .gossip data => .gossip source Runtime.contextTopic data

/-- The context that is read there. -/
def Parcel.context {Peer : Type} (lib : External Peer) : Parcel → Option AviContext
  | .sync ctx =>
    (StreamCodec.received lib.json.toStreamText (.syncContext ctx)).bind StreamMessage.context?
  | .gossip data => lib.decodeContext data

/-- All runtimes and the contexts in flight. -/
structure Mesh (ι Peer : Type) [LinearOrder Peer] where
  rt : ι → Runtime Peer
  flight : List Parcel

namespace Mesh

variable {ι Peer : Type} [DecidableEq ι] [LinearOrder Peer]

/-! ## Model layer -/

inductive Label (ι Peer : Type) where
  /-- a turn of the node `n` that handles no context -/
  | turn (n : ι) (env : Env Peer) (l : Runtime.Label Peer)
  /-- the `k`th context in flight reaches the node `n` as one from `source` -/
  | deliver (n : ι) (env : Env Peer) (source : Peer) (k : ℕ)

/-- The parcel that an effect puts in flight. -/
def parcel : Effect Peer → Option Parcel
  | .send _ (.syncContext ctx) => some (.sync ctx)
  | .published topic data => if topic = Runtime.contextTopic then some (.gossip data) else none
  | _ => none

/-- The node `n` takes a turn. -/
def act (lib : External Peer) (s : Mesh ι Peer) (n : ι) (env : Env Peer)
    (l : Runtime.Label Peer) : Mesh ι Peer where
  rt := Function.update s.rt n ((s.rt n).turn lib env l).1
  flight := s.flight ++ ((s.rt n).turn lib env l).2.filterMap parcel

def step (lib : External Peer) (s : Mesh ι Peer) : Label ι Peer → Option (Mesh ι Peer)
  -- contexts come from the flight only
  | .turn n env l => if ContextPair.bringsContext l then none else some (s.act lib n env l)
  | .deliver n env source k => s.flight[k]?.map fun p =>
    s.act lib n env (.swarm (p.event lib source))

/-- Nodes that have just started. -/
def Init (lib : External Peer) (peer : ι ↪ Peer) (s : Mesh ι Peer) : Prop :=
  (∀ n, ∃ now, s.rt n = .new lib (peer n) now) ∧ s.flight = []

end Mesh

open Mesh in
/-- The machine of the nodes with these peer ids. -/
def mesh {ι Peer : Type} [DecidableEq ι] [LinearOrder Peer] (lib : External Peer)
    (peer : ι ↪ Peer) : Machine (Mesh ι Peer) (Mesh.Label ι Peer) where
  Init := Init lib peer
  step := step lib

/-- The device ids of the nodes: their peer ids as text. -/
def External.deviceIds {ι Peer : Type} (lib : External Peer) (peer : ι ↪ Peer) : ι ↪ String where
  toFun n := lib.toBase58 (peer n)
  inj' _ _ h := peer.injective (lib.peerId_injective (congrArg PeerId.mk h))

/-! ## Conditions on the writes -/

namespace Network

/-- The writes of a step meet `Q`, judged by the context before. -/
def WritesMeet {ι : Type} (Q : AviContext → AviContext.ContextWrite → UInt64 → Prop)
    (s : Network ι) : Label ι → Prop
  | .write n w now => Q (s.nodes n) w now
  | .sync _ | .deliver _ _ => True

/-- The counter of the context has room for one more write. -/
def HasCount (c : AviContext) (_ : AviContext.ContextWrite) (_ : UInt64) : Prop :=
  c.version c.deviceId + 1 < 2 ^ 64

variable {ι : Type} {deviceId : ι ↪ String} {a b : Network ι}

/-- A write whose counter has room does not overflow. -/
theorem noOverflow_of_count {l : Label ι}
    (h : a.WritesMeet HasCount l) : a.NoOverflow l := by
  cases l with
  | write n w now => exact h
  | sync n => exact True.intro
  | deliver n c => exact True.intro

/-- No clock has entries for anything but a node. -/
def Named (deviceId : ι ↪ String) (a : Network ι) : Prop :=
  ∀ c, a.Holds c → ∀ x, (∀ n, x ≠ deviceId n) → c.version x = 0

/-- A node gets a new context, and what is in flight afterwards is known. -/
theorem forall_holds_update [DecidableEq ι] {P : AviContext → Prop} {n : ι} {m : AviContext}
    (hm : P m) (ha : ∀ c, a.Holds c → P c) {flight : List AviContext}
    (hflight : ∀ c ∈ flight, c = m ∨ a.Holds c) :
    ∀ c, Holds ⟨Function.update a.nodes n m, flight⟩ c → P c := by
  rintro c (⟨k, rfl⟩ | hc)
  · show P (Function.update a.nodes n m k)
    by_cases hk : k = n
    · rw [hk, Function.update_self]
      exact hm
    · rw [Function.update_of_ne hk]
      exact ha _ (Or.inl ⟨k, rfl⟩)
  · rcases hflight c hc with rfl | hc
    · exact hm
    · exact ha c hc

/-- Every step keeps the clocks within the ids of the nodes. -/
theorem step_named [DecidableEq ι] {l : Label ι} (hstep : (network deviceId).step a l = some b)
    (hl : NoOverflow a l) (hid : a.OwnIds deviceId) (ha : a.Named deviceId) :
    b.Named deviceId := by
  cases l with
  | write n w now =>
    -- a write raises the writer's own entry only
    cases hstep
    refine forall_holds_update ?_ ha ?_
    · intro x hx
      rw [AviContext.version_commit hl, hid n, Function.update_of_ne (hx n)]
      exact ha _ (Or.inl ⟨n, rfl⟩) x hx
    · intro c hc
      rcases List.mem_cons.mp hc with rfl | hc
      · exact Or.inl rfl
      · exact Or.inr (Or.inr hc)
  | sync n =>
    -- a sync copies a context
    cases hstep
    rintro c (⟨k, rfl⟩ | hc) x hx
    · exact ha _ (Or.inl ⟨k, rfl⟩) x hx
    · rcases List.mem_cons.mp hc with rfl | hc
      · exact ha _ (Or.inl ⟨n, rfl⟩) x hx
      · exact ha c (Or.inr hc) x hx
  | deliver n c =>
    -- a merge takes the larger entries, which are zero at other names
    simp only [network, step] at hstep
    split_ifs at hstep with hc
    cases hstep
    refine forall_holds_update ?_ ha fun d hd => Or.inr (Or.inr hd)
    · intro x hx
      rw [AviContext.version_merge, Pi.sup_apply, ha _ (Or.inl ⟨n, rfl⟩) x hx,
        ha c (Or.inr hc) x hx]
      rfl

/-- The empty clocks of the start name nobody. -/
theorem init_named [DecidableEq ι] (h : (network deviceId).Init a) : a.Named deviceId := by
  rintro c (⟨n, rfl⟩ | hc) x _
  · rcases h.1 n with ⟨now, hn⟩
    rw [hn]
    rfl
  · rw [h.2] at hc
    cases hc

/-- In every state of a run below the last counter value, clocks have entries for
nodes only, and claim no more about a node than the node itself. -/
theorem run_named [DecidableEq ι] {ls : List (Label ι)} (h₀ : (network deviceId).Init a)
    (hrun : (network deviceId).run a ls = some b)
    (hok : (network deviceId).AllSteps NoOverflow a ls) :
    b.Inv deviceId ∧ b.Named deviceId := by
  have hstep : ∀ a l b, (network deviceId).step a l = some b → NoOverflow a l →
      a.Inv deviceId ∧ a.Named deviceId → b.Inv deviceId ∧ b.Named deviceId := by
    intro a l b hab hl h
    exact ⟨step_inv hab hl h.1, step_named hab hl h.1.ownIds h.2⟩
  exact (network deviceId).run_invariant_of hstep hrun ⟨init_inv h₀, init_named h₀⟩ hok

end Network

namespace Mesh

variable {ι Peer : Type} [DecidableEq ι] [LinearOrder Peer]

/-- The writes of a turn meet `Q`, and no application publishes a context of its
own making. -/
def WritesMeet (lib : External Peer)
    (Q : AviContext → AviContext.ContextWrite → UInt64 → Prop) (s : Mesh ι Peer) :
    Label ι Peer → Prop
  | .turn n env l => Runtime.PublishesNone lib l ∧
      ∀ w, Runtime.contextWrite l = some w → Q (s.rt n).localContext w env.now
  | .deliver _ _ _ _ => True

/-- The counters stay below `2 ^ 64`, and no application publishes a context of its own
making. -/
def Sound (lib : External Peer) : Mesh ι Peer → Label ι Peer → Prop :=
  WritesMeet lib Network.HasCount

/-- Whatever is read of a node's context is that context. -/
def ReadsBack (lib : External Peer) (s : Mesh ι Peer) : Prop :=
  ∀ n, lib.Keeps (s.rt n).localContext

/-! ## The contexts of a mesh as a network -/

/-- `b` holds the contexts of `t`, and has all those in flight that can be read. -/
structure Matches (lib : External Peer) (t : Mesh ι Peer) (b : Network ι) : Prop where
  nodes : ∀ n, b.nodes n = (t.rt n).localContext
  flight : ∀ p ∈ t.flight, ∀ c, p.context lib = some c → c ∈ b.flight

variable {lib : External Peer} {s t : Mesh ι Peer} {a : Network ι}

omit [LinearOrder Peer] in
/-- What a parcel carries is what the effect that put it in flight sends. -/
theorem context_of_parcel {e : Effect Peer} {p : Parcel} (h : parcel e = some p) :
    p.context lib = Runtime.contextSent lib e := by
  cases e with
  | send peer msg =>
    cases msg with
    | syncContext ctx =>
      cases h
      rfl
    | _ => cases h
  | published topic data =>
    simp only [parcel] at h
    split_ifs at h with htopic
    cases h
    simp only [Runtime.contextSent, if_pos htopic, Parcel.context]
  | _ => cases h

/-- If all contexts of the mesh are read back, the one a turn leaves behind is. -/
theorem ReadsBack.act {n : ι} {env : Env Peer} {l : Runtime.Label Peer}
    (h : (s.act lib n env l).ReadsBack lib) :
    lib.Keeps ((s.rt n).turn lib env l).1.localContext := by
  have hn := h n
  rw [Mesh.act] at hn
  dsimp only at hn
  rwa [Function.update_self] at hn

/-- What is in flight after a turn: what was, and copies of the new context. -/
theorem mem_flight_act {n : ι} {env : Env Peer} {l : Runtime.Label Peer}
    (hkeeps : (s.act lib n env l).ReadsBack lib) (hl : Runtime.PublishesNone lib l) {p : Parcel}
    (hp : p ∈ (s.act lib n env l).flight) {c : AviContext} (hc : p.context lib = some c) :
    p ∈ s.flight ∨ c = ((s.rt n).turn lib env l).1.localContext := by
  rcases List.mem_append.mp hp with hp | hp
  · exact Or.inl hp
  · rcases List.mem_filterMap.mp hp with ⟨e, he, hparcel⟩
    rw [context_of_parcel hparcel] at hc
    exact Or.inr (Runtime.sent_is_own hkeeps.act hl e he c hc)

/-- The context of one node after a turn of `n`. -/
theorem localContext_act (n : ι) (env : Env Peer) (l : Runtime.Label Peer) (m : ι) :
    ((s.act lib n env l).rt m).localContext =
      Function.update (fun m => (s.rt m).localContext) n
        ((s.rt n).turn lib env l).1.localContext m := by
  exact Function.apply_update (fun _ rt => rt.localContext) s.rt n _ m

/-! ## Refinement -/

section Refinement

variable {peer : ι ↪ Peer} {Q : AviContext → AviContext.ContextWrite → UInt64 → Prop}

/-- A turn is a step on the context of its node, and the copies it sends. -/
theorem act_matches (hm : Matches lib s a) {n : ι} {env : Env Peer} {l : Runtime.Label Peer}
    (hkeeps : (s.act lib n env l).ReadsBack lib) (hpublish : Runtime.PublishesNone lib l)
    (hQ : ∀ w, Runtime.contextWrite l = some w → Q (s.rt n).localContext w env.now)
    (harrives : ∀ c, Runtime.contextMerged lib l = some c → c ∈ a.flight) :
    ∃ ks b, (network (lib.deviceIds peer)).run a ks = some b ∧
      (network (lib.deviceIds peer)).AllSteps (Network.WritesMeet Q) a ks ∧
      Matches lib (s.act lib n env l) b := by
  -- a run that makes the new context, followed by a copy of it in flight
  have hsync : ∀ (ks : List (Network.Label ι)) (b : Network ι),
      (network (lib.deviceIds peer)).run a ks = some b →
      (network (lib.deviceIds peer)).AllSteps (Network.WritesMeet Q) a ks →
      b.nodes = Function.update a.nodes n ((s.rt n).turn lib env l).1.localContext →
      a.flight ⊆ b.flight → ∃ ks b, (network (lib.deviceIds peer)).run a ks = some b ∧
        (network (lib.deviceIds peer)).AllSteps (Network.WritesMeet Q) a ks ∧
        Matches lib (s.act lib n env l) b := by
    intro ks b hrun hok hnodes hflight
    have hown : b.nodes n = ((s.rt n).turn lib env l).1.localContext := by
      rw [hnodes, Function.update_self]
    refine ⟨ks ++ [.sync n], { b with flight := b.nodes n :: b.flight }, ?_, ?_, ?_, ?_⟩
    · exact Machine.run_append_eq_some _ |>.mpr ⟨b, hrun, rfl⟩
    · exact Machine.AllSteps.append _ hok hrun ⟨True.intro, fun _ _ => True.intro⟩
    · intro m
      rw [localContext_act, hnodes]
      congr 1
      funext k
      exact hm.nodes k
    · intro p hp c hc
      rcases mem_flight_act hkeeps hpublish hp hc with hp | rfl
      · exact List.mem_cons_of_mem _ (hflight (hm.flight p hp c hc))
      · rw [← hown]
        exact List.mem_cons_self
  cases hwrite : Runtime.contextWrite l with
  | some w =>
    -- a write
    refine hsync [.write n w env.now] (a.publish n ((a.nodes n).commit w env.now)) rfl ?_ ?_ ?_
    · refine ⟨?_, fun _ _ => True.intro⟩
      show Q (a.nodes n) w env.now
      rw [hm.nodes]
      exact hQ w hwrite
    · rw [Runtime.localContext_of_write hwrite, ← hm.nodes]
      rfl
    · exact List.subset_cons_self _ _
  | none =>
    cases hmerged : Runtime.contextMerged lib l with
    | some c =>
      -- a context arrives
      refine hsync [.deliver n c]
        { a with nodes := Function.update a.nodes n ((a.nodes n).merge c).1 } ?_
        ⟨True.intro, fun _ _ => True.intro⟩ ?_ (List.Subset.refl _)
      · simp only [Machine.run, network, Network.step, if_pos (harrives c hmerged),
          Option.bind_some]
      · rw [(Runtime.localContext_of_merge hmerged).1, ← hm.nodes]
    | none =>
      -- the context stays as it is
      refine hsync [] a rfl True.intro ?_ (List.Subset.refl _)
      rw [(Runtime.localContext_of_neither env (s.rt n) hwrite hmerged hpublish).1, ← hm.nodes,
        Function.update_eq_self]

omit [LinearOrder Peer] in
/-- The turn that handles a parcel merges the context that is read. -/
theorem contextMerged_event {source : Peer} {p : Parcel} :
    Runtime.contextMerged lib (.swarm (p.event lib source)) = p.context lib := by
  cases p with
  | sync ctx =>
    simp only [Parcel.event, StreamCodec.arrival, Parcel.context]
    cases StreamCodec.received lib.json.toStreamText (.syncContext ctx) with
    | none => rfl
    | some req => cases req <;> rfl
  | gossip data =>
    simp only [Parcel.event, Runtime.contextMerged, if_pos, Parcel.context]

omit [LinearOrder Peer] in
/-- A turn that brings no context merges none. -/
theorem contextMerged_of_not_brings {l : Runtime.Label Peer}
    (h : ContextPair.bringsContext l = false) : Runtime.contextMerged lib l = none := by
  rcases l with cmd | event | _
  · rfl
  · cases event with
    | request peer msg =>
      cases msg with
      | syncContext ctx => cases h
      | _ => rfl
    | gossip source topic data => exact if_neg (of_decide_eq_false h)
    | _ => rfl
  · rfl

/-- **The step lemma**: a step of the mesh is a run of the network. -/
theorem step_matches (hkeeps : t.ReadsBack lib) (hm : Matches lib s a) {l : Label ι Peer}
    (hstep : (mesh lib peer).step s l = some t) (hok : s.WritesMeet lib Q l) :
    ∃ ks b, (network (lib.deviceIds peer)).run a ks = some b ∧
      (network (lib.deviceIds peer)).AllSteps (Network.WritesMeet Q) a ks ∧
      Matches lib t b := by
  cases l with
  | turn n env l =>
    simp only [mesh, step] at hstep
    split_ifs at hstep with hl
    cases hstep
    apply act_matches hm hkeeps hok.1 hok.2
    intro c hc
    rw [contextMerged_of_not_brings (Bool.not_eq_true _ ▸ hl)] at hc
    cases hc
  | deliver n env source k =>
    obtain ⟨p, hp, rfl⟩ := Option.map_eq_some_iff.mp hstep
    have hpublish : Runtime.PublishesNone lib (.swarm (p.event lib source)) := True.intro
    apply act_matches hm hkeeps hpublish
    · intro w hw
      cases hw
    · intro c hc
      rw [contextMerged_event] at hc
      exact hm.flight p (List.mem_of_getElem? hp) c hc

/-- Nodes that have just started match an initial state of the abstract network. -/
theorem init_matches (h₀ : (mesh lib peer).Init s) :
    ∃ a, (network (lib.deviceIds peer)).Init a ∧ Matches lib s a := by
  refine ⟨⟨fun n => (s.rt n).localContext, []⟩, ⟨?_, rfl⟩, fun _ => rfl, ?_⟩
  · intro n
    rcases h₀.1 n with ⟨now, hn⟩
    refine ⟨now, ?_⟩
    show (s.rt n).localContext = _
    rw [hn]
    rfl
  · intro p hp
    rw [h₀.2] at hp
    cases hp

/-- **The run lemma**: a run of the mesh is a run of the network. -/
theorem run_matches (hm : Matches lib s a) {ls : List (Label ι Peer)}
    (hrun : (mesh lib peer).run s ls = some t)
    (hkeeps : (mesh lib peer).AllStates (ReadsBack lib) s ls)
    (hok : (mesh lib peer).AllSteps (WritesMeet lib Q) s ls) :
    ∃ ks b, (network (lib.deviceIds peer)).run a ks = some b ∧
      (network (lib.deviceIds peer)).AllSteps (Network.WritesMeet Q) a ks ∧
      Matches lib t b := by
  have hall := Machine.AllSteps.and _ hok (Machine.AllStates.allSteps _ hkeeps)
  exact (mesh lib peer).run_simulates_steps
    (fun _ _ _ _ hstep hok hm => step_matches (hok.2 _ hstep) hm hstep hok.1) hrun hall hm

/-- **Refinement**: in every run of the runtimes, whatever else they do, their
contexts and those in flight are the ones of a run of the network. -/
theorem run_refines {ls : List (Label ι Peer)}
    (h₀ : (mesh lib peer).Init s) (hrun : (mesh lib peer).run s ls = some t)
    (hkeeps : (mesh lib peer).AllStates (ReadsBack lib) s ls)
    (hok : (mesh lib peer).AllSteps (Sound lib) s ls) :
    ∃ a ks b, (network (lib.deviceIds peer)).Init a ∧
      (network (lib.deviceIds peer)).run a ks = some b ∧
      (network (lib.deviceIds peer)).AllSteps Network.NoOverflow a ks ∧ Matches lib t b := by
  obtain ⟨a, ha, hm⟩ := init_matches h₀
  rcases run_matches hm hrun hkeeps hok with ⟨ks, b, hks, hksok, hb⟩
  refine ⟨a, ks, b, ha, hks, ?_, hb⟩
  exact Machine.AllSteps.mono _ (fun _ _ => Network.noOverflow_of_count) hksok

end Refinement

/-! ## Clocks count the context commands -/

section Counting

variable {peer : ι ↪ Peer}

/-- The step handles a context command of the node `n`. -/
def commands (n : ι) : Label ι Peer → Bool
  | .turn m _ l => decide (m = n) && (Runtime.contextWrite l).isSome
  | .deliver _ _ _ _ => false

/-- A context that some runtime holds or that is in flight. -/
def Carries (lib : External Peer) (t : Mesh ι Peer) (c : AviContext) : Prop :=
  (∃ n, c = (t.rt n).localContext) ∨ ∃ p ∈ t.flight, p.context lib = some c

omit [DecidableEq ι] in
/-- What the mesh carries, the abstract network holds. -/
theorem Matches.holds {b : Network ι} (hm : Matches lib t b) {c : AviContext}
    (hc : t.Carries lib c) : b.Holds c := by
  rcases hc with ⟨n, rfl⟩ | ⟨p, hp, hpc⟩
  · exact Or.inl ⟨n, (hm.nodes n).symm⟩
  · exact Or.inr (hm.flight p hp c hpc)

omit [DecidableEq ι] in
/-- A turn counts up the own entry of its node if it is a context command. -/
theorem version_own_turn (hm : Matches lib s a) (ha : a.Inv (lib.deviceIds peer)) {n : ι}
    {env : Env Peer} {l : Runtime.Label Peer} (hpublish : Runtime.PublishesNone lib l)
    (hcount : ∀ w, Runtime.contextWrite l = some w →
      Network.HasCount (s.rt n).localContext w env.now)
    (harrives : ∀ c, Runtime.contextMerged lib l = some c → c ∈ a.flight) :
    ((s.rt n).turn lib env l).1.localContext.version (lib.deviceIds peer n) =
      (s.rt n).localContext.version (lib.deviceIds peer n) +
        if (Runtime.contextWrite l).isSome then 1 else 0 := by
  have hid : (s.rt n).localContext.deviceId = lib.deviceIds peer n := by
    rw [← hm.nodes]
    exact ha.ownIds n
  cases hwrite : Runtime.contextWrite l with
  | some w =>
    rw [Runtime.localContext_of_write hwrite, AviContext.version_commit (hcount w hwrite), hid,
      Function.update_self]
    rfl
  | none =>
    cases hmerged : Runtime.contextMerged lib l with
    | some c =>
      -- nobody claims more about the node than the node itself
      have hheld : a.Holds c := Or.inr (harrives c hmerged)
      have hown := ha.bounded.join_own hheld.known n
      have hversion : a.abs.clock n = (s.rt n).localContext.version :=
        congrArg AviContext.version (hm.nodes n)
      rw [hversion] at hown
      rw [(Runtime.localContext_of_merge hmerged).1, AviContext.version_merge]
      exact hown
    | none =>
      rw [(Runtime.localContext_of_neither env (s.rt n) hwrite hmerged hpublish).1]
      rfl

/-- A step raises a node's own entry by one if it is a write of that node, and leaves it
otherwise. -/
theorem version_own_step (hm : Matches lib s a) (ha : a.Inv (lib.deviceIds peer))
    {l : Label ι Peer} (hstep : (mesh lib peer).step s l = some t) (hok : s.Sound lib l) (n : ι) :
    (t.rt n).localContext.version (lib.deviceIds peer n) =
      (s.rt n).localContext.version (lib.deviceIds peer n) + if commands n l then 1 else 0 := by
  -- one turn of a node, whatever brings it about
  have hact : ∀ (m : ι) (env : Env Peer) (l : Runtime.Label Peer),
      Runtime.PublishesNone lib l →
      (∀ w, Runtime.contextWrite l = some w → Network.HasCount (s.rt m).localContext w env.now) →
      (∀ c, Runtime.contextMerged lib l = some c → c ∈ a.flight) →
      (((s.act lib m env l).rt n).localContext).version (lib.deviceIds peer n) =
        (s.rt n).localContext.version (lib.deviceIds peer n) +
          if decide (m = n) && (Runtime.contextWrite l).isSome then 1 else 0 := by
    intro m env l hpublish hcount harrives
    rw [localContext_act]
    by_cases hmn : m = n
    · subst hmn
      rw [Function.update_self, version_own_turn hm ha hpublish hcount harrives]
      simp
    · rw [Function.update_of_ne fun h => hmn h.symm]
      simp [hmn]
  -- a turn merges nothing by itself
  cases l with
  | turn m env l =>
    simp only [mesh, step] at hstep
    split_ifs at hstep with hl
    cases hstep
    apply hact m env l hok.1 hok.2
    intro c hc
    rw [contextMerged_of_not_brings (Bool.not_eq_true _ ▸ hl)] at hc
    cases hc
  | deliver m env source k =>
    -- a delivery writes nothing
    obtain ⟨p, hp, rfl⟩ := Option.map_eq_some_iff.mp hstep
    have hpublish : Runtime.PublishesNone lib (.swarm (p.event lib source)) := True.intro
    rw [hact m env _ hpublish (fun w hw => by cases hw)]
    · simp [commands, Runtime.contextWrite]
    · intro c hc
      rw [contextMerged_event] at hc
      exact hm.flight p (List.mem_of_getElem? hp) c hc

/-- A run counts up the own entry of a node by its context commands. -/
theorem version_own_run (hm : Matches lib s a) (ha : a.Inv (lib.deviceIds peer))
    {ls : List (Label ι Peer)} (hrun : (mesh lib peer).run s ls = some t)
    (hkeeps : (mesh lib peer).AllStates (ReadsBack lib) s ls)
    (hok : (mesh lib peer).AllSteps (Sound lib) s ls) (n : ι) :
    (t.rt n).localContext.version (lib.deviceIds peer n) =
      (s.rt n).localContext.version (lib.deviceIds peer n) + ls.countP (commands n) := by
  induction ls generalizing s a with
  | nil =>
    cases hrun
    rfl
  | cons l ls ih =>
    rcases (mesh lib peer).run_cons_eq_some.mp hrun with ⟨u, hu, hrun'⟩
    have hrest := hkeeps.2 u hu
    rcases step_matches (Machine.AllStates.head _ hrest) hm hu hok.1 with ⟨ks, b, hks, hksok, hb⟩
    have hinv : b.Inv (lib.deviceIds peer) :=
      (network (lib.deviceIds peer)).run_invariant_of
        (fun _ _ _ hstep hl => Network.step_inv hstep (Network.noOverflow_of_count hl)) hks ha hksok
    rw [ih hb hinv hrun' hrest (hok.2 u hu), version_own_step hm ha hu hok.1, List.countP_cons]
    omega

/-- **Clocks count the context commands**: in every run, a node's own entry is the
number of context commands it has handled, no clock anywhere claims more of them,
and no clock has entries for anything but nodes. -/
theorem clocks_count_commands {ls : List (Label ι Peer)}
    (h₀ : (mesh lib peer).Init s) (hrun : (mesh lib peer).run s ls = some t)
    (hkeeps : (mesh lib peer).AllStates (ReadsBack lib) s ls)
    (hok : (mesh lib peer).AllSteps (Sound lib) s ls) :
    (∀ n, (t.rt n).localContext.version (lib.deviceIds peer n) = ls.countP (commands n)) ∧
    (∀ c, t.Carries lib c → ∀ n,
      c.version (lib.deviceIds peer n) ≤ ls.countP (commands n)) ∧
    ∀ c, t.Carries lib c → ∀ x, (∀ n, x ≠ lib.deviceIds peer n) → c.version x = 0 := by
  obtain ⟨a, ha, hm⟩ := init_matches h₀
  -- the counter of a node is the number of its writes
  have hown : ∀ n, (t.rt n).localContext.version (lib.deviceIds peer n) =
      ls.countP (commands n) := by
    intro n
    rcases h₀.1 n with ⟨now, hn⟩
    have hcount := version_own_run hm (Network.init_inv ha) hrun hkeeps hok n
    have hzero : (s.rt n).localContext.version (lib.deviceIds peer n) = 0 := by
      rw [hn]
      rfl
    omega
  -- the abstract run bounds all other copies
  rcases run_matches hm hrun hkeeps hok with ⟨ks, b, hks, hksok, hb⟩
  have hbelow := Machine.AllSteps.mono _ (fun _ _ => Network.noOverflow_of_count) hksok
  obtain ⟨hinv, hnamed⟩ := Network.run_named ha hks hbelow
  refine ⟨hown, ?_, ?_⟩
  · intro c hc n
    have hbound : c.version (lib.deviceIds peer n) ≤
        (b.nodes n).version (lib.deviceIds peer n) := hinv.bounded _ (hb.holds hc).known n
    rw [hb.nodes, hown] at hbound
    exact hbound
  · intro c hc x hx
    exact hnamed c (hb.holds hc) x hx

end Counting

/-! ## Two nodes -/

end Mesh

/-- An encoding of finitely many contexts, by their places in a list. -/
def External.table (contexts : List AviContext) : External String where
  __ := External.plain
  encodeContext := placeIn contexts
  decodeContext := atPlace contexts
  json := .table (contexts.map .syncContext)

/-- Whatever is read is what was written. -/
theorem External.table_keeps (contexts : List AviContext) (c : AviContext) :
    (External.table contexts).Keeps c := by
  constructor
  · intro data c' hencode hdecode
    have hback := atPlace_of_placeIn hencode
    exact Option.some.inj (hdecode.symm.trans hback)
  · intro req hreq
    obtain ⟨encoded, hencoded, hread⟩ := StreamCodec.text_of_received hreq
    have hback := atPlace_of_placeIn hencoded
    exact Option.some.inj (hread.symm.trans hback)

namespace Mesh

variable {ι Peer : Type} [LinearOrder Peer]

instance (c : AviContext) (w : AviContext.ContextWrite) (now : UInt64) :
    Decidable (Network.HasCount c w now) :=
  inferInstanceAs (Decidable (c.version c.deviceId + 1 < 2 ^ 64))

instance (lib : External Peer) (Q : AviContext → AviContext.ContextWrite → UInt64 → Prop)
    [∀ c w now, Decidable (Q c w now)] (s : Mesh ι Peer) :
    (l : Label ι Peer) → Decidable (s.WritesMeet lib Q l)
  | .turn n env l => inferInstanceAs (Decidable (Runtime.PublishesNone lib l ∧
      ∀ w ∈ Runtime.contextWrite l, Q (s.rt n).localContext w env.now))
  | .deliver _ _ _ _ => isTrue True.intro

instance (lib : External Peer) (s : Mesh ι Peer) (l : Label ι Peer) : Decidable (s.Sound lib l) :=
  inferInstanceAs (Decidable (s.WritesMeet lib Network.HasCount l))

omit [LinearOrder Peer] in
/-- With a table every context is read back, in every state of every run. -/
theorem readsBack_table [DecidableEq ι] {contexts : List AviContext} {peer : ι ↪ String}
    {s : Mesh ι String} {ls : List (Label ι String)} :
    (mesh (.table contexts) peer).AllStates (ReadsBack (.table contexts)) s ls :=
  Machine.AllStates.of_forall _ (fun _ _ => External.table_keeps contexts _) s ls

/-- The peer ids of two nodes. -/
def twoPeers : Bool ↪ String where
  toFun i := if i then "a" else "b"
  inj' := by
    intro i j h
    cases i <;> cases j <;> simp at h <;> rfl

/-- The context of `a` after it has written `{"x": true}`. -/
def firstWrite : AviContext :=
  (AviContext.new "a" 0).commit (.update (.object [("x", .bool true)])) 0

/-- The context of `b` after it has written `{"y": false}`. -/
def secondWrite : AviContext :=
  (AviContext.new "b" 0).commit (.update (.object [("y", .bool false)])) 0

/-- The contexts of the two nodes after these writes, and after they have heard of both. -/
def twoWritten : List AviContext :=
  [firstWrite, secondWrite, (firstWrite.merge secondWrite).1, (secondWrite.merge firstWrite).1]

/-- These contexts, and those that the nodes start with, can be written and read. -/
def twoLib : External String := .table (.new "a" 0 :: .new "b" 0 :: twoWritten)

/-- Both nodes have just started. -/
def twoStarted : Mesh Bool String := ⟨fun i => .new .plain (twoPeers i) 0, []⟩

/-- `a` tells `b` its context, writes, and the two contexts arrive in the other order. -/
def writesAfterSync : List (Label Bool String) :=
  [.turn true (.calm String) (.swarm (.identified "b" [] ["/avi/stream/1.0.0"])),
    .turn true (.calm String) (.command (.updateSelfContext (.object [("x", .bool true)]))),
    .deliver false (.calm String) "a" 1, .deliver false (.calm String) "a" 0]

/-- The nodes can sync and then write. -/
theorem run_writesAfterSync :
    ∃ t, (mesh twoLib twoPeers).run twoStarted writesAfterSync = some t := by
  have hrun : ((mesh twoLib twoPeers).run twoStarted writesAfterSync).isSome = true := by
    decide +kernel
  exact Option.isSome_iff_exists.mp hrun

/-- Every step of that run is sound. -/
theorem sound_writesAfterSync :
    (mesh twoLib twoPeers).AllSteps (Sound twoLib) twoStarted writesAfterSync := by
  decide +kernel

theorem run_refines_two : ∃ t, (mesh twoLib twoPeers).run twoStarted writesAfterSync = some t ∧
    ∃ a ks b, (network (twoLib.deviceIds twoPeers)).Init a ∧
      (network (twoLib.deviceIds twoPeers)).run a ks = some b ∧
      (network (twoLib.deviceIds twoPeers)).AllSteps Network.NoOverflow a ks ∧
      Matches twoLib t b := by
  obtain ⟨t, ht⟩ := run_writesAfterSync
  exact ⟨t, ht, run_refines ⟨fun _ => ⟨0, rfl⟩, rfl⟩ ht readsBack_table sound_writesAfterSync⟩

theorem clocks_count_commands_two :
    ∃ t, (mesh twoLib twoPeers).run twoStarted writesAfterSync = some t ∧
    (∀ n, (t.rt n).localContext.version (twoLib.deviceIds twoPeers n) =
      writesAfterSync.countP (commands n)) ∧
    (∀ c, t.Carries twoLib c → ∀ n,
      c.version (twoLib.deviceIds twoPeers n) ≤ writesAfterSync.countP (commands n)) ∧
    ∀ c, t.Carries twoLib c → ∀ x, (∀ n, x ≠ twoLib.deviceIds twoPeers n) →
      c.version x = 0 := by
  obtain ⟨t, ht⟩ := run_writesAfterSync
  exact ⟨t, ht, clocks_count_commands ⟨fun _ => ⟨0, rfl⟩, rfl⟩ ht readsBack_table
    sound_writesAfterSync⟩

end Mesh

end AviNet
