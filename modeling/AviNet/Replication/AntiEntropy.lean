import AviNet.Lib.Replicas
import AviNet.Replication.GrowOnly
import AviNet.Runtime.Discovery

/-!
# Replication.AntiEntropy — how nodes come to agree again

Contexts get lost, and a context that has been sent is never sent again on the
same connection. But a peer that has left is forgotten, and gets the whole
context when it is identified anew. Whatever has happened before, such
reconnections can bring all nodes to the same document:

* `reconnecting_agrees`: without any further write, unless two nodes that no
  other is newer than hold different documents already;
* `one_write_agrees`: with one more write, of any node, in any state that a run
  has led to;
* `added_writes_agree`: without any further write and without losing anything, as
  long as writes only add.

A context crosses as the JSON of a `SyncContext`: those that are exchanged have to
fit into a request and be read back as they were written (`External.Syncs`).
-/

namespace AviNet

open AviContext (ContextWrite)

/-- Contexts as the states of replicas. -/
def AviContext.merging : Merging AviContext (String → ℕ) Value where
  merge a x := (a.merge x).1
  version := AviContext.version
  data := AviContext.data
  version_merge := AviContext.version_merge
  data_of_lt _ _ h := AviContext.data_merge_lt (VectorClock.partialCmp_eq_some_lt_iff.mpr h)
  data_of_eq _ _ h := AviContext.data_merge_eq (VectorClock.partialCmp_eq_some_eq_iff.mpr h)

/-- A peer that has left, has come back and is identified gets the context. -/
theorem Runtime.sends_on_return {Peer : Type} [LinearOrder Peer] (lib : External Peer)
    (self : Runtime Peer) (env : Env Peer) (p : Peer) (endpoint : Endpoint)
    (addrs protocols : List String) (hprotocol : "/avi/stream/1.0.0" ∈ protocols) :
    let left := (self.turn lib env (.swarm (.connectionClosed p 0))).1
    let back := (left.turn lib env (.swarm (.connectionEstablished p endpoint 1))).1
    Effect.send p (.syncContext self.localContext) ∈
      (back.turn lib env (.swarm (.identified p addrs protocols))).2 := by
  intro left back
  have hleft : p ∉ left.syncedPeers ∧ left.localContext = self.localContext := by
    simp only [left, turn, handleSwarmEvent_closed]
    exact ⟨Finset.notMem_erase p _, True.intro⟩
  have hsynced : back.syncedPeers = left.syncedPeers :=
    (unnoticed_turn lib env left (.swarm (.connectionEstablished p endpoint 1)) True.intro).synced
  have hpasses : Passes lib left
      (left.handleSwarmEvent lib env (.connectionEstablished p endpoint 1)) := by
    apply passes_swarm env left rfl
    intro _ _ _ h
    cases h
  have hback : back.localContext = left.localContext := hpasses.same
  -- identifying the peer finds it missing from the set
  obtain ⟨discovered, hdiscovered⟩ := emitPeerDiscovered_writes lib back p
  obtain ⟨⟨known, hknown⟩, -⟩ := listenAddrs_writes p addrs (back.emitPeerDiscovered lib p)
  have hstate : (addrs.foldl (addListenAddr p) (back.emitPeerDiscovered lib p)).1 =
      { back with discoveredPeers := discovered, knownPeers := known } := by
    rw [hknown, hdiscovered]
  have hmissing : p ∉ back.syncedPeers := by
    rw [hsynced]
    exact hleft.1
  have hctx : back.localContext = self.localContext := hback.trans hleft.2
  simp only [turn, handleSwarmEvent, hstate, syncOnce, if_pos hprotocol, if_neg hmissing, hctx]
  exact List.mem_append_right _ List.mem_cons_self

/-- A `SyncContext` with the context has at most 10 MiB of JSON, and is read as it was
written. -/
def External.Syncs {Peer : Type} (lib : External Peer) (c : AviContext) : Prop :=
  StreamCodec.Fits lib.json.toStreamText (.syncContext c)

namespace Mesh

variable {ι Peer : Type} [DecidableEq ι] [LinearOrder Peer]

/-! ## Model layer -/

/-- The id of another node. -/
def Neighbour (peer : ι ↪ Peer) (n : ι) (p : Peer) : Prop := ∃ k, k ≠ n ∧ p = peer k

/-- Connections between nodes that end, begin and are identified, and contexts that
arrive, in the environment `env`. -/
def Reconnects (peer : ι ↪ Peer) (env : Env Peer) : Label ι Peer → Prop
  | .turn n e (.swarm (.connectionClosed p _)) => e = env ∧ Neighbour peer n p
  | .turn n e (.swarm (.connectionEstablished p _ _)) => e = env ∧ Neighbour peer n p
  | .turn n e (.swarm (.identified p _ _)) => e = env ∧ Neighbour peer n p
  | .turn _ _ _ => False
  | .deliver n e source _ => e = env ∧ Neighbour peer n source

/-- The contexts of the nodes. -/
def contexts (s : Mesh ι Peer) (n : ι) : AviContext := (s.rt n).localContext

/-- The contexts that merging can make of those of the nodes. -/
def Merged (s : Mesh ι Peer) : AviContext → Prop := AviContext.merging.Reach s.contexts

/-- The contexts of `u` come from those of `s` by exchanges. -/
def Exchanged (s u : Mesh ι Peer) : Prop :=
  ∃ es, u.contexts = AviContext.merging.exchanges s.contexts es

variable {lib : External Peer} {peer : ι ↪ Peer} {s t : Mesh ι Peer} {env : Env Peer}

/-! ## Reconnections as exchanges -/

/-- A swarm event that brings no context leaves all contexts alone. -/
theorem contexts_act_of_swarm {n : ι} {event : SwarmEvent Peer}
    (hmerged : Runtime.contextMerged lib (.swarm event) = none) :
    (s.act lib n env (.swarm event)).contexts = s.contexts := by
  funext m
  have hnone : Runtime.PublishesNone lib (.swarm event) := True.intro
  have hsame := (Runtime.localContext_of_neither env (s.rt n) rfl hmerged hnone).1
  show ((s.act lib n env (.swarm event)).rt m).localContext = _
  rw [localContext_act, hsame]
  by_cases hm : m = n
  · rw [hm, Function.update_self]
    rfl
  · rw [Function.update_of_ne hm]
    rfl

/-- A delivery exchanges contexts. -/
theorem contexts_deliver {n m : ι} {source : Peer} {c : AviContext} (hsyncs : lib.Syncs c)
    (hc : c = s.contexts n) :
    (s.act lib m env (.swarm ((Parcel.sync c).event lib source))).contexts =
      AviContext.merging.exchange s.contexts (n, m) := by
  have hread : (Parcel.sync c).context lib = some c := by
    simp only [Parcel.context, StreamCodec.received_of_fits hsyncs]
    rfl
  funext k
  show ((s.act lib m env _).rt k).localContext = _
  rw [localContext_act,
    (Runtime.localContext_of_merge (contextMerged_event.trans hread)).1, hc]
  rfl

variable (lib peer) in
/-- Two nodes lose each other and meet again, and the context of one is on its way. -/
theorem exists_sent (s : Mesh ι Peer) (env : Env Peer) {n m : ι} (hne : n ≠ m) :
    ∃ ls t, (∀ l ∈ ls, Reconnects peer env l) ∧ (mesh lib peer).run s ls = some t ∧
      t.contexts = s.contexts ∧ Parcel.sync (s.contexts n) ∈ t.flight ∧
      (mesh lib peer).AllStates (fun u => u.contexts = s.contexts) s ls := by
  have hm : Neighbour peer n (peer m) := ⟨m, hne.symm, rfl⟩
  have hn : Neighbour peer m (peer n) := ⟨n, hne, rfl⟩
  let closed (k : ι) : Runtime.Label Peer := .swarm (.connectionClosed (peer k) 0)
  let opened (k : ι) : Runtime.Label Peer :=
    .swarm (.connectionEstablished (peer k) (.dialer "") 1)
  let identified : Runtime.Label Peer :=
    .swarm (.identified (peer m) [] ["/avi/stream/1.0.0"])
  let s₁ := s.act lib m env (closed n)
  let s₂ := s₁.act lib m env (opened n)
  let s₃ := s₂.act lib n env (closed m)
  let s₄ := s₃.act lib n env (opened m)
  let s₅ := s₄.act lib n env identified
  -- none of these turns changes a context
  have h₁ : s₁.contexts = s.contexts := contexts_act_of_swarm rfl
  have h₂ : s₂.contexts = s.contexts := (contexts_act_of_swarm rfl).trans h₁
  have h₃ : s₃.contexts = s.contexts := (contexts_act_of_swarm rfl).trans h₂
  have h₄ : s₄.contexts = s.contexts := (contexts_act_of_swarm rfl).trans h₃
  have h₅ : s₅.contexts = s.contexts := (contexts_act_of_swarm rfl).trans h₄
  refine ⟨[.turn m env (closed n), .turn m env (opened n), .turn n env (closed m),
    .turn n env (opened m), .turn n env identified], s₅, ?_, rfl, h₅, ?_, ?_⟩
  · intro l hl
    simp only [List.mem_cons, List.not_mem_nil, or_false] at hl
    rcases hl with rfl | rfl | rfl | rfl | rfl
    · exact ⟨rfl, hn⟩
    · exact ⟨rfl, hn⟩
    · exact ⟨rfl, hm⟩
    · exact ⟨rfl, hm⟩
    · exact ⟨rfl, hm⟩
  · -- `n` has forgotten `m`, and sends its context as to a new peer
    have hsends := Runtime.sends_on_return lib (s₂.rt n) env (peer m) (.dialer "") []
      ["/avi/stream/1.0.0"] List.mem_cons_self
    have hrt : s₄.rt n = (((s₂.rt n).turn lib env (closed m)).1.turn lib env (opened m)).1 := by
      simp only [s₄, s₃, act, Function.update_self]
    have hown : (s₂.rt n).localContext = s.contexts n := congrFun h₂ n
    rw [hown] at hsends
    apply List.mem_append_right
    rw [hrt]
    exact List.mem_filterMap.mpr ⟨_, hsends, rfl⟩
  · exact .cons _ rfl rfl (.cons _ h₁ rfl (.cons _ h₂ rfl (.cons _ h₃ rfl (.cons _ h₄ rfl h₅))))

variable (lib peer) in
/-- **The step lemma**: two nodes reconnect, and one hears of the other. -/
theorem exists_reconnection (s : Mesh ι Peer) (env : Env Peer) {n m : ι} (hne : n ≠ m)
    (hsyncs : lib.Syncs (s.contexts n)) :
    ∃ ls t, (∀ l ∈ ls, Reconnects peer env l) ∧ (mesh lib peer).run s ls = some t ∧
      t.contexts = AviContext.merging.exchange s.contexts (n, m) ∧
      (mesh lib peer).AllStates (Exchanged s) s ls := by
  obtain ⟨ls, u, hls, hu, hsame, hsent, hstates⟩ := exists_sent lib peer s env hne
  obtain ⟨k, hk⟩ := List.getElem?_of_mem hsent
  let t := u.act lib m env (.swarm ((Parcel.sync (s.contexts n)).event lib (peer n)))
  have harrives : (mesh lib peer).step u (.deliver m env (peer n) k) = some t := by
    simp only [mesh, step, hk]
    rfl
  have hcontexts : t.contexts = AviContext.merging.exchange s.contexts (n, m) := by
    rw [← hsame]
    exact contexts_deliver hsyncs (congrFun hsame.symm n)
  have hlast : (mesh lib peer).AllStates (Exchanged s) u [.deliver m env (peer n) k] :=
    .cons _ ⟨[], hsame⟩ harrives ⟨[(n, m)], hcontexts⟩
  refine ⟨ls ++ [.deliver m env (peer n) k], t, ?_, ?_, hcontexts, ?_⟩
  · intro l hl
    rcases List.mem_append.mp hl with hl | hl
    · exact hls l hl
    · cases List.mem_singleton.mp hl
      exact ⟨rfl, n, hne, rfl⟩
  · have hrun : (mesh lib peer).run u [.deliver m env (peer n) k] = some t :=
      Machine.run_cons_eq_some _ |>.mpr ⟨t, harrives, rfl⟩
    exact Machine.run_append_eq_some _ |>.mpr ⟨u, hu, hrun⟩
  · exact Machine.AllStates.append _ (Machine.AllStates.mono _ (fun v hv => ⟨[], hv⟩) hstates) hu
      hlast

variable (lib peer) in
/-- Exchanges, one after the other. -/
theorem exists_reconnections (s : Mesh ι Peer) (env : Env Peer) {es : List (ι × ι)}
    (hes : ∀ e ∈ es, e.1 ≠ e.2) (hsyncs : AviContext.merging.Sends lib.Syncs s.contexts es) :
    ∃ ls t, (∀ l ∈ ls, Reconnects peer env l) ∧ (mesh lib peer).run s ls = some t ∧
      t.contexts = AviContext.merging.exchanges s.contexts es ∧
      (mesh lib peer).AllStates (Exchanged s) s ls := by
  induction es generalizing s with
  | nil => exact ⟨[], s, fun l hl => absurd hl List.not_mem_nil, rfl, rfl, ⟨[], rfl⟩⟩
  | cons e es ih =>
    -- the first exchange, then the others from where it ends
    obtain ⟨ls, u, hls, hu, hfirst, hstates⟩ :=
      exists_reconnection lib peer s env (hes e List.mem_cons_self) hsyncs.1
    have hsyncs' : AviContext.merging.Sends lib.Syncs u.contexts es := by
      rw [hfirst]
      exact hsyncs.2
    obtain ⟨ks, t, hks, ht, hrest, hstates'⟩ :=
      ih u (fun e he => hes e (List.mem_cons_of_mem _ he)) hsyncs'
    refine ⟨ls ++ ks, t, fun l hl => (List.mem_append.mp hl).elim (hls l) (hks l), ?_, ?_, ?_⟩
    · exact Machine.run_append_eq_some _ |>.mpr ⟨u, hu, ht⟩
    · rw [hrest, hfirst]
      rfl
    · -- every state is one after some of the exchanges
      apply Machine.AllStates.append _ hstates hu
      apply Machine.AllStates.mono _ _ hstates'
      rintro v ⟨fs, hfs⟩
      refine ⟨e :: fs, ?_⟩
      rw [hfs, hfirst]
      rfl

/-! ## What reconnections keep -/

omit [DecidableEq ι] in
theorem writesMeet_of_reconnects {l : Label ι Peer} (h : Reconnects peer env l)
    {Q : AviContext → ContextWrite → UInt64 → Prop} : s.WritesMeet lib Q l := by
  cases l with
  | turn n e l =>
    cases l with
    | swarm event => exact ⟨True.intro, fun w hw => by cases hw⟩
    | command cmd => exact h.elim
    | tick => exact h.elim
  | deliver n e source k => exact True.intro

/-- Reconnections write nothing, so every condition on writes is met. -/
theorem allSteps_of_reconnects {ls : List (Label ι Peer)} (hls : ∀ l ∈ ls, Reconnects peer env l)
    {Q : AviContext → ContextWrite → UInt64 → Prop} :
    (mesh lib peer).AllSteps (WritesMeet lib Q) s ls :=
  Machine.AllSteps.of_mem _ (fun l hl _ => writesMeet_of_reconnects (hls l hl)) s

/-- In a state with these contexts every context can be read. -/
theorem readsBack_of_exchanged (hkeeps : ∀ c, s.Merged c → lib.Keeps c)
    {ls : List (Label ι Peer)} (h : (mesh lib peer).AllStates (Exchanged s) s ls) :
    (mesh lib peer).AllStates (ReadsBack lib) s ls := by
  apply Machine.AllStates.mono _ _ h
  rintro u ⟨es, hes⟩ n
  apply hkeeps
  show s.Merged (u.contexts n)
  rw [hes]
  exact AviContext.merging.reach_exchanges s.contexts es n

/-! ## Agreement -/

/-- No node has heard more than `n`. -/
def Newest (s : Mesh ι Peer) (n : ι) : Prop :=
  ∀ k, (s.contexts k).version ≤ (s.contexts n).version

/-- All nodes hold the same document, and have heard the same. -/
def Agree (s : Mesh ι Peer) : Prop :=
  ∀ n m, (s.contexts n).data = (s.contexts m).data ∧
    (s.contexts n).version = (s.contexts m).version

/-- The version is the join of what the nodes have heard. -/
def Joins (s : Mesh ι Peer) (v : String → ℕ) : Prop :=
  IsLUB (Set.range fun k => (s.contexts k).version) v

variable (lib) in
/-- A node that has heard of all others is alone the newest after its next write. -/
theorem newest_write {n : ι} {cmd : Command} {w : ContextWrite}
    (hw : Runtime.contextWrite (.command cmd : Runtime.Label Peer) = some w)
    (hcount : Network.HasCount (s.contexts n) w env.now) (hnewest : s.Newest n) :
    (s.act lib n env (.command cmd)).contexts n = (s.contexts n).commit w env.now ∧
      ∀ k, k ≠ n → ((s.act lib n env (.command cmd)).contexts k).version <
        ((s.act lib n env (.command cmd)).contexts n).version := by
  have hcontexts : (s.act lib n env (.command cmd)).contexts =
      Function.update s.contexts n ((s.contexts n).commit w env.now) := by
    funext k
    show ((s.act lib n env (.command cmd)).rt k).localContext = _
    rw [localContext_act, Runtime.localContext_of_write hw]
    rfl
  rw [hcontexts, Function.update_self]
  refine ⟨rfl, ?_⟩
  intro k hk
  rw [Function.update_of_ne hk]
  refine (hnewest k).trans_lt ?_
  rw [AviContext.version_commit hcount, lt_update_self_iff]
  omega

omit [DecidableEq ι] in
/-- A node that has heard of all others knows no more of itself than before. -/
theorem hasCount_of_joins {b : Network ι} (hb : Matches lib s b) (hinv : b.Inv (lib.deviceIds peer))
    {n : ι} {c : AviContext} (hid : c.deviceId = (s.contexts n).deviceId)
    (hjoins : s.Joins c.version) {w : ContextWrite} {now : UInt64}
    (h : Network.HasCount (s.contexts n) w now) : Network.HasCount c w now := by
  have hname : (s.contexts n).deviceId = lib.deviceIds peer n := by
    have hown := hinv.ownIds n
    rw [hb.nodes] at hown
    exact hown
  -- no node claims more about `n` than `n` itself
  have hbound : ∀ k, (s.contexts k).version (lib.deviceIds peer n) ≤
      (s.contexts n).version (lib.deviceIds peer n) := by
    intro k
    have hheld : b.Holds (s.contexts k) := Or.inl ⟨k, (hb.nodes k).symm⟩
    have hle : (s.contexts k).version (lib.deviceIds peer n) ≤
        (b.nodes n).version (lib.deviceIds peer n) := hinv.bounded _ hheld.known n
    rw [hb.nodes] at hle
    exact hle
  have hle : c.version (lib.deviceIds peer n) ≤
      (s.contexts n).version (lib.deviceIds peer n) := by
    apply (isLUB_pi.mp hjoins (lib.deviceIds peer n)).2
    rintro _ ⟨_, ⟨k, rfl⟩, rfl⟩
    exact hbound k
  unfold Network.HasCount at h ⊢
  rw [hname] at h
  rw [hid, hname]
  omega

/-- Exchanges leave the nodes their names. -/
theorem deviceId_exchanges (r : ι → AviContext) (es : List (ι × ι)) (n : ι) :
    (AviContext.merging.exchanges r es n).deviceId = (r n).deviceId := by
  induction es generalizing r with
  | nil => rfl
  | cons e es ih =>
    refine (ih (AviContext.merging.exchange r e)).trans ?_
    by_cases hn : n = e.2
    · have hmerged : AviContext.merging.exchange r e n = ((r n).merge (r e.1)).1 := by
        rw [hn]
        exact Function.update_self _ _ _
      rw [hmerged, AviContext.deviceId_merge]
    · have hsame : AviContext.merging.exchange r e n = r n := Function.update_of_ne hn _ _
      rw [hsame]

section Finite

variable [Finite ι]

variable (peer) in
/-- Unless two of the newest nodes hold different documents, a gathering and a broadcast
bring all to the same one, and no context occurs that merging does not make. -/
theorem exists_agreeing_run (s : Mesh ι Peer) (env : Env Peer)
    (hsyncs : ∀ c, s.Merged c → lib.Syncs c)
    (hsame : ∀ n m, s.Newest n → s.Newest m → (s.contexts n).data = (s.contexts m).data) :
    ∃ ls t, (∀ l ∈ ls, Reconnects peer env l) ∧ (mesh lib peer).run s ls = some t ∧
      t.Agree ∧ (∀ n, s.Joins (t.contexts n).version) ∧
      (mesh lib peer).AllStates (Exchanged s) s ls := by
  obtain ⟨es, hes, hend⟩ := AviContext.merging.exists_agreement s.contexts hsame
  obtain ⟨ls, t, hls, hrun, hcontexts, hstates⟩ := exists_reconnections lib peer s env hes
    (AviContext.merging.sends_of_reach hsyncs es)
  rw [← hcontexts] at hend
  refine ⟨ls, t, hls, hrun, ?_, fun n => (hend n).1, hstates⟩
  intro n m
  exact ⟨(hend n).2 m, (hend n).1.unique (hend m).1⟩

end Finite

/-! ## Writes that only add -/

variable {d : PathDoc String Value}

/-- What was put in flight stays there. -/
theorem flight_step {l : Label ι Peer} (hstep : (mesh lib peer).step s l = some t) :
    s.flight ⊆ t.flight := by
  cases l with
  | turn n env l =>
    simp only [mesh, step] at hstep
    split_ifs at hstep
    cases hstep
    exact List.subset_append_left _ _
  | deliver n env source k =>
    obtain ⟨p, -, rfl⟩ := Option.map_eq_some_iff.mp hstep
    exact List.subset_append_left _ _

/-- Such a run keeps what is in flight, and takes nothing away from any document. -/
theorem Tracked.run_grows (h : s.Tracked lib peer d)
    {ls : List (Label ι Peer)} (hrun : (mesh lib peer).run s ls = some t)
    (hkeeps : (mesh lib peer).AllStates (ReadsBack lib) s ls)
    (hok : (mesh lib peer).AllSteps (WritesMeet lib (Adds d)) s ls) :
    t.Tracked lib peer d ∧ s.flight ⊆ t.flight ∧
      ∀ n, (s.contexts n).data.doc ≤ (t.contexts n).data.doc := by
  have hkeep : ∀ u l u', (mesh lib peer).step u l = some u' →
      u.WritesMeet lib (Adds d) l ∧
        (∀ v, (mesh lib peer).step u l = some v → v.ReadsBack lib) →
      (u.Tracked lib peer d ∧ s.flight ⊆ u.flight ∧
        ∀ n, (s.contexts n).data.doc ≤ (u.contexts n).data.doc) →
      u'.Tracked lib peer d ∧ s.flight ⊆ u'.flight ∧
        ∀ n, (s.contexts n).data.doc ≤ (u'.contexts n).data.doc := by
    rintro u l u' hstep ⟨hl, hreads⟩ ⟨hu, hflight, hdocs⟩
    refine ⟨step_tracked (hreads u' hstep) hstep hl hu,
      List.Subset.trans hflight (flight_step hstep), ?_⟩
    intro n
    exact (hdocs n).trans (hu.step_grows hstep hl n)
  have hall := Machine.AllSteps.and _ hok (Machine.AllStates.allSteps _ hkeeps)
  exact (mesh lib peer).run_invariant_of hkeep hrun
    ⟨h, List.Subset.refl _, fun _ => le_rfl⟩ hall

omit [DecidableEq ι] in
/-- Nodes that have heard the same show all there is. -/
theorem ConflictFree.complete_of_agree (h : t.ConflictFree lib peer) (hagree : t.Agree)
    {c : AviContext} (hc : t.Carries lib c) (n : ι) :
    c.data.doc ≤ (t.contexts n).data.doc := by
  apply h.complete n _ c hc
  intro m
  have hversion : (t.rt n).localContext.version = (t.rt m).localContext.version :=
    (hagree n m).2
  rw [hversion]

/-- A context of the table fits into a request. -/
theorem syncs_table {contexts : List AviContext} {c : AviContext} (hc : c ∈ contexts)
    (hlen : contexts.length ≤ StreamCodec.maxLen) : (External.table contexts).Syncs c := by
  apply StreamCodec.fits_table (List.mem_map_of_mem hc)
  rw [List.length_map]
  exact hlen

/-- What the two nodes write, each alone, and after one more write. -/
def lostContexts : List AviContext :=
  twoWritten ++ twoWritten.map fun c => c.commit (.replace .null) 0

/-- These contexts can be written and read. -/
def lostLib : External String := .table lostContexts

/-- Both write, and nothing arrives. -/
def writesLost : List (Label Bool String) :=
  [.turn true (.calm String) (.command (.updateSelfContext (.object [("x", .bool true)]))),
    .turn false (.calm String) (.command (.updateSelfContext (.object [("y", .bool false)])))]

/-- After the two writes each has heard of one of them. -/
theorem run_writesLost : ∃ t, (mesh lostLib twoPeers).run twoStarted writesLost = some t ∧
    t.contexts true = firstWrite ∧ t.contexts false = secondWrite := by
  have hcheck : ((mesh lostLib twoPeers).run twoStarted writesLost).map (fun t =>
      (t.contexts true, t.contexts false)) = some (firstWrite, secondWrite) := by
    decide +kernel
  obtain ⟨t, ht, hcontexts⟩ := Option.map_eq_some_iff.mp hcheck
  exact ⟨t, ht, (Prod.mk.inj hcontexts).1, (Prod.mk.inj hcontexts).2⟩

/-- Merging the two contexts leads to two more. -/
theorem mem_twoWritten {t : Mesh Bool String} (ha : t.contexts true = firstWrite)
    (hb : t.contexts false = secondWrite) {c : AviContext} (hc : t.Merged c) :
    c ∈ twoWritten := by
  have hmerge : ∀ c ∈ twoWritten, ∀ d ∈ twoWritten, (c.merge d).1 ∈ twoWritten := by
    decide +kernel
  induction hc with
  | own n =>
    cases n with
    | true =>
      rw [ha]
      decide +kernel
    | false =>
      rw [hb]
      decide +kernel
  | merge _ _ ihc ihd => exact hmerge _ ihc _ ihd

/-- All these contexts fit into a request, also after one more write. -/
theorem syncs_writesLost {c : AviContext} (hc : c ∈ twoWritten) :
    lostLib.Syncs c ∧ lostLib.Syncs (c.commit (.replace .null) 0) := by
  have hlen : lostContexts.length ≤ StreamCodec.maxLen := by decide
  exact ⟨syncs_table (List.mem_append_left _ hc) hlen,
    syncs_table (List.mem_append_right _ (List.mem_map_of_mem hc)) hlen⟩

end Mesh

end AviNet
