import AviNet.Lib.History
import AviNet.PathWrites
import AviNet.Replication.Mesh

/-!
# Replication.GrowOnly — contexts from which nothing is taken back

`merge` loses values when two nodes write the same path, and brings deleted
paths back (`Network.converged_of_ok`, `Network.deletion_stable`). Neither can
happen while every write only adds to the document it is made on, and all
values written fit into one document (`Adds`). Then each context shows exactly
the join of the writes that its clock counts (`Network.Grown`).

* `conflict_free`: in every run of such writes the documents grow with the
  clocks, equal clocks mean equal documents, and a node that has heard of all
  writes shows everything that anybody shows.
-/

namespace AviNet

open AviContext (ContextWrite)

/-- The write adds to the document and stays within `d`. -/
def Adds (d : PathDoc String Value) (c : AviContext) (w : ContextWrite) (now : UInt64) : Prop :=
  Network.HasCount c w now ∧ c.data.doc ≤ (c.commit w now).data.doc ∧
    (c.commit w now).data.doc ≤ d

/-- If documents grow with their clocks, a merge joins the documents. -/
theorem AviContext.isLUB_merge {a x : AviContext} {d : PathDoc String Value}
    (ha : a.data.doc ≤ d) (hx : x.data.doc ≤ d)
    (hup : a.version ≤ x.version → a.data.doc ≤ x.data.doc)
    (hdown : x.version ≤ a.version → x.data.doc ≤ a.data.doc) :
    IsLUB {a.data.doc, x.data.doc} (a.merge x).1.data.doc := by
  rcases AviContext.merge_cases a x with ⟨h, hlt⟩ | ⟨h, -⟩ | ⟨h, heq⟩ | ⟨h, -⟩
  · -- replaced by a newer document, which shows more
    rw [data_merge_lt h]
    have hle := hup hlt.le
    constructor
    · rintro u (rfl | rfl)
      · exact hle
      · exact le_rfl
    · intro u hu
      exact hu (Set.mem_insert_of_mem _ rfl)
  · rw [doc_merge_gt h]
    exact PathDoc.isLUB_onto ha hx
  · -- the same clock, hence the same document
    rw [data_merge_eq h]
    have hle := hdown heq.ge
    constructor
    · rintro u (rfl | rfl)
      · exact le_rfl
      · exact hle
    · intro u hu
      exact hu (Set.mem_insert _ _)
  · -- whichever is the older one
    rw [doc_merge_none h]
    unfold older younger
    split_ifs
    · exact PathDoc.isLUB_onto ha hx
    · rw [Set.pair_comm]
      exact PathDoc.isLUB_onto hx ha

namespace Network

variable {ι : Type} {deviceId : ι ↪ String} {d : PathDoc String Value} {s t : Network ι}

/-! ## The invariant -/

/-- How much of each node's writes the context has heard. -/
def heard (deviceId : ι ↪ String) (c : AviContext) (n : ι) : ℕ := c.version (deviceId n)

/-- Each context shows the join of the writes that it has heard of. -/
def Grown (deviceId : ι ↪ String) (d : PathDoc String Value) (s : Network ι) : Prop :=
  ∃ h : History ι (PathDoc String Value), ∀ c, s.Holds c →
    h.Shows (heard deviceId c) c.data.doc ∧ c.data.doc ≤ d

/-- Of two contexts the one with the larger clock has the larger document. -/
theorem Grown.doc_le (h : s.Grown deviceId d) {c c' : AviContext} (hc : s.Holds c)
    (hc' : s.Holds c') (hle : c.version ≤ c'.version) : c.data.doc ≤ c'.data.doc := by
  rcases h with ⟨h, hshows⟩
  exact (hshows c hc).1.mono (hshows c' hc').1 fun n => hle (deviceId n)

variable [DecidableEq ι]

/-- At the start every document is what contexts start with. -/
theorem init_grown (hd : AviContext.skeleton.doc ≤ d) (h₀ : (network deviceId).Init s) :
    s.Grown deviceId d := by
  refine ⟨History.start AviContext.skeleton.doc, ?_⟩
  rintro c (⟨n, rfl⟩ | hc)
  · rcases h₀.1 n with ⟨now, hn⟩
    have : Nonempty ι := ⟨n⟩
    rw [hn]
    exact ⟨History.start_shows _ _, hd⟩
  · rw [h₀.2] at hc
    cases hc

/-- After a write the context has heard of one write more of its own node. -/
theorem heard_commit {c : AviContext} {n : ι} (hid : c.deviceId = deviceId n) {w : ContextWrite}
    {now : UInt64} (hcount : HasCount c w now) :
    heard deviceId (c.commit w now) =
      Function.update (heard deviceId c) n (heard deviceId c n + 1) := by
  funext m
  unfold heard
  rw [AviContext.version_commit hcount, hid]
  by_cases hm : m = n
  · rw [hm, Function.update_self, Function.update_self]
  · rw [Function.update_of_ne hm, Function.update_of_ne fun h => hm (deviceId.injective h)]

/-- A write extends the history of its node. -/
theorem grown_publish (hinv : s.Inv deviceId) (h : s.Grown deviceId d) {n : ι}
    {w : ContextWrite} {now : UInt64} (hw : Adds d (s.nodes n) w now) :
    (s.publish n ((s.nodes n).commit w now)).Grown deviceId d := by
  rcases h with ⟨h, hshows⟩
  rcases hw with ⟨hcount, hadds, hwithin⟩
  have hown : s.Holds (s.nodes n) := Or.inl ⟨n, rfl⟩
  have hle : h.upTo n (heard deviceId (s.nodes n) n) ≤
      ((s.nodes n).commit w now).data.doc := ((hshows _ hown).1.heard n).trans hadds
  refine ⟨h.extend n _ _ hle, ?_⟩
  have hnew : (h.extend n _ _ hle).Shows (heard deviceId ((s.nodes n).commit w now))
      ((s.nodes n).commit w now).data.doc := by
    rw [heard_commit (hinv.ownIds n) hcount]
    exact (hshows _ hown).1.extend_own hle hadds
  have hold : ∀ c, s.Holds c → (h.extend n _ _ hle).Shows (heard deviceId c) c.data.doc := by
    intro c hc
    exact (hshows c hc).1.extend_heard hle (hinv.bounded _ hc.known n)
  refine forall_holds_update (P := fun c => (h.extend n _ _ hle).Shows (heard deviceId c)
    c.data.doc ∧ c.data.doc ≤ d) ⟨hnew, hwithin⟩ (fun c hc => ⟨hold c hc, (hshows c hc).2⟩) ?_
  intro c hc
  rcases List.mem_cons.mp hc with rfl | hc
  · exact Or.inl rfl
  · exact Or.inr (Or.inr hc)

/-- A merge joins what two contexts have heard. -/
theorem grown_deliver (h : s.Grown deviceId d) {n : ι} {x : AviContext} (hx : x ∈ s.flight) :
    Grown deviceId d
      { s with nodes := Function.update s.nodes n ((s.nodes n).merge x).1 } := by
  have hown : s.Holds (s.nodes n) := Or.inl ⟨n, rfl⟩
  have hin : s.Holds x := Or.inr hx
  -- the two documents are within `d`, so their merge is their join
  have hlub : ∀ e, (s.nodes n).data.doc ≤ e → x.data.doc ≤ e →
      IsLUB {(s.nodes n).data.doc, x.data.doc} ((s.nodes n).merge x).1.data.doc := by
    intro e ha he
    exact AviContext.isLUB_merge ha he (h.doc_le hown hin) (h.doc_le hin hown)
  rcases h with ⟨h, hshows⟩
  have hjoin := hlub d (hshows _ hown).2 (hshows x hin).2
  -- the merged clock has heard what either had
  have hheard : heard deviceId ((s.nodes n).merge x).1 =
      heard deviceId (s.nodes n) ⊔ heard deviceId x := by
    funext m
    unfold heard
    rw [AviContext.version_merge]
    rfl
  have hnew : h.Shows (heard deviceId ((s.nodes n).merge x).1)
      ((s.nodes n).merge x).1.data.doc := by
    rw [hheard]
    exact (hshows _ hown).1.join (hshows x hin).1 hjoin
  have hwithin : ((s.nodes n).merge x).1.data.doc ≤ d := by
    apply hjoin.2
    rintro u (rfl | rfl)
    · exact (hshows _ hown).2
    · exact (hshows x hin).2
  exact ⟨h, forall_holds_update ⟨hnew, hwithin⟩ hshows fun c hc => Or.inr (Or.inr hc)⟩

/-- **The step lemma**: writes that only add keep every context at the join of the
writes it has heard of. -/
theorem step_grown {l : Label ι} (hstep : (network deviceId).step s l = some t)
    (hl : s.WritesMeet (Adds d) l) (hinv : s.Inv deviceId) (h : s.Grown deviceId d) :
    t.Grown deviceId d := by
  cases l with
  | write n w now =>
    cases hstep
    exact grown_publish hinv h hl
  | sync n =>
    cases hstep
    rcases h with ⟨h, hshows⟩
    refine ⟨h, ?_⟩
    rintro c (hc | hc)
    · exact hshows c (Or.inl hc)
    · rcases List.mem_cons.mp hc with rfl | hc
      · exact hshows _ (Or.inl ⟨n, rfl⟩)
      · exact hshows c (Or.inr hc)
  | deliver n x =>
    simp only [network, step] at hstep
    split_ifs at hstep with hx
    cases hstep
    exact grown_deliver h hx

omit [DecidableEq ι] in
theorem noOverflow_of_adds {l : Label ι} (h : s.WritesMeet (Adds d) l) : s.NoOverflow l := by
  cases l with
  | write n w now => exact h.1
  | sync n => exact True.intro
  | deliver n c => exact True.intro

end Network

namespace Mesh

variable {ι Peer : Type} [DecidableEq ι] [LinearOrder Peer] {lib : External Peer}
  {peer : ι ↪ Peer} {d : PathDoc String Value} {s t : Mesh ι Peer}

/-- The contexts are those of a network in which each shows what it has heard. -/
def Tracked (lib : External Peer) (peer : ι ↪ Peer) (d : PathDoc String Value)
    (s : Mesh ι Peer) : Prop :=
  ∃ a : Network ι, Matches lib s a ∧ a.Inv (lib.deviceIds peer) ∧
    a.Named (lib.deviceIds peer) ∧ a.Grown (lib.deviceIds peer) d

theorem init_tracked (hd : AviContext.skeleton.doc ≤ d) (h₀ : (mesh lib peer).Init s) :
    s.Tracked lib peer d := by
  obtain ⟨a, ha, hm⟩ := init_matches h₀
  exact ⟨a, hm, Network.init_inv ha, Network.init_named ha, Network.init_grown hd ha⟩

/-- Every step that only adds keeps the documents within `d`, and grown. -/
theorem step_tracked (hkeeps : t.ReadsBack lib) {l : Label ι Peer}
    (hstep : (mesh lib peer).step s l = some t) (hok : s.WritesMeet lib (Adds d) l)
    (h : s.Tracked lib peer d) : t.Tracked lib peer d := by
  rcases h with ⟨a, hm, hinv, hnamed, hgrown⟩
  rcases step_matches hkeeps hm hstep hok with ⟨ks, b, hks, hksok, hb⟩
  have hnet : ∀ a l b, (network (lib.deviceIds peer)).step a l = some b →
      a.WritesMeet (Adds d) l →
      a.Inv (lib.deviceIds peer) ∧ a.Named (lib.deviceIds peer) ∧
        a.Grown (lib.deviceIds peer) d →
      b.Inv (lib.deviceIds peer) ∧ b.Named (lib.deviceIds peer) ∧
        b.Grown (lib.deviceIds peer) d := by
    intro a l b hab hl h
    have hbelow := Network.noOverflow_of_adds hl
    exact ⟨Network.step_inv hab hbelow h.1, Network.step_named hab hbelow h.1.ownIds h.2.1,
      Network.step_grown hab hl h.1 h.2.2⟩
  exact ⟨b, hb, (network (lib.deviceIds peer)).run_invariant_of hnet hks
    ⟨hinv, hnamed, hgrown⟩ hksok⟩

omit [DecidableEq ι] in
/-- A turn takes nothing away from the document of its node. -/
theorem Tracked.turn_grows (h : s.Tracked lib peer d) {n : ι} {env : Env Peer}
    {l : Runtime.Label Peer} (hpublish : Runtime.PublishesNone lib l)
    (hadds : ∀ w, Runtime.contextWrite l = some w → Adds d (s.rt n).localContext w env.now)
    (harrives : ∀ c, Runtime.contextMerged lib l = some c → s.Carries lib c) :
    (s.rt n).localContext.data.doc ≤
      ((s.rt n).turn lib env l).1.localContext.data.doc := by
  cases hwrite : Runtime.contextWrite l with
  | some w =>
    -- a write that only adds
    rw [Runtime.localContext_of_write hwrite]
    exact (hadds w hwrite).2.1
  | none =>
    cases hmerged : Runtime.contextMerged lib l with
    | some c =>
      -- a merge of contexts the nodes hold is their join
      rcases h with ⟨a, hm, -, -, hgrown⟩
      have hown : a.Holds (s.rt n).localContext := Or.inl ⟨n, (hm.nodes n).symm⟩
      have hin : a.Holds c := hm.holds (harrives c hmerged)
      have hwithin : ∀ x, a.Holds x → x.data.doc ≤ d := by
        rcases hgrown with ⟨h, hshows⟩
        exact fun x hx => (hshows x hx).2
      have hjoin := AviContext.isLUB_merge (hwithin _ hown) (hwithin _ hin)
        (hgrown.doc_le hown hin) (hgrown.doc_le hin hown)
      rw [(Runtime.localContext_of_merge hmerged).1]
      exact hjoin.1 (Set.mem_insert _ _)
    | none =>
      rw [(Runtime.localContext_of_neither env (s.rt n) hwrite hmerged hpublish).1]

/-- No document loses anything by such a step. -/
theorem Tracked.act_grows (h : s.Tracked lib peer d) {n : ι} {env : Env Peer}
    {l : Runtime.Label Peer} (hpublish : Runtime.PublishesNone lib l)
    (hadds : ∀ w, Runtime.contextWrite l = some w → Adds d (s.rt n).localContext w env.now)
    (harrives : ∀ c, Runtime.contextMerged lib l = some c → s.Carries lib c) (m : ι) :
    (s.rt m).localContext.data.doc ≤ ((s.act lib n env l).rt m).localContext.data.doc := by
  rw [localContext_act]
  by_cases hmn : m = n
  · rw [hmn, Function.update_self]
    exact h.turn_grows hpublish hadds harrives
  · rw [Function.update_of_ne hmn]

/-- No step takes anything away from the document of a node. -/
theorem Tracked.step_grows (h : s.Tracked lib peer d) {l : Label ι Peer}
    (hstep : (mesh lib peer).step s l = some t) (hok : s.WritesMeet lib (Adds d) l) (m : ι) :
    (s.rt m).localContext.data.doc ≤ (t.rt m).localContext.data.doc := by
  cases l with
  | turn n env l =>
    simp only [mesh, step] at hstep
    split_ifs at hstep with hl
    cases hstep
    apply h.act_grows hok.1 hok.2
    intro c hc
    rw [contextMerged_of_not_brings (Bool.not_eq_true _ ▸ hl)] at hc
    cases hc
  | deliver n env source k =>
    obtain ⟨p, hp, rfl⟩ := Option.map_eq_some_iff.mp hstep
    have hpublish : Runtime.PublishesNone lib (.swarm (p.event lib source)) := True.intro
    apply h.act_grows hpublish (fun w hw => by cases hw)
    intro c hc
    rw [contextMerged_event] at hc
    exact Or.inr ⟨p, List.mem_of_getElem? hp, hc⟩

/-- What the contexts of such a mesh have in common. -/
structure ConflictFree (lib : External Peer) (peer : ι ↪ Peer) (t : Mesh ι Peer) : Prop where
  /-- documents grow with their clocks -/
  grows : ∀ c c', t.Carries lib c → t.Carries lib c' → c.version ≤ c'.version →
    c.data.doc ≤ c'.data.doc
  /-- equal clocks mean equal documents -/
  converged : ∀ c c', t.Carries lib c → t.Carries lib c' →
    c.vectorClock.partialCmp c'.vectorClock = some .eq → c.data = c'.data
  /-- a node that has heard of all writes shows all that any context shows -/
  complete : ∀ n, (∀ m, (t.rt n).localContext.version (lib.deviceIds peer m) =
      (t.rt m).localContext.version (lib.deviceIds peer m)) →
    ∀ c, t.Carries lib c → c.data.doc ≤ (t.rt n).localContext.data.doc

omit [DecidableEq ι] in
/-- Contexts within one document are merged without a conflict. -/
theorem Tracked.conflictFree (h : t.Tracked lib peer d) : t.ConflictFree lib peer := by
  rcases h with ⟨b, hb, hinv, hnamed, hgrown⟩
  have hmono : ∀ c c', t.Carries lib c → t.Carries lib c' → c.version ≤ c'.version →
      c.data.doc ≤ c'.data.doc := by
    intro c c' hc hc' hle
    exact hgrown.doc_le (hb.holds hc) (hb.holds hc') hle
  refine ⟨hmono, ?_, ?_⟩
  · intro c c' hc hc' heq
    have hversion : c.version = c'.version := VectorClock.partialCmp_eq_some_eq_iff.mp heq
    apply Value.doc_injective
    exact le_antisymm (hmono c c' hc hc' hversion.le) (hmono c' c hc' hc hversion.ge)
  · intro n hall c hc
    apply hmono c _ hc (Or.inl ⟨n, rfl⟩)
    intro x
    by_cases hx : ∃ m, x = lib.deviceIds peer m
    · -- an entry of a node is at most that node's own
      rcases hx with ⟨m, rfl⟩
      have hbound : c.version (lib.deviceIds peer m) ≤
          (b.nodes m).version (lib.deviceIds peer m) := hinv.bounded _ (hb.holds hc).known m
      rw [hall m]
      rw [hb.nodes] at hbound
      exact hbound
    · have hzero := hnamed c (hb.holds hc) x fun m hxm => hx ⟨m, hxm⟩
      rw [hzero]
      exact Nat.zero_le _

/-- **Conflict-free contexts converge**: in every run of the runtimes whose writes
only add, within one document, documents grow with their clocks, equal clocks
mean equal documents, and a node that has heard of all writes shows all that any
context in the system shows. -/
theorem conflict_free (hd : AviContext.skeleton.doc ≤ d)
    {ls : List (Label ι Peer)} (h₀ : (mesh lib peer).Init s)
    (hrun : (mesh lib peer).run s ls = some t)
    (hkeeps : (mesh lib peer).AllStates (ReadsBack lib) s ls)
    (hok : (mesh lib peer).AllSteps (WritesMeet lib (Adds d)) s ls) :
    t.ConflictFree lib peer := by
  apply Tracked.conflictFree (d := d)
  have hall := Machine.AllSteps.and _ hok (Machine.AllStates.allSteps _ hkeeps)
  exact (mesh lib peer).run_invariant_of
    (fun _ _ t hstep hok h => step_tracked (hok.2 t hstep) hstep hok.1 h) hrun
    (init_tracked hd h₀) hall

/-! ## Two nodes that add different keys -/

/-- Being a part of a document can be checked by merging. -/
theorem adds_iff {v : Value} {c : AviContext} {w : ContextWrite} {now : UInt64} :
    Network.HasCount c w now ∧ (c.commit w now).data.mergeJson c.data = (c.commit w now).data ∧
      v.mergeJson (c.commit w now).data = v ↔ Adds v.doc c w now := by
  unfold Adds
  rw [PathOp.mergeJson_eq_self_iff, PathOp.mergeJson_eq_self_iff]

instance (v : Value) (c : AviContext) (w : ContextWrite) (now : UInt64) :
    Decidable (Adds v.doc c w now) := decidable_of_iff _ adds_iff

/-- All that the two nodes write. -/
def bothKeys : Value := .object [("avi", .object [("device", .object [])]), ("x", .bool true),
  ("y", .bool false)]

/-- Both write before they have heard of each other, and then each hears of the other. -/
def writesApart : List (Label Bool String) :=
  [.turn true (.calm String) (.command (.updateSelfContext (.object [("x", .bool true)]))),
    .turn false (.calm String) (.command (.updateSelfContext (.object [("y", .bool false)]))),
    .turn false (.calm String) (.swarm (.identified "a" [] ["/avi/stream/1.0.0"])),
    .deliver true (.calm String) "b" 2, .deliver false (.calm String) "a" 0]

theorem conflict_free_apart :
    ∃ t, (mesh twoLib twoPeers).run twoStarted writesApart = some t ∧
      t.ConflictFree twoLib twoPeers := by
  have hrun : ((mesh twoLib twoPeers).run twoStarted writesApart).isSome = true := by
    decide +kernel
  obtain ⟨t, ht⟩ := Option.isSome_iff_exists.mp hrun
  have hd : AviContext.skeleton.doc ≤ bothKeys.doc :=
    PathOp.mergeJson_eq_self_iff.mp (by decide +kernel)
  exact ⟨t, ht, conflict_free hd ⟨fun _ => ⟨0, rfl⟩, rfl⟩ ht readsBack_table
    (by decide +kernel)⟩

end Mesh

end AviNet
