import AviNet.PathLens
import AviNet.Replication.Documents
import AviNet.Replication.PathCalls

/-!
# Replication.Provenance — nothing in a context is made up

Whatever nodes do, however stale the copies that path-wise writes send back, and
in whatever order contexts arrive and are merged: every value that is no object
(objects are merged member by member) has been put where it stands by a write.

* `shown_was_written`: what any context shows at a path is, at this path, part of
  the value of an `update_ctx` or `replace_ctx` that did not fail, or of a whole
  document that an application has handed to `update_context` or `replace_context`.
-/

namespace AviNet

open AviContext (ContextWrite)

/-! ## Values and where they stand -/

/-- At the path stands `v`, which is no object. -/
def Value.Atom (d : Value) (p : List String) (v : Value) : Prop :=
  d.at? p = some v ∧ v.isObject = false

theorem Value.atom_iff {d v : Value} {p : List String} : d.Atom p v ↔ d.doc.node p = .leaf v := by
  rw [doc_eq_leaf_iff, walk_eq_ok_iff, Bool.not_eq_true]
  rfl

/-- The call puts `v` there. -/
def PathOp.Places : PathOp → List String → Value → Prop
  | .update path value, p, v | .replace path value, p, v =>
    ∃ r, p = segments path ++ r ∧ value.Atom r v
  | .delete _, _, _ => False

section Writes

variable {d v : Value} {p : List String}

/-- The command of a call shows what the call puts there, and what its copy showed. -/
theorem PathOp.atom_edit {op : PathOp} {w : ContextWrite} (h : op.edit d = .ok w)
    (hatom : w.value.Atom p v) : op.Places p v ∨ d.Atom p v := by
  simp only [Value.atom_iff] at hatom ⊢
  -- a leaf of the document after the write is new, or was there
  have hput : ∀ path (value : Value), (d.doc.put (segments path) value.doc).node p = .leaf v →
      (∃ r, p = segments path ++ r ∧ value.Atom r v) ∨ d.doc.node p = .leaf v := by
    intro path value hleaf
    rcases PathDoc.leaf_put hleaf with ⟨r, hr, hv⟩ | hold
    · exact Or.inl ⟨r, hr, Value.atom_iff.mpr hv⟩
    · exact Or.inr hold
  cases op with
  | update path value =>
    -- the patch or the whole document holds the written value
    obtain ⟨patch, rfl, -, hdoc⟩ := edit_update h
    apply hput
    rw [← hdoc]
    exact hatom
  | replace path value =>
    obtain ⟨data, rfl, -, hdoc⟩ := edit_replace h
    apply hput
    rw [← hdoc]
    exact hatom
  | delete path =>
    -- a deletion leaves leaves of before
    right
    by_cases hpath : path = ""
    · -- the empty document is left
      rw [hpath] at h
      cases h
      have hempty : Value.emptyObject.Atom p v := Value.atom_iff.mpr hatom
      obtain ⟨hat, hno⟩ := hempty
      cases p with
      | nil =>
        cases hat
        cases hno
      | cons k p => cases hat
    · obtain ⟨data, rfl, -, hdoc⟩ := edit_delete h hpath
      have hleaf : data.doc.node p = .leaf v := hatom
      rw [hdoc] at hleaf
      exact PathDoc.leaf_cut hleaf

/-- Laying documents over each other makes nothing up. -/
theorem Value.layers_atom (P : List String → Value → Prop) :
    Layers fun d => ∀ p v, d.Atom p v → P p v := by
  intro a b c hc ha hb p v hv
  rw [atom_iff, hc] at hv
  rcases PathDoc.leaf_onto hv with hv | hv
  · exact ha p v (atom_iff.mpr hv)
  · exact hb p v (atom_iff.mpr hv)

/-- A context that has just been made has no values in it. -/
theorem AviContext.not_atom_skeleton : ¬ skeleton.Atom p v := by
  have hsingle : ∀ (k : String) (c : Value) (p : List String),
      (Value.object [(k, c)]).Atom p v → ∃ r, c.Atom r v := by
    rintro k c (_ | ⟨k', p⟩) ⟨hat, hno⟩
    · cases hat
      rw [Value.object, Value.isObject_ofObject] at hno
      cases hno
    · have hget : (Value.object [(k, c)]).get? k' = if k' = k then some c else none := by
        rw [Value.object, Value.get?_ofObject]
        exact SortedMap.get?_insert _ _ _ _
      rw [Value.at?_cons, hget] at hat
      split_ifs at hat
      · exact ⟨p, hat, hno⟩
      · cases hat
  intro h
  obtain ⟨r, hr⟩ := hsingle _ _ p h
  obtain ⟨r', hat, hno⟩ := hsingle _ _ r hr
  cases r' with
  | nil =>
    cases hat
    cases hno
  | cons k r' => cases hat

end Writes

namespace Mesh

variable {ι Peer : Type} [LinearOrder Peer] {lib : External Peer} {peer : ι ↪ Peer}
  {s : Mesh ι Peer} {P P' : List String → Value → Prop}

/-- Whatever a context shows has the property `P`. -/
def ShowsOnly (lib : External Peer) (P : List String → Value → Prop) (s : Mesh ι Peer) : Prop :=
  s.EveryDocument lib fun d => ∀ p v, d.Atom p v → P p v

theorem ShowsOnly.mono (h : s.ShowsOnly lib P) (hP : ∀ p v, P p v → P' p v) :
    s.ShowsOnly lib P' := EveryDocument.mono h fun _ hd p v hv => hP p v (hd p v hv)

theorem init_showsOnly (h₀ : Init lib peer s) : s.ShowsOnly lib P :=
  init_everyDocument (fun _ _ hv => absurd hv AviContext.not_atom_skeleton) h₀

end Mesh

/-! ## Calls -/

namespace PathCalls

variable {κ ι Peer : Type} [DecidableEq κ] [DecidableEq ι] [LinearOrder Peer] {lib : External Peer}
  {peer : ι ↪ Peer} {calls : κ → PathCall ι} {s t : PathCalls κ ι Peer}
  {ks ls : List (Label κ ι Peer)} {p : List String} {v : Value}

/-- No application publishes a context of its own making. -/
def PublishesNone (lib : External Peer) : Label κ ι Peer → Prop
  | .other (.turn _ _ l) => Runtime.PublishesNone lib l
  | .other (.deliver _ _ _ _) | .call _ _ => True

instance : (l : Label κ ι Peer) → Decidable (PublishesNone lib l)
  | .other (.turn _ _ l) => inferInstanceAs (Decidable (Runtime.PublishesNone lib l))
  | .other (.deliver _ _ _ _) | .call _ _ => isTrue True.intro

/-- A call that has returned and did not fail at its path has put `v` at `p`, or a
document that somebody has handed to the node shows it there. -/
def Written (calls : κ → PathCall ι) (ks : List (Label κ ι Peer)) (s : PathCalls κ ι Peer)
    (p : List String) (v : Value) : Prop :=
  (∃ i res, s.call i = .returned res ∧ (res = .ok () ∨ ∃ e, res = .error (.networkError e)) ∧
    (calls i).op.Places p v) ∨
  ∃ n env l w, .other (.turn n env l) ∈ ks ∧ Runtime.contextWrite l = some w ∧ w.value.Atom p v

/-- What stands in a context or in a copy has been written. -/
structure Sourced (lib : External Peer) (calls : κ → PathCall ι) (ks : List (Label κ ι Peer))
    (s : PathCalls κ ι Peer) : Prop where
  net : s.net.ShowsOnly lib (Written calls ks s)
  fetched : ∀ i doc, s.call i = .fetched doc → ∀ p v, doc.Atom p v → Written calls ks s p v

omit [DecidableEq κ] [DecidableEq ι] in
/-- What has been written stays so: calls that have returned do not move. -/
theorem Written.mono (h : Written calls ks s p v)
    (hcall : ∀ i res, s.call i = .returned res → t.call i = .returned res) (hks : ks ⊆ ls) :
    Written calls ls t p v := by
  rcases h with ⟨i, res, hi, hres, hp⟩ | ⟨n, env, l, w, hl, hw, hp⟩
  · exact Or.inl ⟨i, res, hcall i res hi, hres, hp⟩
  · exact Or.inr ⟨n, env, l, w, hks hl, hw, hp⟩

omit [DecidableEq ι] in
/-- Neither does the call `i` take anything back when it moves. -/
theorem Written.move (h : Written calls ks s p v) {i : κ} {c : CallState} {m : Mesh ι Peer}
    {l : Label κ ι Peer} (hmoves : ∀ res, s.call i ≠ .returned res) :
    Written calls (ks ++ [l]) ⟨m, Function.update s.call i c⟩ p v := by
  refine h.mono ?_ (List.subset_append_left ks [l])
  intro j res hj
  have hji : j ≠ i := by
    rintro rfl
    exact hmoves res hj
  show Function.update s.call i c j = .returned res
  rw [Function.update_of_ne hji]
  exact hj

omit [DecidableEq ι] in
theorem Sourced.move (h : s.Sourced lib calls ks) {i : κ} {c : CallState} {m : Mesh ι Peer}
    {l : Label κ ι Peer} (hmoves : ∀ res, s.call i ≠ .returned res)
    (hnet : m.ShowsOnly lib (Written calls (ks ++ [l]) ⟨m, Function.update s.call i c⟩))
    (hcopy : ∀ doc, c = .fetched doc → ∀ p v, doc.Atom p v → Written calls ks s p v) :
    Sourced lib calls (ks ++ [l]) ⟨m, Function.update s.call i c⟩ := by
  refine ⟨hnet, ?_⟩
  intro j doc hj p v hv
  apply Written.move _ hmoves
  change Function.update s.call i c j = .fetched doc at hj
  by_cases hji : j = i
  · rw [hji, Function.update_self] at hj
    exact hcopy doc hj p v hv
  · rw [Function.update_of_ne hji] at hj
    exact h.fetched j doc hj p v hv

/-- **The step lemma**: a step shows nothing that has not been written. -/
theorem step_sourced (hkeeps : t.net.ReadsBack lib) {l : Label κ ι Peer}
    (hstep : (pathCalls lib peer calls).step s l = some t) (hok : PublishesNone lib l)
    (h : s.Sourced lib calls ks) : t.Sourced lib calls (ks ++ [l]) := by
  cases l with
  | other l =>
    obtain ⟨m, hm, rfl⟩ := Option.map_eq_some_iff.mp hstep
    have hkeep : ∀ p v, Written calls ks s p v →
        Written calls (ks ++ [.other l]) { s with net := m } p v := by
      intro p v hp
      exact hp.mono (fun _ _ hi => hi) (List.subset_append_left ks [.other l])
    refine ⟨?_, fun i doc hi p v hv => hkeep p v (h.fetched i doc hi p v hv)⟩
    apply (h.net.mono hkeep).step (Value.layers_atom _) hkeeps hm
    cases l with
    | turn n env k =>
      refine ⟨hok, ?_⟩
      intro w hw p v hv
      exact Or.inr ⟨n, env, k, w, List.mem_append_right _ List.mem_cons_self, hw, hv⟩
    | deliver n env source k => exact True.intro
  | call i env =>
    have hunmoved : s.call i = .ready ∨ (∃ doc, s.call i = .fetched doc) →
        ∀ res, s.call i ≠ .returned res := by
      rintro (hi | ⟨doc, hi⟩) res hres
      · rw [hi] at hres
        cases hres
      · rw [hi] at hres
        cases hres
    rcases step_call_cases hstep with ⟨hi, rfl⟩ | ⟨doc, e, hi, -, rfl⟩ |
      ⟨doc, w, res, hi, hedit, hres, rfl⟩
    · -- the copy shows what the context shows
      have hmoves := hunmoved (Or.inl hi)
      apply h.move hmoves
      · have hpublish : Runtime.PublishesNone lib
            (.command (.getPeerContext none) : Runtime.Label Peer) := True.intro
        apply (h.net.mono fun p v hp => hp.move hmoves).act (Value.layers_atom _) hkeeps hpublish
        · intro w hw
          cases hw
        · intro c hc
          cases hc
      · rintro doc ⟨⟩ p v hv
        exact h.net _ (Or.inl ⟨_, rfl⟩) p v hv
    · -- nothing is sent
      have hmoves := hunmoved (Or.inr ⟨doc, hi⟩)
      exact h.move hmoves (h.net.mono fun p v hp => hp.move hmoves) fun doc hdoc => by cases hdoc
    · -- the copy is sent, with what the call puts into it
      have hmoves := hunmoved (Or.inr ⟨doc, hi⟩)
      apply h.move hmoves
      · have hpublish : Runtime.PublishesNone lib (.command w.toCommand : Runtime.Label Peer) := by
          cases w <;> exact True.intro
        apply (h.net.mono fun p v hp => hp.move hmoves).act (Value.layers_atom _) hkeeps hpublish
        · intro w' hw' p v hv
          have hsame : w' = w := by
            cases w <;> cases hw' <;> rfl
          rw [hsame] at hv
          rcases PathOp.atom_edit hedit hv with hput | hold
          · exact Or.inl ⟨i, res, Function.update_self _ _ _, hres, hput⟩
          · exact (h.fetched i doc hi p v hold).move hmoves
        · intro c hc
          cases w <;> cases hc
      · intro doc' hdoc'
        cases hdoc'

/-- **Nothing is made up**: in every run of any number of path-wise writes on any
number of nodes, whatever the copies they were made from and whatever is delivered in
which order, what a context shows at a path has been written there. -/
theorem shown_was_written (h₀ : (pathCalls lib peer calls).Init s)
    (hrun : (pathCalls lib peer calls).run s ls = some t)
    (hkeeps : (pathCalls lib peer calls).AllStates (fun s => s.net.ReadsBack lib) s ls)
    (hok : ∀ l ∈ ls, PublishesNone lib l)
    {c : AviContext} (hc : t.net.Carries lib c) (hv : c.data.Atom p v) :
    Written calls ls t p v := by
  have hall : (pathCalls lib peer calls).AllSteps (fun _ l => PublishesNone lib l) s ls :=
    Machine.AllSteps.of_mem _ (fun l hl _ => hok l hl) s
  have hreads := Machine.AllSteps.and _ hall (Machine.AllStates.allSteps _ hkeeps)
  have hinit : s.Sourced lib calls [] := by
    refine ⟨Mesh.init_showsOnly h₀.1, ?_⟩
    intro i doc hi
    rw [h₀.2] at hi
    cases hi
  have hsourced : t.Sourced lib calls ls :=
    (pathCalls lib peer calls).run_history
      (fun _ _ _ t hstep hl h => step_sourced (hl.2 t hstep) hstep hl.1 h) hrun hinit hreads
  exact hsourced.net c hc p v hv

/-- What `b` has heard of the first call in the end. -/
theorem shown_was_written_stale :
    ∃ t, (pathCalls staleLib Mesh.twoPeers fun i => (twoCalls i).call).run
        ⟨Mesh.twoStarted, fun _ => .ready⟩ staleCopy = some t ∧
      (t.net.rt false).localContext.data.Atom ["x"] (.bool true) ∧
      Written (fun i => (twoCalls i).call) staleCopy t ["x"] (.bool true) := by
  have hrun : ((pathCalls staleLib Mesh.twoPeers fun i => (twoCalls i).call).run
      ⟨Mesh.twoStarted, fun _ => .ready⟩ staleCopy).map (fun t =>
        (t.net.rt false).localContext.data.at? ["x"]) = some (some (.bool true)) := by
    decide +kernel
  obtain ⟨t, ht, hshown⟩ := Option.map_eq_some_iff.mp hrun
  have hatom : (t.net.rt false).localContext.data.Atom ["x"] (.bool true) := ⟨hshown, rfl⟩
  exact ⟨t, ht, hatom, shown_was_written
    ⟨⟨fun _ => ⟨0, rfl⟩, rfl⟩, rfl⟩ ht readsBack_staleLib (by decide) (Or.inl ⟨false, rfl⟩) hatom⟩

end PathCalls

end AviNet
