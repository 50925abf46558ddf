import AviNet.Replication.GrowOnly
import AviNet.Runtime.LocalClients

/-!
# Replication.PathCalls — many path-wise writes on many nodes at once

Any number of tasks call `update_ctx`, `replace_ctx` or `delete_ctx`, each on a
node of its own choice: `GetPeerContext`, an edit of the copy, and a command with
the whole copy. The commands interleave with each other and with everything else
that the nodes do, so that a copy may be stale when it is sent.

* `update_calls_kept`: if all calls are `update_ctx` and their values fit into one
  document, no call fails at its path, each one that has returned shows its value
  on its node from then on, and on every node that has heard of all writes; and
  equal clocks mean equal documents throughout.
-/

namespace AviNet

/-- A path-wise write, and the node it is made on. -/
structure PathCall (ι : Type) where
  node : ι
  op : PathOp

/-- A call of `update_ctx`. -/
structure UpdateCall (ι : Type) where
  node : ι
  path : String
  value : Value

def UpdateCall.call {ι : Type} (c : UpdateCall ι) : PathCall ι := ⟨c.node, .update c.path c.value⟩

/-- The nodes and the calls. -/
structure PathCalls (κ ι Peer : Type) [LinearOrder Peer] where
  net : Mesh ι Peer
  call : κ → CallState

namespace PathCalls

variable {κ ι Peer : Type} [DecidableEq κ] [DecidableEq ι] [LinearOrder Peer]

/-! ## Model layer -/

inductive Label (κ ι Peer : Type) where
  /-- anything else that the nodes do -/
  | other (l : Mesh.Label ι Peer)
  /-- the next command of the call `i` -/
  | call (i : κ) (env : Env Peer)

/-- The node of the call `i` handles its command; the call is then at `c`. -/
def command (lib : External Peer) (calls : κ → PathCall ι) (s : PathCalls κ ι Peer) (i : κ)
    (env : Env Peer) (cmd : Command) (c : CallState) : PathCalls κ ι Peer where
  net := s.net.act lib (calls i).node env (.command cmd)
  call := Function.update s.call i c

def step (lib : External Peer) (peer : ι ↪ Peer) (calls : κ → PathCall ι)
    (s : PathCalls κ ι Peer) : Label κ ι Peer → Option (PathCalls κ ι Peer)
  | .other l => ((mesh lib peer).step s.net l).map fun m => { s with net := m }
  | .call i env =>
    match s.call i with
    | .ready =>
      match Runtime.replyOf
          ((s.net.rt (calls i).node).handleCommand lib env (.getPeerContext none)).2 with
      | some (.value (.ok doc)) =>
        some (s.command lib calls i env (.getPeerContext none) (.fetched doc))
      | some (.value (.error e)) =>
        some (s.command lib calls i env (.getPeerContext none) (.returned (.error e)))
      | _ => none
    | .fetched doc =>
      match (calls i).op.edit doc with
      | .error e => some { s with call := Function.update s.call i (.returned (.error e)) }
      | .ok w =>
        match Runtime.replyOf
            ((s.net.rt (calls i).node).handleCommand lib env w.toCommand).2 with
        | some (.done res) => some (s.command lib calls i env w.toCommand (.returned res))
        | _ => none
    | .returned _ => none

/-- Nodes that have just started, and no call has sent a command. -/
def Init (lib : External Peer) (peer : ι ↪ Peer) (s : PathCalls κ ι Peer) : Prop :=
  (mesh lib peer).Init s.net ∧ s.call = fun _ => .ready

end PathCalls

open PathCalls in
/-- The machine of the nodes and these calls. -/
def pathCalls {κ ι Peer : Type} [DecidableEq κ] [DecidableEq ι] [LinearOrder Peer]
    (lib : External Peer) (peer : ι ↪ Peer) (calls : κ → PathCall ι) :
    Machine (PathCalls κ ι Peer) (PathCalls.Label κ ι Peer) where
  Init := Init lib peer
  step := step lib peer calls

/-- All calls are `update_ctx`. -/
abbrev updateCalls {κ ι Peer : Type} [DecidableEq κ] [DecidableEq ι] [LinearOrder Peer]
    (lib : External Peer) (peer : ι ↪ Peer) (calls : κ → UpdateCall ι) :
    Machine (PathCalls κ ι Peer) (PathCalls.Label κ ι Peer) :=
  pathCalls lib peer fun i => (calls i).call

namespace PathCalls

variable {κ ι Peer : Type} [DecidableEq κ] [DecidableEq ι] [LinearOrder Peer]

/-- The counters have room, and all other writes only add within `d` as well. -/
def Allowed (lib : External Peer) (calls : κ → UpdateCall ι) (d : PathDoc String Value)
    (s : PathCalls κ ι Peer) : Label κ ι Peer → Prop
  | .other l => s.net.WritesMeet lib (Adds d) l
  | .call i _ => (s.net.rt (calls i).node).localContext.version
      (s.net.rt (calls i).node).localContext.deviceId + 1 < 2 ^ 64

/-- The document of the node that the call `i` is made on. -/
def docOf (calls : κ → UpdateCall ι) (s : PathCalls κ ι Peer) (i : κ) : PathDoc String Value :=
  (s.net.rt (calls i).node).localContext.data.doc

/-- The value of a call stands at its path. -/
def Shown (c : UpdateCall ι) (a : PathDoc String Value) : Prop :=
  a.ShowsAt (segments c.path) c.value.doc

variable {lib : External Peer} {peer : ι ↪ Peer} {calls : κ → UpdateCall ι}
  {d : PathDoc String Value} {s t : PathCalls κ ι Peer}

/-! ## One command of a call -/

/-- How a write is answered. -/
theorem replyOf_write_cases {env : Env Peer} {rt : Runtime Peer} {w : AviContext.ContextWrite}
    {res : Except AviP2pError Unit}
    (h : Runtime.replyOf (rt.handleCommand lib env w.toCommand).2 = some (.done res)) :
    res = .ok () ∨ ∃ e, res = .error (.networkError e) := by
  -- a write is answered as its broadcast turns out
  have hbroadcast : ∀ rt : Runtime Peer,
      Runtime.replyOf (rt.broadcastContext lib env).2 = some (.done res) →
        res = .ok () ∨ ∃ e, res = .error (.networkError e) := by
    intro rt h
    unfold Runtime.broadcastContext at h
    cases hencode : lib.encodeContext rt.localContext with
    | none =>
      simp only [hencode, Runtime.replyOf, Option.some.injEq, Reply.done.injEq] at h
      exact Or.inl h.symm
    | some data =>
      cases hpublish : env.publish with
      | ok =>
        simp only [hencode, hpublish, Runtime.replyOf, Option.some.injEq, Reply.done.injEq] at h
        exact Or.inl h.symm
      | insufficientPeers =>
        simp only [hencode, hpublish, Runtime.replyOf, Option.some.injEq, Reply.done.injEq] at h
        exact Or.inl h.symm
      | error e =>
        simp only [hencode, hpublish, Runtime.replyOf, Option.some.injEq, Reply.done.injEq] at h
        exact Or.inr ⟨e, h.symm⟩
  cases w with
  | update patch => exact hbroadcast _ h
  | replace data => exact hbroadcast _ h

/-- What a command of a call does: it fetches the document, fails in its copy, or
sends the copy back. -/
theorem step_call_cases {calls : κ → PathCall ι} {i : κ} {env : Env Peer}
    (h : (pathCalls lib peer calls).step s (.call i env) = some t) :
    (s.call i = .ready ∧ t = s.command lib calls i env (.getPeerContext none)
      (.fetched (s.net.rt (calls i).node).localContext.data)) ∨
    (∃ doc e, s.call i = .fetched doc ∧
      (calls i).op.edit doc = .error e ∧
      t = { s with call := Function.update s.call i (.returned (.error e)) }) ∨
    ∃ doc w res, s.call i = .fetched doc ∧
      (calls i).op.edit doc = .ok w ∧
      (res = .ok () ∨ ∃ e, res = .error (.networkError e)) ∧
      t = s.command lib calls i env w.toCommand (.returned res) := by
  simp only [pathCalls, step] at h
  -- the call reads the document
  cases hcall : s.call i with
  | ready =>
    simp only [hcall, Runtime.handleCommand, Runtime.replyOf, Option.some.injEq] at h
    exact Or.inl ⟨rfl, h.symm⟩
  | returned res =>
    rw [hcall] at h
    cases h
  | fetched doc =>
    -- it has read: the path operation may fail, or else one command is sent
    cases hedit : (calls i).op.edit doc with
    | error e =>
      simp only [hcall, hedit, Option.some.injEq] at h
      exact Or.inr (Or.inl ⟨doc, e, rfl, hedit, h.symm⟩)
    | ok w =>
      obtain ⟨-, res, hres⟩ := LocalClients.handleCommand_write lib env
        (s.net.rt (calls i).node) w
      simp only [hcall, hedit, hres, Option.some.injEq] at h
      exact Or.inr (Or.inr ⟨doc, w, res, rfl, hedit, replyOf_write_cases hres, h.symm⟩)

omit [DecidableEq ι] in
/-- An edit of a part of `d`, with a value that `d` shows, succeeds and gives a part of `d`. -/
theorem edit_within {doc : Value} {c : UpdateCall ι} (hdoc : doc.doc ≤ d) (hfit : Shown c d) :
    ∃ patch, (PathOp.update c.path c.value).edit doc = .ok (.update patch) ∧
      patch.doc ≤ d ∧ Shown c patch.doc := by
  have hok : (doc.setNestedValue c.path c.value).2 = .ok () :=
    Value.setNestedValue_ok_iff.mpr (Or.inr (Or.inr (hfit.clear hdoc)))
  refine ⟨_, PathOp.edit_eq_ok_iff.mpr ⟨hok, rfl⟩, ?_, ?_⟩
  · show (doc.setNestedValue c.path c.value).1.doc ≤ d
    rw [Value.doc_setNestedValue hok]
    exact PathDoc.put_le hdoc hfit
  · show Shown c (doc.setNestedValue c.path c.value).1.doc
    rw [Value.doc_setNestedValue hok]
    exact PathDoc.put_showsAt _ _ _

/-- A patch that is a part of `d` only adds to another part of `d`. -/
theorem adds_patch {c : AviContext} {patch : Value} (now : UInt64) (hc : c.data.doc ≤ d)
    (hpatch : patch.doc ≤ d) (hcount : c.version c.deviceId + 1 < 2 ^ 64) :
    Adds d c (.update patch) now ∧ patch.doc ≤ (c.commit (.update patch) now).data.doc := by
  have hjoin := PathDoc.isLUB_onto hpatch hc
  unfold Adds
  rw [AviContext.doc_commit_update]
  refine ⟨⟨hcount, hjoin.1 (Set.mem_insert_of_mem _ rfl), ?_⟩, hjoin.1 (Set.mem_insert _ _)⟩
  exact PathDoc.onto_le hpatch hc

/-! ## The invariant -/

/-- A copy is a part of the document it was made from, also when that has moved on,
and a call that has returned did not fail at its path and is shown. -/
structure Kept (lib : External Peer) (peer : ι ↪ Peer) (calls : κ → UpdateCall ι)
    (d : PathDoc String Value) (s : PathCalls κ ι Peer) : Prop where
  tracked : s.net.Tracked lib peer d
  fetched : ∀ i doc, s.call i = .fetched doc → doc.doc ≤ s.docOf calls i
  returned : ∀ i res, s.call i = .returned res →
    (res = .ok () ∨ ∃ e, res = .error (.networkError e)) ∧ Shown (calls i) (s.docOf calls i)

omit [DecidableEq κ] in
theorem init_kept (hd : AviContext.skeleton.doc ≤ d) (h₀ : Init lib peer s) :
    s.Kept lib peer calls d := by
  refine ⟨Mesh.init_tracked hd h₀.1, ?_, ?_⟩
  · intro i doc hi
    rw [h₀.2] at hi
    cases hi
  · intro i res hi
    rw [h₀.2] at hi
    cases hi

omit [DecidableEq κ] [DecidableEq ι] in
/-- What has been fetched or shown stays so while the documents grow. -/
theorem Kept.grow (h : s.Kept lib peer calls d) (htracked : t.net.Tracked lib peer d)
    (hgrow : ∀ i, s.docOf calls i ≤ t.docOf calls i) (hcall : t.call = s.call) :
    t.Kept lib peer calls d := by
  refine ⟨htracked, ?_, ?_⟩
  · intro i doc hi
    rw [hcall] at hi
    exact (h.fetched i doc hi).trans (hgrow i)
  · intro i res hi
    rw [hcall] at hi
    exact ⟨(h.returned i res hi).1, (h.returned i res hi).2.mono (hgrow i)⟩

omit [DecidableEq ι] in
/-- The call `i` moves on to `c`. -/
theorem Kept.move (h : s.Kept lib peer calls d) {i : κ} {c : CallState}
    (hfetched : ∀ doc, c = .fetched doc → doc.doc ≤ s.docOf calls i)
    (hreturned : ∀ res, c = .returned res →
      (res = .ok () ∨ ∃ e, res = .error (.networkError e)) ∧ Shown (calls i) (s.docOf calls i)) :
    Kept lib peer calls d { s with call := Function.update s.call i c } := by
  refine ⟨h.tracked, ?_, ?_⟩
  · intro j doc hj
    change Function.update s.call i c j = .fetched doc at hj
    by_cases hji : j = i
    · rw [hji, Function.update_self] at hj
      rw [hji]
      exact hfetched doc hj
    · rw [Function.update_of_ne hji] at hj
      exact h.fetched j doc hj
  · intro j res hj
    change Function.update s.call i c j = .returned res at hj
    by_cases hji : j = i
    · rw [hji, Function.update_self] at hj
      rw [hji]
      exact hreturned res hj
    · rw [Function.update_of_ne hji] at hj
      exact h.returned j res hj

omit [DecidableEq κ] in
/-- The nodes take a step of their own. -/
theorem Kept.net_step (h : s.Kept lib peer calls d) {l : Mesh.Label ι Peer}
    {m : Mesh ι Peer} (hkeeps : m.ReadsBack lib) (hstep : (mesh lib peer).step s.net l = some m)
    (hok : s.net.WritesMeet lib (Adds d) l) : Kept lib peer calls d { s with net := m } := by
  refine h.grow (Mesh.step_tracked hkeeps hstep hok h.tracked) ?_ rfl
  intro i
  exact h.tracked.step_grows hstep hok (calls i).node

omit [DecidableEq κ] [DecidableEq ι] in
theorem Kept.docOf_le (h : s.Kept lib peer calls d) (i : κ) : s.docOf calls i ≤ d := by
  rcases h.tracked with ⟨a, hm, -, -, hgrown⟩
  rcases hgrown with ⟨h, hshows⟩
  exact (hshows _ (Or.inl ⟨(calls i).node, (hm.nodes _).symm⟩)).2

/-- **The step lemma**. -/
theorem step_kept (hkeeps : t.net.ReadsBack lib) (hfit : ∀ i, Shown (calls i) d)
    {l : Label κ ι Peer} (hstep : (updateCalls lib peer calls).step s l = some t)
    (hok : s.Allowed lib calls d l) (h : s.Kept lib peer calls d) : t.Kept lib peer calls d := by
  cases l with
  | other l =>
    obtain ⟨m, hm, rfl⟩ := Option.map_eq_some_iff.mp hstep
    exact h.net_step hkeeps hm hok
  | call i env =>
    rcases step_call_cases hstep with ⟨-, rfl⟩ | ⟨doc, e, hcall, hedit, -⟩ |
      ⟨doc, w, res, hcall, hedit, hres, rfl⟩
    · -- the copy is the whole document
      have hnet := h.net_step hkeeps
        (l := .turn (calls i).node env (.command (.getPeerContext none))) rfl
        ⟨True.intro, fun w hw => by cases hw⟩
      have hpublish : Runtime.PublishesNone lib
          (.command (.getPeerContext none) : Runtime.Label Peer) := True.intro
      refine hnet.move ?_ fun res hres => by cases hres
      rintro doc ⟨⟩
      exact h.tracked.act_grows hpublish (fun w hw => by cases hw)
        (fun c hc => by cases hc) (calls i).node
    · -- a copy within `d` can be edited
      have hdoc := (h.fetched i doc hcall).trans (h.docOf_le i)
      obtain ⟨patch, hpatch, -⟩ := edit_within hdoc (hfit i)
      cases hpatch.symm.trans hedit
    · -- the copy is laid over the document, stale or not
      have hdoc := (h.fetched i doc hcall).trans (h.docOf_le i)
      obtain ⟨patch, hpatch, hwithin, hshown⟩ := edit_within hdoc (hfit i)
      cases hpatch.symm.trans hedit
      obtain ⟨hadds, hle⟩ := adds_patch env.now (h.docOf_le i) hwithin hok
      have hnet := h.net_step hkeeps
        (l := .turn (calls i).node env (.command (.updateSelfContext patch))) rfl
        ⟨True.intro, fun w hw => by cases hw; exact hadds⟩
      refine hnet.move (fun doc hdoc => by cases hdoc) ?_
      rintro res' ⟨⟩
      refine ⟨hres, hshown.mono ?_⟩
      show patch.doc ≤
        ((s.net.act lib (calls i).node env _).rt (calls i).node).localContext.data.doc
      rw [Mesh.localContext_act, Function.update_self, Runtime.localContext_of_write rfl]
      exact hle

/-! ## Runs -/

omit [DecidableEq ι] in
/-- What it means for a reader that a value stands at its path. -/
theorem shown_iff_getCtx {c : UpdateCall ι} {data : Value} : Shown c data.doc ↔
    ∃ v, data.getCtx c.path = .ok v ∧ c.value.doc ≤ v.doc := by
  simp only [Value.getCtx_eq_ok_iff, Value.at?_eq_some_iff]
  constructor
  · intro h
    have hroot := h [] c.value.doc.root
    rw [List.append_nil] at hroot
    have hpresent : data.doc.node (segments c.path) ≠ .absent := by
      rw [hroot]
      exact c.value.doc.root
    obtain ⟨v, hv⟩ := Option.isSome_iff_exists.mp (Value.doc_ne_absent_iff.mp hpresent)
    have hbelow := Value.at?_eq_some_iff.mp hv
    refine ⟨v, hbelow, ?_⟩
    intro r hr
    rw [← congrFun hbelow r]
    exact h r hr
  · rintro ⟨v, hbelow, hle⟩ r hr
    rw [← hle r hr]
    exact congrFun hbelow r

/-- **No `update_ctx` is lost if the values fit together**: in every run of any
number of calls on any number of nodes, whatever is delivered between their
commands, no call fails at its path, each that has returned is shown on its
node, and on every node that has heard of all writes; and contexts with equal
clocks are equal. -/
theorem update_calls_kept (hd : AviContext.skeleton.doc ≤ d)
    (hfit : ∀ i, Shown (calls i) d) {ls : List (Label κ ι Peer)}
    (h₀ : (updateCalls lib peer calls).Init s)
    (hrun : (updateCalls lib peer calls).run s ls = some t)
    (hkeeps : (updateCalls lib peer calls).AllStates (fun s => s.net.ReadsBack lib) s ls)
    (hok : (updateCalls lib peer calls).AllSteps (Allowed lib calls d) s ls) :
    (∀ i res, t.call i = .returned res →
      (res = .ok () ∨ ∃ e, res = .error (.networkError e)) ∧
      ∃ v, (t.net.rt (calls i).node).localContext.data.getCtx (calls i).path = .ok v ∧
        (calls i).value.doc ≤ v.doc) ∧
    (∀ n, (∀ m, (t.net.rt n).localContext.version (lib.deviceIds peer m) =
        (t.net.rt m).localContext.version (lib.deviceIds peer m)) →
      ∀ i res, t.call i = .returned res →
        ∃ v, (t.net.rt n).localContext.data.getCtx (calls i).path = .ok v ∧
          (calls i).value.doc ≤ v.doc) ∧
    t.net.ConflictFree lib peer := by
  -- the invariant over the whole run
  have hall := Machine.AllSteps.and _ hok (Machine.AllStates.allSteps _ hkeeps)
  have hkept : t.Kept lib peer calls d := (updateCalls lib peer calls).run_invariant_of
    (fun _ _ t hstep hok h => step_kept (hok.2 t hstep) hfit hstep hok.1 h) hrun
    (init_kept hd h₀) hall
  have hfree := hkept.tracked.conflictFree
  refine ⟨?_, ?_, hfree⟩
  · -- on the node of the call
    intro i res hi
    exact ⟨(hkept.returned i res hi).1, shown_iff_getCtx.mp (hkept.returned i res hi).2⟩
  · -- on a node that has heard of all writes
    intro n hall i res hi
    have hle := hfree.complete n hall _ (Or.inl ⟨(calls i).node, rfl⟩)
    exact shown_iff_getCtx.mp ((hkept.returned i res hi).2.mono hle)

/-! ## Two calls on one node -/

instance (v : Value) (calls : κ → UpdateCall ι) (s : PathCalls κ ι Peer) :
    (l : Label κ ι Peer) → Decidable (s.Allowed lib calls v.doc l)
  | .other l => inferInstanceAs (Decidable (s.net.WritesMeet lib (Adds v.doc) l))
  | .call i _ => inferInstanceAs (Decidable ((s.net.rt (calls i).node).localContext.version
      (s.net.rt (calls i).node).localContext.deviceId + 1 < 2 ^ 64))

/-- Both calls are made on `a`, at different keys. -/
def twoCalls : Bool → UpdateCall Bool
  | true => ⟨true, "x", .bool true⟩
  | false => ⟨true, "y", .bool false⟩

/-- The second call sends a copy that was made before the first one wrote; then `b`
hears of both. -/
def staleCopy : List (Label Bool Bool String) :=
  [.call true (.calm String), .call false (.calm String), .call true (.calm String),
    .call false (.calm String),
    .other (.turn true (.calm String) (.swarm (.identified "b" [] ["/avi/stream/1.0.0"]))),
    .other (.deliver false (.calm String) "a" 2)]

/-- The contexts of `a` after each of the calls can be written and read. -/
def staleLib : External String :=
  .table [Mesh.firstWrite, Mesh.firstWrite.commit (.update (.object [("y", .bool false)])) 0]

/-- All contexts of such a run are read back. -/
theorem readsBack_staleLib {calls : κ → PathCall Bool} {s : PathCalls κ Bool String}
    {ls : List (Label κ Bool String)} :
    (pathCalls staleLib Mesh.twoPeers calls).AllStates (fun s => s.net.ReadsBack staleLib) s ls :=
  Machine.AllStates.of_forall _ (fun _ _ => External.table_keeps _ _) s ls

theorem update_calls_kept_stale :
    ∃ t, (updateCalls staleLib Mesh.twoPeers twoCalls).run
        ⟨Mesh.twoStarted, fun _ => .ready⟩ staleCopy = some t ∧
    (∀ i res, t.call i = .returned res →
      (res = .ok () ∨ ∃ e, res = .error (.networkError e)) ∧
      ∃ v, (t.net.rt (twoCalls i).node).localContext.data.getCtx (twoCalls i).path = .ok v ∧
        (twoCalls i).value.doc ≤ v.doc) ∧
    (∀ n, (∀ m, (t.net.rt n).localContext.version (staleLib.deviceIds Mesh.twoPeers m) =
        (t.net.rt m).localContext.version (staleLib.deviceIds Mesh.twoPeers m)) →
      ∀ i res, t.call i = .returned res →
        ∃ v, (t.net.rt n).localContext.data.getCtx (twoCalls i).path = .ok v ∧
          (twoCalls i).value.doc ≤ v.doc) ∧
    t.net.ConflictFree staleLib Mesh.twoPeers := by
  have hrun : ((updateCalls staleLib Mesh.twoPeers twoCalls).run
      ⟨Mesh.twoStarted, fun _ => .ready⟩ staleCopy).isSome = true := by
    decide +kernel
  obtain ⟨t, ht⟩ := Option.isSome_iff_exists.mp hrun
  have hd : AviContext.skeleton.doc ≤ Mesh.bothKeys.doc :=
    PathOp.mergeJson_eq_self_iff.mp (by decide +kernel)
  have hfit : ∀ i, Shown (twoCalls i) Mesh.bothKeys.doc := by
    intro i
    apply shown_iff_getCtx.mpr
    cases i with
    | true => exact ⟨.bool true, by decide +kernel, le_rfl⟩
    | false => exact ⟨.bool false, by decide +kernel, le_rfl⟩
  exact ⟨t, ht, update_calls_kept hd hfit ⟨⟨fun _ => ⟨0, rfl⟩, rfl⟩, rfl⟩ ht readsBack_staleLib
    (by decide +kernel)⟩

end PathCalls

end AviNet
