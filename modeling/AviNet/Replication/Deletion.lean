import AviNet.ContextApi
import AviNet.Replication.Network

/-!
# Replication.Deletion — what keeps a deleted path absent, and what brings it back

`delete_ctx` leaves no trace but the absence of the path. A newer receiver
"takes missing keys" of an older context by design, so a context that still
carries the path brings it back; nothing else does.

* `deletion_stable`: the deletion and its spreading, the runs that keep it, and
  the exact condition under which one delivery undoes it;
* `deletion_undone`: a copy sent before the deletion and delivered after it.
-/

namespace AviNet.Network

open AviContext (ContextWrite)

variable {ι : Type*}

/-- The step does not write `path`, a prefix or an extension of it. -/
inductive Spares (path : String) (s : Network ι) : Label ι → Prop
  /-- a path-wise write at a diverging path -/
  | op {n : ι} {o : PathOp} {w : ContextWrite} (now : UInt64)
      (hdiv : PathDoc.Diverge (segments o.path) (segments path))
      (hedit : o.edit (s.nodes n).data = .ok w) : Spares path s (.write n w now)
  /-- a patch or a new document that does not carry `path` -/
  | doc {n : ι} {w : ContextWrite} (now : UInt64) (h : w.value.hasCtx path = false) :
      Spares path s (.write n w now)
  | sync (n : ι) : Spares path s (.sync n)
  | deliver (n : ι) (x : AviContext) : Spares path s (.deliver n x)

/-- The step delivers no context that carries `path`. -/
def DeliversNone (path : String) : Label ι → Prop
  | .deliver _ x => x.data.hasCtx path = false
  | .write _ _ _ | .sync _ => True

/-- What the branches of `merge` ask for before they take over a path that `c`
lacks: nothing if `c` is older, an open path if `c` stays on top. -/
def Restores (path : String) (c x : AviContext) : Prop :=
  match c.vectorClock.partialCmp x.vectorClock with
  | some .lt => True
  | some .eq => False
  | some .gt => c.data.doc.Open (segments path)
  | none => x.timestamp < c.timestamp ∨ c.data.doc.Open (segments path)

/-! ## One operation -/

theorem hasCtx_eq_false_iff {v : Value} {path : String} :
    v.hasCtx path = false ↔ v.doc.node (segments path) = .absent := by
  rw [← Bool.not_eq_true, Value.hasCtx_iff, not_not]

/-- What lies over a document without the path brings it in only by itself. -/
theorem onto_absent {a b : PathDoc String Value} {p : List String} (ha : a.node p = .absent)
    (hb : b.node p = .absent) : (a.onto b).node p = .absent := by
  by_contra h
  rcases PathDoc.onto_ne_absent_iff.mp h with h | ⟨-, h⟩
  · exact h ha
  · exact h hb

/-- A write that does not carry the path does not bring it in. -/
theorem commit_lacks {c : AviContext} {w : ContextWrite} {path : String}
    (hc : c.data.hasCtx path = false) (hw : w.value.hasCtx path = false) (now : UInt64) :
    (c.commit w now).data.hasCtx path = false := by
  rw [hasCtx_eq_false_iff] at hc hw ⊢
  cases w with
  | update patch =>
    rw [AviContext.doc_commit_update]
    exact onto_absent hw hc
  | replace data => exact hw

/-- A delivered context brings a path back exactly if it carries it and the
branch taken allows it. -/
theorem merge_hasCtx_iff {c x : AviContext} {path : String} (hc : c.data.hasCtx path = false) :
    (c.merge x).1.data.hasCtx path = true ↔ x.data.hasCtx path = true ∧ Restores path c x := by
  rw [hasCtx_eq_false_iff] at hc
  rw [Value.hasCtx_iff, Value.hasCtx_iff]
  unfold Restores
  rcases AviContext.merge_cases c x with ⟨h, -⟩ | ⟨h, -⟩ | ⟨h, -⟩ | ⟨h, -⟩
  · -- `Less`: the document of `x` is taken over
    rw [AviContext.data_merge_lt h, h]
    exact (and_iff_left True.intro).symm
  · -- `Greater`: `x` fills the gaps, so it restores the path if it has it
    rw [AviContext.doc_merge_gt h, PathDoc.onto_ne_absent_iff, h]
    simp [hc, and_comm]
  · -- `Equal`: nothing is merged
    rw [AviContext.data_merge_eq h, h]
    simp [hc]
  · -- concurrent: the older is on top
    rw [AviContext.doc_merge_none h, PathDoc.onto_ne_absent_iff, h]
    unfold AviContext.older AviContext.younger
    by_cases ht : c.timestamp ≤ x.timestamp
    · have hlt : ¬ x.timestamp < c.timestamp := by
        rw [UInt64.le_iff_toNat_le] at ht
        rw [UInt64.lt_iff_toNat_lt]
        omega
      simp [ht, hc, hlt, and_comm]
    · have hlt : x.timestamp < c.timestamp := by
        rw [UInt64.le_iff_toNat_le] at ht
        rw [UInt64.lt_iff_toNat_lt]
        omega
      simp [ht, hc, hlt]

/-- A deletion that succeeds removes the path. -/
theorem delete_lacks {c : AviContext} {w : ContextWrite} {path : String} (hp : path ≠ "")
    (hedit : (PathOp.delete path).edit c.data = .ok w) (now : UInt64) :
    (c.commit w now).data.hasCtx path = false := by
  obtain ⟨data, rfl, -, hdoc⟩ := PathOp.edit_delete hedit hp
  rw [hasCtx_eq_false_iff, AviContext.data_commit_replace, hdoc]
  have hne : segments path ≠ [] := fun h => hp ((Value.segments_eq_nil_iff path).mp h)
  have habs := congrFun (PathDoc.below_cut c.data.doc hne) []
  rwa [PathDoc.below, List.append_nil] at habs

/-! ## Runs -/

variable [DecidableEq ι]

/-- A node without the path still lacks it after a step that writes it nowhere
and delivers it from nowhere. -/
theorem step_lacks {deviceId : ι ↪ String} {s t : Network ι} {l : Label ι} {path : String}
    (hstep : (network deviceId).step s l = some t)
    (hl : Spares path s l ∧ DeliversNone path l) {m : ι}
    (hm : (s.nodes m).data.hasCtx path = false) : (t.nodes m).data.hasCtx path = false := by
  -- only the node that acts has to be looked at
  have hupd : ∀ (n : ι) (c : AviContext),
      ((s.nodes n).data.hasCtx path = false → c.data.hasCtx path = false) →
        (Function.update s.nodes n c m).data.hasCtx path = false := by
    intro n c hc
    by_cases hmn : m = n
    · rw [hmn, Function.update_self]
      exact hc (hmn ▸ hm)
    · rwa [Function.update_of_ne hmn]
  rcases hl with ⟨hspares, hnone⟩
  cases hspares with
  | op now hdiv hedit =>
    cases hstep
    refine hupd _ _ fun hn => commit_lacks hn ?_ now
    rw [hasCtx_eq_false_iff] at hn ⊢
    rw [PathDoc.below_self (PathOp.below_edit hedit hdiv), hn]
  | doc now h =>
    cases hstep
    exact hupd _ _ fun hn => commit_lacks hn h now
  | sync n =>
    cases hstep
    exact hm
  | deliver n x =>
    simp only [network, step] at hstep
    split_ifs at hstep
    cases hstep
    refine hupd n _ fun hn => ?_
    rw [← Bool.not_eq_true, merge_hasCtx_iff hn]
    rintro ⟨hx, -⟩
    rw [hnone] at hx
    cases hx

/-- **Deletions**: a deletion that succeeds removes the path from the node and
from the context it sends; an older node that merges a context without the path
loses it as well. From then on the path stays away from each such node in every
run that does not write it, as long as no context that carries it is delivered;
and such a context brings it back exactly as `Restores` says. -/
theorem deletion_stable (deviceId : ι ↪ String) {path : String} (hp : path ≠ "") :
    (∀ (s t : Network ι) n w now, (PathOp.delete path).edit (s.nodes n).data = .ok w →
      (network deviceId).step s (.write n w now) = some t →
        (t.nodes n).data.hasCtx path = false ∧ t.nodes n ∈ t.flight) ∧
    (∀ c x : AviContext, x.data.hasCtx path = false →
      c.vectorClock.partialCmp x.vectorClock = some .lt →
        (c.merge x).1.data.hasCtx path = false) ∧
    (∀ (s : Network ι) ls m, (s.nodes m).data.hasCtx path = false →
      (network deviceId).AllSteps (fun s l => Spares path s l ∧ DeliversNone path l) s ls →
        (network deviceId).AllStates (fun t => (t.nodes m).data.hasCtx path = false) s ls) ∧
    ∀ c x : AviContext, c.data.hasCtx path = false →
      ((c.merge x).1.data.hasCtx path = true ↔
        x.data.hasCtx path = true ∧ Restores path c x) := by
  refine ⟨?_, ?_, ?_, fun c x hc => merge_hasCtx_iff hc⟩
  · -- the deletion itself
    intro s t n w now hedit hstep
    cases hstep
    have hnode : (s.publish n ((s.nodes n).commit w now)).nodes n = (s.nodes n).commit w now :=
      Function.update_self ..
    rw [hnode]
    exact ⟨delete_lacks hp hedit now, List.mem_cons_self⟩
  · -- a newer context without the path
    intro c x hx hlt
    rw [AviContext.data_merge_lt hlt]
    exact hx
  · -- steps that spare the path and bring no context with it
    intro s ls m hm hok
    exact (network deviceId).allStates_of_allSteps
      (fun _ _ _ hstep hl h => step_lacks hstep hl h) hm hok

/-! ## A deletion undone -/

/-- The context of `A` after it has deleted the `x` it had written. -/
def deleted : AviContext := written.commit (.replace AviContext.skeleton) 2

/-- `A` has written `x`; the context is in flight. -/
def afterWrite : Network Bool := started.publish false written

/-- `A` has deleted `x` again. -/
def afterDelete : Network Bool := afterWrite.publish false deleted

/-- `B` has merged the context without `x`. -/
def afterMerge : Network Bool where
  nodes := Function.update afterDelete.nodes true ((afterDelete.nodes true).merge deleted).1
  flight := afterDelete.flight

theorem edit_afterWrite : (PathOp.delete "x").edit (afterWrite.nodes false).data =
    .ok (.replace AviContext.skeleton) :=
  PathOp.edit_eq_ok_iff.mpr (by decide +kernel)

/-- The deletion, and a run that sends the context without `x` to `B`. -/
theorem deletion_stable_x :
    ((afterDelete.nodes false).data.hasCtx "x" = false ∧
      afterDelete.nodes false ∈ afterDelete.flight) ∧
    (network twoDevices).AllStates (fun t => (t.nodes false).data.hasCtx "x" = false) afterDelete
      [.deliver true deleted, .sync true] := by
  have hstable := deletion_stable twoDevices (show "x" ≠ "" by decide)
  have hdelete := hstable.1 afterWrite afterDelete false _ 2 edit_afterWrite rfl
  refine ⟨hdelete, hstable.2.2.1 afterDelete _ false hdelete.1 ?_⟩
  exact ⟨⟨.deliver true deleted, by unfold DeliversNone; decide +kernel⟩,
    fun t _ => ⟨⟨.sync true, True.intro⟩, fun _ _ => True.intro⟩⟩

/-- The first context of `A` reaches `B` after the deletion and brings `x` back. -/
theorem deletion_undone : ¬ ∀ (s t u v : Network Bool) n w now ms m x path,
    (network twoDevices).Reachable s → path ≠ "" →
    (PathOp.delete path).edit (s.nodes n).data = .ok w →
    (network twoDevices).step s (.write n w now) = some t →
    (network twoDevices).run t ms = some u → (∀ k, k ≠ n → .deliver k (t.nodes n) ∈ ms) →
    (network twoDevices).AllSteps (Spares path) t ms →
    (network twoDevices).step u (.deliver m x) = some v →
    (u.nodes m).data.hasCtx path = false → (v.nodes m).data.hasCtx path = false := by
  intro h
  -- B receives the deletion, then the write from before it
  have hreach : (network twoDevices).Reachable afterWrite :=
    ⟨started, [.write false (.update (.object [("x", .bool true)])) 1], started_init, rfl⟩
  have hmerge : (network twoDevices).run afterDelete [.deliver true deleted] = some afterMerge := by
    have hmem : deleted ∈ afterDelete.flight := List.mem_cons_self
    simp [Machine.run, network, step, hmem, afterMerge]
  have hstep : (network twoDevices).step afterMerge (.deliver true written) = some { afterMerge with
      nodes := Function.update afterMerge.nodes true
        ((afterMerge.nodes true).merge written).1 } := by
    have hmem : written ∈ afterMerge.flight := List.mem_cons_of_mem _ List.mem_cons_self
    simp [network, step, hmem]
  -- so B has the path again
  have hback := h afterWrite afterDelete afterMerge _ false _ 2 _ true written "x" hreach
    (by decide) edit_afterWrite rfl hmerge
    (by
      intro k hk
      rw [Bool.eq_true_of_not_eq_false hk]
      exact List.mem_cons_self)
    ⟨.deliver true deleted, fun _ _ => True.intro⟩ hstep (by decide +kernel)
  exact absurd hback (by decide +kernel)

end AviNet.Network
