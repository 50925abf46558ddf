import AviNet.ContextApi
import AviNet.Replication.Mesh

/-!
# Replication.Documents — what all documents of a mesh have in common

Documents change when something is laid over them, by an `update_ctx` or a
merge, and when they are replaced. A property that laying documents over each
other keeps (`Value.Layers`) is therefore kept by every run whose writes have it
(`Mesh.EveryDocument.step`).
-/

namespace AviNet

open AviContext (ContextWrite)

variable {P P' : Value → Prop}

/-- What two documents with the property make when one is laid over the other has
the property. -/
def Value.Layers (P : Value → Prop) : Prop :=
  ∀ a b c : Value, c.doc = a.doc.onto b.doc → P a → P b → P c

namespace AviContext

theorem layers_commit (hP : Value.Layers P) {c : AviContext} {w : ContextWrite} {now : UInt64}
    (hw : P w.value) (hc : P c.data) : P (c.commit w now).data := by
  cases w with
  | update patch => exact hP patch c.data _ (doc_commit_update c patch now) hw hc
  | replace data => exact hw

theorem layers_merge (hP : Value.Layers P) {a x : AviContext} (ha : P a.data) (hx : P x.data) :
    P (a.merge x).1.data := by
  rcases merge_cases a x with ⟨hlt, -⟩ | ⟨hgt, -⟩ | ⟨heq, -⟩ | ⟨hnone, -⟩
  · rw [data_merge_lt hlt]
    exact hx
  · exact hP a.data x.data _ (doc_merge_gt hgt) ha hx
  · rw [data_merge_eq heq]
    exact ha
  · have hdoc := doc_merge_none hnone
    unfold older younger at hdoc
    split_ifs at hdoc
    · exact hP _ _ _ hdoc ha hx
    · exact hP _ _ _ hdoc hx ha

end AviContext

namespace Mesh

variable {ι Peer : Type} [DecidableEq ι] [LinearOrder Peer] {lib : External Peer}
  {peer : ι ↪ Peer} {s t : Mesh ι Peer}

/-- Every document, held or in flight, has the property. -/
def EveryDocument (lib : External Peer) (P : Value → Prop) (s : Mesh ι Peer) : Prop :=
  ∀ c, s.Carries lib c → P c.data

omit [DecidableEq ι] in
theorem EveryDocument.mono (h : s.EveryDocument lib P) (hP : ∀ d, P d → P' d) :
    s.EveryDocument lib P' := fun c hc => hP c.data (h c hc)

omit [DecidableEq ι] in
theorem EveryDocument.node (h : s.EveryDocument lib P) (n : ι) :
    P (s.rt n).localContext.data := h _ (Or.inl ⟨n, rfl⟩)

/-- A turn keeps the property if what it writes has it. -/
theorem EveryDocument.act (hP : Value.Layers P) (h : s.EveryDocument lib P) {n : ι}
    {env : Env Peer} {l : Runtime.Label Peer} (hkeeps : (s.act lib n env l).ReadsBack lib)
    (hpublish : Runtime.PublishesNone lib l)
    (hwrites : ∀ w, Runtime.contextWrite l = some w → P w.value)
    (harrives : ∀ c, Runtime.contextMerged lib l = some c → s.Carries lib c) :
    (s.act lib n env l).EveryDocument lib P := by
  -- the document of the node after the turn
  have hnew : P ((s.rt n).turn lib env l).1.localContext.data := by
    cases hwrite : Runtime.contextWrite l with
    | some w =>
      -- a write is laid onto the document
      rw [Runtime.localContext_of_write hwrite]
      exact AviContext.layers_commit hP (hwrites w hwrite) (h.node n)
    | none =>
      cases hmerged : Runtime.contextMerged lib l with
      | some c =>
        -- a merge of two documents that satisfy `P`
        rw [(Runtime.localContext_of_merge hmerged).1]
        exact AviContext.layers_merge hP (h.node n) (h c (harrives c hmerged))
      | none =>
        -- the document is as it was
        rw [(Runtime.localContext_of_neither env (s.rt n) hwrite hmerged hpublish).1]
        exact h.node n
  rintro c (⟨m, rfl⟩ | ⟨packet, hpacket, hc⟩)
  · -- the nodes
    rw [localContext_act]
    by_cases hm : m = n
    · rw [hm, Function.update_self]
      exact hnew
    · rw [Function.update_of_ne hm]
      exact h.node m
  · -- what is in flight was there, or is the context of the node
    rcases mem_flight_act hkeeps hpublish hpacket hc with hpacket | rfl
    · exact h c (Or.inr ⟨packet, hpacket, hc⟩)
    · exact hnew

/-- The writes of a step have the property, and no application publishes a context of
its own making. -/
def WritesHave (lib : External Peer) (P : Value → Prop) : Label ι Peer → Prop
  | .turn _ _ l => Runtime.PublishesNone lib l ∧
      ∀ w, Runtime.contextWrite l = some w → P w.value
  | .deliver _ _ _ _ => True

/-- **The step lemma**. -/
theorem EveryDocument.step (hP : Value.Layers P) (hkeeps : t.ReadsBack lib)
    (h : s.EveryDocument lib P) {l : Label ι Peer} (hstep : (mesh lib peer).step s l = some t)
    (hok : WritesHave lib P l) : t.EveryDocument lib P := by
  cases l with
  | turn n env l =>
    simp only [mesh, Mesh.step] at hstep
    split_ifs at hstep with hl
    cases hstep
    apply h.act hP hkeeps hok.1 hok.2
    intro c hc
    rw [contextMerged_of_not_brings (Bool.not_eq_true _ ▸ hl)] at hc
    cases hc
  | deliver n env source k =>
    obtain ⟨p, hp, rfl⟩ := Option.map_eq_some_iff.mp hstep
    have hnone : Runtime.PublishesNone lib (.swarm (p.event lib source)) := True.intro
    apply h.act hP hkeeps hnone (fun w hw => by cases hw)
    intro c hc
    rw [contextMerged_event] at hc
    exact Or.inr ⟨p, List.mem_of_getElem? hp, hc⟩

omit [DecidableEq ι] in
theorem init_everyDocument (hP : P AviContext.skeleton) (h₀ : Init lib peer s) :
    s.EveryDocument lib P := by
  rintro c (⟨n, rfl⟩ | ⟨packet, hpacket, -⟩)
  · rcases h₀.1 n with ⟨now, hn⟩
    rw [hn]
    exact hP
  · rw [h₀.2] at hpacket
    cases hpacket

end Mesh

end AviNet
