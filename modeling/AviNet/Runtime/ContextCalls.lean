import AviNet.MergeLaws
import AviNet.PathLens
import AviNet.Runtime.LocalClients
import AviNet.Runtime.StreamTable

/-!
# Runtime.ContextCalls — what one caller sees of the shared context

`AviP2pHandle::get_ctx` and `AviDevice::update_ctx` with the commands they send,
processed with nothing in between.

* `updateCtx_fail`, `updateCtx_ok`: the context after `update_ctx`;
* `update_ctx_is_deep_merge`: it is a deep merge at the path, and diverging
  paths hold what they held;
* `failed_write_iff`: when a write that fails leaves the context alone;
* `contextUpdated_iff`: when a merge is reported to the application.
-/

namespace AviNet.Runtime

open AviContext (ContextWrite)

variable {Peer : Type} [LinearOrder Peer]

/-! ## The code -/

/-- `AviP2pHandle::get_ctx`. -/
def getCtx (lib : External Peer) (env : Env Peer) (self : Runtime Peer) (path : String) :
    Except AviP2pError Value :=
  match replyOf (self.handleCommand lib env (.getPeerContext none)).2 with
  | some (.value (.ok data)) => data.getCtx path
  | some (.value (.error e)) => .error e
  | _ => .error .channelClosed

/-- `AviDevice::update_ctx`: `get_ctx("")` in the environment `env`, then the
patch in the environment `env'`. -/
def updateCtx (lib : External Peer) (env env' : Env Peer) (self : Runtime Peer)
    (path : String) (value : Value) : Runtime Peer × Except AviP2pError Unit :=
  let fetched := (self.handleCommand lib env (.getPeerContext none)).1
  match self.getCtx lib env "" with
  | .error e => (fetched, .error e)
  | .ok currentCtx =>
    match currentCtx.setNestedValue path value with
    | (_, .error e) => (fetched, .error e)
    | (currentCtx, .ok ()) =>
      let (self, effects) := fetched.handleCommand lib env' (.updateSelfContext currentCtx)
      match replyOf effects with
      | some (.done res) => (self, res)
      | _ => (self, .error .channelClosed)

/-! ## The context after a call -/

section Calls

variable {lib : External Peer} {env env' : Env Peer} {rt : Runtime Peer} {p : String}
  {v : Value}

@[simp] theorem getCtx_eq (lib : External Peer) (env : Env Peer) (rt : Runtime Peer)
    (path : String) : rt.getCtx lib env path = rt.localContext.data.getCtx path := rfl

/-- The copy `update_ctx` works on is the document itself. -/
theorem getCtx_root (lib : External Peer) (env : Env Peer) (rt : Runtime Peer) :
    rt.getCtx lib env "" = .ok rt.localContext.data := rfl

/-- A call that fails in its own copy sends nothing. -/
theorem updateCtx_fail (h : (rt.localContext.data.setNestedValue p v).2 ≠ .ok ()) :
    (rt.updateCtx lib env env' p v).1 = rt := by
  unfold updateCtx
  simp only [getCtx_root]
  rcases hset : rt.localContext.data.setNestedValue p v with ⟨copy, res⟩
  rw [hset] at h
  cases res with
  | error e => rfl
  | ok u => exact absurd rfl h

/-- Otherwise the whole copy is committed as a patch. -/
theorem updateCtx_ok (h : (rt.localContext.data.setNestedValue p v).2 = .ok ()) :
    (rt.updateCtx lib env env' p v).1.localContext =
      rt.localContext.commit (.update (rt.localContext.data.setNestedValue p v).1) env'.now := by
  unfold updateCtx
  simp only [getCtx_root]
  rcases hset : rt.localContext.data.setNestedValue p v with ⟨copy, res⟩
  rw [hset] at h
  cases res with
  | error e => cases h
  | ok u =>
    obtain ⟨hctx, res, hres⟩ := LocalClients.handleCommand_write lib env' rt (.update copy)
    have hreply : replyOf (rt.handleCommand lib env' (.updateSelfContext copy)).2 =
        some (.done res) := hres
    show (match replyOf (rt.handleCommand lib env' (.updateSelfContext copy)).2 with
      | some (.done res) => ((rt.handleCommand lib env' (.updateSelfContext copy)).1, res)
      | _ => ((rt.handleCommand lib env' (.updateSelfContext copy)).1,
        .error .channelClosed)).1.localContext = _
    rw [hreply]
    exact hctx

/-- The document afterwards, as the write of a single caller. -/
theorem data_updateCtx (lib : External Peer) (env env' : Env Peer)
    (h : (rt.localContext.data.setNestedValue p v).2 = .ok ()) :
    ∃ w, (PathOp.update p v).edit rt.localContext.data = .ok w ∧
      (rt.updateCtx lib env env' p v).1.localContext.data =
        w.applyTo rt.localContext.data := by
  refine ⟨_, PathOp.edit_eq_ok_iff.mpr ⟨h, rfl⟩, ?_⟩
  rw [updateCtx_ok h, LocalClients.data_commit]
  rfl

/-- At its own path the call leaves a deep merge. -/
theorem at?_updateCtx (h : (rt.localContext.data.setNestedValue p v).2 = .ok ()) :
    (rt.updateCtx lib env env' p v).1.localContext.data.at? (segments p) =
      some (match rt.localContext.data.at? (segments p) with
        | some old => old.deepMerge v false
        | none => v) := by
  rw [updateCtx_ok h, LocalClients.data_commit]
  apply PathOp.at?_patch
  rw [Value.at?_eq_some_iff, Value.doc_setNestedValue h]
  exact PathDoc.below_put _ _ _

/-- **`update_ctx` is a deep merge at one path.** -/
theorem update_ctx_is_deep_merge (lib : External Peer) (env env' : Env Peer)
    (rt : Runtime Peer) (p : String) (v : Value) :
    ((rt.localContext.data.setNestedValue p v).2 ≠ .ok () →
      (rt.updateCtx lib env env' p v).1.localContext = rt.localContext) ∧
    ((rt.localContext.data.setNestedValue p v).2 = .ok () →
      (∀ old, rt.getCtx lib env p = .ok old →
        (rt.updateCtx lib env env' p v).1.getCtx lib env' p = .ok (old.deepMerge v false)) ∧
      ((∀ old, rt.getCtx lib env p ≠ .ok old) →
        (rt.updateCtx lib env env' p v).1.getCtx lib env' p = .ok v) ∧
      ∀ q, PathDoc.Diverge (segments p) (segments q) → ∀ w,
        (rt.updateCtx lib env env' p v).1.getCtx lib env' q = .ok w ↔
          rt.getCtx lib env q = .ok w) := by
  simp only [getCtx_eq, ne_eq, Value.getCtx_eq_ok_iff]
  refine ⟨fun h => by rw [updateCtx_fail h], fun h => ⟨?_, ?_, ?_⟩⟩
  · intro old hold
    rw [at?_updateCtx h, hold]
  · intro hnone
    rw [at?_updateCtx h, Option.eq_none_iff_forall_ne_some.mpr hnone]
  · intro q hdiv w
    obtain ⟨w', hedit, hdata⟩ := data_updateCtx lib env env' h
    rw [hdata, PathOp.at?_diverging hedit hdiv]

end Calls

/-- A failing `get_ctx` names the first missing key, and `update_ctx` may have
created an object there: the text of the error is another one afterwards. -/
theorem update_ctx_changes_error_text : ¬ ∀ (rt : Runtime String) (p q : String) (v : Value),
    (rt.localContext.data.setNestedValue p v).2 = .ok () →
    PathDoc.Diverge (segments p) (segments q) →
    (rt.updateCtx .plain (.calm String) (.calm String) p v).1.getCtx .plain (.calm String) q =
      rt.getCtx .plain (.calm String) q := by
  intro h
  have hsame := h (.new .plain "A" 0) "a.b" "a.c" (.bool true) (by decide +kernel)
    ⟨by decide, by decide⟩
  have hbefore : (Runtime.new .plain "A" 0).getCtx .plain (.calm String) "a.c" =
      .error (.serialization "Key 'a' not found in context") := by
    rw [getCtx_eq]
    decide +kernel
  rw [hbefore, getCtx_eq] at hsame
  exact absurd hsame (by decide +kernel)

/-! ## Writes that fail -/

section Failing

variable {lib : External Peer}

/-- The write fails because gossipsub does, and only then: a broadcast that has no
peers is postponed. -/
theorem replyOf_write (hencode : ∀ c, (lib.encodeContext c).isSome = true) (env : Env Peer)
    (rt : Runtime Peer) (w : ContextWrite) :
    (∃ e, replyOf (rt.handleCommand lib env w.toCommand).2 = some (.done (.error e))) ↔
      ∃ e, env.publish = .error e := by
  have hbroadcast : ∀ rt : Runtime Peer,
      (∃ e, replyOf (rt.broadcastContext lib env).2 = some (.done (.error e))) ↔
        ∃ e, env.publish = .error e := by
    intro rt
    obtain ⟨data, hdata⟩ := Option.isSome_iff_exists.mp (hencode rt.localContext)
    unfold broadcastContext
    rw [hdata]
    cases env.publish with
    | ok => simp [replyOf]
    | insufficientPeers => simp [replyOf]
    | error e => simp [replyOf]
  cases w with
  | update patch => exact hbroadcast _
  | replace data => exact hbroadcast _

/-- A write counts up the own entry of the clock. -/
theorem commit_ne (c : AviContext) (w : ContextWrite) (now : UInt64) : c.commit w now ≠ c := by
  intro h
  have hclock := congrArg (fun c => c.vectorClock.get c.deviceId) h
  simp only [AviContext.deviceId_commit, AviContext.vectorClock_commit,
    VectorClock.get_increment, if_true] at hclock
  have hnat := congrArg UInt64.toNat hclock
  rw [UInt64.toNat_add] at hnat
  have hlt := (c.vectorClock.get c.deviceId).toNat_lt
  have hone : (1 : UInt64).toNat = 1 := rfl
  omega

/-- **A write that fails leaves the context alone exactly if it cannot fail**: the
context has been changed before the broadcast is tried. -/
theorem failed_write_iff (hencode : ∀ c, (lib.encodeContext c).isSome = true) (env : Env Peer)
    (rt : Runtime Peer) (w : ContextWrite) :
    ((∃ e, replyOf (rt.handleCommand lib env w.toCommand).2 = some (.done (.error e))) →
      (rt.handleCommand lib env w.toCommand).1.localContext = rt.localContext) ↔
    ¬ ∃ e, env.publish = .error e := by
  rw [replyOf_write hencode, (LocalClients.handleCommand_write lib env rt w).1]
  constructor
  · intro hkeeps herror
    exact commit_ne rt.localContext w env.now (hkeeps herror)
  · intro hnone herror
    exact absurd herror hnone

/-- A message that gossipsub finds too large. -/
def tooLarge : Env String := { Env.calm String with publish := .error "MessageTooLarge" }

theorem failed_write_iff_tooLarge :
    ((∃ e, replyOf ((Runtime.new .plain "A" 0).handleCommand .plain tooLarge
          (ContextWrite.update (.object [])).toCommand).2 = some (.done (.error e))) →
      ((Runtime.new .plain "A" 0).handleCommand .plain tooLarge
          (ContextWrite.update (.object [])).toCommand).1.localContext =
        (Runtime.new External.plain "A" 0).localContext) ↔
    ¬ ∃ e, tooLarge.publish = .error e :=
  failed_write_iff (fun _ => rfl) tooLarge (.new .plain "A" 0) (.update (.object []))

/-- The call is answered with the error, and the document is the new one. -/
theorem failed_write_stays : ¬ ∀ (rt : Runtime String) (env : Env String) (w : ContextWrite),
    (runtime .plain).Reachable rt →
    (∃ e, replyOf (rt.handleCommand .plain env w.toCommand).2 = some (.done (.error e))) →
    (rt.handleCommand .plain env w.toCommand).1.localContext = rt.localContext := by
  intro h
  have hnew : (runtime .plain).Reachable (Runtime.new External.plain "A" 0) :=
    ⟨_, [], ⟨"A", 0, rfl⟩, rfl⟩
  have hkeeps := h _ tooLarge (.update (.object [("a", .bool true)])) hnew
    ⟨.networkError "MessageTooLarge", rfl⟩
  rw [(LocalClients.handleCommand_write .plain tooLarge _ _).1] at hkeeps
  exact commit_ne _ _ _ hkeeps

end Failing

/-! ## Reports of merges -/

/-- A merge is reported to the application exactly if it returns true. -/
theorem eventsOf_mergeContext_ne_nil (rt : Runtime Peer) (incoming : AviContext) :
    eventsOf (rt.mergeContext incoming).2 ≠ [] ↔
      (rt.localContext.merge incoming).2 = true := by
  unfold mergeContext
  rcases rt.localContext.merge incoming with ⟨merged, updated⟩
  cases updated with
  | true => simp [eventsOf]
  | false => simp [eventsOf]

/-- **A merge returns true, and the runtime emits `ContextUpdated`, exactly when the
data has changed, unless the other document differs and has nothing to add.** -/
theorem contextUpdated_iff (s c : AviContext) :
    (((s.merge c).2 = true ↔ (s.merge c).1.data ≠ s.data) ↔
      ¬ (s.data ≠ c.data ∧ s.NothingToAdd c)) ∧
    ∀ rt : Runtime Peer, rt.localContext = s →
      ((eventsOf (rt.mergeContext c).2 ≠ [] ↔
        (rt.mergeContext c).1.localContext.data ≠ rt.localContext.data) ↔
      ¬ (s.data ≠ c.data ∧ s.NothingToAdd c)) := by
  refine ⟨AviContext.reports_truthfully_iff s c, ?_⟩
  rintro rt rfl
  rw [eventsOf_mergeContext_ne_nil]
  exact AviContext.reports_truthfully_iff rt.localContext c

end AviNet.Runtime
