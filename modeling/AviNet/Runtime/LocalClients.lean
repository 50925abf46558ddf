import AviNet.Lib.Machine
import AviNet.PathWrites
import AviNet.Runtime.Handlers

/-!
# Runtime.LocalClients — two path-wise writes through one runtime

Two calls are issued through clones of the same handle. Each sends
`GetPeerContext`, edits the document it gets and sends the result back; the
command queue may interleave the four commands in any order that keeps each
call's own two in order.

* `interleaving`: the six runs that let both calls return;
* `shown_iff_keepsBoth`: both effects are there at the end exactly if the calls
  ran one after the other or the first write survives the second (`PathOp.Kept`);
* `lost_update`: two `replace_ctx` calls of which one is lost.
-/

namespace AviNet

open AviContext (ContextWrite)

/-- The command of a write. -/
def AviContext.ContextWrite.toCommand : ContextWrite → Command
  | .update patch => .updateSelfContext patch
  | .replace data => .replaceSelfContext data

/-- Where a call stands. -/
inductive CallState where
  | ready
  /-- the document has been fetched -/
  | fetched (doc : Value)
  | returned (res : Except AviP2pError Unit)
  deriving DecidableEq

/-- The runtime and its two callers. -/
structure LocalClients (Peer : Type) [LinearOrder Peer] where
  rt : Runtime Peer
  call : Bool → CallState

namespace LocalClients

variable {Peer : Type} [LinearOrder Peer]

/-! ## Model layer -/

/-- The next command of the call `i`. -/
def step (lib : External Peer) (ops : Bool → PathOp) (s : LocalClients Peer) :
    Env Peer × Bool → Option (LocalClients Peer)
  | (env, i) =>
    match s.call i with
    | .ready =>
      let (rt, effects) := s.rt.handleCommand lib env (.getPeerContext none)
      match Runtime.replyOf effects with
      | some (.value (.ok doc)) => some ⟨rt, Function.update s.call i (.fetched doc)⟩
      | some (.value (.error e)) => some ⟨rt, Function.update s.call i (.returned (.error e))⟩
      | _ => none
    | .fetched doc =>
      match (ops i).edit doc with
      | .error e => some { s with call := Function.update s.call i (.returned (.error e)) }
      | .ok w =>
        let (rt, effects) := s.rt.handleCommand lib env w.toCommand
        match Runtime.replyOf effects with
        | some (.done res) => some ⟨rt, Function.update s.call i (.returned res)⟩
        | _ => none
    | .returned _ => none

/-- Both calls have been issued, neither has sent a command. -/
def start (rt : Runtime Peer) : LocalClients Peer := ⟨rt, fun _ => .ready⟩

end LocalClients

open LocalClients in
/-- The machine of the runtime and its two callers. -/
def localClients {Peer : Type} [LinearOrder Peer] (lib : External Peer) (ops : Bool → PathOp) :
    Machine (LocalClients Peer) (Env Peer × Bool) where
  Init s := ∃ rt, s = start rt
  step := step lib ops

namespace LocalClients

variable {Peer : Type} [LinearOrder Peer]

/-- The condition on the order of the commands: one call after the other, or a
first write that survives the second one. -/
def KeepsBoth (ops : Bool → PathOp) (before : Value) : List Bool → Prop
  | [a, b, f, _] => a = b ∨
    (ops f).Kept (ops !f) (before.at? (segments (ops f).path))
  | _ => False

/-! ## Single commands -/

variable {lib : External Peer} {ops : Bool → PathOp}

/-- Broadcasting the context answers the caller and leaves the context alone. -/
theorem broadcastContext_spec (env : Env Peer) (rt : Runtime Peer) :
    (rt.broadcastContext lib env).1.localContext = rt.localContext ∧
      ∃ res, Runtime.replyOf (rt.broadcastContext lib env).2 = some (.done res) := by
  have hjoin : (rt.joinContextTopic env).localContext = rt.localContext := by
    unfold Runtime.joinContextTopic Runtime.gossipSubscribe
    split_ifs
    · rfl
    · cases env.subscribeError <;> rfl
  unfold Runtime.broadcastContext
  cases lib.encodeContext rt.localContext with
  | none => exact ⟨rfl, _, rfl⟩
  | some data =>
    cases env.publish with
    | ok => exact ⟨hjoin, _, rfl⟩
    | insufficientPeers => exact ⟨hjoin, _, rfl⟩
    | error e => exact ⟨hjoin, _, rfl⟩

/-- A write command commits the write, whatever becomes of the broadcast. -/
theorem handleCommand_write (lib : External Peer) (env : Env Peer) (rt : Runtime Peer)
    (w : ContextWrite) :
    (rt.handleCommand lib env w.toCommand).1.localContext = rt.localContext.commit w env.now ∧
      ∃ res, Runtime.replyOf (rt.handleCommand lib env w.toCommand).2 = some (.done res) := by
  cases w with
  | update patch => exact broadcastContext_spec env _
  | replace data => exact broadcastContext_spec env _

theorem data_commit (c : AviContext) (w : ContextWrite) (now : UInt64) :
    (c.commit w now).data = w.applyTo c.data := by
  cases w <;> rfl

/-! ## Single steps -/

/-- How many of its two commands a call has sent. -/
def progress : CallState → ℕ
  | .ready => 0
  | .fetched _ => 1
  | .returned _ => 2

/-- **Inversion**: a step fetches the document, or commits the write and returns. -/
theorem step_cases {s t : LocalClients Peer} {env : Env Peer} {i : Bool}
    (h : (localClients lib ops).step s (env, i) = some t) :
    (s.call i = .ready ∧ t = ⟨s.rt, Function.update s.call i (.fetched s.rt.localContext.data)⟩) ∨
    ∃ doc res, s.call i = .fetched doc ∧ t.call = Function.update s.call i (.returned res) ∧
      (res = .ok () → ∃ w, (ops i).edit doc = .ok w ∧
        t.rt.localContext.data = w.applyTo s.rt.localContext.data) := by
  simp only [localClients, step] at h
  cases hc : s.call i with
  | ready =>
    -- the call reads the document
    rw [hc] at h
    cases h
    exact Or.inl ⟨rfl, rfl⟩
  | returned res =>
    rw [hc] at h
    cases h
  | fetched doc =>
    rw [hc] at h
    refine Or.inr ?_
    cases he : (ops i).edit doc with
    | error e =>
      -- the path operation fails: nothing is sent
      simp only [he, Option.some.injEq] at h
      subst h
      exact ⟨doc, .error e, rfl, rfl, nofun⟩
    | ok w =>
      -- one command is sent, and its answer returned
      obtain ⟨hctx, res, hres⟩ := handleCommand_write lib env s.rt w
      simp only [he, hres, Option.some.injEq] at h
      subst h
      refine ⟨doc, res, rfl, rfl, fun _ => ⟨w, he, ?_⟩⟩
      show (s.rt.handleCommand lib env w.toCommand).1.localContext.data = _
      rw [hctx, data_commit]

/-- A call that starts reads the document. -/
theorem step_ready {s t : LocalClients Peer} {env : Env Peer} {i : Bool}
    (h : (localClients lib ops).step s (env, i) = some t) (hs : s.call i = .ready) :
    t.rt = s.rt ∧ t.call i = .fetched s.rt.localContext.data ∧
      t.call (!i) = s.call (!i) := by
  rcases step_cases h with ⟨-, rfl⟩ | ⟨doc, res, hc, -⟩
  · refine ⟨rfl, Function.update_self .., Function.update_of_ne ?_ ..⟩
    cases i <;> simp
  · rw [hs] at hc
    cases hc

/-- A call that goes on writes what it makes of the document it has read. -/
theorem step_fetched {s t : LocalClients Peer} {env : Env Peer} {i : Bool} {doc : Value}
    (h : (localClients lib ops).step s (env, i) = some t) (hs : s.call i = .fetched doc) :
    ∃ res, t.call i = .returned res ∧ t.call (!i) = s.call (!i) ∧
      (res = .ok () → ∃ w, (ops i).edit doc = .ok w ∧
        t.rt.localContext.data = w.applyTo s.rt.localContext.data) := by
  rcases step_cases h with ⟨hc, -⟩ | ⟨doc', res, hc, ht, hw⟩
  · rw [hs] at hc
    cases hc
  · rw [hs] at hc
    cases hc
    refine ⟨res, by rw [ht, Function.update_self], ?_, hw⟩
    rw [ht]
    refine Function.update_of_ne ?_ ..
    cases i <;> simp

/-- Once a call has returned, only the other one steps. -/
theorem step_returned {s t : LocalClients Peer} {env : Env Peer} {i j : Bool}
    {res : Except AviP2pError Unit} (h : (localClients lib ops).step s (env, j) = some t)
    (hs : s.call i = .returned res) : j = !i := by
  rw [Bool.eq_not]
  rintro rfl
  rcases step_cases h with ⟨hc, -⟩ | ⟨doc, res', hc, -⟩
  · rw [hs] at hc
    cases hc
  · rw [hs] at hc
    cases hc

/-- Each step is one command of one call. -/
theorem progress_step {s t : LocalClients Peer} {l : Env Peer × Bool}
    (h : (localClients lib ops).step s l = some t) :
    progress (t.call false) + progress (t.call true) =
      progress (s.call false) + progress (s.call true) + 1 := by
  rcases l with ⟨env, i⟩
  -- the call that acts gets one further, the other stays
  have hact : progress (t.call i) = progress (s.call i) + 1 ∧ t.call (!i) = s.call (!i) := by
    cases hc : s.call i with
    | ready =>
      obtain ⟨-, hi, ho⟩ := step_ready h hc
      exact ⟨by rw [hi]; rfl, ho⟩
    | fetched doc =>
      obtain ⟨res, hi, ho, -⟩ := step_fetched h hc
      exact ⟨by rw [hi]; rfl, ho⟩
    | returned res => exact absurd (step_returned h hc).symm (Bool.not_ne_self i)
  rcases hact with ⟨hi, ho⟩
  cases i
  · rw [Bool.not_false] at ho
    rw [ho]
    omega
  · rw [Bool.not_true] at ho
    rw [ho]
    omega

/-- Every step makes one of the two calls progress. -/
theorem progress_run {s t : LocalClients Peer} {ls : List (Env Peer × Bool)}
    (h : (localClients lib ops).run s ls = some t) :
    progress (t.call false) + progress (t.call true) =
      progress (s.call false) + progress (s.call true) + ls.length := by
  induction ls generalizing s with
  | nil =>
    cases h
    rfl
  | cons l ls ih =>
    rcases Machine.run_cons_eq_some _ |>.mp h with ⟨u, hu, hrun⟩
    have h1 := ih hrun
    have h2 := progress_step hu
    rw [List.length_cons]
    omega

/-! ## The interleavings -/

section Interleaving

variable {rt : Runtime Peer} {ls : List (Env Peer × Bool)} {t : LocalClients Peer}

/-- **The interleavings** that let both calls return `Ok`: one call after the
other, or both from the document there at the start. -/
theorem interleaving (hrun : (localClients lib ops).run (start rt) ls = some t)
    (hok : ∀ i, t.call i = .returned (.ok ())) :
    (∃ a wa wb, ls.map Prod.snd = [a, a, !a, !a] ∧
      (ops a).edit rt.localContext.data = .ok wa ∧
      (ops !a).edit (wa.applyTo rt.localContext.data) = .ok wb ∧
      t.rt.localContext.data = wb.applyTo (wa.applyTo rt.localContext.data)) ∨
    ∃ a f wf wg, ls.map Prod.snd = [a, !a, f, !f] ∧
      (ops f).edit rt.localContext.data = .ok wf ∧
      (ops !f).edit rt.localContext.data = .ok wg ∧
      t.rt.localContext.data = wg.applyTo (wf.applyTo rt.localContext.data) := by
  have hlen : ls.length = 4 := by
    have h := progress_run hrun
    rw [hok false, hok true] at h
    simp only [progress, start] at h
    omega
  match ls, hlen with
  | [l1, l2, l3, l4], _ =>
    rcases l1 with ⟨e1, a⟩
    rcases l2 with ⟨e2, b⟩
    rcases l3 with ⟨e3, f⟩
    rcases l4 with ⟨e4, g⟩
    rcases Machine.run_cons_eq_some _ |>.mp hrun with ⟨s1, h1, hrun⟩
    rcases Machine.run_cons_eq_some _ |>.mp hrun with ⟨s2, h2, hrun⟩
    rcases Machine.run_cons_eq_some _ |>.mp hrun with ⟨s3, h3, hrun⟩
    rcases Machine.run_cons_eq_some _ |>.mp hrun with ⟨s4, h4, hrun⟩
    cases hrun
    -- the first command fetches the document
    obtain ⟨hrt1, ha1, ho1⟩ := step_ready h1 rfl
    by_cases hb : b = a
    · subst hb
      obtain ⟨rb, hb2, ho2, hwb⟩ := step_fetched h2 ha1
      -- the same call has returned, so the rest is the other call
      have hf : f = !b := step_returned h3 hb2
      subst hf
      obtain ⟨hrt3, hc3, hb3⟩ := step_ready h3 (ho2.trans ho1)
      rw [Bool.not_not, hb2] at hb3
      have hg : g = !b := step_returned h4 hb3
      subst hg
      obtain ⟨rc, hc4, hb4, hwc⟩ := step_fetched h4 hc3
      rw [Bool.not_not, hb3, hok] at hb4
      rw [hok] at hc4
      rcases hwb (CallState.returned.inj hb4.symm) with ⟨wa, hea, hda⟩
      rcases hwc (CallState.returned.inj hc4.symm) with ⟨wb, heb, hdb⟩
      rw [hrt1] at hda
      rw [hrt3, hda] at hdb
      rw [hda] at heb
      exact Or.inl ⟨b, wa, wb, rfl, hea, heb, hdb⟩
    · have hb' : b = !a := Bool.eq_not.mpr hb
      subst hb'
      obtain ⟨hrt2, hb2, ha2⟩ := step_ready h2 ho1
      rw [Bool.not_not, ha1] at ha2
      rw [hrt1] at hb2
      -- both have fetched the document there at the start
      have hdoc : ∀ i, s2.call i = .fetched rt.localContext.data := by
        intro i
        by_cases hi : i = a
        · rw [hi]
          exact ha2
        · rw [Bool.eq_not.mpr hi]
          exact hb2
      have hrt : s2.rt = rt := hrt2.trans hrt1
      obtain ⟨rf, hf3, ho3, hwf⟩ := step_fetched h3 (hdoc f)
      have hg : g = !f := step_returned h4 hf3
      subst hg
      obtain ⟨rg, hg4, hf4, hwg⟩ := step_fetched h4 (ho3.trans (hdoc _))
      rw [Bool.not_not, hf3, hok] at hf4
      rw [hok] at hg4
      rcases hwf (CallState.returned.inj hf4.symm) with ⟨wf, hef, hdf⟩
      rcases hwg (CallState.returned.inj hg4.symm) with ⟨wg, heg, hdg⟩
      rw [hrt] at hdf
      rw [hdf] at hdg
      exact Or.inr ⟨a, f, wf, wg, rfl, hef, heg, hdg⟩

/-- **Two path-wise writes**: when both return `Ok`, both effects are there at
the end exactly if the calls ran one after the other or the write that came
first survives the second. -/
theorem shown_iff_keepsBoth
    (hdiv : PathDoc.Diverge (segments (ops false).path) (segments (ops true).path))
    (hrun : (localClients lib ops).run (start rt) ls = some t)
    (hok : ∀ i, t.call i = .returned (.ok ())) :
    (∀ i, (ops i).Shown rt.localContext.data t.rt.localContext.data) ↔
      KeepsBoth ops rt.localContext.data (ls.map Prod.snd) := by
  have hdiv' : ∀ i, PathDoc.Diverge (segments (ops i).path) (segments (ops !i).path) := by
    intro i
    cases i
    · exact hdiv
    · exact hdiv.symm
  have hpath : ∀ i, (ops i).path ≠ "" := fun i he =>
    (hdiv' i).ne_nil ((Value.segments_eq_nil_iff _).mpr he)
  have hdiv'' : ∀ i, PathDoc.Diverge (segments (ops !i).path) (segments (ops i).path) :=
    fun i => (hdiv' i).symm
  rcases interleaving hrun hok with ⟨a, wa, wb, hord, hea, heb, hdata⟩ |
    ⟨a, f, wf, wg, hord, hef, heg, hdata⟩
  · -- one after the other: the second call starts from what the first has written
    rw [hord]
    refine iff_of_true (fun i => ?_) (Or.inl rfl)
    have hother := PathOp.at?_diverging hea (hdiv' a)
    by_cases hi : i = a
    · rw [hi, PathOp.shown_iff (hpath a) fun _ => ⟨wa, hea⟩, hdata,
        PathOp.at?_diverging heb (hdiv'' a), PathOp.at?_own hea (hpath a) rfl]
    · rw [Bool.eq_not.mpr hi, PathOp.shown_iff (hpath _)
        (fun hset => PathOp.edit_ok_before hea (hpath a) heb (hpath _) (hdiv' a) hset), hdata,
        PathOp.at?_own heb (hpath _) rfl, hother]
  · -- both from the same document
    rw [hord]
    have hsecond : (ops !f).Shown rt.localContext.data t.rt.localContext.data := by
      rw [PathOp.shown_iff (hpath _) fun _ => ⟨wg, heg⟩, hdata]
      exact PathOp.at?_own heg (hpath _) (PathOp.at?_diverging hef (hdiv' f))
    have hfirst : (ops f).Shown rt.localContext.data t.rt.localContext.data ↔
        (ops f).Kept (ops !f) (rt.localContext.data.at? (segments (ops f).path)) := by
      rw [PathOp.shown_iff (hpath f) fun _ => ⟨wf, hef⟩, hdata]
      exact PathOp.kept_iff hef heg (hpath f) (hdiv'' f)
    have hne : a ≠ !a := by cases a <;> simp
    show _ ↔ a = !a ∨ _
    rw [or_iff_right hne, ← hfirst]
    constructor
    · intro h
      exact h f
    · intro h i
      by_cases hi : i = f
      · rw [hi]
        exact h
      · rw [Bool.eq_not.mpr hi]
        exact hsecond

end Interleaving

/-! ## A lost update -/

/-- A node that has just started. -/
def fresh : Runtime String := .new External.plain "me" 0

/-- `replace_ctx("a", true)` and `replace_ctx("b", true)`. -/
def replaceBoth : Bool → PathOp
  | false => .replace "a" (.bool true)
  | true => .replace "b" (.bool true)

/-- Both calls fetch the document, then both write. -/
def overlapping : List (Env String × Bool) :=
  [(.calm String, false), (.calm String, true), (.calm String, false), (.calm String, true)]

/-- The end of that run: both calls have returned `Ok`. -/
theorem overlapping_ok : ∃ t,
    (localClients External.plain replaceBoth).run (start fresh) overlapping = some t ∧
      (∀ i, t.call i = .returned (.ok ())) ∧ t.rt.localContext.data.hasCtx "a" = false := by
  have hrun : ((localClients External.plain replaceBoth).run (start fresh)
      overlapping).isSome = true := by
    decide +kernel
  obtain ⟨t, ht⟩ := Option.isSome_iff_exists.mp hrun
  have hcheck : ((localClients External.plain replaceBoth).run (start fresh)
      overlapping).map (fun t => decide ((∀ i, t.call i = .returned (.ok ())) ∧
        t.rt.localContext.data.hasCtx "a" = false)) = some true := by
    decide +kernel
  rw [ht, Option.map_some, Option.some.injEq, decide_eq_true_eq] at hcheck
  exact ⟨t, ht, hcheck⟩

theorem replaceBoth_diverge : PathDoc.Diverge (segments (replaceBoth false).path)
    (segments (replaceBoth true).path) := by
  unfold PathDoc.Diverge
  decide +kernel

theorem shown_iff_keepsBoth_overlapping : ∃ t,
    (localClients External.plain replaceBoth).run (start fresh) overlapping = some t ∧
      ((∀ i, (replaceBoth i).Shown fresh.localContext.data t.rt.localContext.data) ↔
        KeepsBoth replaceBoth fresh.localContext.data (overlapping.map Prod.snd)) := by
  rcases overlapping_ok with ⟨t, ht, hok, -⟩
  exact ⟨t, ht, shown_iff_keepsBoth replaceBoth_diverge ht hok⟩

/-- The write at `a` is lost although its call returned `Ok`. -/
theorem lost_update : ¬ ∀ (rt : Runtime String) (ops : Bool → PathOp) ls t,
    PathDoc.Diverge (segments (ops false).path) (segments (ops true).path) →
    (localClients External.plain ops).run (start rt) ls = some t →
    (∀ i, t.call i = .returned (.ok ())) →
    ∀ i, (ops i).Shown rt.localContext.data t.rt.localContext.data := by
  intro h
  rcases overlapping_ok with ⟨t, ht, hok, hgone⟩
  have hshown : t.rt.localContext.data.getCtx "a" =
      ((PathOp.replace "a" (.bool true)).alone fresh.localContext.data).getCtx "a" :=
    h fresh replaceBoth overlapping t replaceBoth_diverge ht hok false
  have hread : ((PathOp.replace "a" (.bool true)).alone fresh.localContext.data).getCtx "a" =
      .ok (.bool true) := by
    decide +kernel
  have hfound := hshown.trans hread
  rw [Value.hasCtx, hfound] at hgone
  cases hgone

end LocalClients

end AviNet
