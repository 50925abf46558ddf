import AviNet.Context
import AviNet.Lib.Knowledge

/-!
# Replication.Network — nodes that update, send and merge their contexts

Any number of nodes with distinct device ids (`deviceId` is an embedding), each
holding one `AviContext`, and the contexts in flight. A context in flight is
never used up: it may be delivered to any node, at any time, again and again.

1. **Model layer**: the machine `network`, built from the context operations.
2. **Refinement**: forgetting the documents gives the version-vector machine
   (`abs_step`); its invariant says that nobody claims more about a node than
   the node itself (`Network.Bounded`).
3. **Safety**: a node's own entry survives every merge, and its document is
   only ever replaced by one that has seen all of the node's own updates.
-/

namespace AviNet

/-- All nodes and all contexts in flight. -/
structure Network (ι : Type*) where
  nodes : ι → AviContext
  flight : List AviContext

namespace Network

/-- One step of some node. -/
inductive Label (ι : Type*) where
  /-- `UpdateSelfContext` or `ReplaceSelfContext`, at system time `now` -/
  | write (n : ι) (w : AviContext.ContextWrite) (now : UInt64)
  /-- a copy of the current context is sent (`SyncContext`) -/
  | sync (n : ι)
  /-- a context in flight is delivered and merged -/
  | deliver (n : ι) (c : AviContext)

variable {ι : Type*} [DecidableEq ι]

/-! ## Model layer -/

/-- Put the new context of `n` in place and in flight. -/
def publish (s : Network ι) (n : ι) (c : AviContext) : Network ι where
  nodes := Function.update s.nodes n c
  flight := c :: s.flight

def step (s : Network ι) : Label ι → Option (Network ι)
  | .write n w now => some (s.publish n ((s.nodes n).commit w now))
  | .sync n => some { s with flight := s.nodes n :: s.flight }
  | .deliver n c =>
    if c ∈ s.flight then
      some { s with nodes := Function.update s.nodes n ((s.nodes n).merge c).1 }
    else none

/-- Every node starts with a fresh context of its own. -/
def Init (deviceId : ι ↪ String) (s : Network ι) : Prop :=
  (∀ n, ∃ now, s.nodes n = .new (deviceId n) now) ∧ s.flight = []

end Network

open Network in
/-- The machine of all nodes. -/
def network {ι : Type*} [DecidableEq ι] (deviceId : ι ↪ String) :
    Machine (Network ι) (Label ι) where
  Init := Init deviceId
  step := step

namespace Network

variable {ι : Type*}

/-- A context somebody holds or that is in flight. -/
def Holds (s : Network ι) (c : AviContext) : Prop := (∃ n, c = s.nodes n) ∨ c ∈ s.flight

/-- The counter addition of this step does not run over `2 ^ 64`. -/
def NoOverflow (s : Network ι) : Label ι → Prop
  | .write n _ _ => (s.nodes n).version (s.nodes n).deviceId + 1 < 2 ^ 64
  | .sync _ | .deliver _ _ => True

/-! ## Refinement: the version vectors -/

section Refinement

variable (deviceId : ι ↪ String)

/-- Forget the documents and timestamps. -/
def abs (s : Network ι) : Knowledge ι String where
  clock n := (s.nodes n).version
  flight := {v | ∃ c ∈ s.flight, c.version = v}

/-- Each node keeps its own device id. -/
def OwnIds (s : Network ι) : Prop := ∀ n, (s.nodes n).deviceId = deviceId n

/-- Nobody claims more about a node than the node itself. -/
def Bounded (s : Network ι) : Prop := Knowledge.Bounded deviceId s.abs

instance (s : Network ι) : (l : Label ι) → Decidable (NoOverflow s l)
  | .write n _ _ =>
    inferInstanceAs (Decidable ((s.nodes n).version (s.nodes n).deviceId + 1 < 2 ^ 64))
  | .sync _ | .deliver _ _ => inferInstanceAs (Decidable True)

/-- What every run keeps. -/
structure Inv (s : Network ι) : Prop where
  ownIds : s.OwnIds deviceId
  bounded : s.Bounded deviceId

variable {deviceId}

theorem Holds.known {s : Network ι} {c : AviContext} (h : s.Holds c) : s.abs.Known c.version := by
  rcases h with ⟨n, rfl⟩ | h
  · exact Or.inl ⟨n, rfl⟩
  · exact Or.inr ⟨c, h, rfl⟩

/-- A write is a tick of the node's version vector. -/
theorem version_write {s : Network ι} (hid : s.OwnIds deviceId) {n : ι}
    {w : AviContext.ContextWrite} {now : UInt64} (h : NoOverflow s (.write n w now)) :
    ((s.nodes n).commit w now).version = s.abs.ticked deviceId n := by
  rw [AviContext.version_commit h, hid n]
  rfl

variable [DecidableEq ι]

theorem init_inv {s : Network ι} (h : (network deviceId).Init s) : s.Inv deviceId := by
  rcases h with ⟨hnodes, hflight⟩
  refine ⟨?_, Knowledge.bounded_init deviceId ⟨?_, ?_⟩⟩
  · intro n
    obtain ⟨now, hn⟩ := hnodes n
    rw [hn]
    rfl
  · intro n
    obtain ⟨now, hn⟩ := hnodes n
    show (s.nodes n).version = _
    rw [hn]
    rfl
  · simp [abs, hflight]

/-- Publishing a context with one more own update is a tick and a send. -/
theorem abs_publish {s : Network ι} {n : ι} {c : AviContext}
    (hc : c.version = s.abs.ticked deviceId n) :
    (Knowledge.machine deviceId).run s.abs [.tick n, .send n] = some (s.publish n c).abs := by
  have hclock : Function.update s.abs.clock n (s.abs.ticked deviceId n) =
      (s.publish n c).abs.clock := by
    funext m
    show _ = (Function.update s.nodes n c m).version
    by_cases hm : m = n
    · rw [hm, Function.update_self, Function.update_self, hc]
    · rw [Function.update_of_ne hm, Function.update_of_ne hm]
      rfl
  simp only [Machine.run, Knowledge.machine, Option.bind_some, Function.update_self,
    Option.some.injEq]
  unfold abs at hclock ⊢
  rw [hclock]
  congr 1
  ext v
  simp [publish, hc, abs, eq_comm]

/-- **Refinement**: each step of the nodes is a run of the version vectors. -/
theorem abs_step {s t : Network ι} {l : Label ι} (hid : s.OwnIds deviceId)
    (hl : NoOverflow s l) (hstep : (network deviceId).step s l = some t) :
    ∃ ks, (Knowledge.machine deviceId).run s.abs ks = some t.abs := by
  cases l with
  | write n w now =>
    -- the node ticks its own entry and sends what it knows
    cases hstep
    exact ⟨_, abs_publish (version_write hid hl)⟩
  | sync n =>
    -- the node sends what it knows
    cases hstep
    refine ⟨[.send n], congrArg some ?_⟩
    unfold abs
    congr 1
    ext v
    simp [eq_comm]
  | deliver n c =>
    -- the clock that arrives was in flight
    simp only [network, step] at hstep
    split_ifs at hstep with hc
    cases hstep
    refine ⟨[.join n c.version], ?_⟩
    have hmem : c.version ∈ s.abs.flight := ⟨c, hc, rfl⟩
    simp only [Machine.run, Knowledge.machine, hmem, if_true, Option.bind_some,
      Option.some.injEq]
    unfold abs
    congr 1
    funext m
    show _ = (Function.update s.nodes n _ m).version
    by_cases hm : m = n
    · rw [hm, Function.update_self, Function.update_self, AviContext.version_merge]
    · rw [Function.update_of_ne hm, Function.update_of_ne hm]

theorem step_ownIds {s t : Network ι} {l : Label ι}
    (hstep : (network deviceId).step s l = some t) (hid : s.OwnIds deviceId) :
    t.OwnIds deviceId := by
  -- a node's context is only ever replaced by one with the same device id
  have hupd : ∀ (n : ι) (c : AviContext), c.deviceId = (s.nodes n).deviceId →
      ∀ m, (Function.update s.nodes n c m).deviceId = deviceId m := by
    intro n c hc m
    by_cases hm : m = n
    · rw [hm, Function.update_self, hc, hid n]
    · rw [Function.update_of_ne hm, hid m]
  cases l with
  | write n w now =>
    cases hstep
    exact hupd n _ (AviContext.deviceId_commit _ _ _)
  | sync n =>
    cases hstep
    exact hid
  | deliver n c =>
    simp only [network, step] at hstep
    split_ifs at hstep with hc
    cases hstep
    exact hupd n _ (AviContext.deviceId_merge _ _)

/-- Every step without overflow keeps the invariant. -/
theorem step_inv {s t : Network ι} {l : Label ι}
    (hstep : (network deviceId).step s l = some t) (hl : NoOverflow s l)
    (h : s.Inv deviceId) : t.Inv deviceId := by
  obtain ⟨ks, hks⟩ := abs_step h.ownIds hl hstep
  exact ⟨step_ownIds hstep h.ownIds, Knowledge.bounded_run deviceId hks h.bounded⟩

/-- Each run of the nodes whose counters stay below `2 ^ 64` is a run of the
version vectors. -/
theorem abs_run {s t : Network ι} {ls : List (Label ι)} (hid : s.OwnIds deviceId)
    (hrun : (network deviceId).run s ls = some t)
    (hok : (network deviceId).AllSteps NoOverflow s ls) :
    t.OwnIds deviceId ∧ ∃ ks, (Knowledge.machine deviceId).run s.abs ks = some t.abs := by
  rcases (network deviceId).run_simulates (R := fun s v => s.OwnIds deviceId ∧ v = s.abs)
    (fun s l t v hstep hl hR => by
      obtain ⟨ks, hks⟩ := abs_step hR.1 hl hstep
      exact ⟨ks, t.abs, hR.2 ▸ hks, step_ownIds hstep hR.1, rfl⟩)
    hrun hok ⟨hid, rfl⟩ with ⟨ks, v, hks, hidt, rfl⟩
  exact ⟨hidt, ks, hks⟩

/-- The invariant holds along every such run. -/
theorem run_inv {s t : Network ι} {ls : List (Label ι)} (h₀ : (network deviceId).Init s)
    (hrun : (network deviceId).run s ls = some t)
    (hok : (network deviceId).AllSteps NoOverflow s ls) : t.Inv deviceId := by
  have hinit : s.Inv deviceId := init_inv h₀
  obtain ⟨hid, ks, hks⟩ := abs_run hinit.ownIds hrun hok
  exact ⟨hid, Knowledge.bounded_run deviceId hks hinit.bounded⟩

end Refinement

/-! ## Safety -/

section Safety

variable [DecidableEq ι] {deviceId : ι ↪ String} {s t : Network ι} {ls : List (Label ι)}

/-- **Clocks never claim updates that did not happen**: in every reachable
state, whatever context exists, its entry for a node is at most the node's own.
So no merge changes a node's own entry, and the branch that replaces the whole
document is only ever taken for a context that has seen all updates of the
receiving node. -/
theorem clocks_claim_no_more (h₀ : (network deviceId).Init s)
    (hrun : (network deviceId).run s ls = some t)
    (hok : (network deviceId).AllSteps NoOverflow s ls) :
    (∀ n c, t.Holds c →
      c.vectorClock.get (deviceId n) ≤ (t.nodes n).vectorClock.get (deviceId n)) ∧
    (∀ n, ∀ c ∈ t.flight, ((t.nodes n).merge c).1.vectorClock.get (deviceId n) =
      (t.nodes n).vectorClock.get (deviceId n)) ∧
    ∀ n, ∀ c ∈ t.flight,
      (t.nodes n).vectorClock.partialCmp c.vectorClock = some .lt →
        c.vectorClock.get (deviceId n) = (t.nodes n).vectorClock.get (deviceId n) := by
  have hb : t.Bounded deviceId := (run_inv h₀ hrun hok).bounded
  refine ⟨?_, ?_, ?_⟩
  · -- nobody claims more writes of `n` than `n` itself
    intro n c hc
    have hbound : c.version (deviceId n) ≤ (t.nodes n).version (deviceId n) := hb _ hc.known n
    exact UInt64.le_iff_toNat_le.mpr hbound
  · -- a merge tells `n` nothing about itself
    intro n c hc
    have hmax : ((t.nodes n).merge c).1.version (deviceId n) =
        (t.nodes n).version (deviceId n) := by
      rw [AviContext.version_merge]
      exact hb.join_own (Holds.known (Or.inr hc)) n
    exact UInt64.toNat_inj.mp hmax
  · -- nor does a newer context
    intro n c hc hlt
    have hle : (t.nodes n).version ≤ c.version :=
      (VectorClock.partialCmp_eq_some_lt_iff.mp hlt).le
    exact UInt64.toNat_inj.mp (hb.own_eq_of_le (Holds.known (Or.inr hc)) hle)

/-- Two devices. -/
def twoDevices : Bool ↪ String where
  toFun b := if b then "B" else "A"
  inj' := by
    intro x y h
    cases x <;> cases y <;> simp at h <;> rfl

/-- Both devices have just started. -/
def started : Network Bool where
  nodes n := .new (twoDevices n) 0
  flight := []

theorem started_init : (network twoDevices).Init started := ⟨fun _ => ⟨0, rfl⟩, rfl⟩

/-- The context of `A` after it has written `{"x": true}`. -/
def written : AviContext :=
  (started.nodes false).commit (.update (.object [("x", .bool true)])) 1

/-- `A` writes `{"x": true}` and `B` receives it. -/
def writeAndDeliver : List (Label Bool) :=
  [.write false (.update (.object [("x", .bool true)])) 1, .deliver true written]

theorem clocks_claim_no_more_run : ∃ t, (network twoDevices).run started writeAndDeliver = some t ∧
    ∀ n c, t.Holds c →
      c.vectorClock.get (twoDevices n) ≤ (t.nodes n).vectorClock.get (twoDevices n) := by
  have hrun : ((network twoDevices).run started writeAndDeliver).isSome = true := by
    decide +kernel
  obtain ⟨t, ht⟩ := Option.isSome_iff_exists.mp hrun
  exact ⟨t, ht, (clocks_claim_no_more started_init ht (by decide +kernel)).1⟩

end Safety

end Network

end AviNet
