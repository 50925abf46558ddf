import AviNet.Context
import AviNet.Lib.Machine

/-!
# ClockHistory — one node and everything it has merged or sent

A node receives arbitrary contexts (a peer chooses every entry of the clock it
sends), merges them, updates its own document and sends copies. `history` is a
history variable: the contexts merged or sent so far.

* `Dominates`: the node's clock is above its whole history, in every state
  before the own counter runs over;
* `newer_iff`: all local updates of a run are newer than everything before
  them exactly if none of them finds the own counter at its last value.
-/

namespace AviNet

/-- A node and the contexts it has merged or sent. -/
structure ClockHistory where
  ctx : AviContext
  history : List AviContext

namespace ClockHistory

inductive Label where
  /-- a context from a peer, by gossip or `SyncContext` -/
  | receive (incoming : AviContext)
  /-- `UpdateSelfContext` or `ReplaceSelfContext` -/
  | write (w : AviContext.ContextWrite) (now : UInt64)
  /-- the current context is sent -/
  | send

/-! ## Model layer -/

/-- A local update; the new context is broadcast at once. -/
def write (s : ClockHistory) (w : AviContext.ContextWrite) (now : UInt64) : ClockHistory where
  ctx := s.ctx.commit w now
  history := s.ctx.commit w now :: s.history

/-- The machine of one node. -/
def machine : Machine ClockHistory Label where
  Init s := (∃ deviceId now, s.ctx = .new deviceId now) ∧ s.history = []
  step s
    | .receive incoming => some ⟨(s.ctx.merge incoming).1, incoming :: s.history⟩
    | .write w now => some (s.write w now)
    | .send => some { s with history := s.ctx :: s.history }

/-- The clock of `t` is newer than all that `s` has seen, and the own counter
was counted up by one. -/
def Newer (s t : ClockHistory) : Prop :=
  t.ctx.vectorClock.partialCmp s.ctx.vectorClock = some .gt ∧
    (∀ c ∈ s.history, t.ctx.vectorClock.partialCmp c.vectorClock = some .gt) ∧
    (t.ctx.vectorClock.get s.ctx.deviceId).toNat =
      (s.ctx.vectorClock.get s.ctx.deviceId).toNat + 1

/-- What a local update should achieve. -/
def UpdatesNewer (s : ClockHistory) : Label → Prop
  | .write w now => Newer s (s.write w now)
  | .receive _ | .send => True

/-- A local update finds the own counter below its last value. -/
def CounterLeft (s : ClockHistory) : Label → Prop
  | .write _ _ => s.ctx.vectorClock.get s.ctx.deviceId ≠ 18446744073709551615
  | .receive _ | .send => True

/-! ## Safety -/

/-- The node's clock is above everything merged or sent. -/
def Dominates (s : ClockHistory) : Prop := ∀ c ∈ s.history, c.version ≤ s.ctx.version

theorem init_dominates {s : ClockHistory} (h : machine.Init s) : s.Dominates := by
  intro c hc
  rw [h.2] at hc
  cases hc

theorem version_lt_iff (a : UInt64) : a.toNat + 1 < 2 ^ 64 ↔ a ≠ 18446744073709551615 := by
  have hlt := a.toNat_lt
  have hmax : (18446744073709551615 : UInt64).toNat = 2 ^ 64 - 1 := rfl
  rw [ne_eq, ← UInt64.toNat_inj, hmax]
  omega

/-- A write below the last counter value goes strictly above the old clock. -/
theorem version_write {s : ClockHistory}
    (h : s.ctx.vectorClock.get s.ctx.deviceId ≠ 18446744073709551615)
    (w : AviContext.ContextWrite) (now : UInt64) : s.ctx.version < (s.write w now).ctx.version := by
  have hfit : s.ctx.version s.ctx.deviceId + 1 < 2 ^ 64 := (version_lt_iff _).mpr h
  show s.ctx.version < (s.ctx.commit w now).version
  rw [AviContext.version_commit hfit]
  exact lt_update_self_iff.mpr (Nat.lt_succ_self _)

/-- At the last value the own entry falls back to 0 and the new clock is not above the old. -/
theorem newer_write_iff {s : ClockHistory} (hdom : s.Dominates) (w : AviContext.ContextWrite)
    (now : UInt64) : Newer s (s.write w now) ↔
      s.ctx.vectorClock.get s.ctx.deviceId ≠ 18446744073709551615 := by
  constructor
  · rintro ⟨-, -, hcount⟩
    rw [← version_lt_iff, ← hcount]
    exact UInt64.toNat_lt _
  · intro h
    have hlt := version_write h w now
    refine ⟨VectorClock.partialCmp_eq_some_gt_iff.mpr hlt, ?_, ?_⟩
    · intro d hd
      exact VectorClock.partialCmp_eq_some_gt_iff.mpr ((hdom d hd).trans_lt hlt)
    · have hfit : s.ctx.vectorClock.version s.ctx.deviceId + 1 < 2 ^ 64 :=
        (version_lt_iff _).mpr h
      show (s.ctx.commit w now).vectorClock.version s.ctx.deviceId = _
      rw [AviContext.vectorClock_commit, VectorClock.version_increment_self,
        Nat.mod_eq_of_lt hfit]
      rfl

/-- A local update is newer than everything before exactly below the last counter value. -/
theorem updatesNewer_iff {s : ClockHistory} (hdom : s.Dominates) (l : Label) :
    UpdatesNewer s l ↔ CounterLeft s l := by
  cases l with
  | receive c => exact Iff.rfl
  | write w now => exact newer_write_iff hdom w now
  | send => exact Iff.rfl

theorem step_dominates {s t : ClockHistory} {l : Label} (hstep : machine.step s l = some t)
    (hl : CounterLeft s l) (hdom : s.Dominates) : t.Dominates := by
  cases l with
  | receive incoming =>
    cases hstep
    -- a merge is an upper bound in every branch
    intro c hc
    show c.version ≤ (s.ctx.merge incoming).1.version
    rw [AviContext.version_merge]
    rcases List.mem_cons.mp hc with rfl | hc
    · exact le_sup_right
    · exact (hdom c hc).trans le_sup_left
  | write w now =>
    cases hstep
    have hlt := version_write hl w now
    intro c hc
    rcases List.mem_cons.mp hc with rfl | hc
    · exact le_rfl
    · exact (hdom c hc).trans hlt.le
  | send =>
    cases hstep
    intro c hc
    rcases List.mem_cons.mp hc with rfl | hc
    · exact le_rfl
    · exact hdom c hc

/-- **Local updates are newer**: in every run, all local updates are newer than
everything merged or sent before exactly if each of them finds the own counter
below its last value. -/
theorem newer_iff {s : ClockHistory} (h₀ : machine.Init s) (ls : List Label) :
    machine.AllSteps UpdatesNewer s ls ↔ machine.AllSteps CounterLeft s ls :=
  machine.allSteps_iff_allSteps (fun _ _ _ => step_dominates)
    (fun _ l hdom => updatesNewer_iff hdom l) (init_dominates h₀) ls

/-- A device that has just started. -/
def booted : ClockHistory := ⟨.new "A" 0, []⟩

theorem booted_init : machine.Init booted := ⟨⟨"A", 0, rfl⟩, rfl⟩

/-- A context of `B` that claims the largest number of updates of `A`. -/
def forged : AviContext :=
  { AviContext.new "B" 0 with
    vectorClock := ⟨SortedMap.ofList [("A", 18446744073709551615)]⟩ }

theorem newer_iff_booted :
    machine.AllSteps UpdatesNewer booted [.receive forged, .write (.update .null) 1] ↔
      machine.AllSteps CounterLeft booted [.receive forged, .write (.update .null) 1] :=
  newer_iff booted_init _

/-- After merging the forged clock, the next update of `A` wraps its counter to 0. -/
theorem forged_not_newer : ¬ ∀ s ls, machine.Init s → machine.AllSteps UpdatesNewer s ls := by
  intro h
  have hall := h booted [.receive forged, .write (.update .null) 1] booted_init
  have hnew := (hall.2 _ rfl).1.1
  exact absurd hnew (by decide +kernel)

end ClockHistory

end AviNet
