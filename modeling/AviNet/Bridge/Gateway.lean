import AviNet.Bridge.Uplink
import AviNet.Lib.Machine
import AviNet.Runtime.Handlers

/-!
# Bridge.Gateway — the uplink task and the runtime it commands

One packet is handled at a time. While the task waits for the answer to a
command, and between that answer and its next line, the runtime goes on with
other commands and with events of the swarm.
-/

namespace AviNet

/-- The runtime, the bridge's table and where its uplink task stands. -/
structure Gateway (Peer Addr : Type) [LinearOrder Peer] [LinearOrder Addr] where
  rt : Runtime Peer
  bridge : Bridge Addr
  task : Caller (Bridge Addr) Command Reply

namespace Gateway

variable {Peer Addr : Type} [LinearOrder Peer] [LinearOrder Addr]

inductive Label (Peer Addr : Type) where
  /-- a datagram that decodes to `msg`, received at the system time `now` -/
  | packet (now : UInt64) (addr : Addr) (msg : UplinkMessage)
  /-- the task runs up to its next call -/
  | resume
  /-- the runtime handles the command of the task -/
  | serve (env : Env Peer)
  /-- any other turn of the runtime -/
  | turn (env : Env Peer) (l : Runtime.Label Peer)

def step (lib : External Peer) (toVec : Value → Bytes) (s : Gateway Peer Addr) :
    Label Peer Addr → Option (Gateway Peer Addr)
  | .packet now addr msg =>
    match s.task with
    | .idle => some { s with task := .ready (s.bridge.handleUplinkPacket toVec now addr msg) }
    | _ => none
  | .resume =>
    match s.task with
    | .ready p => some { s with bridge := p.state, task := p.stop }
    | _ => none
  | .serve env =>
    match s.task with
    | .waiting cmd k =>
      let (rt, effects) := s.rt.turn lib env (.command cmd)
      (Runtime.replyOf effects).map fun r => { s with rt := rt, task := .ready (k r) }
    | _ => none
  | .turn env l => some { s with rt := (s.rt.turn lib env l).1 }

end Gateway

open Gateway in
/-- The machine of a gateway whose bridge has just started. -/
def gateway {Peer : Type} (Addr : Type) [LinearOrder Peer] [LinearOrder Addr]
    (lib : External Peer) (toVec : Value → Bytes) :
    Machine (Gateway Peer Addr) (Gateway.Label Peer Addr) where
  Init s := s.bridge = .start ∧ s.task = .idle
  step := step lib toVec

namespace Gateway

variable {Peer Addr : Type} [LinearOrder Peer] [LinearOrder Addr] {lib : External Peer}
  {toVec : Value → Bytes}

/-- **Inversion**: what a step does to the runtime, the table and the task. -/
theorem step_cases {s t : Gateway Peer Addr} {l : Label Peer Addr}
    (h : (gateway Addr lib toVec).step s l = some t) :
    (∃ now addr msg, l = .packet now addr msg ∧ s.task = .idle ∧
      t = { s with task := .ready (s.bridge.handleUplinkPacket toVec now addr msg) }) ∨
    (∃ p, l = .resume ∧ s.task = .ready p ∧ t = { s with bridge := p.state, task := p.stop }) ∨
    (∃ env cmd k r, l = .serve env ∧ s.task = .waiting cmd k ∧
      Runtime.replyOf (s.rt.turn lib env (.command cmd)).2 = some r ∧
      t = { s with rt := (s.rt.turn lib env (.command cmd)).1, task := .ready (k r) }) ∨
    ∃ env l', l = .turn env l' ∧ t = { s with rt := (s.rt.turn lib env l').1 } := by
  cases l with
  | packet now addr msg =>
    simp only [gateway, step] at h
    split at h
    · rename_i hidle
      cases h
      exact Or.inl ⟨now, addr, msg, rfl, hidle, rfl⟩
    · cases h
  | resume =>
    simp only [gateway, step] at h
    split at h
    · rename_i p hp
      cases h
      exact Or.inr (Or.inl ⟨p, rfl, hp, rfl⟩)
    · cases h
  | serve env =>
    simp only [gateway, step] at h
    split at h
    · rename_i cmd k hk
      rcases Option.map_eq_some_iff.mp h with ⟨r, hr, ht⟩
      exact Or.inr (Or.inr (Or.inl ⟨env, cmd, k, r, rfl, hk, hr, ht.symm⟩))
    · cases h
  | turn env l =>
    cases h
    exact Or.inr (Or.inr (Or.inr ⟨env, l, rfl, rfl⟩))

end Gateway

end AviNet
