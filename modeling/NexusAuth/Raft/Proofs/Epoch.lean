import NexusAuth.Raft.Proofs.Effects

/-!
# The policy epoch fences the content

A command either keeps the epoch and the content, or raises the epoch by one.  In
a run below `u64::MAX` two states with the same epoch therefore have the same
services, tombstones and index expiry.
-/

namespace NexusAuth.Raft.PolicyState

open Std (ExtTreeMap)
open NexusAuth.Authority NexusAuth.Lib NexusAuth.Lib.OrderedMap NexusAuth.Lib.Words

def content (s : PolicyState) : BTreeMap String ServiceState × BTreeMap String Nat × Nat :=
  (s.services, s.tombstones, s.indexExpiresAt)

inductive Fenced (cmd : PolicyCommand) (s t : PolicyState) : Prop
  | kept (hepoch : t.policyEpoch = s.policyEpoch) (hcontent : t.content = s.content)
  | raised (hepoch : t.policyEpoch = s.policyEpoch + 1)
      (hcause : (∃ expiresAt, cmd = .renewIndex expiresAt) ∨ t.services ≠ s.services)

variable {prim : Primitives} {s t : PolicyState}

theorem fenced_of_effect {cmd : PolicyCommand} {report : Report}
    (hb : s.policyEpoch < u64Max) (h : Effect prim s cmd t report) : Fenced cmd s t := by
  have hsucc := saturatingSucc64_of_lt hb
  cases h with
  | @created service members hname hpeers hfresh =>
      refine .raised hsucc (Or.inr fun hsame => ?_)
      have hlookup := congrArg (fun m => m[service]?) hsame
      simp only [ExtTreeMap.getElem?_insert_self, hfresh] at hlookup
      cases hlookup
  | @deleted service removed hlive =>
      refine .raised hsucc (Or.inr fun hsame => ?_)
      have hlookup := congrArg (fun m => m[service]?) hsame
      simp only [ExtTreeMap.getElem?_erase_self, hlive] at hlookup
      cases hlookup
  | kept hcmd hlive => exact .kept rfl rfl
  | @edited _ service state members hcmd hlive hne =>
      refine .raised hsucc (Or.inr fun hsame => ?_)
      have hlookup := congrArg (fun m => m[service]?) hsame
      simp only [ExtTreeMap.getElem?_insert_self, hlive] at hlookup
      exact hne (congrArg ServiceState.members (Option.some.inj hlookup))
  | renewed => exact .raised hsucc (Or.inl ⟨_, rfl⟩)
  | issued huses hfresh => exact .kept rfl rfl
  | consumed hrecord huses hpeer hexpires hused => exact .kept rfl rfl

theorem fenced_of_outcome {cmd : PolicyCommand} {report : Option Report}
    (hb : s.policyEpoch < u64Max) (h : Outcome prim s cmd t report) : Fenced cmd.inner s t := by
  cases h with
  | effect hexec heffect hsame =>
      obtain ⟨dedup, rfl⟩ := hsame
      cases fenced_of_effect hb heffect with
      | kept hepoch hcontent => exact .kept hepoch hcontent
      | raised hepoch hcause => exact .raised hepoch hcause
  | none hsame =>
      obtain ⟨dedup, rfl⟩ := hsame
      exact .kept rfl rfl

section Run

variable {network : String} {log : List (PolicyCommand × Nat)}
  (hbelow : ∀ k ≤ log.length, (after prim network log k).policyEpoch < u64Max)

include hbelow

theorem fenced_after {k : Nat} (hk : k < log.length) :
    Fenced log[k].1.inner (after prim network log k) (after prim network log (k + 1)) :=
  fenced_of_outcome (hbelow k hk.le) (outcome_after prim network hk)

theorem epoch_fences {i j : Nat} (hij : i ≤ j) :
    (after prim network log i).policyEpoch ≤ (after prim network log j).policyEpoch ∧
      ((after prim network log i).policyEpoch = (after prim network log j).policyEpoch →
        (after prim network log i).content = (after prim network log j).content) := by
  apply Runs.fenced policyEpoch content _ hij
  intro k hk
  have hstep := fenced_after hbelow hk
  rw [after_succ hk] at hstep
  cases hstep with
  | kept hepoch hcontent => exact Or.inl ⟨hepoch, hcontent⟩
  | raised hepoch hcause =>
      right
      exact hepoch ▸ Nat.lt_succ_self _

end Run

theorem policyEpoch_fences_content (prim : Primitives) (network : String)
    (log : List (PolicyCommand × Nat))
    (hbelow : ∀ k ≤ log.length, (after prim network log k).policyEpoch < u64Max) :
    (∀ i j, i ≤ j →
      (after prim network log i).policyEpoch ≤ (after prim network log j).policyEpoch) ∧
    (∀ k < log.length, (after prim network log (k + 1)).policyEpoch ≤
      (after prim network log k).policyEpoch + 1) ∧
    (∀ i j, (after prim network log i).policyEpoch = (after prim network log j).policyEpoch →
      (after prim network log i).services = (after prim network log j).services ∧
      (after prim network log i).tombstones = (after prim network log j).tombstones ∧
      (after prim network log i).indexExpiresAt = (after prim network log j).indexExpiresAt) ∧
    (∀ k (hk : k < log.length),
      (after prim network log k).policyEpoch < (after prim network log (k + 1)).policyEpoch →
      (∃ expiresAt, log[k].1.inner = .renewIndex expiresAt) ∨
        (after prim network log (k + 1)).services ≠ (after prim network log k).services) := by
  refine ⟨fun i j hij => (epoch_fences hbelow hij).1, ?_, ?_, ?_⟩
  · intro k hk
    cases fenced_after hbelow hk with
    | kept hepoch hcontent => omega
    | raised hepoch hcause => omega
  · intro i j hepoch
    have hcontent : (after prim network log i).content = (after prim network log j).content := by
      rcases Nat.le_total i j with hij | hji
      · exact (epoch_fences hbelow hij).2 hepoch
      · exact ((epoch_fences hbelow hji).2 hepoch.symm).symm
    have hparts := Prod.mk.inj hcontent
    exact ⟨hparts.1, Prod.mk.inj hparts.2⟩
  · intro k hk hlt
    cases fenced_after hbelow hk with
    | kept hepoch hcontent => omega
    | raised hepoch hcause => exact hcause

/-- Repeated peers, a refused command, a token and a repeated request keep the epoch. -/
def epochLog : List (PolicyCommand × Nat) :=
  [(.createService "api" [peerA, peerA], 1), (.addMembers "api" [peerA, peerA], 2),
    (.admin "r1" "root" "h1" 100 (.renewIndex 500), 3),
    (.admin "r1" "root" "h1" 100 (.renewIndex 500), 4),
    (.deleteService "web", 5),
    (.issueJoinToken ⟨1, "t1", "c", "net", "aud", 900, 1, "", "root", ""⟩, 6),
    (.deleteService "api", 7)]

theorem policyEpoch_fences_epochLog :
    (List.range 8).map (fun k => (after samplePrimitives "net" epochLog k).policyEpoch) =
        [1, 2, 2, 3, 3, 3, 3, 4] ∧
      ((after samplePrimitives "net" epochLog 3).services =
          (after samplePrimitives "net" epochLog 6).services ∧
        (after samplePrimitives "net" epochLog 3).tombstones =
          (after samplePrimitives "net" epochLog 6).tombstones ∧
        (after samplePrimitives "net" epochLog 3).indexExpiresAt =
          (after samplePrimitives "net" epochLog 6).indexExpiresAt) :=
  ⟨by decide +kernel,
    (policyEpoch_fences_content samplePrimitives "net" epochLog (by decide +kernel)).2.2.1 3 6
      (by decide +kernel)⟩

end NexusAuth.Raft.PolicyState
