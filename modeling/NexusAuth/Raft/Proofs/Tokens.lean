import NexusAuth.Raft.Proofs.Effects

/-!
# Join tokens

The record of a token is created by the one issue of its id that succeeds and is
only ever changed by counting a use.  The count of successful uses in the log is
therefore the count in the record, which stays within the limit of the token.
-/

namespace NexusAuth.Raft

open Std (ExtTreeMap)
open NexusAuth.Authority NexusAuth.Lib NexusAuth.Lib.OrderedMap NexusAuth.Lib.Words

def PolicyCommand.issues (jti : String) : PolicyCommand → Bool
  | .issueJoinToken token => token.jti == jti
  | _ => false

def PolicyCommand.consumes (jti : String) : PolicyCommand → Bool
  | .consumeJoinToken id _ _ _ => id == jti
  | _ => false

namespace PolicyState

variable {prim : Primitives} {s t : PolicyState} {jti : String}

/-! ## One entry -/

inductive TokenStep (jti : String) :
    Option StoredJoinToken → Option StoredJoinToken → PolicyCommand → Bool → Prop
  | issued {token : JoinToken} (hjti : token.jti = jti) :
      TokenStep jti none (some ⟨token, 0⟩) (.issueJoinToken token) true
  | consumed {nodeId : NodeId} {peerId : String} {usedAt : Nat} {record : StoredJoinToken}
      (huses : record.uses < record.token.maxUses)
      (hpeer : record.token.bindPeerId ≠ "" → peerId = record.token.bindPeerId)
      (hexpires : record.token.expiresAt ≠ 0) (hused : usedAt ≤ record.token.expiresAt) :
      TokenStep jti (some record) (some { record with uses := saturatingSucc32 record.uses })
        (.consumeJoinToken jti nodeId peerId usedAt) true
  | kept {record : Option StoredJoinToken} {cmd : PolicyCommand} {took : Bool}
      (hcmd : took = true → cmd.issues jti = false ∧ cmd.consumes jti = false) :
      TokenStep jti record record cmd took

theorem tokenStep_of_effect (jti : String) {cmd : PolicyCommand} {report : Report}
    (h : Effect prim s cmd t report) :
    TokenStep jti s.joinTokens[jti]? t.joinTokens[jti]? cmd true := by
  cases h with
  | created hname hpeers hfresh => exact .kept fun _ => ⟨rfl, rfl⟩
  | deleted hlive => exact .kept fun _ => ⟨rfl, rfl⟩
  | kept hcmd hlive =>
      refine .kept fun _ => ?_
      cases cmd <;> first | exact ⟨rfl, rfl⟩ | cases hcmd
  | edited hcmd hlive hne =>
      refine .kept fun _ => ?_
      cases cmd <;> first | exact ⟨rfl, rfl⟩ | cases hcmd
  | renewed => exact .kept fun _ => ⟨rfl, rfl⟩
  | @issued token huses hfresh =>
      by_cases hjti : token.jti = jti
      · subst hjti
        rw [hfresh, ExtTreeMap.getElem?_insert_self]
        exact .issued rfl
      · rw [ExtTreeMap.getElem?_insert, if_neg (by simpa using hjti)]
        exact .kept fun _ => ⟨by simpa [PolicyCommand.issues] using hjti, rfl⟩
  | @consumed id nodeId peerId usedAt record hrecord huses hpeer hexpires hused =>
      by_cases hjti : id = jti
      · subst hjti
        rw [hrecord, ExtTreeMap.getElem?_insert_self]
        exact .consumed huses (fun hbound => (hpeer hbound).symm) hexpires hused
      · rw [ExtTreeMap.getElem?_insert, if_neg (by simpa using hjti)]
        exact .kept fun _ => ⟨rfl, by simpa [PolicyCommand.consumes] using hjti⟩

theorem tokenStep_of_outcome (jti : String) {cmd : PolicyCommand} {report : Option Report}
    (h : Outcome prim s cmd t report) :
    TokenStep jti s.joinTokens[jti]? t.joinTokens[jti]? cmd.inner report.isSome := by
  cases h with
  | effect hexec heffect hsame =>
      obtain ⟨dedup, rfl⟩ := hsame
      have hstep := tokenStep_of_effect jti heffect
      exact hstep
  | none hsame =>
      obtain ⟨dedup, rfl⟩ := hsame
      exact .kept (by simp)

/-! ## Whole runs -/

/-- The `k`-th entry took effect: it was neither refused nor a repeated request. -/
def tookEffect (prim : Primitives) (network : String) (log : List (PolicyCommand × Nat))
    (k : Nat) : Bool :=
  ((resultAt prim network log k).bind PolicyResult.report).isSome

def issuedAt (prim : Primitives) (network : String) (log : List (PolicyCommand × Nat))
    (jti : String) (k : Nat) : Bool :=
  log[k]?.any (fun entry => entry.1.inner.issues jti) && tookEffect prim network log k

def consumedAt (prim : Primitives) (network : String) (log : List (PolicyCommand × Nat))
    (jti : String) (k : Nat) : Bool :=
  log[k]?.any (fun entry => entry.1.inner.consumes jti) && tookEffect prim network log k

def consumptions (prim : Primitives) (network : String) (log : List (PolicyCommand × Nat))
    (jti : String) (k : Nat) : Nat :=
  (List.range k).countP (consumedAt prim network log jti)

def recordedUses (s : PolicyState) (jti : String) : Nat :=
  (s.joinTokens[jti]?.map fun record => record.uses.toNat).getD 0

section Run

variable {network : String} {log : List (PolicyCommand × Nat)}

theorem tokenStep_after (prim : Primitives) (network jti : String) {k : Nat}
    (hk : k < log.length) :
    TokenStep jti (after prim network log k).joinTokens[jti]?
      (after prim network log (k + 1)).joinTokens[jti]? log[k].1.inner
      (tookEffect prim network log k) :=
  tokenStep_of_outcome jti (outcome_after prim network hk)

theorem token_cases (prim : Primitives) (network : String) (log : List (PolicyCommand × Nat))
    (jti : String) (k : Nat) :
    let before := (after prim network log k).joinTokens[jti]?
    let later := (after prim network log (k + 1)).joinTokens[jti]?
    (issuedAt prim network log jti k = true ∧ consumedAt prim network log jti k = false ∧
      before = none ∧ ∃ token, later = some ⟨token, 0⟩) ∨
    (issuedAt prim network log jti k = false ∧ consumedAt prim network log jti k = true ∧
      ∃ record, before = some record ∧ record.uses < record.token.maxUses ∧
        later = some { record with uses := saturatingSucc32 record.uses }) ∨
    (issuedAt prim network log jti k = false ∧ consumedAt prim network log jti k = false ∧
      later = before) := by
  intro before later
  by_cases hk : k < log.length
  · have hstep := tokenStep_after prim network jti hk
    have hissued : issuedAt prim network log jti k =
        (log[k].1.inner.issues jti && tookEffect prim network log k) := by
      rw [issuedAt, List.getElem?_eq_getElem hk, Option.any_some]
    have hconsumed : consumedAt prim network log jti k =
        (log[k].1.inner.consumes jti && tookEffect prim network log k) := by
      rw [consumedAt, List.getElem?_eq_getElem hk, Option.any_some]
    rw [hissued, hconsumed]
    generalize log[k].1.inner = cmd at hstep
    generalize tookEffect prim network log k = took at hstep
    change TokenStep jti before later cmd took at hstep
    generalize before = b at hstep
    generalize later = l at hstep
    cases hstep with
    | issued hjti => exact Or.inl ⟨by simp [PolicyCommand.issues, hjti], rfl, rfl, _, rfl⟩
    | consumed huses hpeer hexpires hused =>
        exact Or.inr (Or.inl ⟨rfl, by simp [PolicyCommand.consumes], _, rfl, huses, rfl⟩)
    | kept hcmd =>
        right; right
        cases took with
        | false => simp
        | true => simp [hcmd rfl]
  · have hnone : log[k]? = none := List.getElem?_eq_none (by omega)
    refine Or.inr (Or.inr ⟨?_, ?_, ?_⟩)
    · rw [issuedAt, hnone, Option.any_none, Bool.false_and]
    · rw [consumedAt, hnone, Option.any_none, Bool.false_and]
    · simp only [before, later, after_succ_of_length_le (show log.length ≤ k by omega)]

theorem consumptions_succ (k : Nat) : consumptions prim network log jti (k + 1) =
    consumptions prim network log jti k +
      if consumedAt prim network log jti k then 1 else 0 := by
  rw [consumptions, List.range_succ, List.countP_append, List.countP_singleton]
  rfl

/-- A recorded token is never removed and keeps its terms. -/
theorem token_kept {i j : Nat} (hij : i ≤ j) {record : StoredJoinToken}
    (h : (after prim network log i).joinTokens[jti]? = some record) :
    ∃ later, (after prim network log j).joinTokens[jti]? = some later ∧
      later.token = record.token := by
  induction j, hij using Nat.le_induction with
  | base => exact ⟨record, h, rfl⟩
  | succ j hij ih =>
      obtain ⟨before, hbefore, htoken⟩ := ih
      obtain ⟨-, -, hnone, -⟩ | ⟨-, -, r, hr, -, hnew⟩ | ⟨-, -, hsame⟩ :=
        token_cases prim network log jti j
      · exact absurd (hbefore.symm.trans hnone) (by simp)
      · obtain rfl := Option.some.inj (hbefore.symm.trans hr)
        exact ⟨_, hnew, htoken⟩
      · exact ⟨before, hsame.trans hbefore, htoken⟩

/-- The uses on record are the uses in the log, and are within the limit. -/
theorem uses_recorded (prim : Primitives) (network : String) (log : List (PolicyCommand × Nat))
    (jti : String) (k : Nat) :
    consumptions prim network log jti k = (after prim network log k).recordedUses jti ∧
      ∀ record, (after prim network log k).joinTokens[jti]? = some record →
        record.uses.toNat ≤ record.token.maxUses.toNat := by
  induction k with
  | zero =>
      rw [after_zero]
      exact ⟨by simp [consumptions, recordedUses, new], by simp [new]⟩
  | succ k ih =>
      obtain ⟨hcount, hlimit⟩ := ih
      rw [consumptions_succ, hcount]
      unfold recordedUses
      obtain ⟨-, hc, hbefore, token, hlater⟩ | ⟨-, hc, record, hbefore, huses, hlater⟩ |
          ⟨-, hc, hsame⟩ := token_cases prim network log jti k
      · rw [hc, hbefore, hlater]
        simp
      · have hsucc := toNat_saturatingSucc32 huses
        have hlt : record.uses.toNat < record.token.maxUses.toNat := huses
        rw [hc, hbefore, hlater]
        simp only [Option.map_some, Option.getD_some, if_true, hsucc, Option.some.injEq]
        refine ⟨trivial, ?_⟩
        rintro _ rfl
        simp only [hsucc]
        omega
      · rw [hc, hsame]
        exact ⟨by simp, hlimit⟩

theorem token_of_issuedAt {k : Nat} (hk : k < log.length) {token : JoinToken}
    (hcmd : log[k].1.inner = .issueJoinToken token) (h : tookEffect prim network log k = true) :
    (after prim network log k).joinTokens[token.jti]? = none ∧
      (after prim network log (k + 1)).joinTokens[token.jti]? = some ⟨token, 0⟩ := by
  have hstep := tokenStep_after prim network token.jti hk
  rw [hcmd, h] at hstep
  generalize (after prim network log k).joinTokens[token.jti]? = before at hstep ⊢
  generalize (after prim network log (k + 1)).joinTokens[token.jti]? = later at hstep ⊢
  cases hstep with
  | issued hjti => exact ⟨rfl, rfl⟩
  | kept hother => exact absurd (hother rfl).1 (by simp [PolicyCommand.issues])

theorem terms_of_consumed {k : Nat} (hk : k < log.length) {nodeId : NodeId} {peerId : String}
    {usedAt : Nat} (hcmd : log[k].1.inner = .consumeJoinToken jti nodeId peerId usedAt)
    (h : tookEffect prim network log k = true) :
    ∃ record, (after prim network log k).joinTokens[jti]? = some record ∧
      usedAt ≤ record.token.expiresAt ∧ record.token.expiresAt ≠ 0 ∧
      (record.token.bindPeerId ≠ "" → peerId = record.token.bindPeerId) := by
  have hstep := tokenStep_after prim network jti hk
  rw [hcmd, h] at hstep
  generalize (after prim network log k).joinTokens[jti]? = before at hstep ⊢
  generalize (after prim network log (k + 1)).joinTokens[jti]? = later at hstep
  cases hstep with
  | @consumed _ _ _ record huses hpeer hexpires hused =>
      exact ⟨record, rfl, hused, hexpires, hpeer⟩
  | kept hother => exact absurd (hother rfl).2 (by simp [PolicyCommand.consumes])

end Run

theorem join_token_within_limit (prim : Primitives) (network : String)
    (log : List (PolicyCommand × Nat)) (jti : String) :
    (∀ i j, issuedAt prim network log jti i = true → issuedAt prim network log jti j = true →
      i = j) ∧
    (∀ k (hk : k < log.length) (token : JoinToken), log[k].1.inner = .issueJoinToken token →
      tookEffect prim network log k = true →
      (after prim network log (k + 1)).joinTokens[token.jti]? = some ⟨token, 0⟩) ∧
    (∀ i j record, i ≤ j → (after prim network log i).joinTokens[jti]? = some record →
      ∃ later, (after prim network log j).joinTokens[jti]? = some later ∧
        later.token = record.token) ∧
    (∀ k, consumptions prim network log jti k = (after prim network log k).recordedUses jti) ∧
    (∀ k record, (after prim network log k).joinTokens[jti]? = some record →
      consumptions prim network log jti k ≤ record.token.maxUses.toNat) ∧
    (∀ k (hk : k < log.length) (nodeId : NodeId) (peerId : String) (usedAt : Nat),
      log[k].1.inner = .consumeJoinToken jti nodeId peerId usedAt →
      tookEffect prim network log k = true →
      ∃ record, (after prim network log k).joinTokens[jti]? = some record ∧
        usedAt ≤ record.token.expiresAt ∧ record.token.expiresAt ≠ 0 ∧
        (record.token.bindPeerId ≠ "" → peerId = record.token.bindPeerId)) := by
  have hnotTwice : ∀ i j, issuedAt prim network log jti i = true →
      issuedAt prim network log jti j = true → ¬i < j := by
    intro i j hi hj hij
    obtain ⟨-, -, -, token, hissued⟩ | ⟨hno, -⟩ | ⟨hno, -⟩ := token_cases prim network log jti i
    · obtain ⟨later, hlater, -⟩ := token_kept (show i + 1 ≤ j by omega) hissued
      obtain ⟨-, -, hnone, -⟩ | ⟨hno, -⟩ | ⟨hno, -⟩ := token_cases prim network log jti j
      · exact absurd (hlater.symm.trans hnone) (by simp)
      · exact absurd (hj.symm.trans hno) (by simp)
      · exact absurd (hj.symm.trans hno) (by simp)
    · exact absurd (hi.symm.trans hno) (by simp)
    · exact absurd (hi.symm.trans hno) (by simp)
  refine ⟨?_, ?_, ?_, ?_, ?_, ?_⟩
  · intro i j hi hj
    have hle := hnotTwice i j hi hj
    have hge := hnotTwice j i hj hi
    omega
  · intro k hk token hcmd htook
    exact (token_of_issuedAt hk hcmd htook).2
  · intro i j record hij h
    exact token_kept hij h
  · intro k
    exact (uses_recorded prim network log jti k).1
  · intro k record h
    have huses := uses_recorded prim network log jti k
    have hlimit := huses.2 record h
    rw [huses.1, recordedUses, h]
    exact hlimit
  · intro k hk nodeId peerId usedAt hcmd htook
    exact terms_of_consumed hk hcmd htook

end PolicyState

end NexusAuth.Raft
