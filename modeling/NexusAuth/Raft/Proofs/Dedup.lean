import NexusAuth.Raft.Proofs.Effects

/-!
# Administrators' requests are applied once

A request that is applied for the first time is recorded under its id.  Its record
leaves the table only when a later first application is more than the TTL younger,
or when as many later first applications as the table has room for have pushed it
out.  The proof counts the records that could outlive it: at most one for each
first application since.
-/

namespace NexusAuth.Raft

open Std (ExtTreeMap)
open NexusAuth.Authority NexusAuth.Lib NexusAuth.Lib.OrderedMap NexusAuth.Lib.Words

def PolicyResult.isFirst : PolicyResult → Bool
  | .admin _ _ _ duplicate _ => !duplicate
  | _ => false

namespace PolicyState

def remember (table : BTreeMap String AdminRecord) (requestId : String) (record : AdminRecord) :
    BTreeMap String AdminRecord :=
  evict AdminRecord.raftIndex dedupMaxEntries
    ((table.insert requestId record).filter fun _ r =>
      decide (record.requestTs - r.requestTs ≤ dedupTtlSecs))

variable {prim : Primitives} {s t : PolicyState}

/-! ## One table -/

theorem size_remember_le (table : BTreeMap String AdminRecord) (requestId : String)
    (record : AdminRecord) : (remember table requestId record).size ≤ dedupMaxEntries :=
  size_evict_le _ _ _

theorem getElem?_of_filter {table : BTreeMap String AdminRecord}
    {keep : String → AdminRecord → Bool} {a : String} {r : AdminRecord}
    (h : (table.filter keep)[a]? = some r) : table[a]? = some r := by
  rw [ExtTreeMap.getElem?_filter', Option.filter_eq_some_iff] at h
  exact h.1

theorem getElem?_of_remember {table : BTreeMap String AdminRecord} {requestId : String}
    {record : AdminRecord} {a : String} {r : AdminRecord}
    (h : (remember table requestId record)[a]? = some r) :
    (table.insert requestId record)[a]? = some r :=
  getElem?_of_filter (getElem?_of_getElem?_evict h)

theorem card_rivals_remember_le (table : BTreeMap String AdminRecord) (requestId : String)
    (record : AdminRecord) (id : String) (n : Nat) :
    (rivals AdminRecord.raftIndex (remember table requestId record) id n).card ≤
      (rivals AdminRecord.raftIndex (table.insert requestId record) id n).card :=
  Finset.card_le_card (rivals_subset fun _ _ h => getElem?_of_remember h)

/-- A record survives if it is young enough and fewer records than there is room
for have a log index at least as high. -/
theorem remember_survives {table : BTreeMap String AdminRecord} {requestId id : String}
    {record r : AdminRecord} (hr : (table.insert requestId record)[id]? = some r)
    (hyoung : record.requestTs ≤ r.requestTs + dedupTtlSecs)
    (hroom : (rivals AdminRecord.raftIndex (table.insert requestId record) id
      r.raftIndex).card < dedupMaxEntries) :
    (remember table requestId record)[id]? = some r := by
  apply evict_survives
  · rw [ExtTreeMap.getElem?_filter', hr, Option.filter_some, if_pos]
    simp only [decide_eq_true_eq]
    omega
  · have hsub : rivals AdminRecord.raftIndex
        ((table.insert requestId record).filter fun _ r =>
          decide (record.requestTs - r.requestTs ≤ dedupTtlSecs)) id r.raftIndex ⊆
        rivals AdminRecord.raftIndex (table.insert requestId record) id r.raftIndex :=
      rivals_subset fun a w h => getElem?_of_filter h
    exact (Finset.card_le_card hsub).trans_lt hroom

/-! ## One entry -/

inductive TableStep (s : PolicyState) (cmd : PolicyCommand) (raftIndex : Nat) (t : PolicyState) :
    PolicyResult → Prop
  | kept {result : PolicyResult} (hfirst : result.isFirst = false) (hdedup : t.dedup = s.dedup) :
      TableStep s cmd raftIndex t result
  | recorded {requestId kid requestHash : String} {requestTs : Nat} {command : PolicyCommand}
      {outcome : AdminOutcome} {policyEpoch : Nat}
      (hcmd : cmd = .admin requestId kid requestHash requestTs command)
      (hfresh : s.dedup[requestId]? = none)
      (hdedup : t.dedup = remember s.dedup requestId
        ⟨requestHash, outcome, policyEpoch, raftIndex, requestTs⟩) :
      TableStep s cmd raftIndex t (.admin requestId policyEpoch raftIndex false outcome)

theorem applyAdmin_of_seen {requestId requestHash : String} {requestTs : Nat}
    {command : PolicyCommand} {raftIndex : Nat} {record : AdminRecord}
    (hseen : s.dedup[requestId]? = some record) :
    s.applyAdmin prim requestId requestHash requestTs command raftIndex =
      (s, if record.requestHash = requestHash then
          .admin requestId record.policyEpoch record.raftIndex true record.outcome
        else
          .admin requestId s.policyEpoch raftIndex true (.rejected "request_id_conflict"
            ("request_id " ++ requestId ++ " reused with different request content"))) := by
  rw [applyAdmin, hseen]
  simp only
  split <;> rfl

theorem applyAdmin_tableStep {requestId kid requestHash : String} {requestTs : Nat}
    {command : PolicyCommand} {raftIndex : Nat} :
    let out := s.applyAdmin prim requestId requestHash requestTs command raftIndex
    TableStep s (.admin requestId kid requestHash requestTs command) raftIndex out.1 out.2 := by
  intro out
  cases hseen : s.dedup[requestId]? with
  | some record =>
      simp only [out, applyAdmin_of_seen hseen]
      refine .kept ?_ rfl
      split <;> rfl
  | none =>
      cases hinner : s.applyInner prim command with
      | error refusal =>
          simp only [out, applyAdmin, hseen, hinner]
          exact .recorded rfl hseen rfl
      | ok result =>
          obtain ⟨t, service, version, changed⟩ := result
          have hdedup : t.dedup = s.dedup := dedup_of_effect (effect_of_applyInner hinner)
          simp only [out, applyAdmin, hseen, hinner, pruneDedup, hdedup]
          exact .recorded rfl hseen rfl

theorem applyCommandAt_tableStep (cmd : PolicyCommand) (raftIndex : Nat) :
    let out := s.applyCommandAt prim cmd raftIndex
    TableStep s cmd raftIndex out.1 out.2 := by
  cases cmd with
  | admin requestId kid requestHash requestTs command => exact applyAdmin_tableStep
  | _ =>
      intro out
      simp only [out, applyCommandAt]
      split
      · rename_i t service version changed hinner
        exact .kept rfl (dedup_of_effect (effect_of_applyInner hinner))
      · exact .kept rfl rfl

/-! ## Whole runs -/

def firstAt (prim : Primitives) (network : String) (log : List (PolicyCommand × Nat)) (k : Nat) :
    Bool :=
  (resultAt prim network log k).any PolicyResult.isFirst

def firstsBetween (prim : Primitives) (network : String) (log : List (PolicyCommand × Nat))
    (i j : Nat) : Finset Nat :=
  (Finset.Ioo i j).filter fun k => firstAt prim network log k = true

section Run

variable {network : String} {log : List (PolicyCommand × Nat)}

theorem tableStep_after (prim : Primitives) (network : String) {k : Nat} (hk : k < log.length) :
    ∃ result, resultAt prim network log k = some result ∧
      TableStep (after prim network log k) log[k].1 log[k].2 (after prim network log (k + 1))
        result := by
  rw [after_succ hk]
  exact ⟨_, resultAt_of_lt hk, applyCommandAt_tableStep _ _⟩

theorem size_dedup_after (prim : Primitives) (network : String)
    (log : List (PolicyCommand × Nat)) (k : Nat) :
    (after prim network log k).dedup.size ≤ dedupMaxEntries := by
  apply invariant_after (P := fun s => s.dedup.size ≤ dedupMaxEntries)
  · simp [new]
  · intro k hk hsize
    obtain ⟨result, -, hstep⟩ := tableStep_after prim network hk
    cases hstep with
    | kept hfirst hdedup =>
        rw [hdedup]
        exact hsize
    | recorded hcmd hfresh hdedup =>
        rw [hdedup]
        exact size_remember_le _ _ _

/-- Records carry the index of the entry that made them, so they are behind every
entry still to come. -/
theorem raftIndex_lt_of_recorded (hindexes : log.Pairwise fun a b => a.2 < b.2) {k : Nat}
    (hk : k ≤ log.length) {requestId : String} {record : AdminRecord}
    (h : (after prim network log k).dedup[requestId]? = some record) {n : Nat}
    (hkn : k ≤ n) (hn : n < log.length) : record.raftIndex < log[n].2 := by
  induction k generalizing requestId record with
  | zero =>
      rw [after_zero] at h
      exact absurd h (by simp [new])
  | succ k ih =>
      have hbefore : ∀ (a : String) (r : AdminRecord),
          (after prim network log k).dedup[a]? = some r → r.raftIndex < log[n].2 :=
        fun a r hr => ih (by omega) hr (by omega)
      obtain ⟨result, -, hstep⟩ := tableStep_after prim network (show k < log.length by omega)
      cases hstep with
      | kept hfirst hdedup =>
          rw [hdedup] at h
          exact hbefore _ _ h
      | recorded hcmd hfresh hdedup =>
          rw [hdedup] at h
          refine forall_insert (Q := fun _ r => r.raftIndex < log[n].2) hbefore ?_
            (getElem?_of_remember h)
          exact List.pairwise_iff_getElem.mp hindexes k n (by omega) hn (by omega)

theorem firstsBetween_succ {i k : Nat} (hik : i < k) (hfirst : firstAt prim network log k = true) :
    (firstsBetween prim network log i (k + 1)).card =
      (firstsBetween prim network log i k).card + 1 := by
  have hsplit : firstsBetween prim network log i (k + 1) =
      insert k (firstsBetween prim network log i k) := by
    ext m
    simp only [firstsBetween, Finset.mem_filter, Finset.mem_Ioo, Finset.mem_insert]
    constructor
    · rintro ⟨⟨him, hmk⟩, hm⟩
      by_cases heq : m = k
      · exact Or.inl heq
      · exact Or.inr ⟨⟨him, by omega⟩, hm⟩
    · rintro (rfl | ⟨⟨him, hmk⟩, hm⟩)
      · exact ⟨⟨hik, by omega⟩, hfirst⟩
      · exact ⟨⟨him, by omega⟩, hm⟩
  rw [hsplit, Finset.card_insert_of_notMem (by simp [firstsBetween])]

theorem firstsBetween_mono (prim : Primitives) (network : String)
    (log : List (PolicyCommand × Nat)) {i j k : Nat} (hjk : j ≤ k) :
    (firstsBetween prim network log i j).card ≤ (firstsBetween prim network log i k).card := by
  apply Finset.card_le_card
  exact Finset.filter_subset_filter _ (Finset.Ioo_subset_Ioo_right hjk)

/-- The record of a request is in the table, and at most one record for each first
application since the request at `i` has an index as high. -/
structure Remembers (prim : Primitives) (network : String) (log : List (PolicyCommand × Nat))
    (i k : Nat) (requestId : String) (record : AdminRecord) : Prop where
  found : (after prim network log k).dedup[requestId]? = some record
  rivals : (rivals AdminRecord.raftIndex (after prim network log k).dedup requestId
    record.raftIndex).card ≤ (firstsBetween prim network log i k).card

theorem remembers_of_first (hindexes : log.Pairwise fun a b => a.2 < b.2) {i : Nat}
    (hi : i < log.length) {requestId kid requestHash : String} {requestTs : Nat}
    {command : PolicyCommand}
    (hcmd : log[i].1 = .admin requestId kid requestHash requestTs command)
    (hfirst : firstAt prim network log i = true) :
    ∃ (policyEpoch : Nat) (outcome : AdminOutcome),
      resultAt prim network log i =
        some (.admin requestId policyEpoch log[i].2 false outcome) ∧
      Remembers prim network log i (i + 1) requestId
        ⟨requestHash, outcome, policyEpoch, log[i].2, requestTs⟩ := by
  obtain ⟨result, hresult, hstep⟩ := tableStep_after prim network hi
  cases hstep with
  | kept hnot hdedup =>
      rw [firstAt, hresult, Option.any_some, hnot] at hfirst
      cases hfirst
  | @recorded requestId' kid' requestHash' requestTs' command' outcome policyEpoch hcmd' hfresh
      hdedup =>
      obtain ⟨rfl, rfl, rfl, rfl, rfl⟩ := PolicyCommand.admin.inj (hcmd.symm.trans hcmd')
      have hbehind : rivals AdminRecord.raftIndex
          ((after prim network log i).dedup.insert requestId
            ⟨requestHash, outcome, policyEpoch, log[i].2, requestTs⟩) requestId log[i].2 = ∅ := by
        apply Finset.eq_empty_of_forall_notMem
        intro a ha
        obtain ⟨hne, r, hr, hle⟩ := mem_rivals.mp ha
        rw [ExtTreeMap.getElem?_insert, if_neg (by simpa using Ne.symm hne)] at hr
        have hlt := raftIndex_lt_of_recorded hindexes hi.le hr le_rfl hi
        omega
      refine ⟨policyEpoch, outcome, hresult, ?_, ?_⟩
      · rw [hdedup]
        apply remember_survives ExtTreeMap.getElem?_insert_self
        · exact Nat.le_add_right _ _
        · rw [hbehind]
          decide
      · rw [hdedup]
        refine (card_rivals_remember_le _ _ _ _ _).trans ?_
        rw [hbehind]
        exact Nat.zero_le _

theorem remembers_succ {i k : Nat} (hik : i < k) (hk : k < log.length) {requestId : String}
    {record : AdminRecord} (h : Remembers prim network log i k requestId record)
    (hyoung : ∀ requestId' kid requestHash requestTs command,
      log[k].1 = .admin requestId' kid requestHash requestTs command →
      firstAt prim network log k = true → requestTs ≤ record.requestTs + dedupTtlSecs)
    (hroom : (firstsBetween prim network log i (k + 1)).card < dedupMaxEntries) :
    Remembers prim network log i (k + 1) requestId record := by
  obtain ⟨result, hresult, hstep⟩ := tableStep_after prim network hk
  cases hstep with
  | kept hnot hdedup =>
      constructor
      · rw [hdedup]
        exact h.found
      · rw [hdedup]
        exact h.rivals.trans (firstsBetween_mono prim network log (Nat.le_succ k))
  | @recorded requestId' kid requestHash requestTs command outcome policyEpoch hcmd hfresh
      hdedup =>
      have hfirst : firstAt prim network log k = true := by
        rw [firstAt, hresult]
        rfl
      have hne : requestId' ≠ requestId := by
        rintro rfl
        exact absurd (hfresh.symm.trans h.found) (by simp)
      have hcount := firstsBetween_succ hik hfirst
      have hrivals : (rivals AdminRecord.raftIndex
          ((after prim network log k).dedup.insert requestId'
            ⟨requestHash, outcome, policyEpoch, log[k].2, requestTs⟩) requestId
          record.raftIndex).card ≤ (firstsBetween prim network log i (k + 1)).card := by
        have hinsert := card_rivals_insert_le AdminRecord.raftIndex
          (after prim network log k).dedup requestId requestId'
          ⟨requestHash, outcome, policyEpoch, log[k].2, requestTs⟩ record.raftIndex
        have hbefore := h.rivals
        omega
      constructor
      · rw [hdedup]
        apply remember_survives
        · rw [ExtTreeMap.getElem?_insert, if_neg (by simpa using hne)]
          exact h.found
        · exact hyoung _ _ _ _ _ hcmd hfirst
        · omega
      · rw [hdedup]
        exact (card_rivals_remember_le _ _ _ _ _).trans hrivals

theorem remembers_until {i j : Nat} (hij : i < j) (hj : j ≤ log.length) {requestId : String}
    {record : AdminRecord}
    (h : Remembers prim network log i (i + 1) requestId record)
    (hyoung : ∀ k (hk : k < log.length), i < k → k < j → firstAt prim network log k = true →
      ∀ requestId' kid requestHash requestTs command,
        log[k].1 = .admin requestId' kid requestHash requestTs command →
        requestTs ≤ record.requestTs + dedupTtlSecs)
    (hroom : (firstsBetween prim network log i j).card < dedupMaxEntries) :
    Remembers prim network log i j requestId record := by
  induction j, (show i + 1 ≤ j by omega) using Nat.le_induction with
  | base => exact h
  | succ k hik ih =>
      have hmono := firstsBetween_mono prim network log (i := i) (show k ≤ k + 1 by omega)
      have hbefore := ih (by omega) (by omega)
        (fun m hm him hmk => hyoung m hm him (by omega)) (by omega)
      apply remembers_succ (by omega) (by omega) hbefore _ hroom
      intro requestId' kid requestHash requestTs command hcmd hfirst
      exact hyoung k (by omega) (by omega) (by omega) hfirst _ _ _ _ _ hcmd

end Run

/-- After its first application a request is answered from the table and changes
nothing, until a first application more than the TTL younger, or `dedupMaxEntries`
first applications, have come after it. -/
theorem admin_request_applied_once (prim : Primitives) (network : String)
    (log : List (PolicyCommand × Nat)) (hindexes : log.Pairwise fun a b => a.2 < b.2) :
    (∀ (i j : Nat) (hi : i < log.length) (hj : j < log.length)
        (requestId kid requestHash kid' requestHash' : String) (requestTs requestTs' : Nat)
        (command command' : PolicyCommand),
      i < j →
      log[i].1 = .admin requestId kid requestHash requestTs command →
      firstAt prim network log i = true →
      (∀ k (hk : k < log.length), i < k → k < j → firstAt prim network log k = true →
        ∀ id kid hash ts cmd, log[k].1 = .admin id kid hash ts cmd →
          ts ≤ requestTs + dedupTtlSecs) →
      (firstsBetween prim network log i j).card < dedupMaxEntries →
      log[j].1 = .admin requestId kid' requestHash' requestTs' command' →
      after prim network log (j + 1) = after prim network log j ∧
      ∃ (policyEpoch : Nat) (outcome : AdminOutcome),
        resultAt prim network log i =
          some (.admin requestId policyEpoch log[i].2 false outcome) ∧
        resultAt prim network log j = some (
          if requestHash' = requestHash then
            .admin requestId policyEpoch log[i].2 true outcome
          else
            .admin requestId (after prim network log j).policyEpoch log[j].2 true
              (.rejected "request_id_conflict"
                ("request_id " ++ requestId ++ " reused with different request content")))) ∧
    (∀ k, (after prim network log k).dedup.size ≤ dedupMaxEntries) := by
  refine ⟨?_, size_dedup_after prim network log⟩
  intro i j hi hj requestId kid requestHash kid' requestHash' requestTs requestTs' command command'
    hij hcmd hfirst hyoung hroom hcmd'
  obtain ⟨policyEpoch, outcome, hresult, hrecord⟩ := remembers_of_first hindexes hi hcmd hfirst
  have hfound := (remembers_until hij hj.le hrecord hyoung hroom).found
  have hanswer : (after prim network log j).applyCommandAt prim log[j].1 log[j].2 =
      (after prim network log j).applyAdmin prim requestId requestHash' requestTs' command'
        log[j].2 := by
    rw [hcmd', applyCommandAt]
  rw [applyAdmin_of_seen hfound] at hanswer
  refine ⟨?_, policyEpoch, outcome, hresult, ?_⟩
  · rw [after_succ hj, hanswer]
  · rw [resultAt_of_lt hj, hanswer]
    simp only [eq_comm (a := requestHash)]

/-- A request is repeated, and its id is used again for another request, after a
request with an earlier time. -/
def retries : List (PolicyCommand × Nat) :=
  [(.createService "api" [], 1),
    (.admin "r1" "root" "h1" 100 (.addMembers "api" [peerA]), 2),
    (.admin "r2" "ops" "h2" 90 (.deleteService "web"), 4),
    (.admin "r1" "root" "h1" 130 (.addMembers "api" [peerA]), 5),
    (.admin "r1" "root" "h9" 140 (.deleteService "api"), 8)]

theorem admin_request_applied_once_retries :
    (List.range 5).map (resultAt samplePrimitives "net" retries) =
        [some (.applied (some "api") (some 1) 2 true),
          some (.admin "r1" 3 2 false (.applied (some "api") (some 2) true)),
          some (.admin "r2" 3 4 false (.rejected "not_found" "服务不存在: web")),
          some (.admin "r1" 3 2 true (.applied (some "api") (some 2) true)),
          some (.admin "r1" 3 8 true (.rejected "request_id_conflict"
            "request_id r1 reused with different request content"))] ∧
      after samplePrimitives "net" retries 5 = after samplePrimitives "net" retries 4 := by
  refine ⟨by decide +kernel, ?_⟩
  refine ((admin_request_applied_once samplePrimitives "net" retries (by decide)).1 1 4 (by decide)
    (by decide) "r1" "root" "h1" "root" "h9" 100 140 _ _ (by decide) rfl (by decide +kernel) ?_
    (by decide +kernel) rfl).1
  intro k hk h1 h4 hfirst id kid hash ts cmd hcmd
  obtain rfl | rfl : k = 2 ∨ k = 3 := by omega
  · cases hcmd
    decide
  · cases hcmd
    decide

end PolicyState

end NexusAuth.Raft
