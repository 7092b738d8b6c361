import NexusAuth.Publisher.Proofs.Rounds

/-!
# What a reported publication means

A round reports success when no connection returned an error.  That is less than it
seems: the list of connections may have become empty when the index is sent, and a
reply without error may still say `success = false`.
-/

namespace NexusAuth.Publisher

open NexusAuth.Authority NexusAuth.Lib.Interaction NexusAuth.Lib.OrderedMap NexusAuth.Raft

variable {ctx : Context} {events : List NodeEvent}

def IndexReceived (ctx : Context) (epoch : Nat) (round : List NodeEvent) : Prop :=
  ∃ id value result doc, ⟨.addKey id (indexKey ctx.crypto ctx.network) value, .ok result⟩ ∈ round ∧
    result.success = true ∧ IsIndexRecord ctx value doc ∧ doc.version = epoch

/-- Every reply without error, which is what a round counts as a success, says so. -/
def RepliesSucceed (round : List NodeEvent) : Prop :=
  ∀ id key value result, ⟨.addKey id key value, .ok result⟩ ∈ round → result.success = true

/-- The list of connections that was read for the index, the last one of the round. -/
def indexConnections (round : List NodeEvent) : List Nat := (connectionLists round).getLast?.getD []

theorem connectionLists_of_quiet (h : ∀ e ∈ events, Quiet e) : connectionLists events = [] := by
  rw [connectionLists, List.filterMap_eq_nil_iff]
  rintro ⟨question, answer⟩ he
  cases question with
  | connections => exact absurd (h _ he) id
  | _ => rfl

theorem connectionLists_of_attempts {key : String} {value : Bytes} {ids : List Nat}
    (h : Attempts key value ids events) : connectionLists events = [] := by
  rw [connectionLists, List.filterMap_eq_nil_iff]
  intro e he
  obtain ⟨id, _, answer, rfl⟩ := h e he
  rfl

theorem IndexRound.connectionLists_before (round : IndexRound ctx) :
    connectionLists round.before = connectionLists round.lists ++ [round.ids] := by
  simp only [before, connectionLists_append, connectionLists_of_quiet round.quiet_head,
    connectionLists_of_quiet round.quiet_between, List.append_nil, List.nil_append]
  rfl

theorem IndexRound.connectionLists_trace (round : IndexRound ctx) :
    connectionLists round.trace = connectionLists round.lists ++ [round.ids] := by
  simp [trace, round.connectionLists_before, connectionLists_of_quiet round.quiet_tail,
    connectionLists_of_attempts round.attempts]

theorem IndexRound.indexConnections_trace (round : IndexRound ctx) :
    indexConnections round.trace = round.ids := by
  simp [indexConnections, round.connectionLists_trace]

theorem IndexRound.isIndexRecord (round : IndexRound ctx) :
    IsIndexRecord ctx round.value
      ⟨round.version, round.expiresAt, round.pending.map Pending.entry⟩ :=
  ⟨round.indexSeed, round.signed⟩

/-- A round that reports epoch `epoch` as published has recorded a success.  That a connection took
the index and that all counted replies were successes is exactly the case when the connections read
for the index were not none and every reply without error said `success = true`. -/
theorem published_means_received (ctx : Context) (env : Oracle NodeCall NodeAnswer)
    (past round : List NodeEvent) (renew : Bool) (epoch : Nat)
    (hrun : play env past (publishOnce ctx renew) = (past ++ round, .ok (.published epoch))) :
    (statusAfter (past ++ round)).lastPublishOk = true ∧
      ((IndexReceived ctx epoch round ∧ RepliesSucceed round) ↔
        (indexConnections round ≠ [] ∧ RepliesSucceed round)) := by
  obtain ⟨events, heq, hyields, _⟩ := play_yields env past (publishOnce ctx renew)
  rw [hrun] at heq hyields
  obtain rfl : round = events := List.append_cancel_left heq
  rcases publishOnce_yields hyields with ⟨_, hresult⟩ | ⟨indexRound, rfl, hreported⟩
  · exact absurd rfl (hresult epoch)
  · obtain ⟨rfl, hacked, at_, htail⟩ := hreported epoch rfl
    constructor
    · rw [IndexRound.trace, ← List.append_assoc, statusAfter_append, htail]
      rfl
    · rw [indexRound.indexConnections_trace]
      refine and_congr_left fun hsucceed => ⟨?_, ?_⟩
      · rintro ⟨id, value, result, doc, hmem, _⟩ hnone
        obtain ⟨pre, post, hsplit⟩ := List.append_of_mem hmem
        obtain ⟨_, _, _, _, _, _, hid⟩ := indexRound.index_send hsplit
        simp [hnone] at hid
      · intro hsome
        obtain ⟨id, hid⟩ := List.exists_mem_of_ne_nil _ hsome
        obtain ⟨result, hresult⟩ := hacked id hid
        have hmem : ⟨.addKey id (indexKey ctx.crypto ctx.network) indexRound.value, .ok result⟩ ∈
            indexRound.trace := by
          simp [IndexRound.trace, hresult]
        exact ⟨id, indexRound.value, result, _, hmem, hsucceed _ _ _ _ hmem,
          indexRound.isIndexRecord, rfl⟩

/-! ## Two rounds that report too much -/

/-- A leader whose snapshot has no services; `ids` are the connections when the index is sent. -/
def replying (ids : List Nat) (reply : Except SidecarError AddKeyResult) :
    Oracle NodeCall NodeAnswer
  | _, .isEmpty => false
  | _, .connections => ids
  | _, .addKey _ _ _ => reply
  | _, .policySnapshot => { PolicyState.new "net" with policyEpoch := 1, indexExpiresAt := 10 }
  | past, question => idle past question

def replyingRound (ids : List Nat) (reply : Except SidecarError AddKeyResult) :
    List NodeEvent × Except PublishError PublishOutcome :=
  play (replying ids reply) [] (publishOnce sampleContext false)

def replyOf : NodeEvent → Option AddKeyResult
  | ⟨.addKey _ _ _, .ok result⟩ => some result
  | _ => none

theorem repliesSucceed_iff {round : List NodeEvent} :
    RepliesSucceed round ↔ ∀ result ∈ round.filterMap replyOf, result.success = true := by
  constructor
  · intro h result hresult
    obtain ⟨⟨question, answer⟩, hmem, heq⟩ := List.mem_filterMap.mp hresult
    cases question with
    | addKey id key value =>
        cases answer with
        | ok result' =>
            obtain rfl := Option.some.inj heq
            exact h id key value result' hmem
        | error e => simp [replyOf] at heq
    | _ => simp [replyOf] at heq
  · intro h id key value result hmem
    exact h result (List.mem_filterMap.mpr ⟨_, hmem, rfl⟩)

theorem not_indexReceived_of_no_reply {epoch : Nat} {round : List NodeEvent}
    (h : round.filterMap replyOf = []) : ¬IndexReceived ctx epoch round := by
  rintro ⟨id, value, result, doc, hmem, _⟩
  exact absurd (List.mem_filterMap.mpr ⟨_, hmem, rfl⟩ : result ∈ round.filterMap replyOf)
    (by simp [h])

/-- Both rounds report epoch 1 as published.  In the first the only connection has gone when the
index is sent; in the second it answers every record with `success = false`. -/
theorem published_without_receipt :
    ((replyingRound [] (.ok ⟨true, ""⟩)).2 = .ok (.published 1) ∧
      ¬IndexReceived sampleContext 1 (replyingRound [] (.ok ⟨true, ""⟩)).1) ∧
    (replyingRound [1] (.ok ⟨false, ""⟩)).2 = .ok (.published 1) ∧
      ¬RepliesSucceed (replyingRound [1] (.ok ⟨false, ""⟩)).1 := by
  refine ⟨⟨by decide +kernel, not_indexReceived_of_no_reply (by decide +kernel)⟩,
    by decide +kernel, ?_⟩
  rw [repliesSucceed_iff]
  decide +kernel

/-- The same leader with a service, and a connection that takes all records. -/
def serving : Oracle NodeCall NodeAnswer
  | _, .policySnapshot =>
      { PolicyState.new "net" with
        policyEpoch := 1
        indexExpiresAt := 10
        services := (∅ : BTreeMap String ServiceState).insert "web" ⟨1, collectPeers [peerA]⟩ }
  | past, question => replying [1] (.ok ⟨true, ""⟩) past question

def servingRound : List NodeEvent × Except PublishError PublishOutcome :=
  play serving [] (publishOnce sampleContext false)

/-- The connection gets the whitelist of the service and then the index. -/
theorem published_means_received_one_connection :
    servingRound.2 = .ok (.published 1) ∧ (servingRound.1.filterMap replyOf).length = 2 ∧
      IndexReceived sampleContext 1 servingRound.1 ∧ RepliesSucceed servingRound.1 := by
  have hresult : servingRound.2 = .ok (.published 1) := by decide +kernel
  have hconnections : indexConnections servingRound.1 ≠ [] := by decide +kernel
  have hsucceed : RepliesSucceed servingRound.1 := by
    rw [repliesSucceed_iff]
    decide +kernel
  exact ⟨hresult, by decide +kernel, (published_means_received sampleContext serving []
    servingRound.1 false 1 (Prod.ext rfl hresult)).2.mpr ⟨hconnections, hsucceed⟩⟩

end NexusAuth.Publisher
