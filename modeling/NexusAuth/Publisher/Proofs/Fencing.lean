import NexusAuth.Publisher.Proofs.Rounds

/-!
# Order and fencing of the index in Raft mode

An index record follows the whitelists it names, and the versions of the index
records that a process sends never go down.  The second part rests on the status:
every exit of a round that has sent an index reports its epoch, and a round whose
snapshot is older than the status sends nothing.
-/

namespace NexusAuth.Publisher

open Std (ExtTreeMap)
open NexusAuth.Authority NexusAuth.Lib.Interaction NexusAuth.Lib.OrderedMap
open NexusAuth.Raft

variable {ctx : Context} {env : Oracle NodeCall NodeAnswer} {past events : List NodeEvent}

/-! ## The content of an index record -/

def DescribesWhitelist (ctx : Context) (signer : Signer) (state : PolicyState)
    (round : List NodeEvent) (entry : ServiceEntry) : Prop :=
  ∃ service key whitelist, state.services[entry.name]? = some service ∧
    signer.serviceKey ctx.crypto entry.name = .ok key ∧
    signer.signWhitelist ctx.crypto entry.name ⟨service.version, service.members.toList⟩ =
      .ok whitelist ∧
    entry.hash = contentHash ctx.crypto.toPrimitives whitelist ∧ entry.length = whitelist.length ∧
    (∀ id value answer, ⟨.addKey id key value, answer⟩ ∈ round → value = whitelist) ∧
    ∃ ids, ⟨.connections, ids⟩ ∈ round ∧ Acknowledged key whitelist ids round

/-- `value` is a signed index of the services of `state`, each with the whitelist that was
published in `round`. -/
def IndexesSnapshot (ctx : Context) (state : PolicyState) (round : List NodeEvent)
    (value : Bytes) : Prop :=
  ∃ seed indexSeed entries,
    Signer.signIndex ctx.crypto ⟨indexSeed, ctx.network⟩
      ⟨state.policyEpoch, state.indexExpiresAt, entries⟩ = .ok value ∧
    entries.map ServiceEntry.name = state.services.keys ∧
    ∀ entry ∈ entries, DescribesWhitelist ctx ⟨seed, ctx.network⟩ state round entry

theorem snapshots_of_not_quiet (h : ∀ e ∈ events, ¬Quiet e) : snapshots events = [] := by
  rw [snapshots, List.filterMap_eq_nil_iff]
  rintro ⟨question, answer⟩ he
  cases question with
  | policySnapshot => exact absurd trivial (h _ he)
  | _ => rfl

theorem records_of_not_quiet (h : ∀ e ∈ events, ¬Quiet e) : records events = [] := by
  rw [records, List.filterMap_eq_nil_iff]
  rintro ⟨question, answer⟩ he
  cases question with
  | record entry => exact absurd trivial (h _ he)
  | _ => rfl

theorem RaftRound.indexesSnapshot (round : RaftRound ctx) {early : List NodeEvent}
    (hearly : early ⊆ round.sends) :
    IndexesSnapshot ctx round.state (round.before ++ early) round.value := by
  have hprepared := prepareWhitelists_eq_ok round.prepared
  refine ⟨round.seed, round.indexSeed, round.pending.map Pending.entry, ?_, ?_, ?_⟩
  · rw [← round.version_eq, ← round.expiresAt_eq]
    exact round.signed
  · rw [names_of_prepared hprepared, round.rows_eq, names_serviceRows]
  · intro entry hentry
    obtain ⟨record, hrecord, rfl⟩ := List.mem_map.mp hentry
    obtain ⟨row, hrow, hsigned⟩ := exists_prepared_of_mem hprepared hrecord
    obtain ⟨service, hservice, hversion, hmembers⟩ := mem_serviceRows (round.rows_eq ▸ hrow)
    have hname : record.entry.name = row.name := by rw [hsigned.entry]
    have hkey := hsigned.key
    have hvalue := hsigned.value
    rw [hversion, hmembers] at hvalue
    refine ⟨service, record.key, record.value, ?_, ?_, ?_, ?_, ?_, ?_, ?_⟩
    · rw [hname, hservice]
    · rw [hname, hkey]
    · rw [hname, hvalue]
    · rw [hsigned.entry]
    · rw [hsigned.entry]
    · -- another record under the same key is of a service with the same name
      intro id value answer hsent
      have htrace : ⟨.addKey id record.key value, answer⟩ ∈ round.trace := by
        rw [IndexRound.trace]
        rcases List.mem_append.mp hsent with hsent | hsent
        · simp [hsent]
        · simp [hearly hsent]
      have hlist := round.mem_lists_of_whitelist htrace hsigned.key_ne_indexKey
      obtain ⟨⟨record', hrecord', hkey', rfl⟩, _⟩ := round.delivered.acknowledged hlist
      obtain ⟨row', hrow', hsigned'⟩ := exists_prepared_of_mem hprepared hrecord'
      obtain ⟨service', hservice', hversion', hmembers'⟩ := mem_serviceRows (round.rows_eq ▸ hrow')
      have hnames : row'.name = row.name := by
        have hkeys := hsigned'.key
        rw [hkey'] at hkeys
        exact serviceKey_injective hkeys hkey
      rw [hnames, hservice, Option.some.injEq] at hservice'
      subst hservice'
      have hvalue' := hsigned'.value
      rw [hnames, hversion', hmembers', hvalue, Except.ok.injEq] at hvalue'
      exact hvalue'.symm
    · obtain ⟨pre, ids, post, hlists, hacked⟩ := round.delivered.split hrecord
      have hread : ⟨.connections, ids⟩ ∈ round.lists := by simp [hlists]
      refine ⟨ids, ?_, fun id hid => ?_⟩
      · exact List.mem_append_left _ (round.mem_before_of_mem_lists hread)
      · obtain ⟨result, hresult⟩ := hacked id hid
        exact ⟨result, List.mem_append_left _ (round.mem_before_of_mem_lists hresult)⟩

theorem RaftRound.before_eq (round : RaftRound ctx) :
    round.before = round.first ++
      [⟨.isLeader, true⟩, ⟨.status, round.status⟩, ⟨.authoritySeed, some round.seed⟩] ++
      round.lists ++
      [⟨.isLeader, true⟩, ⟨.authoritySeed, some round.indexSeed⟩, ⟨.connections, round.ids⟩] := by
  simp [IndexRound.before, round.head_eq, round.between_eq]

theorem IndexRound.sends_not_quiet (round : IndexRound ctx) : ∀ e ∈ round.sends, ¬Quiet e := by
  intro e he
  obtain ⟨id, _, answer, rfl⟩ := round.attempts e he
  exact fun hquiet => hquiet

theorem RaftRound.getLast_snapshots (round : RaftRound ctx) {early : List NodeEvent}
    (hearly : early ⊆ round.sends) :
    (snapshots (round.before ++ early)).getLast? = some round.state := by
  have hsame : snapshots (round.before ++ early) = snapshots round.first := by
    rw [round.before_eq]
    simp only [snapshots_append, snapshots_of_not_quiet round.delivered.not_quiet,
      snapshots_of_not_quiet fun e he => round.sends_not_quiet e (hearly he)]
    simp [snapshots]
  rw [hsame, round.opening.snapshot]

theorem RaftRound.records_before (round : RaftRound ctx) :
    records (round.before ++ round.sends) = [] := by
  rw [round.before_eq]
  simp only [records_append, records_of_not_quiet round.delivered.not_quiet, round.opening.records,
    records_of_not_quiet round.sends_not_quiet]
  rfl

/-! ## Versions never go down -/

/-- Event `n` of a history sends an index record, and `state` is the last snapshot read before. -/
def SendsIndexOf (ctx : Context) (history : List NodeEvent) (n : Nat)
    (state : PolicyState) : Prop :=
  (∃ id value answer,
      history[n]? = some ⟨.addKey id (indexKey ctx.crypto ctx.network) value, answer⟩) ∧
    (snapshots (history.take n)).getLast? = some state

structure Fenced (ctx : Context) (history : List NodeEvent) : Prop where
  reported : ∀ n state, SendsIndexOf ctx history n state →
    ∃ last, (statusAfter history).lastPublishEpoch = some last ∧ state.policyEpoch ≤ last
  ordered : ∀ n m s t, n ≤ m → SendsIndexOf ctx history n s → SendsIndexOf ctx history m t →
    s.policyEpoch ≤ t.policyEpoch

theorem sendsIndexOf_append_left {n : Nat} {state : PolicyState} (hn : n < past.length) :
    SendsIndexOf ctx (past ++ events) n state ↔ SendsIndexOf ctx past n state := by
  rw [SendsIndexOf, SendsIndexOf, List.getElem?_append_left hn, List.take_append_of_le_length hn.le]

theorem fenced_nil : Fenced ctx [] where
  reported n state h := by simp [SendsIndexOf] at h
  ordered n m s t _ h _ := by simp [SendsIndexOf] at h

theorem exists_of_sendsIndexOf_append {n : Nat} {state : PolicyState} (hn : past.length ≤ n)
    (h : SendsIndexOf ctx (past ++ events) n state) :
    ∃ pre id value answer post,
      events = pre ++ ⟨.addKey id (indexKey ctx.crypto ctx.network) value, answer⟩ :: post ∧
      (snapshots (past ++ pre)).getLast? = some state := by
  obtain ⟨⟨id, value, answer, hget⟩, hlast⟩ := h
  rw [List.getElem?_append_right hn] at hget
  obtain ⟨hlt, heq⟩ := List.getElem?_eq_some_iff.mp hget
  refine ⟨events.take (n - past.length), id, value, answer,
    events.drop (n - past.length + 1), ?_, ?_⟩
  · rw [← heq, List.cons_getElem_drop_succ, List.take_append_drop]
  · rwa [List.take_append, List.take_of_length_le hn] at hlast

theorem RaftRound.state_of_sendsIndexOf (round : RaftRound ctx) {n : Nat} {state : PolicyState}
    (hn : past.length ≤ n) (h : SendsIndexOf ctx (past ++ round.trace) n state) :
    state = round.state := by
  obtain ⟨pre, id, value, answer, post, htrace, hlast⟩ := exists_of_sendsIndexOf_append hn h
  obtain ⟨early, late, hsends, rfl, _, _, _⟩ := round.index_send htrace
  have hearly : early ⊆ round.sends := by
    rw [hsends]
    exact List.subset_append_left _ _
  rw [snapshots_append, List.getLast?_append, round.getLast_snapshots hearly] at hlast
  exact (Option.some.inj hlast).symm

theorem lastPublishEpoch_of_failures {reports : List PublishRecord} {status : PublishStatus}
    {last : Nat} (hstatus : status.lastPublishEpoch = some last)
    (hfailures : ∀ r ∈ reports, ∃ epoch error at_, r = .failure epoch error at_) :
    ∃ last', (reports.foldl recorded status).lastPublishEpoch = some last' ∧ last ≤ last' := by
  induction reports generalizing status last with
  | nil => exact ⟨last, hstatus, le_rfl⟩
  | cons report reports ih =>
      obtain ⟨epoch, error, at_, rfl⟩ := hfailures report List.mem_cons_self
      have hlater := fun r hr => hfailures r (List.mem_cons_of_mem _ hr)
      cases epoch with
      | none => exact ih (by simp [recorded, hstatus]) hlater
      | some epoch =>
          obtain ⟨last', hlast', hle⟩ :=
            ih (show (recorded status (.failure (some epoch) error at_)).lastPublishEpoch =
              some (max last epoch) by simp [recorded, hstatus]) hlater
          exact ⟨last', hlast', (le_max_left _ _).trans hle⟩

theorem failures_of_unfinished (h : ∀ e ∈ events, Unfinished ctx e) :
    ∀ r ∈ records events, ∃ epoch error at_, r = .failure epoch error at_ := by
  intro r hr
  obtain ⟨⟨question, answer⟩, hmem, heq⟩ := List.mem_filterMap.mp hr
  cases question with
  | record entry =>
      obtain rfl := Option.some.inj heq
      cases entry with
      | success epoch at_ => exact absurd (h _ hmem) id
      | failure epoch error at_ => exact ⟨epoch, error, at_, rfl⟩
  | _ => simp at heq

theorem not_sendsIndexOf_of_unfinished {n : Nat} {state : PolicyState} (hn : past.length ≤ n)
    (hunfinished : ∀ e ∈ events, Unfinished ctx e) :
    ¬SendsIndexOf ctx (past ++ events) n state := by
  intro h
  obtain ⟨pre, id, value, answer, post, rfl, _⟩ := exists_of_sendsIndexOf_append hn h
  exact hunfinished _ (List.mem_append_right pre List.mem_cons_self) rfl

theorem fenced_of_withheld (hpast : Fenced ctx past)
    (hunfinished : ∀ e ∈ events, Unfinished ctx e) :
    Fenced ctx (past ++ events) := by
  have hearlier : ∀ {n state}, SendsIndexOf ctx (past ++ events) n state →
      SendsIndexOf ctx past n state := by
    intro n state h
    rcases lt_or_ge n past.length with hn | hn
    · exact (sendsIndexOf_append_left hn).mp h
    · exact absurd h (not_sendsIndexOf_of_unfinished hn hunfinished)
  refine ⟨fun n state h => ?_, fun n m s t hle hn hm => hpast.ordered n m s t hle (hearlier hn)
    (hearlier hm)⟩
  obtain ⟨last, hlast, hle⟩ := hpast.reported n state (hearlier h)
  obtain ⟨last', hlast', hle'⟩ :=
    lastPublishEpoch_of_failures hlast (failures_of_unfinished hunfinished)
  rw [statusAfter_append]
  exact ⟨last', hlast', hle.trans hle'⟩

theorem le_of_fresh {status : PublishStatus} {epoch last : Nat}
    (hfresh : staleEpoch status epoch = none) (hlast : status.lastPublishEpoch = some last) :
    last ≤ epoch := by
  by_contra hlt
  simp [staleEpoch, hlast] at hfresh
  omega

theorem RaftRound.lastPublishEpoch (round : RaftRound ctx)
    {result : Except PublishError PublishOutcome} (hend : Concluded round.toIndexRound result)
    (hfresh : staleEpoch (statusAfter past) round.state.policyEpoch = none) :
    (statusAfter (past ++ round.trace)).lastPublishEpoch = some round.state.policyEpoch := by
  have hrecords : records round.trace = records round.tail := by
    rw [IndexRound.trace, records_append, round.records_before, List.nil_append]
  rw [statusAfter_append, hrecords]
  cases hend with
  | published at_ _ tail => simp [tail, records, recorded, round.version_eq]
  | failed at_ e tail =>
      cases hlast : (statusAfter past).lastPublishEpoch with
      | none => simp [tail, records, recorded, round.version_eq, hlast]
      | some last =>
          have hle := le_of_fresh hfresh hlast
          simp [tail, records, recorded, round.version_eq, hlast, hle]

theorem RaftRound.fenced (round : RaftRound ctx) {result : Except PublishError PublishOutcome}
    (hpast : Fenced ctx past) (hend : Concluded round.toIndexRound result)
    (hfresh : staleEpoch (statusAfter past) round.state.policyEpoch = none) :
    Fenced ctx (past ++ round.trace) := by
  -- earlier records are bounded by the status that the round has read
  have hbound : ∀ n state, SendsIndexOf ctx (past ++ round.trace) n state →
      state.policyEpoch ≤ round.state.policyEpoch := by
    intro n state h
    rcases lt_or_ge n past.length with hn | hn
    · obtain ⟨last, hlast, hle⟩ := hpast.reported n state ((sendsIndexOf_append_left hn).mp h)
      exact hle.trans (le_of_fresh hfresh hlast)
    · rw [round.state_of_sendsIndexOf hn h]
  refine ⟨fun n state h => ⟨_, round.lastPublishEpoch hend hfresh, hbound n state h⟩, ?_⟩
  intro n m s t hle hn hm
  rcases lt_or_ge m past.length with hlt | hge
  · exact hpast.ordered n m s t hle ((sendsIndexOf_append_left (hle.trans_lt hlt)).mp hn)
      ((sendsIndexOf_append_left hlt).mp hm)
  · rw [round.state_of_sendsIndexOf hge hm]
    exact hbound n s hn

/-- The status that a round reads is the status of the process at that point. -/
theorem RaftRound.status_eq (round : RaftRound ctx)
    (h : Answered (ownStatus env) past round.trace) : round.status = statusAfter past := by
  have hsplit : round.trace = (round.first ++ [⟨.isLeader, true⟩]) ++ ⟨.status, round.status⟩ ::
      (⟨.authoritySeed, some round.seed⟩ :: round.lists ++ [⟨.isLeader, true⟩,
        ⟨.authoritySeed, some round.indexSeed⟩, ⟨.connections, round.ids⟩] ++ round.sends ++
        round.tail) := by
    rw [IndexRound.trace, round.before_eq]
    simp
  rw [hsplit] at h
  have hstatus : round.status = statusAfter (past ++ (round.first ++ [⟨.isLeader, true⟩])) :=
    h.answer_eq
  rw [hstatus, statusAfter_append, records_append, round.opening.records]
  rfl

theorem fenced_round {renew : Bool} (hpast : Fenced ctx past) :
    Fenced ctx (play (ownStatus env) past (publishOnceRaft ctx renew)).1 := by
  obtain ⟨events, heq, hyields, hanswered⟩ :=
    play_yields (ownStatus env) past (publishOnceRaft ctx renew)
  rw [heq]
  rcases publishOnceRaft_yields hyields with ⟨hunfinished, _⟩ | ⟨round, rfl, hend⟩
  · exact fenced_of_withheld hpast hunfinished
  · have hfresh := round.fresh
    rw [round.status_eq hanswered] at hfresh
    exact round.fenced hpast hend hfresh

/-- In every run of rounds in Raft mode, an index record is sent only after all whitelist records of
its round were acknowledged by all connections they were sent to; it indexes the last snapshot that
was read, by the whitelists of the same round; and its version is at least that of every earlier
index record of the process. -/
theorem index_fenced_in_raft_mode (ctx : Context) (env : Oracle NodeCall NodeAnswer)
    (earlier : List Bool) (renew : Bool) :
    let start := (play (ownStatus env) [] (rounds (publishOnceRaft ctx) earlier)).1
    let history := (play (ownStatus env) start (publishOnceRaft ctx renew)).1
    (∀ before id value answer after,
      history = start ++ (before ++
        ⟨.addKey id (indexKey ctx.crypto ctx.network) value, answer⟩ :: after) →
      (∀ conn key record reply, ⟨.addKey conn key record, reply⟩ ∈ before ++ after →
        key ≠ indexKey ctx.crypto ctx.network →
          ∃ result, ⟨.addKey conn key record, .ok result⟩ ∈ before) ∧
      ∃ state, (snapshots before).getLast? = some state ∧
        IndexesSnapshot ctx state before value) ∧
    ∀ n m s t, n ≤ m → SendsIndexOf ctx history n s → SendsIndexOf ctx history m t →
      s.policyEpoch ≤ t.policyEpoch := by
  intro start history
  have hstart : Fenced ctx start := rounds_invariant (fun _ _ => fenced_round) earlier fenced_nil
  refine ⟨?_, (fenced_round hstart).ordered⟩
  intro before id value answer after hsplit
  obtain ⟨events, heq, hyields, _⟩ := play_yields (ownStatus env) start (publishOnceRaft ctx renew)
  obtain rfl : events = before ++
      ⟨.addKey id (indexKey ctx.crypto ctx.network) value, answer⟩ :: after :=
    List.append_cancel_left (heq.symm.trans hsplit)
  rcases publishOnceRaft_yields hyields with ⟨hunfinished, _⟩ | ⟨round, htrace, _⟩
  · exact absurd rfl (hunfinished _ (List.mem_append_right before List.mem_cons_self))
  · obtain ⟨early, late, hsends, rfl, rfl, rfl, _⟩ := round.index_send htrace.symm
    have hearly : early ⊆ round.sends := by
      rw [hsends]
      exact List.subset_append_left _ _
    refine ⟨?_, round.state, round.getLast_snapshots hearly, round.indexesSnapshot hearly⟩
    intro conn key record reply hsent hkey
    have hround : ⟨.addKey conn key record, reply⟩ ∈ round.trace := by
      rw [← htrace]
      rcases List.mem_append.mp hsent with hsent | hsent
      · exact List.mem_append_left _ hsent
      · exact List.mem_append_right _ (List.mem_cons_of_mem _ hsent)
    obtain ⟨_, result, hresult⟩ :=
      round.delivered.acknowledged (round.mem_lists_of_whitelist hround hkey)
    exact ⟨result, List.mem_append_left _ (round.mem_before_of_mem_lists hresult)⟩

end NexusAuth.Publisher
