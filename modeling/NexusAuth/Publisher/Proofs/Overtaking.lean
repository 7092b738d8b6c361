import NexusAuth.Publisher.Proofs.Reports

/-!
# The index and the whitelists on one connection

Every record of a round goes to the connections that are registered at that moment.
A connection that registers between two records of a round gets only the later ones,
and so may get an index without its whitelists.  One that was there for the first
record is there for all of them until it goes, since ids are never given twice.
-/

namespace NexusAuth.Publisher

open NexusAuth.Authority NexusAuth.Lib.Interaction NexusAuth.Raft

variable {ctx : Context} {env : Oracle NodeCall NodeAnswer} {past events : List NodeEvent}
  {schedule : Nat → List RegistryOp}

/-! ## Connections do not come back -/

namespace Registry

variable {r : Registry} {id : Nat}

theorem nextId_le_step (op : RegistryOp) : r.nextId ≤ (r.step op).nextId := by
  cases op with
  | register => exact Nat.le_succ r.nextId
  | unregister _ => exact le_rfl

theorem gone_step (hid : id < r.nextId) (hgone : id ∉ r.clients) (op : RegistryOp) :
    id ∉ (r.step op).clients := by
  cases op with
  | register =>
      have hne : id ≠ r.nextId := hid.ne
      simp [step, hgone, hne]
  | unregister _ => simp [step, hgone]

theorem known_step (h : ∀ id ∈ r.clients, id < r.nextId) (op : RegistryOp) :
    ∀ id ∈ (r.step op).clients, id < (r.step op).nextId := by
  intro id hid
  cases op with
  | register =>
      simp only [step, List.mem_append, List.mem_singleton] at hid ⊢
      rcases hid with hid | rfl
      · exact (h id hid).trans (Nat.lt_succ_self _)
      · exact Nat.lt_succ_self _
  | unregister other => exact h id (List.mem_of_mem_filter hid)

theorem nextId_le_steps (ops : List RegistryOp) : r.nextId ≤ (ops.foldl step r).nextId := by
  induction ops generalizing r with
  | nil => exact le_rfl
  | cons op ops ih => exact (nextId_le_step op).trans ih

theorem gone_steps (ops : List RegistryOp) (hid : id < r.nextId) (hgone : id ∉ r.clients) :
    id ∉ (ops.foldl step r).clients := by
  induction ops generalizing r with
  | nil => exact hgone
  | cons op ops ih => exact ih (hid.trans_le (nextId_le_step op)) (gone_step hid hgone op)

theorem known_steps (ops : List RegistryOp) (h : ∀ id ∈ r.clients, id < r.nextId) :
    ∀ id ∈ (ops.foldl step r).clients, id < (ops.foldl step r).nextId := by
  induction ops generalizing r with
  | nil => exact h
  | cons op ops ih => exact ih (known_step h op)

theorem known_before (n : Nat) :
    ∀ id ∈ (before schedule n).clients, id < (before schedule n).nextId := by
  induction n with
  | zero => exact known_steps _ (by simp [new])
  | succ n ih => exact known_steps _ ih

theorem nextId_before_mono {n m : Nat} (hle : n ≤ m) :
    (before schedule n).nextId ≤ (before schedule m).nextId := by
  induction hle with
  | refl => exact le_rfl
  | step _ ih => exact ih.trans (nextId_le_steps _)

theorem gone_before {n m : Nat} (hle : n ≤ m) (hid : id < (before schedule n).nextId)
    (hgone : id ∉ (before schedule n).clients) : id ∉ (before schedule m).clients := by
  induction hle with
  | refl => exact hgone
  | step hle ih => exact gone_steps _ (hid.trans_le (nextId_before_mono hle)) ih

theorem mem_between {n k m : Nat} (hnk : n ≤ k) (hkm : k ≤ m)
    (hearly : id ∈ (before schedule n).clients) (hlate : id ∈ (before schedule m).clients) :
    id ∈ (before schedule k).clients := by
  by_contra hgone
  have hknown : id < (before schedule k).nextId :=
    (known_before n id hearly).trans_le (nextId_before_mono hnk)
  exact gone_before hkm hknown hgone hlate

end Registry

/-! ## The lists that a round reads -/

theorem clients_of_answered {pre post : List NodeEvent} {ids : List Nat}
    (h : Answered (withRegistry schedule env) past (pre ++ ⟨.connections, ids⟩ :: post)) :
    ids = (Registry.before schedule (past.length + pre.length)).clients := by
  have hread : ids = (Registry.before schedule (past ++ pre).length).clients := h.answer_eq
  rwa [List.length_append] at hread

theorem Delivered.first {records : List Pending} (h : Delivered records events)
    (hsome : records ≠ []) : ∃ ids rest, events = ⟨.connections, ids⟩ :: rest := by
  cases h with
  | nil => exact absurd rfl hsome
  | cons _ _ _ => exact ⟨_, _, rfl⟩

theorem IndexRound.acknowledged_by (round : IndexRound ctx)
    (hanswered : Answered (withRegistry schedule env) past round.trace) {id : Nat}
    (hid : id ∈ round.ids)
    (hfirst : ∀ first, (connectionLists round.lists).head? = some first → id ∈ first)
    {record : Pending} (hmem : record ∈ round.pending) :
    ∃ result, ⟨.addKey id record.key record.value, .ok result⟩ ∈ round.lists := by
  obtain ⟨pre, ids, post, hlists, hacked⟩ := round.delivered.split hmem
  obtain ⟨ids₀, rest, hlists₀⟩ := round.delivered.first (List.ne_nil_of_mem hmem)
  -- the three lists stand in the trace after these events
  let opening := round.head ++ [⟨.authoritySeed, some round.seed⟩]
  let middle := opening ++ round.lists ++ round.between ++ [⟨.authoritySeed, some round.indexSeed⟩]
  have htrace : round.trace = middle ++
      ⟨.connections, round.ids⟩ :: (round.sends ++ round.tail) := by
    simp [trace, before, middle, opening]
  have hread₀ : ids₀ = (Registry.before schedule (past.length + opening.length)).clients := by
    apply clients_of_answered
    rw [htrace] at hanswered
    simpa [middle, hlists₀] using hanswered
  have hread : ids = (Registry.before schedule
      (past.length + (opening ++ pre).length)).clients := by
    apply clients_of_answered
    rw [htrace] at hanswered
    simpa [middle, hlists] using hanswered
  have hreadIndex : round.ids =
      (Registry.before schedule (past.length + middle.length)).clients := by
    apply clients_of_answered
    rwa [htrace] at hanswered
  apply hacked id
  rw [hread]
  refine Registry.mem_between ?_ ?_ (hread₀ ▸ hfirst ids₀ ?_) (hreadIndex ▸ hid)
  · simp
  · simp [middle, hlists]
  · simp [hlists₀, connectionLists]

def HasWhitelists (ctx : Context) (history : List NodeEvent) (id : Nat) (doc : IndexDoc) : Prop :=
  ∀ entry ∈ doc.services, ∃ key whitelist result,
    ⟨.addKey id key whitelist, .ok result⟩ ∈ history ∧
      contentHash ctx.crypto.toPrimitives whitelist = entry.hash ∧ whitelist.length = entry.length

/-- In every run of rounds with connections coming and going, an index record is sent only to
connections that have acknowledged all its whitelists, if these connections were registered when
the connections for the first record of the round were read. -/
theorem index_never_overtakes (ctx : Context) (env : Oracle NodeCall NodeAnswer)
    (schedule : Nat → List RegistryOp) (earlier : List Bool) (renew : Bool)
    (before after : List NodeEvent) (id : Nat) (value : Bytes)
    (answer : Except SidecarError AddKeyResult)
    (hsent :
      let start := (play (withRegistry schedule env) [] (rounds (publishOnce ctx) earlier)).1
      (play (withRegistry schedule env) start (publishOnce ctx renew)).1 =
        start ++ (before ++ ⟨.addKey id (indexKey ctx.crypto ctx.network) value, answer⟩ :: after))
    (hfirst : ∀ first, (connectionLists before).head? = some first → id ∈ first) :
    ∃ doc, IsIndexRecord ctx value doc ∧ HasWhitelists ctx before id doc := by
  obtain ⟨events, heq, hyields, hanswered⟩ := play_yields (withRegistry schedule env)
    (play (withRegistry schedule env) [] (rounds (publishOnce ctx) earlier)).1
    (publishOnce ctx renew)
  obtain rfl : events = before ++
      ⟨.addKey id (indexKey ctx.crypto ctx.network) value, answer⟩ :: after :=
    List.append_cancel_left (heq.symm.trans hsent)
  rcases publishOnce_yields hyields with ⟨hunfinished, _⟩ | ⟨round, htrace, _⟩
  · exact absurd rfl (hunfinished _ (List.mem_append_right before List.mem_cons_self))
  · obtain ⟨early, late, _, rfl, _, rfl, hid⟩ := round.index_send htrace.symm
    rw [htrace] at hanswered
    refine ⟨_, round.isIndexRecord, fun entry hentry => ?_⟩
    obtain ⟨record, hrecord, rfl⟩ := List.mem_map.mp hentry
    obtain ⟨service, _, hsigned⟩ :=
      exists_prepared_of_mem (prepareWhitelists_eq_ok round.prepared) hrecord
    have hlists : ∀ first, (connectionLists round.lists).head? = some first → id ∈ first := by
      intro first hhead
      apply hfirst
      simp [round.connectionLists_before, List.head?_append, hhead]
    obtain ⟨result, hresult⟩ := round.acknowledged_by hanswered hid hlists hrecord
    refine ⟨record.key, record.value, result, ?_, ?_, ?_⟩
    · exact List.mem_append_left _ (round.mem_before_of_mem_lists hresult)
    · rw [hsigned.entry]
    · rw [hsigned.entry]

/-! ## A connection that registers during a round -/

/-- A leader with one service without members; every record is taken. -/
def oneService : Oracle NodeCall NodeAnswer
  | _, .addKey _ key _ => .ok ⟨true, key⟩
  | _, .policySnapshot =>
      { PolicyState.new "net" with
        policyEpoch := 1, indexExpiresAt := 10, services := Std.ExtTreeMap.empty.insert "a" ⟨1, ∅⟩ }
  | past, question => idle past question

/-- Connection 1 registers at the start.  Connection 2 registers while the whitelist is sent, if
at all. -/
def arrivals (second : Bool) (n : Nat) : List RegistryOp :=
  if n = 0 then [.register] else if n = 10 ∧ second then [.register] else []

def arrivalRound (second : Bool) : List NodeEvent :=
  (play (withRegistry (arrivals second) oneService) [] (publishOnce sampleContext false)).1

def arrivalWhitelist : Bytes :=
  (Signer.signWhitelist sampleCrypto ⟨[], "net"⟩ "a" ⟨1, []⟩).toOption.getD []

def arrivalDoc : IndexDoc :=
  ⟨1, 10, [⟨"a", contentHash sampleCrypto.toPrimitives arrivalWhitelist, arrivalWhitelist.length⟩]⟩

def arrivalIndex : Bytes := (Signer.signIndex sampleCrypto ⟨[], "net"⟩ arrivalDoc).toOption.getD []

def recipients (events : List NodeEvent) : List Nat :=
  events.filterMap fun
    | ⟨.addKey id _ _, _⟩ => some id
    | _ => none

theorem isIndexRecord_arrivalIndex : IsIndexRecord sampleContext arrivalIndex arrivalDoc :=
  ⟨[], rfl⟩

theorem exists_split_of_question {history : List NodeEvent} {n : Nat} {question : NodeCall}
    (h : (history[n]?).map Event.question = some question) :
    ∃ answer, history = history.take n ++ ⟨question, answer⟩ :: history.drop (n + 1) := by
  obtain ⟨⟨question', answer⟩, hget, rfl⟩ := Option.map_eq_some_iff.mp h
  obtain ⟨hlt, heq⟩ := List.getElem?_eq_some_iff.mp hget
  refine ⟨answer, ?_⟩
  have hdrop : history.drop n = ⟨question', answer⟩ :: history.drop (n + 1) := by
    rw [← heq]
    exact List.drop_eq_getElem_cons hlt
  rw [← hdrop, List.take_append_drop]

/-- Connection 2 gets the index and none of its whitelists. -/
theorem index_overtakes_whitelists :
    ∃ before value answer after, arrivalRound true =
        before ++ ⟨.addKey 2 (indexKey sampleCrypto "net") value, answer⟩ :: after ∧
      IsIndexRecord sampleContext value arrivalDoc ∧
      ¬HasWhitelists sampleContext before 2 arrivalDoc := by
  have hquestion : ((arrivalRound true)[14]?).map Event.question =
      some (.addKey 2 (indexKey sampleCrypto "net") arrivalIndex) := rfl
  obtain ⟨answer, hsplit⟩ := exists_split_of_question hquestion
  refine ⟨_, _, answer, _, hsplit, isIndexRecord_arrivalIndex, fun hhas => ?_⟩
  obtain ⟨key, whitelist, result, hmem, _⟩ := hhas _ List.mem_cons_self
  have hnone : 2 ∉ recipients ((arrivalRound true).take 14) := by decide +kernel
  exact hnone (List.mem_filterMap.mpr ⟨_, hmem, rfl⟩)

/-- Without the second connection the index comes after its whitelist. -/
theorem index_never_overtakes_one_connection :
    ((arrivalRound false)[13]?).map Event.question =
        some (.addKey 1 (indexKey sampleCrypto "net") arrivalIndex) ∧
      ∃ doc, IsIndexRecord sampleContext arrivalIndex doc ∧
        HasWhitelists sampleContext ((arrivalRound false).take 13) 1 doc := by
  have hquestion : ((arrivalRound false)[13]?).map Event.question =
      some (.addKey 1 (indexKey sampleCrypto "net") arrivalIndex) := rfl
  obtain ⟨answer, hsplit⟩ := exists_split_of_question hquestion
  have hread : connectionLists ((arrivalRound false).take 13) = [[1], [1]] := by decide +kernel
  refine ⟨hquestion, index_never_overtakes sampleContext oneService (arrivals false) [] false
    ((arrivalRound false).take 13) ((arrivalRound false).drop 14) 1 arrivalIndex answer hsplit ?_⟩
  simp [hread]

end NexusAuth.Publisher
