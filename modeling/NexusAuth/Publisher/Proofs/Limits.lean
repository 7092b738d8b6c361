import NexusAuth.Lib.Runs
import NexusAuth.Publisher.Proofs.Publishable
import NexusAuth.Publisher.Proofs.Rounds

/-!
# The limits of records

`authority.rs` declares how many members a service may have, how many services an index may
name and how long a record may be, and no code reads these constants.  A policy keeps to them
only if what it is told does: the members of a service are always among the peers that were named
for it, and the services among the names that were created, so a budget for both that fits the
limits bounds every state of a run and every record that is published from it.

The length of a record is bounded by the weight of the CBOR item it encodes, which counts nine
bytes for the head of every item.
-/

namespace NexusAuth

open Std (ExtTreeMap ExtTreeSet)
open NexusAuth.Authority NexusAuth.Lib NexusAuth.Lib.Interaction NexusAuth.Lib.OrderedMap
open NexusAuth.Lib.Results

def maxDocBytes : Nat := 2 ^ 20

def maxMembers : Nat := 100000

def maxServices : Nat := 10000

/-! ## Lengths -/

namespace Cbor

mutual

/-- The most bytes an item takes: nine for its head, and its content. -/
def weight : Cbor → Nat
  | .uint _ | .bool _ | .null => 9
  | .text s => 9 + (utf8Bytes s).length
  | .bytes b => 9 + b.length
  | .array items => 9 + weightItems items
  | .map fields => 9 + weightFields fields

def weightItems : List Cbor → Nat
  | [] => 0
  | item :: items => weight item + weightItems items

def weightFields : List (String × Cbor) → Nat
  | [] => 0
  | (name, item) :: fields => 9 + (utf8Bytes name).length + weight item + weightFields fields

end

theorem weightItems_eq (items : List Cbor) : weightItems items = (items.map weight).sum := by
  induction items with
  | nil => rfl
  | cons item items ih => rw [weightItems, ih, List.map_cons, List.sum_cons]

theorem weight_octets (bytes : Bytes) : (octets bytes).weight = 9 + 9 * bytes.length := by
  rw [octets, weight, weightItems_eq]
  induction bytes with
  | nil => rfl
  | cons b bytes ih =>
      simp only [List.map_cons, List.sum_cons, List.length_cons, weight] at ih ⊢
      omega

end Cbor

/-- Encoders and signers as they are: CBOR heads have at most nine bytes, an Ed25519 signature
has 64 and a digest has 32. -/
structure Crypto.Sized (crypto : Crypto) : Prop where
  cbor_length : ∀ item bytes, crypto.cbor item = .ok bytes → bytes.length ≤ item.weight
  edSign_length : ∀ seed message, (crypto.edSign seed message).length = 64
  sha256_length : ∀ bytes, (crypto.sha256 bytes).length = 32

variable {crypto : Crypto} {signer : Signer} {value : Bytes}

/-- The most bytes of a record: the payload with its header, its signature and five heads. -/
def recordWeight (payload : Cbor) : Nat := 112 + payload.weight

theorem length_of_signPayload (hsized : crypto.Sized) {aad payload : Bytes}
    (h : signer.signPayload crypto aad payload = .ok value) :
    value.length ≤ 112 + payload.length := by
  obtain ⟨data, -, hvalue⟩ := bind_eq_ok.mp h
  have hlength := hsized.cbor_length _ _ (mapError_eq_ok.mp hvalue)
  have hsignature := hsized.edSign_length signer.seed data
  simp only [Cbor.weight, Cbor.weightItems, Cbor.weightFields, Signer.eddsaHeader, List.length_cons,
    List.length_nil, hsignature] at hlength
  omega

theorem length_of_signWhitelist (hsized : crypto.Sized) {service : String} {doc : WhitelistDoc}
    (h : signer.signWhitelist crypto service doc = .ok value) :
    value.length ≤ recordWeight doc.cbor := by
  obtain ⟨key, -, h⟩ := bind_eq_ok.mp h
  obtain ⟨payload, hpayload, hvalue⟩ := bind_eq_ok.mp h
  have hlength := hsized.cbor_length _ _ (mapError_eq_ok.mp hpayload)
  have hrecord := length_of_signPayload hsized hvalue
  unfold recordWeight
  omega

theorem length_of_signIndex (hsized : crypto.Sized) {doc : IndexDoc}
    (h : signer.signIndex crypto doc = .ok value) : value.length ≤ recordWeight doc.cbor := by
  obtain ⟨payload, hpayload, hvalue⟩ := bind_eq_ok.mp h
  have hlength := hsized.cbor_length _ _ (mapError_eq_ok.mp hpayload)
  have hrecord := length_of_signPayload hsized hvalue
  unfold recordWeight
  omega

/-! ## Weights of subsets -/

theorem sum_le_of_subset {α : Type} {xs ys : List α} (hnodup : xs.Nodup) (h : xs ⊆ ys)
    (f : α → Nat) : (xs.map f).sum ≤ (ys.map f).sum := by
  obtain ⟨zs, hperm, hsub⟩ := hnodup.subperm h
  rw [← (hperm.map f).sum_eq]
  exact (hsub.map f).sum_le_sum fun _ _ => Nat.zero_le _

def textWeight (s : String) : Nat := 9 + (utf8Bytes s).length

theorem weight_whitelist (doc : WhitelistDoc) :
    doc.cbor.weight = 59 + (doc.members.map textWeight).sum := by
  have hversion : (utf8Bytes "version").length = 7 := by decide +kernel
  have hmembers : (utf8Bytes "members").length = 7 := by decide +kernel
  have hweight : Cbor.weight ∘ Cbor.text = textWeight := by
    funext s
    rw [Function.comp_apply, Cbor.weight, textWeight]
  simp only [WhitelistDoc.cbor, Cbor.texts, Cbor.weight, Cbor.weightFields, Cbor.weightItems_eq,
    hversion, hmembers, List.map_map, hweight]
  omega

theorem weight_entry {entry : ServiceEntry} (hhash : entry.hash.length = 32) :
    entry.cbor.weight = 356 + textWeight entry.name := by
  have hname : (utf8Bytes "name").length = 4 := by decide +kernel
  have hhashName : (utf8Bytes "hash").length = 4 := by decide +kernel
  have hlength : (utf8Bytes "length").length = 6 := by decide +kernel
  simp only [ServiceEntry.cbor, Cbor.weight, Cbor.weightFields, Cbor.weight_octets, textWeight,
    hname, hhashName, hlength, hhash]
  omega

theorem weight_index {doc : IndexDoc} (hhash : ∀ entry ∈ doc.services, entry.hash.length = 32) :
    doc.cbor.weight =
      88 + ((doc.services.map ServiceEntry.name).map fun name => 356 + textWeight name).sum := by
  have hversion : (utf8Bytes "version").length = 7 := by decide +kernel
  have hexpires : (utf8Bytes "expires_at").length = 10 := by decide +kernel
  have hservices : (utf8Bytes "services").length = 8 := by decide +kernel
  have hweights : (doc.services.map ServiceEntry.cbor).map Cbor.weight =
      (doc.services.map ServiceEntry.name).map fun name => 356 + textWeight name := by
    rw [List.map_map, List.map_map]
    exact List.map_congr_left fun entry hentry => weight_entry (hhash entry hentry)
  simp only [IndexDoc.cbor, Cbor.weight, Cbor.weightFields, Cbor.weightItems_eq, hversion, hexpires,
    hservices, hweights]
  omega

/-! ## Budgets -/

/-- Names of services, and for each of them peers, whose records keep to the limits. -/
structure Budget where
  names : List String
  peers : String → List String
  services_le : names.length ≤ maxServices
  members_le : ∀ service ∈ names, (peers service).length ≤ maxMembers
  whitelist_le : ∀ service ∈ names,
    recordWeight (WhitelistDoc.cbor ⟨0, peers service⟩) ≤ maxDocBytes
  index_le : recordWeight
    (IndexDoc.cbor ⟨0, 0, names.map fun name => ⟨name, List.replicate 32 0, 0⟩⟩) ≤ maxDocBytes

def Budget.Covers (budget : Budget) (services : BTreeMap String ServiceState) : Prop :=
  ∀ (name : String) (state : ServiceState), services[name]? = some state →
    name ∈ budget.names ∧ ∀ p ∈ state.members, p ∈ budget.peers name

structure WithinLimits (services : BTreeMap String ServiceState) : Prop where
  services_le : services.size ≤ maxServices
  members_le : ∀ (name : String) (state : ServiceState), services[name]? = some state →
    state.members.size ≤ maxMembers

namespace Budget

variable {budget : Budget} {services : BTreeMap String ServiceState} {name : String}
  {state : ServiceState}

theorem Covers.insert (h : budget.Covers services) (hname : name ∈ budget.names)
    (hmembers : ∀ p ∈ state.members, p ∈ budget.peers name) :
    budget.Covers (services.insert name state) :=
  fun _ _ => forall_insert h ⟨hname, hmembers⟩

theorem Covers.erase (h : budget.Covers services) (name : String) :
    budget.Covers (services.erase name) :=
  fun other state hlive => h other state (getElem?_of_getElem?_erase hlive)

theorem covers_empty : budget.Covers ∅ := by
  intro name state hlive
  simp at hlive

theorem Covers.keys_subset (h : budget.Covers services) : services.keys ⊆ budget.names := by
  intro name hname
  obtain ⟨state, hlive⟩ := mem_support.mp (List.mem_toFinset.mpr hname)
  exact (h name state hlive).1

theorem nodup_toList (members : PeerSet) : members.toList.Nodup := by
  apply ExtTreeSet.distinct_toList.imp
  intro a b hne heq
  exact hne (compare_eq_iff_eq.mpr heq)

theorem Covers.members_subset (h : budget.Covers services) (hlive : services[name]? = some state) :
    state.members.toList ⊆ budget.peers name :=
  fun p hp => (h name state hlive).2 p (ExtTreeSet.mem_toList.mp hp)

theorem Covers.withinLimits (h : budget.Covers services) : WithinLimits services where
  services_le := by
    have hlength := (ExtTreeMap.nodup_keys.subperm h.keys_subset).length_le
    rw [ExtTreeMap.length_keys] at hlength
    exact hlength.trans budget.services_le
  members_le name state hlive := by
    have hlength := ((nodup_toList state.members).subperm (h.members_subset hlive)).length_le
    rw [ExtTreeSet.length_toList] at hlength
    exact hlength.trans (budget.members_le name (h name state hlive).1)

end Budget

/-! ## The policy state -/

namespace Raft

variable {prim : Primitives} {budget : Budget} {s t : PolicyState}

def PolicyCommand.Stays (budget : Budget) : PolicyCommand → Prop
  | .createService service peers =>
      service ∈ budget.names ∧ ∀ p ∈ peers, p ∈ budget.peers service
  | .addMembers service peers | .setMembers service peers => ∀ p ∈ peers, p ∈ budget.peers service
  | .admin _ _ _ _ command => command.Stays budget
  | _ => True

theorem MemberEdit.stays_of_leaves {edit : MemberEdit} {service : String} {members : PeerSet}
    {peers : List String} {p : String} (hstays : (edit.command service peers).Stays budget)
    (h : edit.Leaves members peers p) : p ∈ members ∨ p ∈ budget.peers service := by
  cases edit with
  | add => exact h.imp_right (hstays p)
  | remove => exact .inl h.1
  | set => exact .inr (hstays p h)

theorem covers_of_applyInner {cmd : PolicyCommand} {report : Report} (hstays : cmd.Stays budget)
    (hs : budget.Covers s.services) (h : s.applyInner prim cmd = .ok (t, report)) :
    budget.Covers t.services := by
  cases PolicyState.effect_of_applyInner h with
  | created hname hpeers hfresh =>
      exact hs.insert hstays.1 fun p hp => hstays.2 p (mem_collectPeers.mp hp)
  | deleted hlive => exact hs.erase _
  | kept hcmd hlive => exact hs
  | edited hcmd hlive hne =>
      obtain ⟨hname, hold⟩ := hs _ _ hlive
      obtain ⟨edit, peers, rfl, -, hleaves⟩ :=
        leaves_of_edit hcmd h hlive ExtTreeMap.getElem?_insert_self
      refine hs.insert hname fun p hp => ?_
      obtain hkept | hstay := MemberEdit.stays_of_leaves hstays (hleaves p hp)
      · exact hold p hkept
      · exact hstay
  | renewed => exact hs
  | issued huses hfresh => exact hs
  | consumed hrecord huses hpeer hexpires hused => exact hs

theorem PolicyCommand.Stays.inner {cmd : PolicyCommand} (h : cmd.Stays budget) :
    cmd.inner.Stays budget := by
  cases cmd with
  | admin requestId kid requestHash requestTs command => exact h
  | _ => exact h

theorem covers_applyCommandAt {cmd : PolicyCommand} (raftIndex : Nat) (hstays : cmd.Stays budget)
    (hs : budget.Covers s.services) :
    budget.Covers (s.applyCommandAt prim cmd raftIndex).1.services := by
  apply PolicyState.invariant_applyCommandAt (P := fun s => budget.Covers s.services)
  · rintro t u ⟨table, rfl⟩ ht
    exact ht
  · intro t report
    exact covers_of_applyInner hstays.inner hs
  · exact hs

theorem covers_after (prim : Primitives) (network : String) {log : List (PolicyCommand × Nat)}
    (hlog : ∀ entry ∈ log, entry.1.Stays budget) (k : Nat) :
    budget.Covers (PolicyState.after prim network log k).services := by
  apply PolicyState.invariant_after (P := fun s => budget.Covers s.services)
  · exact Budget.covers_empty
  · intro k hk hs
    rw [PolicyState.after_succ hk]
    exact covers_applyCommandAt _ (hlog _ (List.getElem_mem hk)) hs

end Raft

/-! ## The store -/

def Update.Stays (budget : Budget) (u : Update) : Prop :=
  u.deleted = false → u.service ∈ budget.names ∧ ∀ p ∈ u.members, p ∈ budget.peers u.service

namespace Store

variable {prim : Primitives} {budget : Budget} {s : Store}

def Op.Stays (budget : Budget) : Op → Prop
  | .createService service peers =>
      service ∈ budget.names ∧ ∀ p ∈ peers, p ∈ budget.peers service
  | .addMembers service peers | .setMembers service peers => ∀ p ∈ peers, p ∈ budget.peers service
  | .applyReplicated update => update.Stays budget
  | .mergeSnapshot snapshot => budget.Covers snapshot.services
  | _ => True

theorem covers_editMembers (io : SaveIo) {edit : PeerSet → List String → PeerSet × Bool}
    {service : String} {peers : List String}
    (hedit : ∀ members p, p ∈ (edit members peers).1 → p ∈ members ∨ p ∈ budget.peers service)
    (hs : budget.Covers s.services) :
    budget.Covers (s.editMembers prim io edit service peers).1.snapshot.services := by
  rw [snapshot_editMembers]
  unfold editMembers
  split
  · exact hs
  split
  · exact hs
  rename_i state hlive
  obtain ⟨hname, hold⟩ := hs _ _ hlive
  have hmembers : ∀ p ∈ (edit state.members peers).1, p ∈ budget.peers service :=
    fun p hp => (hedit state.members p hp).elim (hold p) id
  simp only [finishChange, ExtTreeMap.getElem?_insert_self]
  split
  · exact hs.insert hname hmembers
  · simp only [snapshot_save, insert_insert]
    exact hs.insert hname hmembers

theorem covers_place {u : Update} (hs : budget.Covers s.services) (hu : u.Stays budget) :
    budget.Covers (s.place u.service u.entry).services := by
  by_cases hdeleted : u.deleted = true
  · simp only [Update.entry, hdeleted, if_true, place]
    exact hs.erase _
  · obtain ⟨hname, hpeers⟩ := hu (by simpa using hdeleted)
    simp only [Update.entry, hdeleted, Bool.false_eq_true, if_false, place]
    exact hs.insert hname fun p hp => hpeers p (mem_collectPeers.mp hp)

theorem covers_mergeEntry {u : Update} {t : Store} {flag : Bool} (hs : budget.Covers s.services)
    (hu : u.Stays budget) (h : s.mergeEntry prim u = .ok (t, flag)) :
    budget.Covers t.services := by
  obtain ⟨-, rfl | ⟨-, rfl⟩⟩ := mergeEntry_cases h
  · exact hs
  · exact covers_place hs hu

theorem covers_mergeEntries (prim : Primitives) (changed : Bool) {us : List Update}
    (hs : budget.Covers s.services) (hus : ∀ u ∈ us, u.Stays budget) :
    budget.Covers (mergeEntries prim s changed us).1.services := by
  induction us generalizing s changed with
  | nil => exact hs
  | cons u us ih =>
      obtain ⟨hu, hus⟩ := List.forall_mem_cons.mp hus
      rw [mergeEntries]
      split
      · exact hs
      · rename_i t flag hmerge
        exact ih _ (covers_mergeEntry hs hu hmerge) hus

theorem stays_updates {snap : StoreSnapshot} (h : budget.Covers snap.services) :
    ∀ u ∈ snap.updates, u.Stays budget := by
  intro u hu hdeleted
  obtain ⟨state, hlive, heq⟩ | ⟨version, -, heq⟩ := mem_updates.mp hu
  · obtain ⟨hname, hpeers⟩ := h u.service state hlive
    refine ⟨hname, fun p hp => hpeers p ?_⟩
    rw [heq] at hp
    exact ExtTreeSet.mem_toList.mp hp
  · rw [heq] at hdeleted
    cases hdeleted

theorem covers_createService (io : SaveIo) {service : String} {peers : List String}
    (hname : service ∈ budget.names) (hpeers : ∀ p ∈ peers, p ∈ budget.peers service)
    (hs : budget.Covers s.services) :
    budget.Covers (s.createService prim io service peers).1.snapshot.services := by
  unfold createService
  split
  · exact hs
  split
  · exact hs
  split
  · exact hs
  rw [snapshot_saveThen]
  exact hs.insert hname fun p hp => hpeers p (mem_collectPeers.mp hp)

theorem covers_deleteService (io : SaveIo) (service : String) (hs : budget.Covers s.services) :
    budget.Covers (s.deleteService io service).1.snapshot.services := by
  unfold deleteService
  split
  · exact hs
  rw [snapshot_saveThen]
  exact hs.erase _

/-- A call stays in the budget, whatever it returns. -/
theorem covers_exec (io : SaveIo) {op : Op} (hop : op.Stays budget)
    (hs : budget.Covers s.services) :
    budget.Covers (s.exec prim io op).1.services := by
  cases op with
  | createService service peers => exact covers_createService io hop.1 hop.2 hs
  | deleteService service => exact covers_deleteService io service hs
  | addMembers service peers =>
      apply covers_editMembers io _ hs
      exact fun members p hp => (insertPeers_staysWithin members peers p hp).imp_right (hop p)
  | removeMembers service peers =>
      apply covers_editMembers io _ hs
      exact fun members p hp => .inl (mem_removePeers.mp hp).1
  | setMembers service peers =>
      apply covers_editMembers io _ hs
      exact fun members p hp => (replacePeers_staysWithin members peers p hp).imp_right (hop p)
  | bumpIndexVersion =>
      change budget.Covers (s.exec prim io _).1.snapshot.services
      simp only [exec, bumpIndexVersion, snapshot_save]
      exact hs
  | applyReplicated u =>
      change budget.Covers (s.applyReplicated prim io u).1.snapshot.services
      rw [snapshot_applyReplicated]
      exact covers_mergeEntries prim false hs (List.forall_mem_singleton.mpr hop)
  | mergeSnapshot snap =>
      change budget.Covers (s.mergeSnapshot prim io snap).1.snapshot.services
      rw [snapshot_mergeSnapshot]
      exact covers_mergeEntries prim false hs (stays_updates hop)

theorem covers_storeAt (prim : Primitives) {calls : List (SaveIo × Op)}
    (hs : budget.Covers s.services) (hcalls : ∀ call ∈ calls, call.2.Stays budget) (k : Nat) :
    budget.Covers (storeAt prim s calls k).services := by
  apply Runs.invariant (P := fun s : Store => budget.Covers s.services) hs
  intro k hk h
  exact covers_exec _ (hcalls _ (List.getElem_mem hk)) h

end Store

/-! ## Records -/

namespace Publisher

variable {ctx : Context} {budget : Budget} {services : BTreeMap String ServiceState}

def SmallRecord : NodeCall → Prop
  | .addKey _ _ value => value.length ≤ maxDocBytes
  | _ => True

theorem recordWeight_whitelist_le {name : String} {state : ServiceState}
    (h : budget.Covers services) (hlive : services[name]? = some state) (version : Nat) :
    recordWeight (WhitelistDoc.cbor ⟨version, state.members.toList⟩) ≤ maxDocBytes := by
  have hsum := sum_le_of_subset (Budget.nodup_toList state.members)
    (h.members_subset hlive) textWeight
  have hbudget := budget.whitelist_le name (h name state hlive).1
  simp only [recordWeight, weight_whitelist] at hbudget ⊢
  omega

theorem small_whitelists (hsized : ctx.crypto.Sized) (h : budget.Covers services) {signer : Signer}
    {pending : List Pending}
    (hpending : prepareWhitelists ctx.crypto signer (serviceRows services) = .ok pending) :
    ∀ record ∈ pending, record.value.length ≤ maxDocBytes := by
  intro record hmem
  obtain ⟨row, hrow, hprepared⟩ := exists_prepared_of_mem (prepareWhitelists_eq_ok hpending) hmem
  obtain ⟨state, hlive, -, hmembers⟩ := mem_serviceRows hrow
  have hlength := length_of_signWhitelist hsized hprepared.value
  rw [hmembers] at hlength
  exact hlength.trans (recordWeight_whitelist_le h hlive row.version)

theorem small_index (hsized : ctx.crypto.Sized) (h : budget.Covers services) {signer : Signer}
    {pending : List Pending} {version expiresAt : Nat} {value : Bytes}
    (hpending : prepareWhitelists ctx.crypto signer (serviceRows services) = .ok pending)
    {signer' : Signer} (hvalue : signer'.signIndex ctx.crypto
      ⟨version, expiresAt, pending.map Pending.entry⟩ = .ok value) :
    value.length ≤ maxDocBytes := by
  have hprepared := prepareWhitelists_eq_ok hpending
  have hhash : ∀ entry ∈ pending.map Pending.entry, entry.hash.length = 32 := by
    intro entry hentry
    obtain ⟨record, hmem, rfl⟩ := List.mem_map.mp hentry
    obtain ⟨row, -, hrecord⟩ := exists_prepared_of_mem hprepared hmem
    rw [hrecord.entry]
    exact hsized.sha256_length _
  have hnames : (pending.map Pending.entry).map ServiceEntry.name = services.keys :=
    (names_of_prepared hprepared).trans (names_serviceRows services)
  have hsum := sum_le_of_subset ExtTreeMap.nodup_keys h.keys_subset fun name =>
    356 + textWeight name
  have hbudget := budget.index_le
  have hlength := length_of_signIndex hsized hvalue
  rw [recordWeight, weight_index hhash, hnames] at hlength
  rw [recordWeight, weight_index (by simp)] at hbudget
  simp only [List.map_map, Function.comp_def] at hbudget
  omega

structure PublishesSmall (ctx : Context) (services : BTreeMap String ServiceState) : Prop where
  whitelists : Asks SmallRecord (publishWhitelists ctx (serviceRows services))
  index : ∀ events entries,
    Yields (publishWhitelists ctx (serviceRows services)) events (.ok entries) →
      ∀ version expiresAt, Asks SmallRecord (publishIndex ctx version expiresAt entries)

theorem publishesSmall_of_covers (hsized : ctx.crypto.Sized) (h : budget.Covers services) :
    PublishesSmall ctx services where
  whitelists := asks_publishWhitelists_of trivial trivial fun _ _ hpending record hmem _ =>
    small_whitelists hsized h hpending record hmem
  index events entries hyields version expiresAt := by
    obtain ⟨_, _, _, _, hok⟩ := publishWhitelists_yields hyields
    obtain ⟨seed, pending, -, hpending, -, rfl⟩ := hok entries rfl
    exact asks_publishIndex_of trivial trivial fun _ _ hvalue _ _ =>
      small_index hsized h hpending hvalue

end Publisher

/-- If all that commands, local calls and merges name fits a budget within the limits, then every
policy state and every store keeps to the limits, and so does every record that is published from
one of them. -/
theorem record_limits_hold_in_budget (prim : Primitives) (ctx : Context) (budget : Budget)
    (hsized : ctx.crypto.Sized) :
    (∀ (network : String) (log : List (Raft.PolicyCommand × Nat)) (k : Nat),
        (∀ entry ∈ log, entry.1.Stays budget) →
        WithinLimits (Raft.PolicyState.after prim network log k).services ∧
          Publisher.PublishesSmall ctx (Raft.PolicyState.after prim network log k).services) ∧
      ∀ (start : Store) (calls : List (SaveIo × Store.Op)) (k : Nat),
        budget.Covers start.services → (∀ call ∈ calls, call.2.Stays budget) →
        WithinLimits (Store.storeAt prim start calls k).services ∧
          Publisher.PublishesSmall ctx (Store.storeAt prim start calls k).services := by
  constructor
  · intro network log k hlog
    have hcovers := Raft.covers_after prim network hlog k
    exact ⟨hcovers.withinLimits, Publisher.publishesSmall_of_covers hsized hcovers⟩
  · intro start calls k hstart hcalls
    have hcovers := Store.covers_storeAt prim hstart hcalls k
    exact ⟨hcovers.withinLimits, Publisher.publishesSmall_of_covers hsized hcovers⟩

/-! ## Instances -/

namespace Cbor

mutual

theorem length_sample_le : ∀ item : Cbor, item.sample.length ≤ item.weight
  | .uint n => by simp [sample, weight]
  | .bool b => by simp [sample, weight]
  | .null => by simp [sample, weight]
  | .text s => by
      simp only [sample, weight, List.length_cons, List.length_append, length_beBytes]
      omega
  | .bytes b => by
      simp only [sample, weight, List.length_cons, List.length_append, length_beBytes]
      omega
  | .array items => by
      have hitems := length_sampleItems_le items
      simp only [sample, weight, List.length_cons, List.length_append, length_beBytes]
      omega
  | .map fields => by
      have hfields := length_sampleFields_le fields
      simp only [sample, weight, List.length_cons, List.length_append, length_beBytes]
      omega

theorem length_sampleItems_le : ∀ items : List Cbor, (sampleItems items).length ≤ weightItems items
  | [] => Nat.zero_le _
  | item :: items => by
      have hitem := length_sample_le item
      have hitems := length_sampleItems_le items
      simp only [sampleItems, weightItems, List.length_append]
      omega

theorem length_sampleFields_le : ∀ fields : List (String × Cbor),
    (sampleFields fields).length ≤ weightFields fields
  | [] => Nat.zero_le _
  | (name, item) :: fields => by
      have hitem := length_sample_le item
      have hfields := length_sampleFields_le fields
      simp only [sampleFields, weightFields, List.length_append, length_beBytes]
      omega

end

theorem length_sampleItems_texts (texts : List String) :
    (sampleItems (texts.map .text)).length = (texts.map textWeight).sum := by
  induction texts with
  | nil => rfl
  | cons text texts ih =>
      simp only [List.map_cons, sampleItems, sample, List.length_cons, List.length_append, ih,
        length_beBytes, List.sum_cons, textWeight]

end Cbor

def sizedCrypto : Crypto :=
  { sampleCrypto with
    sha256 := fun _ => List.replicate 32 0
    edSign := fun _ _ => List.replicate 64 0 }

theorem sizedCrypto_sized : sizedCrypto.Sized where
  cbor_length item bytes h := by
    obtain rfl := Except.ok.inj h
    exact item.length_sample_le
  edSign_length _ _ := List.length_replicate
  sha256_length _ := List.length_replicate

def sizedContext : Context := { sampleContext with crypto := sizedCrypto }

def twoPeers : Budget where
  names := ["svc"]
  peers _ := [peerA, peerB]
  services_le := by decide
  members_le _ _ := by decide
  whitelist_le _ _ := by decide +kernel
  index_le := by decide +kernel

/-- A service is created and edited through Raft, and merged into an empty store. -/
def twoPeersLog : List (Raft.PolicyCommand × Nat) :=
  [(.createService "svc" [peerA], 1), (.admin "r" "root" "h" 0 (.addMembers "svc" [peerB]), 2)]

def twoPeersCalls : List (SaveIo × Store.Op) :=
  [(Store.saves, .applyReplicated ⟨"svc", 3, [peerA, peerB], 4, false⟩),
    (Store.saves, .removeMembers "svc" [peerA])]

theorem twoPeersLog_stays : ∀ entry ∈ twoPeersLog, entry.1.Stays twoPeers := by
  simp [twoPeersLog, Raft.PolicyCommand.Stays, twoPeers]

theorem twoPeersCalls_stays : ∀ call ∈ twoPeersCalls, call.2.Stays twoPeers := by
  simp [twoPeersCalls, Store.Op.Stays, Update.Stays, twoPeers]

theorem record_limits_hold_for_two_peers :
    WithinLimits (Raft.PolicyState.after samplePrimitives "net" twoPeersLog 2).services ∧
      Publisher.PublishesSmall sizedContext
        (Store.storeAt samplePrimitives Store.emptyStore twoPeersCalls 2).services := by
  obtain ⟨hraft, hstore⟩ :=
    record_limits_hold_in_budget samplePrimitives sizedContext twoPeers sizedCrypto_sized
  exact ⟨(hraft "net" twoPeersLog 2 twoPeersLog_stays).1,
    (hstore Store.emptyStore twoPeersCalls 2 Budget.covers_empty twoPeersCalls_stays).2⟩

/-! ## More peers than a record can hold -/

def base58 : List Char :=
  "123456789ABCDEFGHJKLMNPQRSTUVWXYZabcdefghijkmnopqrstuvwxyz".toList

/-- The form of the id of an Ed25519 key: 36 bytes inline, in base 58. -/
def hasPeerForm (s : String) : Bool :=
  "12D3KooW".toList.isPrefixOf s.toList && s.toList.length == 52 && s.toList.all base58.contains

def formedPeers : Primitives := { samplePrimitives with parsesAsPeerId := hasPeerForm }

/-- The digits of the `i`-th peer, which are those of `i` in base 2. -/
def peerDigits (i : Nat) : List Char :=
  (List.range 44).map fun k => if i.testBit k then '2' else '1'

def peerNo (i : Nat) : String := "12D3KooW" ++ String.ofList (peerDigits i)

def manyPeers (n : Nat) : List String := (List.range n).map peerNo

theorem hasPeerForm_peerNo (i : Nat) : hasPeerForm (peerNo i) = true := by
  have hprefix : "12D3KooW".toList.all base58.contains = true := by decide +kernel
  have hdigits : (peerDigits i).all base58.contains = true := by
    refine List.all_eq_true.mpr fun digit hdigit => ?_
    obtain ⟨k, -, rfl⟩ := List.mem_map.mp hdigit
    split <;> decide +kernel
  have hlength : "12D3KooW".toList.length = 8 := by decide +kernel
  simp only [hasPeerForm, peerNo, String.toList_append, String.toList_ofList, List.all_append,
    hprefix, hdigits, List.length_append, hlength, Bool.and_true, Bool.and_eq_true, beq_iff_eq,
    List.isPrefixOf_iff_prefix]
  exact ⟨List.prefix_append _ _, by simp [peerDigits]⟩

theorem peerNo_inj {i j : Nat} (hi : i < 2 ^ 44) (hj : j < 2 ^ 44) (h : peerNo i = peerNo j) :
    i = j := by
  have hdigits : peerDigits i = peerDigits j :=
    String.ofList_injective ((String.append_right_inj "12D3KooW").mp h)
  refine Nat.eq_of_testBit_eq fun k => ?_
  by_cases hk : k < 44
  · have hbit := List.map_inj_left.mp hdigits k (List.mem_range.mpr hk)
    cases hik : i.testBit k <;> cases hjk : j.testBit k <;> simp [hik, hjk] at hbit ⊢
  · have hpow : 2 ^ 44 ≤ 2 ^ k := Nat.pow_le_pow_right Nat.two_pos (Nat.le_of_not_lt hk)
    rw [Nat.testBit_lt_two_pow (hi.trans_le hpow), Nat.testBit_lt_two_pow (hj.trans_le hpow)]

theorem size_collectPeers_manyPeers {n : Nat} (hn : n ≤ 2 ^ 44) :
    (collectPeers (manyPeers n)).size = n := by
  have hdistinct : (manyPeers n).Pairwise fun a b => ¬compare a b = .eq := by
    have hnodup : (manyPeers n).Nodup := by
      refine List.Nodup.map_on (fun i hi j hj => ?_) List.nodup_range
      exact peerNo_inj ((List.mem_range.mp hi).trans_le hn) ((List.mem_range.mp hj).trans_le hn)
    apply hnodup.imp
    intro a b hne heq
    exact hne (compare_eq_iff_eq.mp heq)
  rw [collectPeers, ExtTreeSet.size_ofList hdistinct, manyPeers, List.length_map, List.length_range]

theorem isValidPeerId_of_mem_manyPeers {n : Nat} {p : String} (h : p ∈ manyPeers n) :
    isValidPeerId formedPeers p = true := by
  obtain ⟨i, -, rfl⟩ := List.mem_map.mp h
  exact hasPeerForm_peerNo i

def createdServices (peers : List String) : BTreeMap String ServiceState :=
  (∅ : BTreeMap String ServiceState).insert "svc" ⟨1, collectPeers peers⟩

theorem services_after_create (network : String) {peers : List String}
    (h : ∀ p ∈ peers, isValidPeerId formedPeers p = true) :
    (Raft.PolicyState.after formedPeers network [(.createService "svc" peers, 1)] 1).services =
      createdServices peers := by
  have hpeers : Raft.validatePeers formedPeers peers = .ok () :=
    validatePeersWith_eq_ok_iff.mpr h
  have hname : isValidServiceName "svc" = true := by decide +kernel
  rw [Raft.PolicyState.after_succ Nat.one_pos]
  simp [Raft.PolicyState.applyCommandAt, Raft.PolicyState.applyInner,
    Raft.PolicyState.createService, hpeers, hname, Raft.PolicyState.new, createdServices]

theorem services_storeAt_create {peers : List String}
    (h : ∀ p ∈ peers, isValidPeerId formedPeers p = true) :
    (Store.storeAt formedPeers Store.emptyStore
      [(Store.saves, .createService "svc" peers)] 1).services = createdServices peers := by
  have hpeers : validatePeers formedPeers peers = .ok () :=
    validatePeersWith_eq_ok_iff.mpr h
  have hname : isValidServiceName "svc" = true := by decide +kernel
  rw [Store.storeAt, Runs.stateAt_succ Nat.one_pos]
  simp [Store.exec, Store.createService, hpeers, hname, Store.saveThen, Store.save, Store.saves,
    Store.emptyStore, createdServices]

theorem serviceRows_created (peers : List String) :
    Publisher.serviceRows (createdServices peers) = [⟨"svc", 1, (collectPeers peers).toList⟩] := by
  have hlength : (createdServices peers).toList.length = 1 := by
    rw [ExtTreeMap.length_toList, createdServices, ExtTreeMap.size_insert]
    simp
  obtain ⟨entry, hentry⟩ := List.length_eq_one_iff.mp hlength
  have hmem : ("svc", ⟨1, collectPeers peers⟩) ∈ (createdServices peers).toList :=
    ExtTreeMap.mem_toList_iff_getElem?_eq_some.mpr ExtTreeMap.getElem?_insert_self
  rw [hentry, List.mem_singleton] at hmem
  rw [Publisher.serviceRows, hentry, ← hmem]
  rfl

namespace Publisher

theorem first_record_of_asks {P : NodeCall → Prop} {ctx : Context} {rows : List ServiceRow}
    {seed : Bytes} {signer : Signer} {record : Pending} {records : List Pending}
    (h : Asks P (publishWhitelists ctx rows))
    (hsigner : Signer.fromSeed seed ctx.network = .ok signer)
    (hprepare : prepareWhitelists ctx.crypto signer rows = .ok (record :: records)) (conn : Nat) :
    P (.addKey conn record.key record.value) := by
  unfold publishWhitelists Context.authority at h
  have hsign := h.2 (some seed)
  simp only [Prog.pure_def, Prog.bind, hsigner, Except.toOption, hprepare] at hsign
  -- the seed is there and the records are signed, so the first one is on its way
  exact (hsign.2 [conn]).1

theorem sum_le_signWhitelist {signer : Signer} {service : String} {doc : WhitelistDoc}
    {value : Bytes} (h : signer.signWhitelist sizedCrypto service doc = .ok value) :
    (doc.members.map textWeight).sum ≤ value.length := by
  obtain ⟨key, -, h⟩ := bind_eq_ok.mp h
  obtain ⟨payload, hpayload, h⟩ := bind_eq_ok.mp h
  obtain ⟨data, -, hvalue⟩ := bind_eq_ok.mp h
  obtain rfl := Except.ok.inj (mapError_eq_ok.mp hpayload)
  obtain rfl := Except.ok.inj (mapError_eq_ok.mp hvalue)
  have hmembers := Cbor.length_sampleItems_texts doc.members
  simp only [WhitelistDoc.cbor, Cbor.texts, Cbor.sample, Cbor.sampleItems, Cbor.sampleFields,
    List.length_cons, List.length_append]
  omega

theorem prepares_long_record (signer : Signer) (members : List String) :
    ∃ record, prepareWhitelists sizedCrypto signer [⟨"svc", 1, members⟩] = .ok [record] ∧
      (members.map textWeight).sum ≤ record.value.length := by
  have hname : isValidServiceName "svc" = true := by decide +kernel
  have hkey : signer.serviceKey sizedCrypto "svc" =
      .ok (keyPath sizedCrypto signer.network "svc") := serviceKey_eq_ok.mpr ⟨hname, rfl⟩
  have hsign : ∃ value, signer.signWhitelist sizedCrypto "svc" ⟨1, members⟩ = .ok value := by
    rw [Signer.signWhitelist, hkey]
    exact ⟨_, rfl⟩
  obtain ⟨value, hvalue⟩ := hsign
  have hprepare : ∃ entry key,
      prepareWhitelists sizedCrypto signer [⟨"svc", 1, members⟩] = .ok [⟨entry, key, value⟩] := by
    rw [prepareWhitelists, hvalue, hkey]
    exact ⟨_, _, rfl⟩
  obtain ⟨entry, key, hrecord⟩ := hprepare
  exact ⟨_, hrecord, sum_le_signWhitelist hvalue⟩

end Publisher

theorem fromSeed_sizedContext : Signer.fromSeed [] sizedContext.network = .ok ⟨[], "net"⟩ := by
  have hname : isValidNetworkName "net" = true := by decide +kernel
  change Signer.fromSeed [] "net" = _
  simp [Signer.fromSeed, hname]

theorem textWeight_of_mem_manyPeers {n : Nat} {p : String} (h : p ∈ manyPeers n) :
    13 ≤ textWeight p := by
  obtain ⟨i, -, rfl⟩ := List.mem_map.mp h
  have hpeer : (utf8Bytes "12D3KooW").length = 8 := by decide +kernel
  rw [textWeight, peerNo, utf8Bytes_append, List.length_append, hpeer]
  omega

theorem created_exceeds (peers : List String) (h : maxMembers < (collectPeers peers).size)
    (hpeers : ∀ p ∈ peers, 13 ≤ textWeight p) :
    ¬WithinLimits (createdServices peers) ∧
      ¬Asks Publisher.SmallRecord (Publisher.publishWhitelists sizedContext
        (Publisher.serviceRows (createdServices peers))) := by
  constructor
  · intro hwithin
    have hmembers := hwithin.members_le "svc" _ ExtTreeMap.getElem?_insert_self
    exact absurd hmembers (Nat.not_le_of_lt h)
  · intro hasks
    rw [serviceRows_created] at hasks
    obtain ⟨record, hprepare, hlength⟩ :=
      Publisher.prepares_long_record ⟨[], "net"⟩ (collectPeers peers).toList
    have hsmall : record.value.length ≤ maxDocBytes :=
      Publisher.first_record_of_asks hasks fromSeed_sizedContext hprepare 0
    have hsum : (collectPeers peers).toList.length * 13 ≤
        ((collectPeers peers).toList.map textWeight).sum := by
      rw [← List.length_map textWeight, ← smul_eq_mul]
      apply List.card_nsmul_le_sum
      intro weight hweight
      obtain ⟨p, hp, rfl⟩ := List.mem_map.mp hweight
      exact hpeers p (mem_collectPeers.mp (ExtTreeSet.mem_toList.mp hp))
    rw [ExtTreeSet.length_toList] at hsum
    unfold maxMembers at h
    unfold maxDocBytes at hsmall
    omega

/-- One command creates a service with more members than the limit, in the replicated policy and
in a store, and its whitelist is longer than the limit when it is handed to a connection. -/
theorem created_service_exceeds_limits :
    let peers := manyPeers (maxMembers + 1)
    let policy :=
      (Raft.PolicyState.after formedPeers "net" [(.createService "svc" peers, 1)] 1).services
    let store := (Store.storeAt formedPeers Store.emptyStore
      [(Store.saves, .createService "svc" peers)] 1).services
    ¬WithinLimits policy ∧ ¬WithinLimits store ∧
      ¬Asks Publisher.SmallRecord
        (Publisher.publishWhitelists sizedContext (Publisher.serviceRows policy)) := by
  have hsize : (collectPeers (manyPeers (maxMembers + 1))).size = maxMembers + 1 :=
    size_collectPeers_manyPeers (by decide)
  have hvalid : ∀ p ∈ manyPeers (maxMembers + 1), isValidPeerId formedPeers p = true :=
    fun _ => isValidPeerId_of_mem_manyPeers
  have hpeers : ∀ p ∈ manyPeers (maxMembers + 1), 13 ≤ textWeight p :=
    fun _ => textWeight_of_mem_manyPeers
  generalize manyPeers (maxMembers + 1) = peers at hsize hvalid hpeers ⊢
  obtain ⟨hlimits, hrecord⟩ := created_exceeds peers (by omega) hpeers
  dsimp only
  rw [services_after_create "net" hvalid, services_storeAt_create hvalid]
  exact ⟨hlimits, hlimits, hrecord⟩

end NexusAuth
