import NexusAuth.Raft.Cluster
import NexusAuth.Raft.Proofs.Effects

/-!
# What a prefix of the log amounts to, and what transactions write

`specAt k` is the state after the first `k` entries, computed from the log alone.
`foldl_applyEntry` relates the loop of `apply` to it.  The second half inverts the
transactions: what the tables hold after a commit, and that a file with an applied
id opens to what was persisted last.
-/

namespace NexusAuth.Raft

open Std (ExtTreeMap)
open NexusAuth.Authority NexusAuth.Lib NexusAuth.Lib.OrderedMap NexusAuth.Lib.Results

/-! ## The specification -/

def Entry.command? (entry : Entry) : Option (PolicyCommand × Nat) :=
  match entry.payload with
  | .normal command => some (command, entry.logId.index)
  | _ => none

def Entry.membership? (entry : Entry) : Option StoredMembership :=
  match entry.payload with
  | .membership membership => some ⟨some entry.logId, membership⟩
  | _ => none

variable {Bytes : Type}

namespace Setting

/-- The fold of `apply_command_at` over the first `k` entries. -/
def policyAt (setting : Setting Bytes) (k : Nat) : PolicyState :=
  ((setting.log.take k).filterMap Entry.command?).foldl
    (fun s command => (s.applyCommandAt setting.prim command.1 command.2).1)
    (.new setting.network)

def membershipAt (setting : Setting Bytes) (k : Nat) : StoredMembership :=
  (((setting.log.take k).filterMap Entry.membership?).getLast?).getD .empty

def idAt (setting : Setting Bytes) : Nat → Option LogId
  | 0 => none
  | k + 1 => setting.log[k]?.map Entry.logId

def specAt (setting : Setting Bytes) (k : Nat) : SmInner :=
  ⟨setting.policyAt k, setting.idAt k, setting.membershipAt k⟩

def respond (setting : Setting Bytes) (s : PolicyState) (entry : Entry) : PolicyResult :=
  match entry.payload with
  | .blank => .applied none none s.policyEpoch false
  | .normal command => (s.applyCommandAt setting.prim command entry.logId.index).2
  | .membership _ => .applied none none s.policyEpoch true

def responseAt (setting : Setting Bytes) (j : Nat) : Option PolicyResult :=
  setting.log[j]?.map (setting.respond (setting.policyAt j))

def Increasing (setting : Setting Bytes) : Prop :=
  setting.log.Pairwise fun a b => a.logId.index < b.logId.index

instance (setting : Setting Bytes) : Decidable setting.Increasing :=
  inferInstanceAs (Decidable (setting.log.Pairwise fun a b => a.logId.index < b.logId.index))

variable {setting : Setting Bytes}

theorem take_succ {k : Nat} (hk : k < setting.log.length) :
    setting.log.take (k + 1) = setting.log.take k ++ [setting.log[k]] := by
  rw [List.take_add_one, List.getElem?_eq_getElem hk, Option.toList_some]

theorem idAt_succ {k : Nat} (hk : k < setting.log.length) :
    setting.idAt (k + 1) = some setting.log[k].logId := by
  rw [idAt, List.getElem?_eq_getElem hk, Option.map_some]

theorem idAt_ne_none {k : Nat} (hpos : 0 < k) (hk : k ≤ setting.log.length) :
    setting.idAt k ≠ none := by
  cases k with
  | zero => omega
  | succ k =>
      rw [idAt_succ (by omega)]
      simp

theorem idAt_injective (hlog : setting.Increasing) {i j : Nat} (hi : i ≤ setting.log.length)
    (hj : j ≤ setting.log.length) (h : setting.idAt i = setting.idAt j) : i = j := by
  cases i with
  | zero =>
      cases j with
      | zero => rfl
      | succ j => rw [idAt_succ (by omega)] at h; cases h
  | succ i =>
      cases j with
      | zero => rw [idAt_succ (by omega)] at h; cases h
      | succ j =>
          rw [idAt_succ (by omega), idAt_succ (by omega), Option.some.injEq] at h
          have hindex : setting.log[i].logId.index = setting.log[j].logId.index := by rw [h]
          have horder := List.pairwise_iff_getElem.mp hlog
          rcases Nat.lt_trichotomy i j with hij | hij | hij
          · have := horder i j (by omega) (by omega) hij
            omega
          · omega
          · have := horder j i (by omega) (by omega) hij
            omega

theorem position_idAt (hlog : setting.Increasing) {k : Nat} (hk : k ≤ setting.log.length) :
    position setting.log (setting.idAt k) = some k := by
  cases k with
  | zero => rfl
  | succ k =>
      rw [idAt_succ (by omega), position]
      have hfind : (setting.log.findIdx? fun entry => entry.logId = setting.log[k].logId) =
          some k := by
        rw [List.findIdx?_eq_some_iff_getElem]
        refine ⟨by omega, by simp, ?_⟩
        intro j hj
        have hlt := List.pairwise_iff_getElem.mp hlog j k (by omega) (by omega) hj
        simp only [decide_eq_true_eq]
        intro heq
        rw [heq] at hlt
        omega
      rw [hfind, Option.map_some]

/-! ## Replaying a batch -/

theorem policyAt_succ {k : Nat} (hk : k < setting.log.length) :
    setting.policyAt (k + 1) = match setting.log[k].command? with
      | some command =>
          ((setting.policyAt k).applyCommandAt setting.prim command.1 command.2).1
      | none => setting.policyAt k := by
  unfold policyAt
  rw [take_succ hk, List.filterMap_append, List.foldl_append]
  cases h : setting.log[k].command? with
  | none => rw [List.filterMap_cons_none h, List.filterMap_nil, List.foldl_nil]
  | some command =>
      rw [List.filterMap_cons_some h, List.filterMap_nil, List.foldl_cons, List.foldl_nil]

theorem membershipAt_succ {k : Nat} (hk : k < setting.log.length) :
    setting.membershipAt (k + 1) =
      setting.log[k].membership?.getD (setting.membershipAt k) := by
  unfold membershipAt
  rw [take_succ hk, List.filterMap_append, List.getLast?_append]
  cases h : setting.log[k].membership? with
  | none => simp [List.filterMap_cons_none h]
  | some membership => simp [List.filterMap_cons_some h]

theorem applyEntry_specAt {k : Nat} (hk : k < setting.log.length) (responses : List PolicyResult) :
    applyEntry setting.prim (setting.specAt k, responses) setting.log[k] =
      (setting.specAt (k + 1),
        responses ++ [setting.respond (setting.policyAt k) setting.log[k]]) := by
  have hpolicy := policyAt_succ hk
  have hmembership := membershipAt_succ hk
  rw [specAt, specAt, idAt_succ hk, hpolicy, hmembership]
  unfold applyEntry respond Entry.command? Entry.membership?
  cases setting.log[k].payload <;> rfl

/-- A batch of the log leads from one prefix to the other, with the responses of the
fold, whatever was applied in earlier batches. -/
theorem foldl_applyEntry {k count : Nat} (h : k + count ≤ setting.log.length) :
    ∃ responses : List PolicyResult,
      ((setting.log.drop k).take count).foldl (applyEntry setting.prim) (setting.specAt k, []) =
        (setting.specAt (k + count), responses) ∧
      responses.map some = (List.range' k count).map setting.responseAt := by
  induction count with
  | zero => exact ⟨[], by simp, rfl⟩
  | succ count ih =>
      obtain ⟨responses, hfold, hresponses⟩ := ih (by omega)
      have hlast : (setting.log.drop k)[count]? = some setting.log[k + count] := by
        rw [List.getElem?_drop, List.getElem?_eq_getElem]
      refine ⟨responses ++ [setting.respond (setting.policyAt (k + count)) setting.log[k + count]],
        ?_, ?_⟩
      · rw [List.take_add_one, hlast, Option.toList_some, List.foldl_append, hfold,
          List.foldl_cons, List.foldl_nil, applyEntry_specAt]
        rfl
      · rw [List.range'_concat, List.map_append, List.map_append, hresponses, Nat.one_mul]
        simp only [List.map_cons, List.map_nil, responseAt,
          List.getElem?_eq_getElem (show k + count < setting.log.length by omega), Option.map_some]

end Setting

/-! ## Transactions -/

variable {codec : Codec Bytes} {io : Io} {db db' : Database Bytes} {network : String}
  {inner : SmInner}

theorem encode_eq_ok {n : Nat} {bytes bytes' : Bytes} (h : encode io n bytes = .ok bytes') :
    bytes' = bytes := by
  obtain ⟨-, -, hret⟩ := bind_eq_ok.mp h
  cases hret
  rfl

theorem decode_eq_ok {α : Type} {what : String} {read : Except String α} {value : α}
    (h : decode what read = .ok value) : read = .ok value := by
  cases read with
  | error e => cases h
  | ok v =>
      cases h
      rfl

theorem persistState_eq_ok {n : Nat} (h : persistState codec io n db inner = .ok db') :
    db' = { db with
      metaTable := ((db.metaTable.insert keyPolicyState (codec.encodeState inner.state)).insert
        keyApplied (codec.encodeApplied inner.applied)).insert keyMembership
          (codec.encodeMembership inner.membership) } := by
  obtain ⟨stateBytes, hstate, h⟩ := bind_eq_ok.mp h
  obtain ⟨appliedBytes, happlied, h⟩ := bind_eq_ok.mp h
  obtain ⟨membershipBytes, hmembership, h⟩ := bind_eq_ok.mp h
  obtain ⟨-, -, h⟩ := bind_eq_ok.mp h
  obtain ⟨-, -, h⟩ := bind_eq_ok.mp h
  obtain ⟨-, -, h⟩ := bind_eq_ok.mp h
  obtain ⟨-, -, h⟩ := bind_eq_ok.mp h
  cases h
  rw [encode_eq_ok hstate, encode_eq_ok happlied, encode_eq_ok hmembership]

/-- The rows of `META_TABLE` after the state machine was persisted: its own three, and those
that were there. -/
structure Persisted (codec : Codec Bytes) (inner : SmInner) (db db' : Database Bytes) :
    Prop where
  state : db'.metaTable[keyPolicyState]? = some (codec.encodeState inner.state)
  applied : db'.metaTable[keyApplied]? = some (codec.encodeApplied inner.applied)
  membership : db'.metaTable[keyMembership]? = some (codec.encodeMembership inner.membership)
  other : ∀ key, keyPolicyState ≠ key → keyApplied ≠ key → keyMembership ≠ key →
    db'.metaTable[key]? = db.metaTable[key]?

theorem persisted_of_persistState {n : Nat} (h : persistState codec io n db inner = .ok db') :
    Persisted codec inner db db' := by
  obtain rfl := persistState_eq_ok h
  constructor
  · rw [ExtTreeMap.getElem?_insert, if_neg (by decide), ExtTreeMap.getElem?_insert,
      if_neg (by decide), ExtTreeMap.getElem?_insert_self]
  · rw [ExtTreeMap.getElem?_insert, if_neg (by decide), ExtTreeMap.getElem?_insert_self]
  · rw [ExtTreeMap.getElem?_insert_self]
  · intro key hstate happlied hmembership
    simp only [ExtTreeMap.getElem?_insert, compare_eq_iff_eq, hstate, happlied, hmembership,
      if_false]

def Database.withSnapshot (db : Database Bytes) (metaBytes data : Bytes) : Database Bytes :=
  { db with
    snapshotTable := (db.snapshotTable.insert keySnapshotMeta metaBytes).insert keySnapshotData
      data }

theorem withSnapshot_meta {metaBytes data : Bytes} :
    (db.withSnapshot metaBytes data).snapshotTable[keySnapshotMeta]? = some metaBytes := by
  rw [Database.withSnapshot, ExtTreeMap.getElem?_insert, if_neg (by decide),
    ExtTreeMap.getElem?_insert_self]

theorem withSnapshot_data {metaBytes data : Bytes} :
    (db.withSnapshot metaBytes data).snapshotTable[keySnapshotData]? = some data := by
  rw [Database.withSnapshot, ExtTreeMap.getElem?_insert_self]

theorem saveSnapshot_eq_ok {metaBytes data : Bytes}
    (h : saveSnapshot io db metaBytes data = .ok db') : db' = db.withSnapshot metaBytes data := by
  obtain ⟨-, -, h⟩ := bind_eq_ok.mp h
  obtain ⟨-, -, h⟩ := bind_eq_ok.mp h
  obtain ⟨-, -, h⟩ := bind_eq_ok.mp h
  cases h
  rfl

theorem commitSnapshot_eq_ok {snapshot : Snapshot Bytes}
    (h : commitSnapshot codec io db snapshot = .ok db') :
    db' = db.withSnapshot (codec.encodeMeta snapshot.info) snapshot.data := by
  obtain ⟨metaBytes, hmeta, h⟩ := bind_eq_ok.mp h
  obtain ⟨-, -, h⟩ := bind_eq_ok.mp h
  obtain ⟨w, hsave, h⟩ := bind_eq_ok.mp h
  obtain ⟨-, -, h⟩ := bind_eq_ok.mp h
  cases h
  rw [encode_eq_ok hmeta] at hsave
  exact saveSnapshot_eq_ok hsave

theorem committed_of_finishSnapshot {captured : SmInner} {snapshotIdx idx : Nat}
    {snapshot : Snapshot Bytes}
    (h : finishSnapshot codec io db snapshotIdx captured = (idx, .ok (db', snapshot))) :
    encode io 0 (codec.encodeState captured.state) = .ok snapshot.data ∧
      snapshot.info.lastLogId = captured.applied ∧
      snapshot.info.lastMembership = captured.membership ∧
      commitSnapshot codec io db snapshot = .ok db' := by
  unfold finishSnapshot at h
  split at h
  · simp at h
  · rename_i data hdata
    obtain ⟨-, h⟩ := Prod.mk.inj h
    cases hcommit : commitSnapshot codec io db ⟨⟨captured.applied, captured.membership,
        snapshotId codec captured.applied (Words.succ64 snapshotIdx)⟩, data⟩ with
    | error e => rw [hcommit] at h; cases h
    | ok w =>
        rw [hcommit] at h
        cases h
        exact ⟨hdata, rfl, rfl, hcommit⟩

theorem finishSnapshot_eq_ok {captured : SmInner} {snapshotIdx idx : Nat}
    {snapshot : Snapshot Bytes}
    (h : finishSnapshot codec io db snapshotIdx captured = (idx, .ok (db', snapshot))) :
    (snapshot.info.lastLogId = captured.applied ∧
      snapshot.info.lastMembership = captured.membership ∧
      snapshot.data = codec.encodeState captured.state) ∧
    db' = db.withSnapshot (codec.encodeMeta snapshot.info) snapshot.data := by
  obtain ⟨hdata, hid, hmembership, hcommit⟩ := committed_of_finishSnapshot h
  exact ⟨⟨hid, hmembership, encode_eq_ok hdata⟩, commitSnapshot_eq_ok hcommit⟩

theorem installSnapshot_eq_ok {snapshot : Snapshot Bytes}
    (h : installSnapshot codec io db snapshot = .ok (db', inner)) :
    (∃ state, codec.decodeState snapshot.data = .ok state ∧
      inner = ⟨state, snapshot.info.lastLogId, snapshot.info.lastMembership⟩) ∧
    ∃ mid, persistState codec io 1 db inner = .ok mid ∧
      db' = mid.withSnapshot (codec.encodeMeta snapshot.info) snapshot.data := by
  obtain ⟨state, hstate, h⟩ := bind_eq_ok.mp h
  obtain ⟨metaBytes, hmeta, h⟩ := bind_eq_ok.mp h
  obtain ⟨-, -, h⟩ := bind_eq_ok.mp h
  obtain ⟨mid, hpersist, h⟩ := bind_eq_ok.mp h
  obtain ⟨w, hsave, h⟩ := bind_eq_ok.mp h
  obtain ⟨-, -, h⟩ := bind_eq_ok.mp h
  cases h
  rw [encode_eq_ok hmeta] at hsave
  exact ⟨⟨state, decode_eq_ok hstate, rfl⟩, mid, hpersist, saveSnapshot_eq_ok hsave⟩

def Database.reopened (codec : Codec Bytes) (network : String) (db : Database Bytes) :
    Except StorageError SmInner :=
  openInner codec Io.fine db network

theorem metaDecode_congr {α : Type} {n : Nat} {key what : String}
    {read : Bytes → Except String α} (h : db'.metaTable = db.metaTable) :
    metaDecode io n db' key what read = metaDecode io n db key what read := by
  unfold metaDecode metaGet
  rw [h]

@[simp] theorem reopened_withSnapshot {metaBytes data : Bytes} :
    (db.withSnapshot metaBytes data).reopened codec network = db.reopened codec network := by
  unfold Database.reopened openInner
  simp only [metaDecode_congr (show (db.withSnapshot metaBytes data).metaTable = db.metaTable
    from rfl)]

theorem metaGet_eq_ok {n : Nat} {key : String} {value : Option Bytes}
    (h : metaGet io n db key = .ok value) : value = db.metaTable[key]? := by
  obtain ⟨-, -, h⟩ := bind_eq_ok.mp h
  obtain ⟨-, -, h⟩ := bind_eq_ok.mp h
  obtain ⟨-, -, h⟩ := bind_eq_ok.mp h
  cases h
  rfl

theorem metaDecode_fine_of_ok {α : Type} {n : Nat} {key what : String}
    {read : Bytes → Except String α} {value : Option α}
    (h : metaDecode io n db key what read = .ok value) :
    metaDecode Io.fine n db key what read = .ok value := by
  obtain ⟨bytes, hbytes, h⟩ := bind_eq_ok.mp h
  rw [metaGet_eq_ok hbytes] at h
  exact h

/-- Whatever else may fail, a file that opens gives what it gives without failures. -/
theorem reopened_of_openInner (h : openInner codec io db network = .ok inner) :
    db.reopened codec network = .ok inner := by
  obtain ⟨state, hstate, h⟩ := bind_eq_ok.mp h
  obtain ⟨applied, happlied, h⟩ := bind_eq_ok.mp h
  obtain ⟨membership, hmembership, h⟩ := bind_eq_ok.mp h
  unfold Database.reopened openInner
  rw [metaDecode_fine_of_ok hstate, metaDecode_fine_of_ok happlied,
    metaDecode_fine_of_ok hmembership]
  exact h

theorem metaDecode_stored {α : Type} {base : Database Bytes} {n : Nat} {key what : String}
    {read : Bytes → Except String α} {write : α → Bytes} {stored : Option α}
    (hread : ∀ a, read (write a) = .ok a) (h : base.metaTable[key]? = stored.map write) :
    metaDecode .fine n base key what read = .ok stored := by
  have hget : metaGet .fine n base key = .ok (stored.map write) := congrArg Except.ok h
  rw [metaDecode, hget]
  cases stored with
  | none => rfl
  | some a =>
      change Except.map some (decode what (read (write a))) = .ok (some a)
      rw [hread a]
      rfl

theorem reopened_empty (codec : Codec Bytes) (network : String) :
    (Database.empty : Database Bytes).reopened codec network =
      .ok ⟨.new network, none, .empty⟩ := by
  have habsent : ∀ key : String, (Database.empty : Database Bytes).metaTable[key]? = none := by
    intro key
    exact ExtTreeMap.getElem?_empty
  have hdecode : ∀ {α : Type} {n : Nat} {key what : String} {read : Bytes → Except String α},
      metaDecode Io.fine n Database.empty key what read = .ok none := by
    intro α n key what read
    have hget : metaGet Io.fine n (Database.empty : Database Bytes) key = .ok none := by
      rw [← habsent key]
      rfl
    unfold metaDecode
    rw [hget]
    rfl
  unfold Database.reopened openInner
  rw [hdecode, hdecode, hdecode]
  rfl

theorem reopened_of_persistState {n : Nat} (hcodec : codec.Lossless)
    (happlied : inner.applied ≠ none) (h : persistState codec io n db inner = .ok db') :
    db'.reopened codec network = .ok inner := by
  obtain ⟨state, applied, membership⟩ := inner
  cases applied with
  | none => exact absurd rfl happlied
  | some logId =>
      have hrows := persisted_of_persistState h
      have hstate : db'.metaTable[keyPolicyState]? = (some state).map codec.encodeState :=
        hrows.state
      have hid : db'.metaTable[keyApplied]? =
          (some logId).map fun id => codec.encodeApplied (some id) := hrows.applied
      have hmembership : db'.metaTable[keyMembership]? =
          (some membership).map codec.encodeMembership := hrows.membership
      unfold Database.reopened openInner
      rw [metaDecode_stored hcodec.state hstate, metaDecode_stored hcodec.applied hid,
        metaDecode_stored hcodec.membership hmembership]
      rfl

end NexusAuth.Raft
