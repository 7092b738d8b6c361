import NexusAuth.Raft.StateMachine

/-!
# The persisted state machine

`StateMachineStore` of `raft/storage.rs`: the policy state with the applied log id
and the membership, in memory and in the tables of a redb file.  Every operation
that writes does so in one transaction, and updates the memory after the commit.

Each call that can fail is named as in the source.  An `Io` says which calls of an
operation fail; the others succeed.  A transaction is a value of type
`Except StorageError Database`: if a call inside it fails, nothing of it is kept.
-/

namespace NexusAuth.Raft

open NexusAuth.Authority NexusAuth.Lib.OrderedMap NexusAuth.Lib.Words

/-! ## Types of openraft -/

structure LeaderId where
  term : Nat
  nodeId : NodeId
deriving DecidableEq

structure LogId where
  leaderId : LeaderId
  index : Nat
deriving DecidableEq

structure Membership where
  configs : List (BTreeSet NodeId)
  nodes : BTreeMap NodeId RaftNode
deriving DecidableEq

structure StoredMembership where
  logId : Option LogId
  membership : Membership
deriving DecidableEq

def StoredMembership.empty : StoredMembership := ⟨none, ⟨[], ∅⟩⟩

inductive EntryPayload
  | blank
  | normal (command : PolicyCommand)
  | membership (membership : Membership)
deriving DecidableEq

structure Entry where
  logId : LogId
  payload : EntryPayload
deriving DecidableEq

structure SnapshotMeta where
  lastLogId : Option LogId
  lastMembership : StoredMembership
  snapshotId : String
deriving DecidableEq

structure Snapshot (Bytes : Type) where
  info : SnapshotMeta
  data : Bytes
deriving DecidableEq

/-! ## Encodings and failures -/

/-- The CBOR encodings of what is stored, and openraft's text of a leader id. -/
structure Codec (Bytes : Type) where
  encodeState : PolicyState → Bytes
  decodeState : Bytes → Except String PolicyState
  /-- The applied id is written as an optional value and read back as a plain one. -/
  encodeApplied : Option LogId → Bytes
  decodeApplied : Bytes → Except String LogId
  encodeMembership : StoredMembership → Bytes
  decodeMembership : Bytes → Except String StoredMembership
  encodeMeta : SnapshotMeta → Bytes
  decodeMeta : Bytes → Except String SnapshotMeta
  showLeaderId : LeaderId → String

structure Codec.Lossless {Bytes : Type} (codec : Codec Bytes) : Prop where
  state : ∀ s, codec.decodeState (codec.encodeState s) = .ok s
  applied : ∀ id, codec.decodeApplied (codec.encodeApplied (some id)) = .ok id
  membership : ∀ m, codec.decodeMembership (codec.encodeMembership m) = .ok m
  info : ∀ m, codec.decodeMeta (codec.encodeMeta m) = .ok m

inductive StorageError
  | read (message : String)
  | write (message : String)
deriving DecidableEq

/-- `io what n` is the error of the `n`-th call named `what` in an operation. -/
abbrev Io := String → Nat → Option String

def Io.fine : Io := fun _ _ => none

def ioRead (io : Io) (what : String) (n : Nat) : Except StorageError Unit :=
  match io what n with
  | none => .ok ()
  | some e => .error (.read (what ++ ": " ++ e))

def ioWrite (io : Io) (what : String) (n : Nat) : Except StorageError Unit :=
  match io what n with
  | none => .ok ()
  | some e => .error (.write (what ++ ": " ++ e))

def encode {Bytes : Type} (io : Io) (n : Nat) (bytes : Bytes) : Except StorageError Bytes := do
  ioWrite io "cbor encode" n
  return bytes

def decode {α : Type} (what : String) : Except String α → Except StorageError α
  | .ok value => .ok value
  | .error e => .error (.read (what ++ ": " ++ e))

/-! ## The database -/

def keyApplied : String := "applied"

def keyMembership : String := "membership"

def keyPolicyState : String := "policy_state"

def keySnapshotMeta : String := "meta"

def keySnapshotData : String := "data"

structure Database (Bytes : Type) where
  metaTable : BTreeMap String Bytes
  snapshotTable : BTreeMap String Bytes

def Database.empty {Bytes : Type} : Database Bytes := ⟨∅, ∅⟩

def metaGet {Bytes : Type} (io : Io) (n : Nat) (db : Database Bytes) (key : String) :
    Except StorageError (Option Bytes) := do
  ioRead io "begin read meta" n
  ioRead io "open meta table" n
  ioRead io "read meta" n
  return db.metaTable[key]?

def snapshotGet {Bytes : Type} (io : Io) (n : Nat) (db : Database Bytes) (key : String) :
    Except StorageError (Option Bytes) := do
  ioRead io "begin read snapshot" n
  ioRead io "open snapshot table" n
  ioRead io "read snapshot" n
  return db.snapshotTable[key]?

/-! ## The state machine store -/

structure SmInner where
  state : PolicyState
  applied : Option LogId
  membership : StoredMembership
deriving DecidableEq

variable {Bytes : Type}

def metaDecode {α : Type} (io : Io) (n : Nat) (db : Database Bytes) (key what : String)
    (read : Bytes → Except String α) : Except StorageError (Option α) := do
  let bytes ← metaGet io n db key
  match bytes with
  | none => .ok none
  | some bytes => (decode what (read bytes)).map some

/-- `StateMachineStore::open`, up to the snapshot counter, which starts at 0. -/
def openInner (codec : Codec Bytes) (io : Io) (db : Database Bytes) (network : String) :
    Except StorageError SmInner := do
  let state ← metaDecode io 0 db keyPolicyState "decode policy state" codec.decodeState
  let applied ← metaDecode io 1 db keyApplied "decode applied" codec.decodeApplied
  let membership ← metaDecode io 2 db keyMembership "decode membership" codec.decodeMembership
  return ⟨state.getD (.new network), applied, membership.getD .empty⟩

/-- `persist_state`; `n` encodings of the operation came before. -/
def persistState (codec : Codec Bytes) (io : Io) (n : Nat) (db : Database Bytes)
    (inner : SmInner) : Except StorageError (Database Bytes) := do
  let stateBytes ← encode io n (codec.encodeState inner.state)
  let appliedBytes ← encode io (n + 1) (codec.encodeApplied inner.applied)
  let membershipBytes ← encode io (n + 2) (codec.encodeMembership inner.membership)
  ioWrite io "open meta table" 0
  ioWrite io "persist policy state" 0
  ioWrite io "persist applied" 0
  ioWrite io "persist membership" 0
  return { db with
    metaTable := ((db.metaTable.insert keyPolicyState stateBytes).insert keyApplied
      appliedBytes).insert keyMembership membershipBytes }

/-- The writes to `SNAPSHOT_TABLE` that `build_snapshot` and `install_snapshot` share. -/
def saveSnapshot (io : Io) (db : Database Bytes) (metaBytes data : Bytes) :
    Except StorageError (Database Bytes) := do
  ioWrite io "open snapshot table" 0
  ioWrite io "save snapshot meta" 0
  ioWrite io "save snapshot data" 0
  return { db with
    snapshotTable := (db.snapshotTable.insert keySnapshotMeta metaBytes).insert keySnapshotData
      data }

/-! ### `apply` -/

/-- One turn of the loop over the entries. -/
def applyEntry (prim : Primitives) (acc : SmInner × List PolicyResult) (entry : Entry) :
    SmInner × List PolicyResult :=
  let inner := { acc.1 with applied := some entry.logId }
  match entry.payload with
  | .blank => (inner, acc.2 ++ [.applied none none inner.state.policyEpoch false])
  | .normal command =>
      let out := inner.state.applyCommandAt prim command entry.logId.index
      ({ inner with state := out.1 }, acc.2 ++ [out.2])
  | .membership membership =>
      ({ inner with membership := ⟨some entry.logId, membership⟩ },
        acc.2 ++ [.applied none none inner.state.policyEpoch true])

def apply (prim : Primitives) (codec : Codec Bytes) (io : Io) (db : Database Bytes)
    (inner : SmInner) (entries : List Entry) :
    Except StorageError (Database Bytes × SmInner × List PolicyResult) := do
  let (inner, responses) := entries.foldl (applyEntry prim) (inner, [])
  ioWrite io "begin apply" 0
  let db ← persistState codec io 0 db inner
  ioWrite io "commit apply" 0
  return (db, inner, responses)

/-! ### Snapshots -/

def snapshotId (codec : Codec Bytes) (applied : Option LogId) (idx : Nat) : String :=
  match applied with
  | some logId =>
      codec.showLeaderId logId.leaderId ++ "-" ++ toString logId.index ++ "-" ++ toString idx
  | none => "--" ++ toString idx

/-- The transaction of `build_snapshot`. -/
def commitSnapshot (codec : Codec Bytes) (io : Io) (db : Database Bytes)
    (snapshot : Snapshot Bytes) : Except StorageError (Database Bytes) := do
  let metaBytes ← encode io 1 (codec.encodeMeta snapshot.info)
  ioWrite io "begin snapshot" 0
  let db ← saveSnapshot io db metaBytes snapshot.data
  ioWrite io "commit snapshot" 0
  return db

/-- `build_snapshot` after it has copied `captured` and released the lock.  The
counter moves on unless the state could not be encoded. -/
def finishSnapshot (codec : Codec Bytes) (io : Io) (db : Database Bytes) (snapshotIdx : Nat)
    (captured : SmInner) : Nat × Except StorageError (Database Bytes × Snapshot Bytes) :=
  match encode io 0 (codec.encodeState captured.state) with
  | .error e => (snapshotIdx, .error e)
  | .ok data =>
      let idx := succ64 snapshotIdx
      let snapshot : Snapshot Bytes :=
        ⟨⟨captured.applied, captured.membership, snapshotId codec captured.applied idx⟩, data⟩
      (idx, (commitSnapshot codec io db snapshot).map fun db => (db, snapshot))

def installSnapshot (codec : Codec Bytes) (io : Io) (db : Database Bytes)
    (snapshot : Snapshot Bytes) : Except StorageError (Database Bytes × SmInner) := do
  let state ← decode "decode snapshot state" (codec.decodeState snapshot.data)
  let metaBytes ← encode io 0 (codec.encodeMeta snapshot.info)
  ioWrite io "begin install snapshot" 0
  let inner : SmInner := ⟨state, snapshot.info.lastLogId, snapshot.info.lastMembership⟩
  let db ← persistState codec io 1 db inner
  let db ← saveSnapshot io db metaBytes snapshot.data
  ioWrite io "commit install snapshot" 0
  return (db, inner)

/-- The first read transaction of `get_current_snapshot`. -/
def readSnapshotMeta (io : Io) (db : Database Bytes) : Except StorageError (Option Bytes) :=
  snapshotGet io 0 db keySnapshotMeta

/-- The second read transaction, and what is returned. -/
def readSnapshotData (codec : Codec Bytes) (io : Io) (db : Database Bytes) (metaBytes : Bytes) :
    Except StorageError (Option (Snapshot Bytes)) := do
  match ← snapshotGet io 1 db keySnapshotData with
  | none => return none
  | some data =>
      let info ← decode "decode snapshot meta" (codec.decodeMeta metaBytes)
      return some ⟨info, data⟩

/-! ## An instance

Encodings that keep the encoded value, so that models can be evaluated.  As in CBOR,
an absent applied id is not a log id. -/

inductive Blob
  | state (s : PolicyState)
  | applied (logId : Option LogId)
  | membership (m : StoredMembership)
  | info (m : SnapshotMeta)
deriving DecidableEq

def sampleCodec : Codec Blob where
  encodeState := .state
  decodeState
    | .state s => .ok s
    | _ => .error "expected a policy state"
  encodeApplied := .applied
  decodeApplied
    | .applied (some logId) => .ok logId
    | _ => .error "expected a log id"
  encodeMembership := .membership
  decodeMembership
    | .membership m => .ok m
    | _ => .error "expected a membership"
  encodeMeta := .info
  decodeMeta
    | .info m => .ok m
    | _ => .error "expected a snapshot meta"
  showLeaderId leader := "T" ++ toString leader.term ++ "-N" ++ toString leader.nodeId

theorem sampleCodec_lossless : sampleCodec.Lossless :=
  ⟨fun _ => rfl, fun _ => rfl, fun _ => rfl, fun _ => rfl⟩

end NexusAuth.Raft
