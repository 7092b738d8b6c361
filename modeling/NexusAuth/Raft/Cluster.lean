import NexusAuth.Raft.Storage

/-!
# Replicas of one committed log

How openraft drives the state machine stores of a cluster.  Every replica applies
batches of the committed log in order, builds snapshots, installs snapshots that
some replica has built, serves its current snapshot, and is closed and reopened.

`build_snapshot` and `get_current_snapshot` give up control in the middle, so each
is two actions here: a builder first captures the state under the lock and later
commits the snapshot tables, and a reader reads the meta and later the data.  All
actions of all replicas interleave freely, and any of their calls may fail.  What
openraft guarantees is checked before an action runs: batches continue the applied
prefix and are not empty, and a snapshot is installed only at or beyond it.
-/

namespace NexusAuth.Raft

open NexusAuth.Authority NexusAuth.Lib.OrderedMap

/-- The order of optional log ids: by leader, then by index, with `None` first. -/
def logKey (logId : Option LogId) : WithBot (ℕ ×ₗ ℕ ×ₗ ℕ) :=
  logId.map fun id => toLex (id.leaderId.term, toLex (id.leaderId.nodeId, id.index))

structure Setting (Bytes : Type) where
  prim : Primitives
  codec : Codec Bytes
  network : String
  /-- The committed log. -/
  log : List Entry

/-- How many entries of the log an applied id stands for. -/
def position (log : List Entry) : Option LogId → Option Nat
  | none => some 0
  | some logId => (log.findIdx? fun entry => entry.logId = logId).map (· + 1)

/-- A `build_snapshot` between its capture and its commit. -/
structure Builder where
  captured : SmInner
  /-- Whether a snapshot beyond the captured position was committed since. -/
  overtaken : Bool

/-- A `get_current_snapshot` between its two reads. -/
structure Reader (Bytes : Type) where
  metaBytes : Bytes
  /-- The snapshot data that was stored at the first read. -/
  dataThen : Option Bytes

structure Process (Bytes : Type) where
  inner : SmInner
  snapshotIdx : Nat
  builders : List Builder
  readers : List (Reader Bytes)

structure Replica (Bytes : Type) where
  db : Database Bytes
  /-- Nothing while the store is closed. -/
  process : Option (Process Bytes)
  /-- The pairs of meta and data that were committed, the latest one first. -/
  commits : List (Bytes × Bytes)

structure Cluster (Bytes : Type) where
  replicas : NodeId → Replica Bytes
  /-- The snapshots that `build_snapshot` has returned on any replica. -/
  built : List (Snapshot Bytes)

inductive Action
  | apply (count : Nat) (io : Io)
  | capture
  | finish (builder : Nat) (io : Io)
  | install (snapshot : Nat) (io : Io)
  | readMeta (io : Io)
  | readData (reader : Nat) (io : Io)
  | close
  | reopen (io : Io)

inductive Reply (Bytes : Type)
  | disabled
  | applied (result : Except StorageError (List PolicyResult))
  | captured
  | built (result : Except StorageError (Snapshot Bytes))
  | installed (result : Except StorageError Unit)
  | metaRead
  | served (result : Except StorageError (Option (Snapshot Bytes)))
  | closed
  | reopened (result : Except StorageError Unit)
deriving DecidableEq

variable {Bytes : Type}

def Builder.noteCommit (logId : Option LogId) (b : Builder) : Builder :=
  { b with overtaken := b.overtaken || decide (logKey b.captured.applied < logKey logId) }

namespace Replica

def applyNext (setting : Setting Bytes) (replica : Replica Bytes) (p : Process Bytes)
    (count : Nat) (io : Io) : Replica Bytes × Reply Bytes :=
  match position setting.log p.inner.applied with
  | none => (replica, .disabled)
  | some k =>
      if count = 0 ∨ setting.log.length < k + count then (replica, .disabled)
      else
        match apply setting.prim setting.codec io replica.db p.inner
            ((setting.log.drop k).take count) with
        | .error e => (replica, .applied (.error e))
        | .ok (db, inner, responses) =>
            ({ replica with db := db, process := some { p with inner := inner } },
              .applied (.ok responses))

def capture (replica : Replica Bytes) (p : Process Bytes) : Replica Bytes × Reply Bytes :=
  ({ replica with process := some { p with builders := p.builders ++ [⟨p.inner, false⟩] } },
    .captured)

def finish (setting : Setting Bytes) (replica : Replica Bytes) (p : Process Bytes)
    (builder : Nat) (io : Io) : Replica Bytes × Reply Bytes :=
  match p.builders[builder]? with
  | none => (replica, .disabled)
  | some b =>
      let others := p.builders.eraseIdx builder
      match finishSnapshot setting.codec io replica.db p.snapshotIdx b.captured with
      | (idx, .error e) =>
          ({ replica with process := some { p with snapshotIdx := idx, builders := others } },
            .built (.error e))
      | (idx, .ok (db, snapshot)) =>
          ({ db := db
             process := some { p with
               snapshotIdx := idx
               builders := others.map (Builder.noteCommit snapshot.info.lastLogId) }
             commits := (setting.codec.encodeMeta snapshot.info, snapshot.data) ::
               replica.commits },
            .built (.ok snapshot))

def install (setting : Setting Bytes) (replica : Replica Bytes) (p : Process Bytes)
    (snapshot : Snapshot Bytes) (io : Io) : Replica Bytes × Reply Bytes :=
  if snapshot.info.lastLogId = none ∨ logKey snapshot.info.lastLogId < logKey p.inner.applied then
    (replica, .disabled)
  else
    match installSnapshot setting.codec io replica.db snapshot with
    | .error e => (replica, .installed (.error e))
    | .ok (db, inner) =>
        ({ db := db
           process := some { p with
             inner := inner
             builders := p.builders.map (Builder.noteCommit snapshot.info.lastLogId) }
           commits := (setting.codec.encodeMeta snapshot.info, snapshot.data) :: replica.commits },
          .installed (.ok ()))

def readMeta (replica : Replica Bytes) (p : Process Bytes) (io : Io) :
    Replica Bytes × Reply Bytes :=
  match readSnapshotMeta io replica.db with
  | .error e => (replica, .served (.error e))
  | .ok none => (replica, .served (.ok none))
  | .ok (some metaBytes) =>
      ({ replica with
          process := some { p with
            readers := p.readers ++ [⟨metaBytes, replica.db.snapshotTable[keySnapshotData]?⟩] } },
        .metaRead)

def readData (setting : Setting Bytes) (replica : Replica Bytes) (p : Process Bytes)
    (reader : Nat) (io : Io) : Replica Bytes × Reply Bytes :=
  match p.readers[reader]? with
  | none => (replica, .disabled)
  | some pending =>
      ({ replica with process := some { p with readers := p.readers.eraseIdx reader } },
        .served (readSnapshotData setting.codec io replica.db pending.metaBytes))

def reopen (setting : Setting Bytes) (replica : Replica Bytes) (io : Io) :
    Replica Bytes × Reply Bytes :=
  match openInner setting.codec io replica.db setting.network with
  | .error e => (replica, .reopened (.error e))
  | .ok inner => ({ replica with process := some ⟨inner, 0, [], []⟩ }, .reopened (.ok ()))

def act (setting : Setting Bytes) (built : List (Snapshot Bytes)) (replica : Replica Bytes)
    (action : Action) : Replica Bytes × Reply Bytes :=
  match replica.process, action with
  | none, .reopen io => replica.reopen setting io
  | some p, .apply count io => replica.applyNext setting p count io
  | some p, .capture => replica.capture p
  | some p, .finish builder io => replica.finish setting p builder io
  | some p, .install snapshot io =>
      match built[snapshot]? with
      | none => (replica, .disabled)
      | some snapshot => replica.install setting p snapshot io
  | some p, .readMeta io => replica.readMeta p io
  | some p, .readData reader io => replica.readData setting p reader io
  | some _, .close => ({ replica with process := none }, .closed)
  | _, _ => (replica, .disabled)

end Replica

namespace Cluster

def start : Cluster Bytes := ⟨fun _ => ⟨.empty, none, []⟩, []⟩

def reply (setting : Setting Bytes) (c : Cluster Bytes) (event : NodeId × Action) : Reply Bytes :=
  ((c.replicas event.1).act setting c.built event.2).2

def step (setting : Setting Bytes) (c : Cluster Bytes) (event : NodeId × Action) :
    Cluster Bytes :=
  { replicas := Function.update c.replicas event.1
      ((c.replicas event.1).act setting c.built event.2).1
    built := match c.reply setting event with
      | .built (.ok snapshot) => c.built ++ [snapshot]
      | _ => c.built }

end Cluster

end NexusAuth.Raft
