import NexusAuth.Lib.Rows
import NexusAuth.Raft.Transport

/-!
# The persisted log

`LogStore` of `raft/storage.rs`: the entries of the log in a table by their index, and the
vote, the last purged id and the committed id under keys of `META_TABLE`, which the state
machine uses as well.  The handle has no state of its own, so that closing and opening the
file leaves everything as it is in the tables.
-/

namespace NexusAuth.Raft

open NexusAuth.Lib.OrderedMap

def keyVote : String := "vote"

def keyLastPurged : String := "last_purged"

def keyCommitted : String := "committed"

structure LogDatabase (Bytes : Type) extends Database Bytes where
  logTable : BTreeMap Nat Bytes

def LogDatabase.empty {Bytes : Type} : LogDatabase Bytes := ⟨.empty, ∅⟩

structure LogCodec (Bytes : Type) where
  encodeEntry : Entry → Bytes
  decodeEntry : Bytes → Except String Entry
  encodeVote : Vote → Bytes
  decodeVote : Bytes → Except String Vote
  encodeLogId : LogId → Bytes
  decodeLogId : Bytes → Except String LogId
  /-- The committed id is written as an optional value and read back as a plain one. -/
  encodeCommitted : Option LogId → Bytes
  decodeCommitted : Bytes → Except String LogId

structure LogCodec.Lossless {Bytes : Type} (codec : LogCodec Bytes) : Prop where
  entry : ∀ e, codec.decodeEntry (codec.encodeEntry e) = .ok e
  vote : ∀ v, codec.decodeVote (codec.encodeVote v) = .ok v
  logId : ∀ id, codec.decodeLogId (codec.encodeLogId id) = .ok id
  committed : ∀ id, codec.decodeCommitted (codec.encodeCommitted (some id)) = .ok id

inductive Bound
  | included (n : Nat)
  | excluded (n : Nat)
  | unbounded
deriving DecidableEq

structure LogRange where
  lower : Bound
  upper : Bound
deriving DecidableEq

def LogRange.contains (range : LogRange) (index : Nat) : Bool :=
  (match range.lower with
    | .included n => decide (n ≤ index)
    | .excluded n => decide (n < index)
    | .unbounded => true) &&
  match range.upper with
  | .included n => decide (index ≤ n)
  | .excluded n => decide (index < n)
  | .unbounded => true

structure LogState where
  lastPurgedLogId : Option LogId
  lastLogId : Option LogId
deriving DecidableEq

/-- The `n`-th and the following calls of one kind, one for each item of a loop. -/
def forEach {α : Type} (call : Nat → Except StorageError Unit) (n : Nat) :
    List α → Except StorageError Unit
  | [] => .ok ()
  | _ :: rest => do
      call n
      forEach call (n + 1) rest

namespace LogStore

variable {Bytes : Type} (codec : LogCodec Bytes) (io : Io) (db : LogDatabase Bytes)

/-- `open`, as far as the log store is concerned: the tables are there afterwards. -/
def openDb : Except StorageError (LogDatabase Bytes) := do
  ioWrite io "create raft data dir" 0
  ioWrite io "open redb" 0
  ioWrite io "begin init" 0
  ioWrite io "open log table" 0
  ioWrite io "open meta table" 0
  ioWrite io "open snapshot table" 0
  ioWrite io "commit init" 0
  return db

/-! ## Reading -/

def readEntries (n : Nat) : List (Nat × Bytes) → Except StorageError (List Entry)
  | [] => .ok []
  | (_, value) :: rows => do
      ioRead io "read log entry" n
      let entry ← decode "decode log entry" (codec.decodeEntry value)
      let entries ← readEntries (n + 1) rows
      return entry :: entries

def tryGetLogEntries (range : LogRange) : Except StorageError (List Entry) := do
  ioRead io "begin read log" 0
  ioRead io "open log table" 0
  ioRead io "range log" 0
  readEntries codec io 0 (db.logTable.toList.filter fun row => range.contains row.1)

/-- The loop of `get_log_state`, which keeps the id of the last row. -/
def readLast (n : Nat) (last : Option LogId) :
    List (Nat × Bytes) → Except StorageError (Option LogId)
  | [] => .ok last
  | (_, value) :: rows => do
      ioRead io "read last log" n
      let entry ← decode "decode last log" (codec.decodeEntry value)
      readLast (n + 1) (some entry.logId) rows

def getLogState : Except StorageError LogState := do
  let lastPurged ←
    metaDecode io 0 db.toDatabase keyLastPurged "decode last_purged" codec.decodeLogId
  ioRead io "begin read log" 0
  ioRead io "open log table" 0
  ioRead io "iterate logs" 0
  let last ← readLast codec io 0 none db.logTable.toList
  return ⟨lastPurged, last.or lastPurged⟩

def readVote : Except StorageError (Option Vote) :=
  metaDecode io 0 db.toDatabase keyVote "decode vote" codec.decodeVote

def readCommitted : Except StorageError (Option LogId) :=
  metaDecode io 0 db.toDatabase keyCommitted "decode committed" codec.decodeCommitted

/-! ## Writing -/

def setMeta (key : String) (bytes : Bytes) : LogDatabase Bytes :=
  { db with metaTable := db.metaTable.insert key bytes }

/-- The transaction that `save_vote` and `save_committed` share. -/
def saveMeta (key name : String) (bytes : Bytes) : Except StorageError (LogDatabase Bytes) := do
  let bytes ← encode io 0 bytes
  ioWrite io ("begin save " ++ name) 0
  ioWrite io "open meta table" 0
  ioWrite io ("save " ++ name) 0
  ioWrite io ("commit " ++ name) 0
  return setMeta db key bytes

def saveVote (vote : Vote) : Except StorageError (LogDatabase Bytes) :=
  saveMeta io db keyVote "vote" (codec.encodeVote vote)

def saveCommitted (committed : Option LogId) : Except StorageError (LogDatabase Bytes) :=
  saveMeta io db keyCommitted "committed" (codec.encodeCommitted committed)

def insertEntries (table : BTreeMap Nat Bytes) (entries : List Entry) : BTreeMap Nat Bytes :=
  entries.foldl (fun table entry => table.insert entry.logId.index (codec.encodeEntry entry)) table

def append (entries : List Entry) : Except StorageError (LogDatabase Bytes) := do
  forEach (ioWrite io "cbor encode") 0 entries
  ioWrite io "begin append" 0
  ioWrite io "open log table" 0
  forEach (ioWrite io "append log") 0 entries
  ioWrite io "commit append" 0
  return { db with logTable := insertEntries codec db.logTable entries }

/-- The scan of the table for the keys to remove, and their removal. -/
def removeRows (table : BTreeMap Nat Bytes) (selected : Nat → Bool) (name : String) :
    Except StorageError (BTreeMap Nat Bytes) := do
  ioRead io ("iterate " ++ name) 0
  forEach (ioRead io ("read " ++ name ++ " key")) 0 table.toList
  let keys := (table.toList.filter fun row => selected row.1).map Prod.fst
  forEach (ioWrite io (name ++ " log")) 0 keys
  return eraseAll table keys

def truncate (logId : LogId) : Except StorageError (LogDatabase Bytes) := do
  ioWrite io "begin truncate" 0
  ioWrite io "open log table" 0
  let table ← removeRows io db.logTable (fun key => decide (logId.index ≤ key)) "truncate"
  ioWrite io "commit truncate" 0
  return { db with logTable := table }

def purge (logId : LogId) : Except StorageError (LogDatabase Bytes) := do
  let bytes ← encode io 0 (codec.encodeLogId logId)
  ioWrite io "begin purge" 0
  ioWrite io "open log table" 0
  let table ← removeRows io db.logTable (fun key => decide (key ≤ logId.index)) "purge"
  ioWrite io "open meta table" 0
  ioWrite io "save last_purged" 0
  ioWrite io "commit purge" 0
  return { setMeta db keyLastPurged bytes with logTable := table }

end LogStore

end NexusAuth.Raft
