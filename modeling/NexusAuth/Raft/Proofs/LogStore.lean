import NexusAuth.Raft.Log
import NexusAuth.Raft.Proofs.Storage

/-!
# The log store is one list

The abstract log is a list of entries that are numbered without gaps from the index
behind the last purged id.  Appending, truncating and purging are concatenation, a prefix
and a suffix of that list.  The tables represent it: the rows of the log table are the
entries in order, and the three keys hold the vote and the two ids.
-/

namespace NexusAuth.Raft

open Std (ExtTreeMap)
open NexusAuth.Lib.OrderedMap NexusAuth.Lib.Results

/-! ## The abstract log -/

def nextIndex : Option LogId → Nat
  | none => 0
  | some id => id.index + 1

structure AbstractLog where
  purged : Option LogId
  entries : List Entry
  vote : Option Vote
  committed : Option LogId
  contiguous : entries.map (fun e => e.logId.index) = List.range' (nextIndex purged) entries.length

namespace AbstractLog

def empty : AbstractLog := ⟨none, [], none, none, rfl⟩

variable (log : AbstractLog)

def next : Nat := nextIndex log.purged + log.entries.length

/-- The id of the last entry, or the last purged id. -/
def last : Option LogId := (log.entries.getLast?.map Entry.logId).or log.purged

def Continues (entries : List Entry) : Prop :=
  entries.map (fun e => e.logId.index) = List.range' log.next entries.length

def append (entries : List Entry) (h : log.Continues entries) : AbstractLog where
  purged := log.purged
  entries := log.entries ++ entries
  vote := log.vote
  committed := log.committed
  contiguous := by
    rw [List.map_append, log.contiguous, h, next, List.length_append, List.range'_append_1]

def truncate (id : LogId) : AbstractLog where
  purged := log.purged
  entries := log.entries.take (id.index - nextIndex log.purged)
  vote := log.vote
  committed := log.committed
  contiguous := numbered_take log.contiguous _

def purge (id : LogId) (h : nextIndex log.purged ≤ id.index + 1) : AbstractLog where
  purged := some id
  entries := log.entries.drop (id.index + 1 - nextIndex log.purged)
  vote := log.vote
  committed := log.committed
  contiguous := by
    rw [numbered_drop log.contiguous, nextIndex, Nat.add_sub_cancel' h]

end AbstractLog

inductive LogOp
  | append (entries : List Entry)
  | truncate (id : LogId)
  | purge (id : LogId)
  | saveVote (vote : Vote)
  | saveCommitted (id : LogId)
  | reopen
deriving DecidableEq

inductive AbstractLog.Step (log : AbstractLog) : LogOp → AbstractLog → Prop
  | append {entries : List Entry} (h : log.Continues entries) :
      Step log (.append entries) (log.append entries h)
  | truncate {id : LogId} (h : ∀ purged ∈ log.purged, purged.index < id.index) :
      Step log (.truncate id) (log.truncate id)
  | purge {id : LogId} (h : nextIndex log.purged ≤ id.index + 1) :
      Step log (.purge id) (log.purge id h)
  | saveVote {vote : Vote} : Step log (.saveVote vote) { log with vote := some vote }
  | saveCommitted {id : LogId} : Step log (.saveCommitted id) { log with committed := some id }
  | reopen : Step log .reopen log

variable {Bytes : Type}

def LogOp.exec (codec : LogCodec Bytes) (io : Io) (db : LogDatabase Bytes) :
    LogOp → Except StorageError (LogDatabase Bytes)
  | .append entries => LogStore.append codec io db entries
  | .truncate id => LogStore.truncate io db id
  | .purge id => LogStore.purge codec io db id
  | .saveVote vote => LogStore.saveVote codec io db vote
  | .saveCommitted id => LogStore.saveCommitted codec io db (some id)
  | .reopen => LogStore.openDb io db

/-- The log store after a sequence of calls on a new file, next to the abstract log.  A call
that fails leaves no trace, and in between the state machine may write to the same file. -/
inductive LogRun (codec : LogCodec Bytes) :
    List LogOp → LogDatabase Bytes → AbstractLog → Prop
  | start : LogRun codec [] .empty .empty
  | step {ops : List LogOp} {op : LogOp} {io : Io} {db db' : LogDatabase Bytes}
      {log log' : AbstractLog} (hrun : LogRun codec ops db log) (hop : log.Step op log')
      (h : op.exec codec io db = .ok db') : LogRun codec (ops ++ [op]) db' log'
  | failed {ops : List LogOp} {op : LogOp} {io : Io} {db : LogDatabase Bytes} {log : AbstractLog}
      {e : StorageError} (hrun : LogRun codec ops db log) (h : op.exec codec io db = .error e) :
      LogRun codec ops db log
  | persist {ops : List LogOp} {smCodec : Codec Bytes} {io : Io} {n : Nat} {db : LogDatabase Bytes}
      {base : Database Bytes} {log : AbstractLog} {inner : SmInner}
      (hrun : LogRun codec ops db log)
      (h : persistState smCodec io n db.toDatabase inner = .ok base) :
      LogRun codec ops { db with toDatabase := base } log
  | snapshot {ops : List LogOp} {io : Io} {db : LogDatabase Bytes} {base : Database Bytes}
      {log : AbstractLog} {metaBytes data : Bytes} (hrun : LogRun codec ops db log)
      (h : saveSnapshot io db.toDatabase metaBytes data = .ok base) :
      LogRun codec ops { db with toDatabase := base } log

/-! ## Calls -/

variable {codec : LogCodec Bytes} {db db' : LogDatabase Bytes} {log log' : AbstractLog} {io : Io}

theorem forEach_fine {α : Type} {call : Nat → Except StorageError Unit} {items : List α}
    (h : ∀ n, call n = .ok ()) (n : Nat) : forEach call n items = .ok () := by
  induction items generalizing n with
  | nil => rfl
  | cons item items ih =>
      rw [forEach, h]
      exact ih (n + 1)

theorem removeRows_eq_ok {table table' : BTreeMap Nat Bytes} {selected : Nat → Bool}
    {name : String} (h : LogStore.removeRows io table selected name = .ok table') :
    table'.toList = table.toList.filter fun row => !selected row.1 := by
  simp only [LogStore.removeRows, bind_eq_ok, pure_eq_ok] at h
  obtain ⟨_, _, _, _, _, _, rfl⟩ := h
  exact toList_eraseAll_selected selected

theorem exec_fine (codec : LogCodec Bytes) (db : LogDatabase Bytes) (op : LogOp) :
    ∃ db', op.exec codec .fine db = .ok db' := by
  have hread : ∀ what n, ioRead .fine what n = .ok () := fun _ _ => rfl
  have hwrite : ∀ what n, ioWrite .fine what n = .ok () := fun _ _ => rfl
  have hremove : ∀ (table : BTreeMap Nat Bytes) selected name,
      ∃ table', LogStore.removeRows .fine table selected name = .ok table' := by
    intro table selected name
    simp only [LogStore.removeRows, hread, forEach_fine (hread _), forEach_fine (hwrite _)]
    exact ⟨_, rfl⟩
  cases op with
  | append entries =>
      simp only [LogOp.exec, LogStore.append, hwrite, forEach_fine (hwrite _)]
      exact ⟨_, rfl⟩
  | truncate id =>
      obtain ⟨table, htable⟩ := hremove db.logTable (fun key => decide (id.index ≤ key)) "truncate"
      simp only [LogOp.exec, LogStore.truncate, hwrite, htable]
      exact ⟨_, rfl⟩
  | purge id =>
      obtain ⟨table, htable⟩ := hremove db.logTable (fun key => decide (key ≤ id.index)) "purge"
      simp only [LogOp.exec, LogStore.purge, encode, hwrite, htable]
      exact ⟨_, rfl⟩
  | saveVote vote => exact ⟨_, rfl⟩
  | saveCommitted id => exact ⟨_, rfl⟩
  | reopen => exact ⟨_, rfl⟩

/-! ## The representation -/

def row (codec : LogCodec Bytes) (entry : Entry) : Nat × Bytes :=
  (entry.logId.index, codec.encodeEntry entry)

structure Represents (codec : LogCodec Bytes) (db : LogDatabase Bytes) (log : AbstractLog) :
    Prop where
  rows : db.logTable.toList = log.entries.map (row codec)
  purged : db.metaTable[keyLastPurged]? = log.purged.map codec.encodeLogId
  vote : db.metaTable[keyVote]? = log.vote.map codec.encodeVote
  committed : db.metaTable[keyCommitted]? =
    log.committed.map fun id => codec.encodeCommitted (some id)

theorem represents_empty : Represents codec .empty .empty := by
  refine ⟨?_, ?_, ?_, ?_⟩ <;> simp [LogDatabase.empty, Database.empty, AbstractLog.empty]

theorem toList_insertEntries {table : BTreeMap Nat Bytes} {entries : List Entry} {n : Nat}
    (htable : ∀ row ∈ table.toList, row.1 < n)
    (h : entries.map (fun e => e.logId.index) = List.range' n entries.length) :
    (LogStore.insertEntries codec table entries).toList =
      table.toList ++ entries.map (row codec) := by
  induction entries generalizing table n with
  | nil => simp [LogStore.insertEntries]
  | cons entry entries ih =>
      obtain ⟨hindex, hrest⟩ := numbered_tail h
      have hinsert : (table.insert entry.logId.index (codec.encodeEntry entry)).toList =
          table.toList ++ [row codec entry] :=
        toList_insert_last fun r hr => Nat.compare_eq_lt.mpr (hindex ▸ htable r hr)
      have hbelow : ∀ r ∈ (table.insert entry.logId.index (codec.encodeEntry entry)).toList,
          r.1 < n + 1 := by
        intro r hr
        rw [hinsert, List.mem_append, List.mem_singleton] at hr
        obtain hr | rfl := hr
        · exact Nat.lt_succ_of_lt (htable r hr)
        · exact Nat.lt_succ_of_le (Nat.le_of_eq hindex)
      rw [LogStore.insertEntries, List.foldl_cons, ← LogStore.insertEntries,
        ih hbelow hrest, hinsert,
        List.append_assoc]
      rfl

theorem Represents.rows_lt (h : Represents codec db log) :
    ∀ r ∈ db.logTable.toList, r.1 < log.next := by
  intro r hr
  rw [h.rows] at hr
  obtain ⟨entry, hentry, rfl⟩ := List.mem_map.mp hr
  exact (numbered_bounds log.contiguous hentry).2

theorem Represents.filter_rows (h : Represents codec db log) (p : Nat → Bool) :
    db.logTable.toList.filter (fun r => p r.1) =
      (log.entries.filter fun e => p e.logId.index).map (row codec) := by
  rw [h.rows, List.filter_map]
  rfl

/-! ## One call keeps the representation -/

theorem Represents.append {entries : List Entry} (h : Represents codec db log)
    (hnext : log.Continues entries) (hexec : LogStore.append codec io db entries = .ok db') :
    Represents codec db' (log.append entries hnext) := by
  simp only [LogStore.append, bind_eq_ok, pure_eq_ok] at hexec
  obtain ⟨_, _, _, _, _, _, _, _, _, _, rfl⟩ := hexec
  refine ⟨?_, h.purged, h.vote, h.committed⟩
  rw [toList_insertEntries h.rows_lt hnext, h.rows, AbstractLog.append, List.map_append]

theorem Represents.truncate {id : LogId} (h : Represents codec db log)
    (hexec : LogStore.truncate io db id = .ok db') : Represents codec db' (log.truncate id) := by
  simp only [LogStore.truncate, bind_eq_ok, pure_eq_ok] at hexec
  obtain ⟨_, _, _, _, table, htable, _, _, rfl⟩ := hexec
  refine ⟨?_, h.purged, h.vote, h.committed⟩
  rw [removeRows_eq_ok htable, h.filter_rows fun key => !decide (id.index ≤ key)]
  simp only [← decide_not, Nat.not_le, filter_lt_eq_take log.contiguous]
  rfl

theorem getElem?_setMeta {key key' : String} {bytes : Bytes} (hne : key ≠ key') :
    (LogStore.setMeta db key bytes).metaTable[key']? = db.metaTable[key']? := by
  have hcmp : compare key key' ≠ .eq := fun heq => hne (Std.LawfulEqCmp.eq_of_compare heq)
  rw [LogStore.setMeta, ExtTreeMap.getElem?_insert, if_neg hcmp]

theorem getElem?_setMeta_self {key : String} {bytes : Bytes} :
    (LogStore.setMeta db key bytes).metaTable[key]? = some bytes :=
  ExtTreeMap.getElem?_insert_self

theorem Represents.purge {id : LogId} (h : Represents codec db log)
    (hid : nextIndex log.purged ≤ id.index + 1) (hexec : LogStore.purge codec io db id = .ok db') :
    Represents codec db' (log.purge id hid) := by
  simp only [LogStore.purge, encode, bind_eq_ok, pure_eq_ok] at hexec
  obtain ⟨bytes, ⟨_, _, rfl⟩, _, _, _, _, table, htable, _, _, _, _, _, _, rfl⟩ := hexec
  refine ⟨?_, getElem?_setMeta_self, ?_, ?_⟩
  · rw [removeRows_eq_ok htable, h.filter_rows fun key => !decide (key ≤ id.index)]
    simp only [← decide_not, Nat.not_le, filter_gt_eq_drop log.contiguous]
    rfl
  · exact (getElem?_setMeta (by decide)).trans h.vote
  · exact (getElem?_setMeta (by decide)).trans h.committed

theorem saveMeta_eq_ok {key name : String} {bytes : Bytes}
    (h : LogStore.saveMeta io db key name bytes = .ok db') :
    db' = LogStore.setMeta db key bytes := by
  simp only [LogStore.saveMeta, encode, bind_eq_ok, pure_eq_ok] at h
  obtain ⟨_, ⟨_, _, rfl⟩, _, _, _, _, _, _, _, _, rfl⟩ := h
  rfl

theorem Represents.saveVote {vote : Vote} (h : Represents codec db log)
    (hexec : LogStore.saveVote codec io db vote = .ok db') :
    Represents codec db' { log with vote := some vote } := by
  obtain rfl := saveMeta_eq_ok hexec
  refine ⟨h.rows, ?_, getElem?_setMeta_self, ?_⟩
  · exact (getElem?_setMeta (by decide)).trans h.purged
  · exact (getElem?_setMeta (by decide)).trans h.committed

theorem Represents.saveCommitted {id : LogId} (h : Represents codec db log)
    (hexec : LogStore.saveCommitted codec io db (some id) = .ok db') :
    Represents codec db' { log with committed := some id } := by
  obtain rfl := saveMeta_eq_ok hexec
  refine ⟨h.rows, ?_, ?_, getElem?_setMeta_self⟩
  · exact (getElem?_setMeta (by decide)).trans h.purged
  · exact (getElem?_setMeta (by decide)).trans h.vote

theorem openDb_eq_ok (h : LogStore.openDb io db = .ok db') : db' = db := by
  simp only [LogStore.openDb, bind_eq_ok, pure_eq_ok] at h
  obtain ⟨_, _, _, _, _, _, _, _, _, _, _, _, _, _, rfl⟩ := h
  rfl

theorem Represents.step {op : LogOp} (h : Represents codec db log) (hop : log.Step op log')
    (hexec : op.exec codec io db = .ok db') : Represents codec db' log' := by
  cases hop with
  | append hnext => exact h.append hnext hexec
  | truncate _ => exact h.truncate hexec
  | purge hid => exact h.purge hid hexec
  | saveVote => exact h.saveVote hexec
  | saveCommitted => exact h.saveCommitted hexec
  | reopen =>
      obtain rfl := openDb_eq_ok hexec
      exact h

theorem Represents.persist {smCodec : Codec Bytes} {n : Nat} {base : Database Bytes}
    {inner : SmInner} (h : Represents codec db log)
    (hpersist : persistState smCodec io n db.toDatabase inner = .ok base) :
    Represents codec { db with toDatabase := base } log := by
  have hother := (persisted_of_persistState hpersist).other
  refine ⟨h.rows, ?_, ?_, ?_⟩
  · exact (hother _ (by decide) (by decide) (by decide)).trans h.purged
  · exact (hother _ (by decide) (by decide) (by decide)).trans h.vote
  · exact (hother _ (by decide) (by decide) (by decide)).trans h.committed

theorem Represents.snapshot {base : Database Bytes} {metaBytes data : Bytes}
    (h : Represents codec db log)
    (hsave : saveSnapshot io db.toDatabase metaBytes data = .ok base) :
    Represents codec { db with toDatabase := base } log := by
  simp only [saveSnapshot, bind_eq_ok, pure_eq_ok] at hsave
  obtain ⟨_, _, _, _, _, _, rfl⟩ := hsave
  exact ⟨h.rows, h.purged, h.vote, h.committed⟩

theorem LogRun.represents {ops : List LogOp} (h : LogRun codec ops db log) :
    Represents codec db log := by
  induction h with
  | start => exact represents_empty
  | step _ hop hexec ih => exact ih.step hop hexec
  | failed _ _ ih => exact ih
  | persist _ hpersist ih => exact ih.persist hpersist
  | snapshot _ hsave ih => exact ih.snapshot hsave

/-! ## Reading -/

theorem readEntries_rows (hcodec : codec.Lossless) (entries : List Entry) (n : Nat) :
    LogStore.readEntries codec .fine n (entries.map (row codec)) = .ok entries := by
  induction entries generalizing n with
  | nil => rfl
  | cons entry entries ih =>
      rw [List.map_cons, row, LogStore.readEntries, hcodec.entry, ih]
      rfl

theorem readLast_rows (hcodec : codec.Lossless) (entries : List Entry) (n : Nat)
    (last : Option LogId) :
    LogStore.readLast codec .fine n last (entries.map (row codec)) =
      .ok ((entries.getLast?.map Entry.logId).or last) := by
  induction entries generalizing n last with
  | nil => rfl
  | cons entry entries ih =>
      have hstep : LogStore.readLast codec .fine n last ((entry :: entries).map (row codec)) =
          LogStore.readLast codec .fine (n + 1) (some entry.logId) (entries.map (row codec)) := by
        rw [List.map_cons, row, LogStore.readLast, hcodec.entry]
        rfl
      rw [hstep, ih, List.getLast?_cons]
      cases entries.getLast? with
      | none => rfl
      | some e => rfl

/-- After any sequence of calls the log store reads as the abstract log, and its next call
succeeds if the database does. -/
theorem log_store_refines {ops : List LogOp} (hcodec : codec.Lossless)
    (hrun : LogRun codec ops db log) :
    (∀ range, LogStore.tryGetLogEntries codec .fine db range =
      .ok (log.entries.filter fun e => range.contains e.logId.index)) ∧
    LogStore.getLogState codec .fine db = .ok ⟨log.purged, log.last⟩ ∧
    LogStore.readVote codec .fine db = .ok log.vote ∧
    LogStore.readCommitted codec .fine db = .ok log.committed ∧
    ∀ op : LogOp, ∃ db', op.exec codec .fine db = .ok db' := by
  have h := hrun.represents
  refine ⟨fun range => ?_, ?_, ?_, ?_, exec_fine codec db⟩
  · have hread := readEntries_rows hcodec
      (log.entries.filter fun e => range.contains e.logId.index) 0
    rw [← h.filter_rows range.contains] at hread
    exact hread
  · have hpurged : metaDecode .fine 0 db.toDatabase keyLastPurged "decode last_purged"
        codec.decodeLogId = .ok log.purged := metaDecode_stored hcodec.logId h.purged
    have hlast := readLast_rows hcodec log.entries 0 none
    rw [← h.rows, Option.or_none] at hlast
    simp only [LogStore.getLogState, hpurged, hlast]
    rfl
  · exact metaDecode_stored hcodec.vote h.vote
  · exact metaDecode_stored hcodec.committed h.committed

/-! ## An instance

Encodings that keep the encoded value, and a log that is purged beyond its end. -/

inductive LogBlob
  | entry (entry : Entry)
  | vote (vote : Vote)
  | logId (id : LogId)
  | committed (id : Option LogId)

def sampleLogCodec : LogCodec LogBlob where
  encodeEntry := .entry
  decodeEntry
    | .entry e => .ok e
    | _ => .error "expected an entry"
  encodeVote := .vote
  decodeVote
    | .vote v => .ok v
    | _ => .error "expected a vote"
  encodeLogId := .logId
  decodeLogId
    | .logId id => .ok id
    | _ => .error "expected a log id"
  encodeCommitted := .committed
  decodeCommitted
    | .committed (some id) => .ok id
    | _ => .error "expected a log id"

theorem sampleLogCodec_lossless : sampleLogCodec.Lossless :=
  ⟨fun _ => rfl, fun _ => rfl, fun _ => rfl, fun _ => rfl⟩

def blankAt (index : Nat) : Entry := ⟨⟨⟨1, 1⟩, index⟩, .blank⟩

/-- Two entries, a purge beyond them, two entries behind it, and the last one truncated. -/
def purgedOps : List LogOp :=
  [.append [blankAt 0, blankAt 1], .purge (blankAt 4).logId, .append [blankAt 5, blankAt 6],
    .reopen, .truncate (blankAt 6).logId]

theorem purgedOps_run :
    ∃ db log, LogRun sampleLogCodec purgedOps db log ∧ log.entries = [blankAt 5] ∧
      log.purged = some (blankAt 4).logId := by
  obtain ⟨db₁, h₁⟩ := exec_fine sampleLogCodec .empty (.append [blankAt 0, blankAt 1])
  have first : AbstractLog.empty.Continues [blankAt 0, blankAt 1] := rfl
  have run₁ := LogRun.start.step (.append first) h₁
  obtain ⟨db₂, h₂⟩ := exec_fine sampleLogCodec db₁ (.purge (blankAt 4).logId)
  have beyond : nextIndex (AbstractLog.empty.append _ first).purged ≤
      (blankAt 4).logId.index + 1 := Nat.zero_le _
  have run₂ := run₁.step (.purge beyond) h₂
  obtain ⟨db₃, h₃⟩ := exec_fine sampleLogCodec db₂ (.append [blankAt 5, blankAt 6])
  have second : ((AbstractLog.empty.append _ first).purge _ beyond).Continues
      [blankAt 5, blankAt 6] := rfl
  have run₃ := run₂.step (.append second) h₃
  obtain ⟨db₄, h₄⟩ := exec_fine sampleLogCodec db₃ .reopen
  have run₄ := run₃.step .reopen h₄
  obtain ⟨db₅, h₅⟩ := exec_fine sampleLogCodec db₄ (.truncate (blankAt 6).logId)
  have habove : ∀ purged ∈ some (blankAt 4).logId, purged.index < (blankAt 6).logId.index := by
    intro purged hpurged
    obtain rfl := Option.mem_some_iff.mp hpurged
    decide
  exact ⟨db₅, _, run₄.step (.truncate habove) h₅, rfl, rfl⟩

theorem log_store_refines_purgedOps :
    ∃ db, LogStore.tryGetLogEntries sampleLogCodec .fine db ⟨.included 3, .unbounded⟩ =
        .ok [blankAt 5] ∧
      LogStore.getLogState sampleLogCodec .fine db =
        .ok ⟨some (blankAt 4).logId, some (blankAt 5).logId⟩ := by
  obtain ⟨db, log, hrun, hentries, hpurged⟩ := purgedOps_run
  obtain ⟨hread, hstate, _⟩ := log_store_refines sampleLogCodec_lossless hrun
  refine ⟨db, (hread _).trans ?_, hstate.trans ?_⟩
  · rw [hentries]
    rfl
  · rw [AbstractLog.last, hentries, hpurged]
    rfl

end NexusAuth.Raft
