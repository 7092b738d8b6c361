import NexusAuth.Raft.Proofs.Snapshots

/-!
# Serving the current snapshot

`get_current_snapshot` reads the meta and the data in two transactions.  What it
returns was written by one commit, and is the policy state at the log id it
carries, exactly when the data it reads is the data that was stored next to the
meta it read.  `getCurrentSnapshot_torn` is a run in which a builder commits in
between.
-/

namespace NexusAuth.Raft

open Std (ExtTreeMap)
open NexusAuth.Authority NexusAuth.Lib NexusAuth.Lib.OrderedMap NexusAuth.Lib.Results

variable {Bytes : Type} {setting : Setting Bytes} {io : Io} {db : Database Bytes}
  {replica : Replica Bytes} {p : Process Bytes}

/-- The tables hold the latest committed pair, all pairs are snapshots of prefixes, and
a reader holds the first half of some pair. -/
structure Replica.Paired (setting : Setting Bytes) (replica : Replica Bytes) : Prop where
  storedMeta : replica.db.snapshotTable[keySnapshotMeta]? = replica.commits.head?.map Prod.fst
  storedData : replica.db.snapshotTable[keySnapshotData]? = replica.commits.head?.map Prod.snd
  pairs : ∀ pair ∈ replica.commits, ∃ snapshot, setting.IsSnapshot snapshot ∧
    pair = (setting.codec.encodeMeta snapshot.info, snapshot.data)
  readers : ∀ p, replica.process = some p → ∀ reader ∈ p.readers,
    ∃ data, reader.dataThen = some data ∧ (reader.metaBytes, data) ∈ replica.commits

theorem paired_of_snapshotStep {action : Action} {after : Replica Bytes}
    (h : replica.Paired setting) (hstep : SnapshotStep setting action replica after) :
    after.Paired setting := by
  cases hstep with
  | quiet htable hcommits hbuilders hreaders =>
      refine ⟨?_, ?_, ?_, ?_⟩
      · rw [htable, hcommits]
        exact h.storedMeta
      · rw [htable, hcommits]
        exact h.storedData
      · rw [hcommits]
        exact h.pairs
      · intro p' hp' reader hreader
        rw [hcommits]
        rcases hreaders p' hp' reader hreader with ⟨p, hp, hold⟩ | ⟨hmeta, hdata⟩
        · exact h.readers p hp reader hold
        · rw [h.storedMeta] at hmeta
          rw [h.storedData] at hdata
          obtain ⟨pair, hhead, hfst⟩ := Option.map_eq_some_iff.mp hmeta
          rw [hhead, Option.map_some] at hdata
          refine ⟨pair.2, hdata.symm, ?_⟩
          rw [← hfst]
          exact List.mem_of_head? hhead
  | @committed p p' snapshot hp hp' hsource hsnapshot htable hcommits hreaders hbuilders =>
      refine ⟨?_, ?_, ?_, ?_⟩
      · rw [htable, hcommits, withSnapshot_meta]
        rfl
      · rw [htable, hcommits, withSnapshot_data]
        rfl
      · intro pair hpair
        rw [hcommits] at hpair
        rcases List.mem_cons.mp hpair with rfl | hold
        · exact ⟨snapshot, hsnapshot, rfl⟩
        · exact h.pairs pair hold
      · intro q hq reader hreader
        obtain rfl := Option.some.inj (hp'.symm.trans hq)
        rw [hreaders] at hreader
        obtain ⟨data, hthen, hmem⟩ := h.readers p hp reader hreader
        rw [hcommits]
        exact ⟨data, hthen, List.mem_cons_of_mem _ hmem⟩

theorem paired_after (hcodec : setting.codec.Lossless) (hlog : setting.Increasing)
    (events : List (NodeId × Action)) (n : Nat) (r : NodeId) :
    ((Cluster.after setting events n).replicas r).Paired setting := by
  apply Cluster.invariant_after (P := fun c => (c.replicas r).Paired setting)
  · refine ⟨?_, ?_, ?_, ?_⟩
    · exact ExtTreeMap.getElem?_empty
    · exact ExtTreeMap.getElem?_empty
    · intro pair hpair
      cases hpair
    · intro p hp
      cases hp
  · intro n hn h
    exact paired_of_snapshotStep h (snapshotStep_after hcodec hlog hn r)

/-- The snapshot is one that a single commit wrote, and its data is the policy state at
the log id it carries. -/
def Replica.Untorn (setting : Setting Bytes) (replica : Replica Bytes)
    (snapshot : Snapshot Bytes) : Prop :=
  (∃ pair ∈ replica.commits, setting.codec.decodeMeta pair.1 = .ok snapshot.info ∧
    pair.2 = snapshot.data) ∧
  ∃ k ≤ setting.log.length, snapshot.info.lastLogId = setting.idAt k ∧
    setting.codec.decodeState snapshot.data = .ok (setting.policyAt k)

theorem readSnapshotData_eq_ok {codec : Codec Bytes} {metaBytes : Bytes}
    {snapshot : Snapshot Bytes}
    (h : readSnapshotData codec io db metaBytes = .ok (some snapshot)) :
    db.snapshotTable[keySnapshotData]? = some snapshot.data ∧
      codec.decodeMeta metaBytes = .ok snapshot.info := by
  obtain ⟨stored, hget, h⟩ := bind_eq_ok.mp h
  cases stored with
  | none => cases h
  | some data =>
      obtain ⟨info, hinfo, h⟩ := bind_eq_ok.mp h
      cases h
      exact ⟨(snapshotGet_eq_ok hget).symm, decode_eq_ok hinfo⟩

/-- What a reader with the given pending read is served, when the `n`-th event lets it
do its second read. -/
theorem served_of_readData {events : List (NodeId × Action)} {n : Nat} (hn : n < events.length)
    {reader : Nat} {pending : Reader Bytes} {result : Except StorageError (Option (Snapshot Bytes))}
    (hevent : events[n].2 = .readData reader io)
    (hp : ((Cluster.after setting events n).replicas events[n].1).process = some p)
    (hpending : p.readers[reader]? = some pending)
    (hserved : Cluster.replyAt setting events n = some (.served result)) :
    readSnapshotData setting.codec io ((Cluster.after setting events n).replicas events[n].1).db
      pending.metaBytes = result := by
  rw [Cluster.replyAt, List.getElem?_eq_getElem hn, Option.map_some, Cluster.reply,
    hevent] at hserved
  simp only [Replica.act, hp, Replica.readData, hpending, Option.some.injEq,
    Reply.served.injEq] at hserved
  exact hserved

/-- A snapshot is served untorn exactly when the data read second is the data that was
stored at the first read. -/
theorem served_snapshot_untorn_iff (setting : Setting Bytes) (hcodec : setting.codec.Lossless)
    (hlog : setting.Increasing) (events : List (NodeId × Action)) (n : Nat)
    (hn : n < events.length) (reader : Nat) (io : Io) (p : Process Bytes) (pending : Reader Bytes)
    (snapshot : Snapshot Bytes)
    (hevent : events[n].2 = .readData reader io)
    (hp : ((Cluster.after setting events n).replicas events[n].1).process = some p)
    (hpending : p.readers[reader]? = some pending)
    (hserved : Cluster.replyAt setting events n = some (.served (.ok (some snapshot)))) :
    ((Cluster.after setting events n).replicas events[n].1).Untorn setting snapshot ↔
      ((Cluster.after setting events n).replicas events[n].1).db.snapshotTable[keySnapshotData]? =
        pending.dataThen := by
  have hpaired := paired_after hcodec hlog events n events[n].1
  have hread := served_of_readData hn hevent hp hpending hserved
  obtain ⟨hdata, hinfo⟩ := readSnapshotData_eq_ok hread
  obtain ⟨data, hthen, hpair⟩ := hpaired.readers p hp pending (List.mem_of_getElem? hpending)
  obtain ⟨source, ⟨k, hk, hid, -, hsource⟩, hpairEq⟩ := hpaired.pairs _ hpair
  obtain ⟨hmetaBytes, rfl⟩ := Prod.mk.inj hpairEq
  have hsourceInfo : source.info = snapshot.info := by
    rw [hmetaBytes, hcodec.info] at hinfo
    exact Except.ok.inj hinfo
  rw [hdata, hthen, Option.some.injEq]
  constructor
  · rintro ⟨⟨pair, hmem, hinfo', hdata'⟩, -⟩
    obtain ⟨other, ⟨j, hj, hid', -, hother⟩, rfl⟩ := hpaired.pairs pair hmem
    have hotherInfo : other.info = snapshot.info := by
      rw [hcodec.info] at hinfo'
      exact Except.ok.inj hinfo'
    -- one log id, one position, one state
    have hposition : j = k := by
      apply setting.idAt_injective hlog hj hk
      rw [← hid', ← hid, hotherInfo, hsourceInfo]
    rw [← hdata', hother, hsource, hposition]
  · intro hsame
    refine ⟨⟨_, hpair, hinfo, hsame.symm⟩, k, hk, ?_, ?_⟩
    · rw [← hsourceInfo, hid]
    · rw [hsame, hsource, hcodec.state]

/-- A builder commits the next snapshot between the two reads of node 1. -/
def tornRead : List (NodeId × Action) :=
  [(1, .reopen .fine), (1, .apply 2 .fine), (1, .capture), (1, .finish 0 .fine),
    (1, .apply 2 .fine), (1, .capture), (1, .readMeta .fine), (1, .finish 0 .fine),
    (1, .readData 0 .fine)]

/-- Node 1 serves the meta of the snapshot at its second entry with the state after its
fourth. -/
theorem getCurrentSnapshot_torn :
    ∃ snapshot, Cluster.replyAt sampleSetting tornRead 8 = some (.served (.ok (some snapshot))) ∧
      snapshot.info.lastLogId = sampleSetting.idAt 2 ∧
      sampleCodec.decodeState snapshot.data = .ok (sampleSetting.policyAt 4) ∧
      sampleSetting.policyAt 4 ≠ sampleSetting.policyAt 2 ∧
      ∀ pair ∈ ((Cluster.after sampleSetting tornRead 8).replicas 1).commits,
        ¬(sampleCodec.decodeMeta pair.1 = .ok snapshot.info ∧ pair.2 = snapshot.data) := by
  refine ⟨⟨⟨some ⟨⟨1, 1⟩, 2⟩, sampleSetting.membershipAt 2, "T1-N1-2-1"⟩,
    .state (sampleSetting.policyAt 4)⟩, ?_⟩
  decide +kernel

def repeatedSnapshot : List (NodeId × Action) :=
  [(1, .reopen .fine), (1, .apply 2 .fine), (1, .capture), (1, .finish 0 .fine), (1, .capture),
    (1, .apply 2 .fine), (1, .readMeta .fine), (1, .finish 0 .fine), (1, .readData 0 .fine)]

theorem served_snapshot_untorn_repeatedSnapshot :
    ∃ snapshot,
      Cluster.replyAt sampleSetting repeatedSnapshot 8 = some (.served (.ok (some snapshot))) ∧
      ((Cluster.after sampleSetting repeatedSnapshot 8).replicas 1).Untorn sampleSetting
        snapshot := by
  have hserved : Cluster.replyAt sampleSetting repeatedSnapshot 8 =
      some (.served (.ok (some ⟨⟨some ⟨⟨1, 1⟩, 2⟩, sampleSetting.membershipAt 2, "T1-N1-2-1"⟩,
        .state (sampleSetting.policyAt 2)⟩))) := by decide +kernel
  have hthen : (((Cluster.after sampleSetting repeatedSnapshot 8).replicas 1).process.bind fun p =>
      p.readers[0]?.map Reader.dataThen) = some (some (.state (sampleSetting.policyAt 2))) := by
    decide +kernel
  have hnow : ((Cluster.after sampleSetting repeatedSnapshot 8).replicas
      1).db.snapshotTable[keySnapshotData]? = some (.state (sampleSetting.policyAt 2)) := by
    decide +kernel
  obtain ⟨p, hp, hreader⟩ := Option.bind_eq_some_iff.mp hthen
  obtain ⟨pending, hpending, hdata⟩ := Option.map_eq_some_iff.mp hreader
  refine ⟨_, hserved, ?_⟩
  apply (served_snapshot_untorn_iff sampleSetting sampleCodec_lossless (by decide)
    repeatedSnapshot 8 (by decide) 0 .fine p pending _ rfl hp hpending hserved).mpr
  exact hnow.trans hdata.symm

end NexusAuth.Raft
