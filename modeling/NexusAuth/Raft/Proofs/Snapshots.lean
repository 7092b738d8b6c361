import NexusAuth.Raft.Proofs.Replica

/-!
# What an action does to the stored snapshot

`SnapshotStep` says what one action of a replica can do to the snapshot tables, to
the builders in flight and to the readers between their two reads.  All that is
shown about snapshots under interleavings is derived from it.
-/

namespace NexusAuth.Raft

open Std (ExtTreeMap)
open NexusAuth.Authority NexusAuth.Lib NexusAuth.Lib.OrderedMap NexusAuth.Lib.Results

variable {Bytes : Type} {setting : Setting Bytes} {io : Io} {db db' : Database Bytes}
  {replica : Replica Bytes} {p : Process Bytes}

/-! ## Which calls a commit needs -/

def snapshotCalls : List (String × Nat) :=
  [("cbor encode", 0), ("cbor encode", 1), ("begin snapshot", 0), ("open snapshot table", 0),
    ("save snapshot meta", 0), ("save snapshot data", 0), ("commit snapshot", 0)]

def Io.CommitsSnapshot (io : Io) : Prop := ∀ call ∈ snapshotCalls, io call.1 call.2 = none

instance (io : Io) : Decidable io.CommitsSnapshot :=
  inferInstanceAs (Decidable (∀ call ∈ snapshotCalls, io call.1 call.2 = none))

theorem ioWrite_eq_ok {what : String} {n : Nat} {u : Unit} (h : ioWrite io what n = .ok u) :
    io what n = none := by
  unfold ioWrite at h
  split at h
  · assumption
  · cases h

theorem ioWrite_of_none {what : String} {n : Nat} (h : io what n = none) :
    ioWrite io what n = .ok () := by
  rw [ioWrite, h]

theorem io_of_encode {n : Nat} {bytes bytes' : Bytes} (h : encode io n bytes = .ok bytes') :
    io "cbor encode" n = none := by
  obtain ⟨u, hwrite, -⟩ := bind_eq_ok.mp h
  exact ioWrite_eq_ok hwrite

theorem encode_of_none {n : Nat} (bytes : Bytes) (h : io "cbor encode" n = none) :
    encode io n bytes = .ok bytes := by
  rw [encode, ioWrite_of_none h]
  rfl

theorem commitsSnapshot_of_finishSnapshot {codec : Codec Bytes} {captured : SmInner}
    {snapshotIdx idx : Nat} {snapshot : Snapshot Bytes}
    (h : finishSnapshot codec io db snapshotIdx captured = (idx, .ok (db', snapshot))) :
    io.CommitsSnapshot := by
  obtain ⟨hdata, -, -, hcommit⟩ := committed_of_finishSnapshot h
  obtain ⟨metaBytes, hmeta, hrest⟩ := bind_eq_ok.mp hcommit
  obtain ⟨_, hbegin, hrest⟩ := bind_eq_ok.mp hrest
  obtain ⟨w, hsave, hrest⟩ := bind_eq_ok.mp hrest
  obtain ⟨_, hend, -⟩ := bind_eq_ok.mp hrest
  obtain ⟨_, hopen, hsave⟩ := bind_eq_ok.mp hsave
  obtain ⟨_, hsaveMeta, hsave⟩ := bind_eq_ok.mp hsave
  obtain ⟨_, hsaveData, -⟩ := bind_eq_ok.mp hsave
  intro call hcall
  simp only [snapshotCalls, List.mem_cons, List.not_mem_nil, or_false] at hcall
  rcases hcall with rfl | rfl | rfl | rfl | rfl | rfl | rfl
  · exact io_of_encode hdata
  · exact io_of_encode hmeta
  · exact ioWrite_eq_ok hbegin
  · exact ioWrite_eq_ok hopen
  · exact ioWrite_eq_ok hsaveMeta
  · exact ioWrite_eq_ok hsaveData
  · exact ioWrite_eq_ok hend

theorem finishSnapshot_of_commitsSnapshot (hio : io.CommitsSnapshot) (codec : Codec Bytes)
    (db : Database Bytes) (snapshotIdx : Nat) (captured : SmInner) :
    ∃ idx out, finishSnapshot codec io db snapshotIdx captured = (idx, .ok out) := by
  have hcall : ∀ what n, (what, n) ∈ snapshotCalls → io what n = none :=
    fun what n hmem => hio (what, n) hmem
  have hsave : ∀ metaBytes data : Bytes, saveSnapshot io db metaBytes data =
      .ok (db.withSnapshot metaBytes data) := by
    intro metaBytes data
    rw [saveSnapshot, ioWrite_of_none (hcall _ _ (by decide)),
      ioWrite_of_none (hcall _ _ (by decide)), ioWrite_of_none (hcall _ _ (by decide))]
    rfl
  have hcommit : ∀ snapshot : Snapshot Bytes, commitSnapshot codec io db snapshot =
      .ok (db.withSnapshot (codec.encodeMeta snapshot.info) snapshot.data) := by
    intro snapshot
    rw [commitSnapshot, encode_of_none _ (hcall _ _ (by decide)),
      ioWrite_of_none (hcall "begin snapshot" 0 (by decide)),
      ioWrite_of_none (hcall "commit snapshot" 0 (by decide))]
    change (saveSnapshot io db _ _ >>= fun w => Except.ok () >>= fun _ => pure w) = _
    rw [hsave]
    rfl
  rw [finishSnapshot, encode_of_none _ (hcall _ _ (by decide))]
  simp only [hcommit]
  exact ⟨_, _, rfl⟩

/-! ## One action -/

/-- Where a committed snapshot comes from: a builder, or an installation at or beyond
the applied position. -/
inductive SnapshotSource (p p' : Process Bytes) (logId : Option LogId) : Action → Prop
  | builder {builder : Nat} {io : Io} {b : Builder} (hb : p.builders[builder]? = some b)
      (hio : io.CommitsSnapshot) (hid : logId = b.captured.applied)
      (hinner : p'.inner = p.inner) : SnapshotSource p p' logId (.finish builder io)
  | installed {snapshot : Nat} {io : Io} (hbeyond : logKey p.inner.applied ≤ logKey logId)
      (hinner : p'.inner.applied = logId) : SnapshotSource p p' logId (.install snapshot io)

inductive SnapshotStep (setting : Setting Bytes) (action : Action) (replica after : Replica Bytes) :
    Prop
  | quiet (htable : after.db.snapshotTable = replica.db.snapshotTable)
      (hcommits : after.commits = replica.commits)
      (hbuilders : ∀ p', after.process = some p' → ∀ b ∈ p'.builders,
        ∃ p, replica.process = some p ∧ (b ∈ p.builders ∨ b = ⟨p.inner, false⟩))
      (hreaders : ∀ p', after.process = some p' → ∀ reader ∈ p'.readers,
        (∃ p, replica.process = some p ∧ reader ∈ p.readers) ∨
          replica.db.snapshotTable[keySnapshotMeta]? = some reader.metaBytes ∧
            replica.db.snapshotTable[keySnapshotData]? = reader.dataThen)
  | committed {p p' : Process Bytes} {snapshot : Snapshot Bytes}
      (hp : replica.process = some p) (hp' : after.process = some p')
      (hsource : SnapshotSource p p' snapshot.info.lastLogId action)
      (hsnapshot : setting.IsSnapshot snapshot)
      (htable : after.db.snapshotTable = (replica.db.withSnapshot
        (setting.codec.encodeMeta snapshot.info) snapshot.data).snapshotTable)
      (hcommits : after.commits =
        (setting.codec.encodeMeta snapshot.info, snapshot.data) :: replica.commits)
      (hreaders : p'.readers = p.readers)
      (hbuilders : ∀ b' ∈ p'.builders, ∃ b ∈ p.builders,
        b' = b.noteCommit snapshot.info.lastLogId)

theorem SnapshotStep.of_same {action : Action} {after : Replica Bytes}
    (htable : after.db.snapshotTable = replica.db.snapshotTable)
    (hcommits : after.commits = replica.commits)
    (hprocess : ∀ p', after.process = some p' → ∃ p, replica.process = some p ∧
      p'.builders ⊆ p.builders ∧ p'.readers ⊆ p.readers) :
    SnapshotStep setting action replica after := by
  refine .quiet htable hcommits ?_ ?_
  · intro p' hp' b hb
    obtain ⟨p, hp, hbuilders, -⟩ := hprocess p' hp'
    exact ⟨p, hp, Or.inl (hbuilders hb)⟩
  · intro p' hp' reader hreader
    obtain ⟨p, hp, -, hreaders⟩ := hprocess p' hp'
    exact Or.inl ⟨p, hp, hreaders hreader⟩

theorem SnapshotStep.refl (action : Action) : SnapshotStep setting action replica replica :=
  .of_same rfl rfl fun p hp => ⟨p, hp, fun _ h => h, fun _ h => h⟩

variable {k : Nat}

theorem applyNext_snapshotStep (hp : replica.process = some p) {action : Action} (count : Nat) :
    SnapshotStep setting action replica (replica.applyNext setting p count io).1 := by
  unfold Replica.applyNext
  split
  · exact .refl action
  · split
    · exact .refl action
    · split
      · exact .refl action
      · rename_i db inner responses happly
        obtain ⟨-, hpersist⟩ := apply_eq_ok happly
        refine .of_same ?_ rfl ?_
        · rw [persistState_eq_ok hpersist]
        · intro p' hp'
          cases hp'
          exact ⟨p, hp, fun _ h => h, fun _ h => h⟩

theorem capture_snapshotStep (hp : replica.process = some p) {action : Action} :
    SnapshotStep setting action replica (replica.capture p).1 := by
  refine .quiet rfl rfl ?_ ?_
  · intro p' hp' b hb
    cases hp'
    refine ⟨p, hp, ?_⟩
    rcases List.mem_append.mp hb with hold | hnew
    · exact Or.inl hold
    · exact Or.inr (List.mem_singleton.mp hnew)
  · intro p' hp' reader hreader
    cases hp'
    exact Or.inl ⟨p, hp, hreader⟩

theorem finish_snapshotStep (h : replica.At setting k) (hp : replica.process = some p)
    (builder : Nat) (io : Io) :
    SnapshotStep setting (.finish builder io) replica (replica.finish setting p builder io).1 := by
  have hexplains := (finish_at h hp builder io).2
  revert hexplains
  unfold Replica.finish
  split
  · exact fun _ => .refl _
  · rename_i b hb
    simp only
    split
    · intro _
      refine .of_same rfl rfl ?_
      intro p' hp'
      cases hp'
      exact ⟨p, hp, List.eraseIdx_subset, fun _ h => h⟩
    · rename_i idx db snapshot hfinish
      rintro ⟨-, hsnapshot⟩
      obtain ⟨⟨hid, -, -⟩, rfl⟩ := finishSnapshot_eq_ok hfinish
      refine .committed hp rfl (.builder hb (commitsSnapshot_of_finishSnapshot hfinish) hid rfl)
        hsnapshot rfl rfl rfl ?_
      intro b' hb'
      obtain ⟨b₀, hb₀, rfl⟩ := List.mem_map.mp hb'
      exact ⟨b₀, List.mem_of_mem_eraseIdx hb₀, rfl⟩

theorem install_snapshotStep (hp : replica.process = some p) {snapshot : Snapshot Bytes}
    (hsnapshot : setting.IsSnapshot snapshot) (index : Nat) (io : Io) :
    SnapshotStep setting (.install index io) replica
      (replica.install setting p snapshot io).1 := by
  unfold Replica.install
  split
  · exact .refl _
  · rename_i hguard
    simp only [not_or, not_lt] at hguard
    split
    · exact .refl _
    · rename_i db inner hinstall
      obtain ⟨⟨state, -, rfl⟩, mid, hpersist, rfl⟩ := installSnapshot_eq_ok hinstall
      refine .committed hp rfl (.installed hguard.2 rfl) hsnapshot ?_ rfl rfl ?_
      · rw [persistState_eq_ok hpersist]
        rfl
      · intro b' hb'
        obtain ⟨b₀, hb₀, rfl⟩ := List.mem_map.mp hb'
        exact ⟨b₀, hb₀, rfl⟩

theorem snapshotGet_eq_ok {n : Nat} {key : String} {value : Option Bytes}
    (h : snapshotGet io n db key = .ok value) : value = db.snapshotTable[key]? := by
  obtain ⟨-, -, h⟩ := bind_eq_ok.mp h
  obtain ⟨-, -, h⟩ := bind_eq_ok.mp h
  obtain ⟨-, -, h⟩ := bind_eq_ok.mp h
  cases h
  rfl

theorem readMeta_snapshotStep (hp : replica.process = some p) {action : Action} :
    SnapshotStep setting action replica (replica.readMeta p io).1 := by
  unfold Replica.readMeta
  split
  · exact .refl action
  · exact .refl action
  · rename_i metaBytes hread
    refine .quiet rfl rfl ?_ ?_
    · intro p' hp' b hb
      cases hp'
      exact ⟨p, hp, Or.inl hb⟩
    · intro p' hp' reader hreader
      cases hp'
      rcases List.mem_append.mp hreader with hold | hnew
      · exact Or.inl ⟨p, hp, hold⟩
      · obtain rfl := List.mem_singleton.mp hnew
        exact Or.inr ⟨(snapshotGet_eq_ok hread).symm, rfl⟩

theorem readData_snapshotStep (hp : replica.process = some p) {action : Action} (reader : Nat) :
    SnapshotStep setting action replica (replica.readData setting p reader io).1 := by
  unfold Replica.readData
  split
  · exact .refl action
  · refine .of_same rfl rfl ?_
    intro p' hp'
    cases hp'
    exact ⟨p, hp, fun _ h => h, List.eraseIdx_subset⟩

theorem act_snapshotStep {built : List (Snapshot Bytes)}
    (hbuilt : ∀ snapshot ∈ built, setting.IsSnapshot snapshot) (h : replica.At setting k)
    (action : Action) :
    SnapshotStep setting action replica (replica.act setting built action).1 := by
  unfold Replica.act
  split
  · rename_i io hnone
    unfold Replica.reopen
    split
    · exact .refl _
    · refine .quiet rfl rfl ?_ ?_
      · intro p' hp' b hb
        cases hp'
        cases hb
      · intro p' hp' reader hreader
        cases hp'
        cases hreader
  · rename_i p count io hp
    exact applyNext_snapshotStep hp count
  · rename_i p hp
    exact capture_snapshotStep hp
  · rename_i p builder io hp
    exact finish_snapshotStep h hp builder io
  · rename_i p index io hp
    split
    · exact .refl _
    · rename_i snapshot hindex
      exact install_snapshotStep hp (hbuilt snapshot (List.mem_of_getElem? hindex)) index io
  · rename_i p io hp
    exact readMeta_snapshotStep hp
  · rename_i p reader io hp
    exact readData_snapshotStep hp reader
  · refine .of_same rfl rfl ?_
    intro p' hp'
    cases hp'
  · exact .refl _

theorem snapshotStep_after (hcodec : setting.codec.Lossless) (hlog : setting.Increasing)
    {events : List (NodeId × Action)} {n : Nat} (hn : n < events.length) (r : NodeId) :
    SnapshotStep setting events[n].2 ((Cluster.after setting events n).replicas r)
      ((Cluster.after setting events (n + 1)).replicas r) := by
  have hsound := sound_after hcodec hlog events n
  rw [Cluster.after_succ hn]
  by_cases hr : r = events[n].1
  · subst hr
    obtain ⟨k, hk⟩ := hsound.replica events[n].1
    rw [step_replicas_self]
    exact act_snapshotStep hsound.built hk events[n].2
  · rw [step_replicas_of_ne _ hr]
    exact .refl _

end NexusAuth.Raft
