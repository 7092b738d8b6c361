import NexusAuth.Raft.Proofs.LogStore
import NexusAuth.Raft.Proofs.Storage

/-!
# Stored positions and reopening

The committed id and the applied id are optional values.  They are written as such, and read
back under a key that may be missing: the reader takes the missing key for the absent value
and decodes what is there as a plain log id.  A present id is read back, and so is nothing at
all; an absent id that was written is not, and then the file cannot be opened.
-/

namespace NexusAuth.Raft

open Std (ExtTreeMap)
open NexusAuth.Authority NexusAuth.Lib.OrderedMap NexusAuth.Lib.Results

variable {Bytes : Type}

/-- The file and the memory of the state machine, with the committed id of the last
`save_committed` and the applied id of the last `apply` or `install_snapshot`, where there
was one. -/
structure Positions (Bytes : Type) where
  db : LogDatabase Bytes
  inner : SmInner
  committed : Option (Option LogId)
  applied : Option (Option LogId)

namespace Positions

def start (network : String) : Positions Bytes :=
  ⟨.empty, ⟨.new network, none, .empty⟩, none, none⟩

/-- A call that succeeds; one that fails leaves no trace. -/
inductive Step (prim : Primitives) (codec : Codec Bytes) (logCodec : LogCodec Bytes)
    (network : String) : Positions Bytes → Positions Bytes → Prop
  | saveCommitted {p : Positions Bytes} {io : Io} {id : Option LogId} {db : LogDatabase Bytes}
      (h : LogStore.saveCommitted logCodec io p.db id = .ok db) :
      Step prim codec logCodec network p { p with db := db, committed := some id }
  | apply {p : Positions Bytes} {io : Io} {entries : List Entry} {base : Database Bytes}
      {inner : SmInner} {responses : List PolicyResult}
      (h : Raft.apply prim codec io p.db.toDatabase p.inner entries =
        .ok (base, inner, responses)) :
      Step prim codec logCodec network p
        { p with
          db := { p.db with toDatabase := base }
          inner := inner
          applied := some inner.applied }
  | installSnapshot {p : Positions Bytes} {io : Io} {snapshot : Snapshot Bytes}
      {base : Database Bytes} {inner : SmInner}
      (h : Raft.installSnapshot codec io p.db.toDatabase snapshot = .ok (base, inner)) :
      Step prim codec logCodec network p
        { p with
          db := { p.db with toDatabase := base }
          inner := inner
          applied := some snapshot.info.lastLogId }
  | reopen {p : Positions Bytes} {io : Io} {inner : SmInner}
      (h : openInner codec io p.db.toDatabase network = .ok inner) :
      Step prim codec logCodec network p { p with inner := inner }

structure Stored (codec : Codec Bytes) (logCodec : LogCodec Bytes) (p : Positions Bytes) :
    Prop where
  committed : p.db.metaTable[keyCommitted]? = p.committed.map logCodec.encodeCommitted
  applied : p.db.metaTable[keyApplied]? = p.applied.map codec.encodeApplied
  state : ∃ state : Option PolicyState,
    p.db.metaTable[keyPolicyState]? = state.map codec.encodeState
  membership : ∃ membership : Option StoredMembership,
    p.db.metaTable[keyMembership]? = membership.map codec.encodeMembership

variable {prim : Primitives} {codec : Codec Bytes} {logCodec : LogCodec Bytes} {network : String}
  {p q : Positions Bytes}

theorem stored_start : Stored codec logCodec (start network : Positions Bytes) :=
  ⟨ExtTreeMap.getElem?_empty, ExtTreeMap.getElem?_empty, ⟨none, ExtTreeMap.getElem?_empty⟩,
    ⟨none, ExtTreeMap.getElem?_empty⟩⟩

theorem stored_persistState {io : Io} {n : Nat} {mid base : Database Bytes} {inner : SmInner}
    (hp : Stored codec logCodec p)
    (h : persistState codec io n p.db.toDatabase inner = .ok mid)
    (hbase : base.metaTable = mid.metaTable) :
    Stored codec logCodec
      { p with
        db := { p.db with toDatabase := base }
        inner := inner
        applied := some inner.applied } := by
  have hrows := persisted_of_persistState h
  refine ⟨?_, ?_, ⟨some inner.state, ?_⟩, ⟨some inner.membership, ?_⟩⟩
  · rw [hbase, hrows.other _ (by decide) (by decide) (by decide)]
    exact hp.committed
  · rw [hbase]
    exact hrows.applied
  · rw [hbase]
    exact hrows.state
  · rw [hbase]
    exact hrows.membership

theorem stored_step (hp : Stored codec logCodec p) (h : Step prim codec logCodec network p q) :
    Stored codec logCodec q := by
  cases h with
  | saveCommitted h =>
      obtain rfl := saveMeta_eq_ok h
      exact ⟨getElem?_setMeta_self, (getElem?_setMeta (by decide)).trans hp.applied,
        hp.state.imp fun _ hs => (getElem?_setMeta (by decide)).trans hs,
        hp.membership.imp fun _ hm => (getElem?_setMeta (by decide)).trans hm⟩
  | apply h =>
      obtain ⟨-, -, h⟩ := bind_eq_ok.mp h
      obtain ⟨mid, hpersist, h⟩ := bind_eq_ok.mp h
      obtain ⟨-, -, h⟩ := bind_eq_ok.mp h
      cases h
      exact stored_persistState hp hpersist rfl
  | installSnapshot h =>
      obtain ⟨⟨state, -, rfl⟩, mid, hpersist, rfl⟩ := installSnapshot_eq_ok h
      exact stored_persistState hp hpersist rfl
  | reopen h => exact ⟨hp.committed, hp.applied, hp.state, hp.membership⟩

theorem stored_of_run
    (h : Relation.ReflTransGen (Step prim codec logCodec network) (start network) p) :
    Stored codec logCodec p := by
  induction h with
  | refl => exact stored_start
  | tail _ hstep ih => exact stored_step ih hstep

/-! ## Reading back -/

theorem eq_map_some {α : Type} {position : Option (Option α)} (h : position ≠ some none) :
    position = position.join.map some := by
  rcases position with _ | _ | value
  · rfl
  · exact absurd rfl h
  · rfl

/-- An optional value is read back if it is present or was never written. -/
theorem metaDecode_present {α : Type} {base : Database Bytes} {n : Nat} {key what : String}
    {read : Bytes → Except String α} {write : Option α → Bytes} {position : Option (Option α)}
    (hread : ∀ a, read (write (some a)) = .ok a)
    (h : base.metaTable[key]? = position.map write) (hpresent : position ≠ some none) :
    metaDecode .fine n base key what read = .ok position.join := by
  apply metaDecode_stored hread
  rw [h, eq_map_some hpresent]
  cases position.join <;> rfl

/-- After any calls, `read_committed` returns the `Option` that was saved last, if that was
not an absent one; and the store opens with the applied `Option` that was persisted last, if
that was not an absent one. -/
theorem positions_survive_reopening (hcodec : codec.Lossless) (hlog : logCodec.Lossless)
    (hrun : Relation.ReflTransGen (Step prim codec logCodec network) (start network) p) :
    (p.committed ≠ some none →
        LogStore.readCommitted logCodec .fine p.db = .ok p.committed.join) ∧
      (p.applied ≠ some none →
        ∃ inner, openInner codec .fine p.db.toDatabase network = .ok inner ∧
          inner.applied = p.applied.join) := by
  have hstored := stored_of_run hrun
  constructor
  · intro hcommitted
    exact metaDecode_present hlog.committed hstored.committed hcommitted
  · intro happlied
    obtain ⟨state, hstate⟩ := hstored.state
    obtain ⟨membership, hmembership⟩ := hstored.membership
    refine ⟨⟨state.getD (.new network), p.applied.join, membership.getD .empty⟩, ?_, rfl⟩
    rw [openInner, metaDecode_stored hcodec.state hstate,
      metaDecode_present hcodec.applied hstored.applied happlied,
      metaDecode_stored hcodec.membership hmembership]
    rfl

/-! ## An instance

The encodings of the state machine and of the log, side by side in one file. -/

abbrev FileBlob := Blob ⊕ LogBlob

def fileCodec : Codec FileBlob where
  encodeState s := .inl (.state s)
  decodeState
    | .inl blob => sampleCodec.decodeState blob
    | .inr _ => .error "expected a policy state"
  encodeApplied id := .inl (.applied id)
  decodeApplied
    | .inl blob => sampleCodec.decodeApplied blob
    | .inr _ => .error "expected a log id"
  encodeMembership m := .inl (.membership m)
  decodeMembership
    | .inl blob => sampleCodec.decodeMembership blob
    | .inr _ => .error "expected a membership"
  encodeMeta m := .inl (.info m)
  decodeMeta
    | .inl blob => sampleCodec.decodeMeta blob
    | .inr _ => .error "expected a snapshot meta"
  showLeaderId := sampleCodec.showLeaderId

def fileLogCodec : LogCodec FileBlob where
  encodeEntry e := .inr (.entry e)
  decodeEntry
    | .inr blob => sampleLogCodec.decodeEntry blob
    | .inl _ => .error "expected an entry"
  encodeVote v := .inr (.vote v)
  decodeVote
    | .inr blob => sampleLogCodec.decodeVote blob
    | .inl _ => .error "expected a vote"
  encodeLogId id := .inr (.logId id)
  decodeLogId
    | .inr blob => sampleLogCodec.decodeLogId blob
    | .inl _ => .error "expected a log id"
  encodeCommitted id := .inr (.committed id)
  decodeCommitted
    | .inr blob => sampleLogCodec.decodeCommitted blob
    | .inl _ => .error "expected a log id"

theorem fileCodec_lossless : fileCodec.Lossless :=
  ⟨fun _ => rfl, fun _ => rfl, fun _ => rfl, fun _ => rfl⟩

theorem fileLogCodec_lossless : fileLogCodec.Lossless :=
  ⟨fun _ => rfl, fun _ => rfl, fun _ => rfl, fun _ => rfl⟩

abbrev SampleRun (p : Positions FileBlob) : Prop :=
  Relation.ReflTransGen (Step samplePrimitives fileCodec fileLogCodec "myorg") (start "myorg") p

/-- An entry is applied and committed. -/
theorem positions_survive_reopening_after_entry :
    ∃ p : Positions FileBlob, SampleRun p ∧
      LogStore.readCommitted fileLogCodec .fine p.db = .ok (some (blankAt 0).logId) ∧
      ∃ inner, openInner fileCodec .fine p.db.toDatabase "myorg" = .ok inner ∧
        inner.applied = some (blankAt 0).logId := by
  have hsave : LogStore.saveCommitted fileLogCodec .fine .empty (some (blankAt 0).logId) =
      .ok _ := rfl
  have hsaved : SampleRun _ := .single (.saveCommitted hsave)
  have happly : apply samplePrimitives fileCodec .fine
      (LogStore.setMeta .empty keyCommitted
        (fileLogCodec.encodeCommitted (some (blankAt 0).logId))).toDatabase
      ⟨.new "myorg", none, .empty⟩ [blankAt 0] = .ok _ := rfl
  have hrun : SampleRun _ := hsaved.tail (.apply happly)
  obtain ⟨hread, hopen⟩ :=
    positions_survive_reopening fileCodec_lossless fileLogCodec_lossless hrun
  exact ⟨_, hrun, hread (by simp), hopen (by simp [blankAt])⟩

/-- An absent committed id, an empty batch on a new file and a snapshot without a last log id
are written and cannot be read back. -/
theorem absent_positions_are_not_read_back :
    (∃ p : Positions FileBlob, SampleRun p ∧ p.committed = some none ∧
      LogStore.readCommitted fileLogCodec .fine p.db =
        .error (.read "decode committed: expected a log id")) ∧
    (∃ p : Positions FileBlob, SampleRun p ∧ p.applied = some none ∧
      openInner fileCodec .fine p.db.toDatabase "myorg" =
        .error (.read "decode applied: expected a log id")) ∧
    ∃ (snapshot : Snapshot FileBlob) (base : Database FileBlob) (inner : SmInner),
      snapshot.info.lastLogId = none ∧
        installSnapshot fileCodec .fine .empty snapshot = .ok (base, inner) ∧
        openInner fileCodec .fine base "myorg" =
          .error (.read "decode applied: expected a log id") := by
  have hsave : LogStore.saveCommitted fileLogCodec .fine .empty none = .ok _ := rfl
  have happly : apply samplePrimitives fileCodec .fine .empty
      ⟨.new "myorg", none, .empty⟩ [] = .ok _ := rfl
  refine ⟨⟨_, .single (.saveCommitted hsave), rfl, rfl⟩, ⟨_, .single (.apply happly), rfl, rfl⟩,
    ⟨⟨none, .empty, "s"⟩, .inl (.state (.new "myorg"))⟩, _, _, rfl, rfl, rfl⟩

end Positions

end NexusAuth.Raft
