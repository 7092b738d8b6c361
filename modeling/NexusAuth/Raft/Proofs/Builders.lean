import NexusAuth.Raft.Proofs.Snapshots

/-!
# The stored snapshot and slow builders

A builder releases the lock between capturing the state and writing the snapshot
tables.  The stored snapshot only advances exactly when no builder commits after a
snapshot beyond the position it captured.  `buildSnapshot_goes_back` is a run in
which one does.
-/

namespace NexusAuth.Raft

open Std (ExtTreeMap)
open NexusAuth.Authority NexusAuth.Lib NexusAuth.Lib.OrderedMap

variable {Bytes : Type} {setting : Setting Bytes} {io : Io} {replica : Replica Bytes}
  {p : Process Bytes} {k : Nat}

def Replica.storedLogId (codec : Codec Bytes) (replica : Replica Bytes) : Option LogId := do
  let bytes ← replica.db.snapshotTable[keySnapshotMeta]?
  let info ← (codec.decodeMeta bytes).toOption
  info.lastLogId

def Setting.LeadersOrdered (setting : Setting Bytes) : Prop :=
  setting.log.Pairwise fun a b =>
    toLex (a.logId.leaderId.term, a.logId.leaderId.nodeId) ≤
      toLex (b.logId.leaderId.term, b.logId.leaderId.nodeId)

instance (setting : Setting Bytes) : Decidable setting.LeadersOrdered :=
  inferInstanceAs (Decidable (setting.log.Pairwise fun a b =>
    toLex (a.logId.leaderId.term, a.logId.leaderId.nodeId) ≤
      toLex (b.logId.leaderId.term, b.logId.leaderId.nodeId)))

/-- The event commits the snapshot of a builder after a snapshot beyond the position the
builder captured. -/
def Cluster.commitsOvertaken (c : Cluster Bytes) (event : NodeId × Action) : Bool :=
  match event.2 with
  | .finish builder io =>
      decide io.CommitsSnapshot &&
        ((c.replicas event.1).process.bind fun p => p.builders[builder]?).any Builder.overtaken
  | _ => false

theorem commitsOvertaken_iff {c : Cluster Bytes} {event : NodeId × Action} :
    c.commitsOvertaken event = true ↔
      ∃ (p : Process Bytes) (builder : Nat) (io : Io) (b : Builder),
        event.2 = .finish builder io ∧ (c.replicas event.1).process = some p ∧
          p.builders[builder]? = some b ∧ io.CommitsSnapshot ∧ b.overtaken = true := by
  unfold Cluster.commitsOvertaken
  constructor
  · intro h
    split at h
    · rename_i builder io hevent
      rw [Bool.and_eq_true, decide_eq_true_eq, Option.any_eq_true] at h
      obtain ⟨hio, b, hb, hovertaken⟩ := h
      obtain ⟨p, hp, hb⟩ := Option.bind_eq_some_iff.mp hb
      exact ⟨p, builder, io, b, hevent, hp, hb, hio, hovertaken⟩
    · cases h
  · rintro ⟨p, builder, io, b, hevent, hp, hb, hio, hovertaken⟩
    simp [hevent, hp, hb, hio, hovertaken]

theorem storedLogId_congr (codec : Codec Bytes) {after : Replica Bytes}
    (h : after.db.snapshotTable = replica.db.snapshotTable) :
    after.storedLogId codec = replica.storedLogId codec := by
  rw [Replica.storedLogId, h, Replica.storedLogId]

theorem storedLogId_withSnapshot (hcodec : setting.codec.Lossless) {after : Replica Bytes}
    {info : SnapshotMeta} {data : Bytes}
    (h : after.db.snapshotTable =
      (replica.db.withSnapshot (setting.codec.encodeMeta info) data).snapshotTable) :
    after.storedLogId setting.codec = info.lastLogId := by
  rw [Replica.storedLogId, h, withSnapshot_meta]
  change (setting.codec.decodeMeta (setting.codec.encodeMeta info)).toOption.bind _ = _
  rw [hcodec.info]
  rfl

theorem logKey_idAt_mono (hlog : setting.Increasing) (hleaders : setting.LeadersOrdered)
    {i j : Nat} (hij : i ≤ j) (hj : j ≤ setting.log.length) :
    logKey (setting.idAt i) ≤ logKey (setting.idAt j) := by
  cases i with
  | zero => exact bot_le
  | succ i =>
      cases j with
      | zero => omega
      | succ j =>
          rcases Nat.eq_or_lt_of_le hij with heq | hlt
          · rw [heq]
          · have hindex := List.pairwise_iff_getElem.mp hlog i j (by omega) (by omega) (by omega)
            have hleader := List.pairwise_iff_getElem.mp hleaders i j (by omega) (by omega)
              (by omega)
            rw [setting.idAt_succ (by omega), setting.idAt_succ (by omega)]
            apply WithBot.coe_le_coe.mpr
            rw [Prod.Lex.toLex_le_toLex] at hleader ⊢
            rcases hleader with hterm | ⟨hterm, hnode⟩
            · exact Or.inl hterm
            · refine Or.inr ⟨hterm, ?_⟩
              rw [Prod.Lex.toLex_le_toLex]
              rcases Nat.eq_or_lt_of_le hnode with hsame | hless
              · exact Or.inr ⟨hsame, hindex.le⟩
              · exact Or.inl hless

theorem logKey_of_explains (hlog : setting.Increasing) (hleaders : setting.LeadersOrdered)
    {k' : Nat} (hk' : k' ≤ setting.log.length) {reply : Reply Bytes}
    (h : setting.Explains k k' reply) : logKey (setting.idAt k) ≤ logKey (setting.idAt k') := by
  unfold Setting.Explains at h
  split at h
  · exact logKey_idAt_mono hlog hleaders (by omega) hk'
  · exact h
  · rw [h.1]
  · rw [h]

/-- The stored snapshot is behind the applied position, and behind what every builder
that was not overtaken has captured. -/
structure Replica.Forward (setting : Setting Bytes) (replica : Replica Bytes) (k : Nat) :
    Prop where
  here : replica.At setting k
  stored : logKey (replica.storedLogId setting.codec) ≤ logKey (setting.idAt k)
  captured : ∀ p, replica.process = some p → ∀ b ∈ p.builders,
    logKey b.captured.applied ≤ logKey (setting.idAt k)
  ahead : ∀ p, replica.process = some p → ∀ b ∈ p.builders, b.overtaken = false →
    logKey (replica.storedLogId setting.codec) ≤ logKey b.captured.applied

theorem ahead_of_noteCommit {b : Builder} {logId : Option LogId}
    (h : (b.noteCommit logId).overtaken = false) : logKey logId ≤ logKey b.captured.applied := by
  simp only [Builder.noteCommit, Bool.or_eq_false_iff, decide_eq_false_iff_not, not_lt] at h
  exact h.2

theorem forward_of_snapshotStep (hcodec : setting.codec.Lossless) {action : Action}
    {after : Replica Bytes} {k' : Nat} (h : replica.Forward setting k)
    (hafter : after.At setting k') (hmono : logKey (setting.idAt k) ≤ logKey (setting.idAt k'))
    (hslow : ∀ p builder io b, action = .finish builder io → replica.process = some p →
      p.builders[builder]? = some b → io.CommitsSnapshot → b.overtaken = false)
    (hstep : SnapshotStep setting action replica after) :
    after.Forward setting k' ∧
      logKey (replica.storedLogId setting.codec) ≤ logKey (after.storedLogId setting.codec) := by
  cases hstep with
  | quiet htable hcommits hbuilders hreaders =>
      have hstored := storedLogId_congr setting.codec htable
      refine ⟨⟨hafter, ?_, ?_, ?_⟩, ?_⟩
      · rw [hstored]
        exact h.stored.trans hmono
      · intro p' hp' b hb
        obtain ⟨p, hp, hold | rfl⟩ := hbuilders p' hp' b hb
        · exact (h.captured p hp b hold).trans hmono
        · rw [h.here.memory p hp]
          exact hmono
      · intro p' hp' b hb hfree
        rw [hstored]
        obtain ⟨p, hp, hold | rfl⟩ := hbuilders p' hp' b hb
        · exact h.ahead p hp b hold hfree
        · rw [h.here.memory p hp]
          exact h.stored
      · rw [hstored]
  | @committed p p' snapshot hp hp' hsource hsnapshot htable hcommits hreaders hbuilders =>
      have hstored := storedLogId_withSnapshot hcodec htable
      -- the new snapshot is between the old one and the applied position
      have hbetween : logKey (replica.storedLogId setting.codec) ≤
          logKey snapshot.info.lastLogId ∧
          logKey snapshot.info.lastLogId ≤ logKey (setting.idAt k') := by
        cases hsource with
        | @builder builder io b hb hio hid hinner =>
            have hmem := List.mem_of_getElem? hb
            have hfree := hslow p builder io b rfl hp hb hio
            rw [hid]
            exact ⟨h.ahead p hp b hmem hfree, (h.captured p hp b hmem).trans hmono⟩
        | installed hbeyond hinner =>
            rw [h.here.memory p hp] at hbeyond
            rw [hafter.memory p' hp'] at hinner
            exact ⟨h.stored.trans hbeyond, by rw [← hinner]; rfl⟩
      refine ⟨⟨hafter, ?_, ?_, ?_⟩, ?_⟩
      · rw [hstored]
        exact hbetween.2
      · intro q hq b' hb'
        obtain rfl := Option.some.inj (hp'.symm.trans hq)
        obtain ⟨b, hb, rfl⟩ := hbuilders b' hb'
        exact (h.captured p hp b hb).trans hmono
      · intro q hq b' hb' hfree
        obtain rfl := Option.some.inj (hp'.symm.trans hq)
        obtain ⟨b, hb, rfl⟩ := hbuilders b' hb'
        have hahead := ahead_of_noteCommit hfree
        rw [hstored]
        exact hahead
      · rw [hstored]
        exact hbetween.1

section Run

variable {events : List (NodeId × Action)}

theorem forward_step (hcodec : setting.codec.Lossless) (hlog : setting.Increasing)
    (hleaders : setting.LeadersOrdered) {n : Nat} (hn : n < events.length)
    (hslow : (Cluster.after setting events n).commitsOvertaken events[n] = false) {r : NodeId}
    (h : ((Cluster.after setting events n).replicas r).Forward setting k) :
    (∃ k', ((Cluster.after setting events (n + 1)).replicas r).Forward setting k') ∧
      logKey (((Cluster.after setting events n).replicas r).storedLogId setting.codec) ≤
        logKey (((Cluster.after setting events (n + 1)).replicas r).storedLogId
          setting.codec) := by
  by_cases hr : r = events[n].1
  · subst hr
    obtain ⟨k', reply, hafter, -, hexplains⟩ := moves_after hcodec hlog hn h.here
    have hmono := logKey_of_explains hlog hleaders hafter.bound hexplains
    have hstep := snapshotStep_after hcodec hlog hn events[n].1
    have hfree : ∀ p builder io b, events[n].2 = .finish builder io →
        ((Cluster.after setting events n).replicas events[n].1).process = some p →
        p.builders[builder]? = some b → io.CommitsSnapshot → b.overtaken = false := by
      intro p builder io b hevent hp hb hio
      rw [← Bool.not_eq_true]
      intro hovertaken
      have hcommits := commitsOvertaken_iff.mpr ⟨p, builder, io, b, hevent, hp, hb, hio, hovertaken⟩
      exact absurd (hcommits.symm.trans hslow) (by decide)
    obtain ⟨hforward, hstored⟩ := forward_of_snapshotStep hcodec h hafter hmono hfree hstep
    exact ⟨⟨k', hforward⟩, hstored⟩
  · have hsame : (Cluster.after setting events (n + 1)).replicas r =
        (Cluster.after setting events n).replicas r := by
      rw [Cluster.after_succ hn]
      exact step_replicas_of_ne _ hr
    rw [hsame]
    exact ⟨⟨k, h⟩, le_rfl⟩

theorem forward_after (hcodec : setting.codec.Lossless) (hlog : setting.Increasing)
    (hleaders : setting.LeadersOrdered)
    (hslow : ∀ n (hn : n < events.length),
      (Cluster.after setting events n).commitsOvertaken events[n] = false) (n : Nat) (r : NodeId) :
    ∃ k, ((Cluster.after setting events n).replicas r).Forward setting k := by
  apply Cluster.invariant_after (P := fun c => ∃ k, (c.replicas r).Forward setting k)
  · obtain ⟨k, hk⟩ := (sound_start setting).replica r
    have hnone : ((Cluster.start : Cluster Bytes).replicas r).storedLogId setting.codec = none := by
      rw [Replica.storedLogId]
      have htable : ((Cluster.start : Cluster Bytes).replicas r).db.snapshotTable[
          keySnapshotMeta]? = none := ExtTreeMap.getElem?_empty
      rw [htable]
      rfl
    refine ⟨k, hk, ?_, ?_, ?_⟩
    · rw [hnone]
      exact bot_le
    · intro p hp
      cases hp
    · intro p hp
      cases hp
  · rintro n hn ⟨k, hk⟩
    exact (forward_step hcodec hlog hleaders hn (hslow n hn) hk).1

/-- If the stored snapshots of a run never go backwards, a builder that was overtaken has
captured less than what is stored. -/
theorem behind_of_overtaken (hcodec : setting.codec.Lossless) (hlog : setting.Increasing)
    (hstored : ∀ n < events.length, ∀ r,
      logKey (((Cluster.after setting events n).replicas r).storedLogId setting.codec) ≤
        logKey (((Cluster.after setting events (n + 1)).replicas r).storedLogId setting.codec))
    (n : Nat) (r : NodeId) {p : Process Bytes}
    (hp : ((Cluster.after setting events n).replicas r).process = some p) {b : Builder}
    (hb : b ∈ p.builders) (hovertaken : b.overtaken = true) :
    logKey b.captured.applied <
      logKey (((Cluster.after setting events n).replicas r).storedLogId setting.codec) := by
  revert p b
  apply Cluster.invariant_after (P := fun c => ∀ {p : Process Bytes},
    (c.replicas r).process = some p → ∀ {b : Builder}, b ∈ p.builders → b.overtaken = true →
      logKey b.captured.applied < logKey ((c.replicas r).storedLogId setting.codec))
  · intro p hp
    cases hp
  · intro n hn ih p' hp' b' hb' hovertaken
    have hmono := hstored n hn r
    have hstep := snapshotStep_after hcodec hlog hn r
    cases hstep with
    | quiet htable hcommits hbuilders hreaders =>
        obtain ⟨p, hp, hold | rfl⟩ := hbuilders p' hp' b' hb'
        · exact (ih hp hold hovertaken).trans_le hmono
        · cases hovertaken
    | @committed p q snapshot hp hq hsource hsnapshot htable hcommits hreaders hbuilders =>
        obtain rfl := Option.some.inj (hq.symm.trans hp')
        obtain ⟨b, hb, rfl⟩ := hbuilders b' hb'
        have hnow := storedLogId_withSnapshot hcodec htable
        simp only [Builder.noteCommit, Bool.or_eq_true, decide_eq_true_eq] at hovertaken
        rcases hovertaken with hbefore | hovertakes
        · exact (ih hp hb hbefore).trans_le hmono
        · rw [hnow]
          exact hovertakes

theorem storedLogId_of_finish (hcodec : setting.codec.Lossless) {builder : Nat} {b : Builder}
    (hb : p.builders[builder]? = some b) (hio : io.CommitsSnapshot) :
    (replica.finish setting p builder io).1.storedLogId setting.codec = b.captured.applied := by
  obtain ⟨idx, ⟨db, snapshot⟩, hfinish⟩ :=
    finishSnapshot_of_commitsSnapshot hio setting.codec replica.db p.snapshotIdx b.captured
  obtain ⟨⟨hid, -, -⟩, rfl⟩ := finishSnapshot_eq_ok hfinish
  unfold Replica.finish
  simp only [hb, hfinish]
  rw [storedLogId_withSnapshot hcodec rfl, hid]

end Run

/-- The stored snapshot of every replica only advances exactly when no builder commits
after a snapshot beyond the position it captured. -/
theorem stored_snapshot_advances_iff (setting : Setting Bytes) (hcodec : setting.codec.Lossless)
    (hlog : setting.Increasing) (hleaders : setting.LeadersOrdered)
    (events : List (NodeId × Action)) :
    (∀ (r : NodeId) (i j : Nat), i ≤ j →
      logKey (((Cluster.after setting events i).replicas r).storedLogId setting.codec) ≤
        logKey (((Cluster.after setting events j).replicas r).storedLogId setting.codec)) ↔
    ∀ n (hn : n < events.length),
      (Cluster.after setting events n).commitsOvertaken events[n] = false := by
  constructor
  · intro hadvances n hn
    rw [← Bool.not_eq_true, commitsOvertaken_iff]
    rintro ⟨p, builder, io, b, hevent, hp, hb, hio, hovertaken⟩
    have hbehind := behind_of_overtaken hcodec hlog
      (fun m _ r => hadvances r m (m + 1) (Nat.le_succ m)) n events[n].1 hp
      (List.mem_of_getElem? hb) hovertaken
    have hnext : ((Cluster.after setting events (n + 1)).replicas events[n].1).storedLogId
        setting.codec = b.captured.applied := by
      rw [Cluster.after_succ hn, step_replicas_self, hevent]
      simp only [Replica.act, hp]
      exact storedLogId_of_finish hcodec hb hio
    have hback := hadvances events[n].1 n (n + 1) (Nat.le_succ n)
    rw [hnext] at hback
    exact absurd hbehind (not_lt.mpr hback)
  · intro hslow r i j hij
    apply Runs.relates (R := fun c d : Cluster Bytes =>
      logKey ((c.replicas r).storedLogId setting.codec) ≤
        logKey ((d.replicas r).storedLogId setting.codec)) _ _ _ hij
    · exact fun c => le_rfl
    · exact fun c d e hcd hde => hcd.trans hde
    · intro n hn
      obtain ⟨k, hk⟩ := forward_after hcodec hlog hleaders hslow n r
      have hstep := (forward_step hcodec hlog hleaders hn (hslow n hn) hk).2
      rw [Cluster.after_succ hn] at hstep
      exact hstep

/-- Node 2 installs the snapshot of node 1 while a builder holds an earlier state. -/
def slowBuilder : List (NodeId × Action) :=
  [(1, .reopen .fine), (1, .apply 4 .fine), (1, .capture), (1, .finish 0 .fine),
    (2, .reopen .fine), (2, .apply 2 .fine), (2, .capture), (2, .install 0 .fine),
    (2, .finish 0 .fine)]

/-- The snapshot of node 2 goes from the fourth entry of the log back to the second. -/
theorem buildSnapshot_goes_back :
    ((Cluster.after sampleSetting slowBuilder 8).replicas 2).storedLogId sampleCodec =
        sampleSetting.idAt 4 ∧
      ((Cluster.after sampleSetting slowBuilder 9).replicas 2).storedLogId sampleCodec =
        sampleSetting.idAt 2 ∧
      logKey (sampleSetting.idAt 2) < logKey (sampleSetting.idAt 4) := by
  decide +kernel

/-- A builder commits after a snapshot of the position it captured, and an overtaken one
fails to commit. -/
def harmlessBuilders : List (NodeId × Action) :=
  [(1, .reopen .fine), (1, .apply 2 .fine), (1, .capture), (1, .finish 0 .fine),
    (1, .apply 2 .fine), (1, .capture), (1, .finish 0 .fine), (2, .reopen .fine),
    (2, .apply 2 .fine), (2, .capture), (2, .capture), (2, .install 0 .fine), (2, .finish 0 .fine),
    (2, .install 1 .fine),
    (2, .finish 0 fun what _ => if what = "commit snapshot" then some "disk full" else none)]

theorem stored_snapshot_advances_harmlessBuilders :
    (List.range 16).map (fun n =>
        ((Cluster.after sampleSetting harmlessBuilders n).replicas 2).storedLogId sampleCodec) =
      List.replicate 12 none ++ List.replicate 2 (sampleSetting.idAt 2) ++
        List.replicate 2 (sampleSetting.idAt 4) ∧
    ∀ (r : NodeId) (i j : Nat), i ≤ j →
      logKey (((Cluster.after sampleSetting harmlessBuilders i).replicas r).storedLogId
          sampleCodec) ≤
        logKey (((Cluster.after sampleSetting harmlessBuilders j).replicas r).storedLogId
          sampleCodec) :=
  ⟨by decide +kernel,
    (stored_snapshot_advances_iff sampleSetting sampleCodec_lossless (by decide) (by decide)
      harmlessBuilders).mpr (by decide +kernel)⟩

end NexusAuth.Raft
