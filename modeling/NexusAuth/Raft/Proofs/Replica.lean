import NexusAuth.Raft.Proofs.Storage

/-!
# The state of a replica is a function of the applied prefix

Replaying a batch, installing a snapshot and reopening the file all lead from one
`specAt` to another, on disk and in memory at once, and an operation that fails
leads nowhere.  Snapshots in circulation are snapshots of prefixes.
-/

namespace NexusAuth.Raft

open Std (ExtTreeMap)
open NexusAuth.Authority NexusAuth.Lib NexusAuth.Lib.OrderedMap NexusAuth.Lib.Results

variable {Bytes : Type} {codec : Codec Bytes} {io : Io} {db db' : Database Bytes} {inner : SmInner}

/-! ## Operations of a replica -/

def Setting.IsSnapshot (setting : Setting Bytes) (snapshot : Snapshot Bytes) : Prop :=
  ∃ k ≤ setting.log.length,
    snapshot.info.lastLogId = setting.idAt k ∧
    snapshot.info.lastMembership = setting.membershipAt k ∧
    snapshot.data = setting.codec.encodeState (setting.policyAt k)

/-- The replica is at position `k`, on disk and, while it is open, in memory. -/
structure Replica.At (setting : Setting Bytes) (replica : Replica Bytes) (k : Nat) : Prop where
  bound : k ≤ setting.log.length
  disk : replica.db.reopened setting.codec setting.network = .ok (setting.specAt k)
  memory : ∀ p, replica.process = some p → p.inner = setting.specAt k
  builders : ∀ p, replica.process = some p → ∀ b ∈ p.builders,
    ∃ j ≤ setting.log.length, b.captured = setting.specAt j

def Setting.Explains (setting : Setting Bytes) (k k' : Nat) : Reply Bytes → Prop
  | .applied (.ok responses) =>
      k' = k + responses.length ∧
        responses.map some = (List.range' k responses.length).map setting.responseAt
  | .installed (.ok ()) => logKey (setting.idAt k) ≤ logKey (setting.idAt k')
  | .built (.ok snapshot) => k' = k ∧ setting.IsSnapshot snapshot
  | _ => k' = k

def Reply.Answers (count : Nat) : Reply Bytes → Prop
  | .applied (.ok responses) => responses.length = count
  | _ => True

variable {setting : Setting Bytes} {replica : Replica Bytes} {p : Process Bytes} {k : Nat}

theorem apply_eq_ok {prim : Primitives} {entries : List Entry} {inner' : SmInner}
    {responses : List PolicyResult}
    (h : apply prim codec io db inner entries = .ok (db', inner', responses)) :
    entries.foldl (applyEntry prim) (inner, []) = (inner', responses) ∧
      persistState codec io 0 db inner' = .ok db' := by
  obtain ⟨-, -, h⟩ := bind_eq_ok.mp h
  obtain ⟨w, hpersist, h⟩ := bind_eq_ok.mp h
  obtain ⟨-, -, h⟩ := bind_eq_ok.mp h
  cases h
  exact ⟨rfl, hpersist⟩

theorem applyNext_at (hcodec : setting.codec.Lossless) (hlog : setting.Increasing)
    (h : replica.At setting k) (hp : replica.process = some p) (count : Nat) :
    ∃ k', (replica.applyNext setting p count io).1.At setting k' ∧
      setting.Explains k k' (replica.applyNext setting p count io).2 ∧
      (replica.applyNext setting p count io).2.Answers count := by
  unfold Replica.applyNext
  rw [h.memory p hp, show (setting.specAt k).applied = setting.idAt k from rfl,
    setting.position_idAt hlog h.bound]
  simp only
  split
  · exact ⟨k, h, rfl, trivial⟩
  · rename_i hcount
    obtain ⟨responses, hfold, hresponses⟩ :=
      setting.foldl_applyEntry (show k + count ≤ setting.log.length by omega)
    split
    · exact ⟨k, h, rfl, trivial⟩
    · rename_i db inner responses' happly
      obtain ⟨hfold', hpersist⟩ := apply_eq_ok happly
      obtain ⟨rfl, rfl⟩ := Prod.mk.inj (hfold.symm.trans hfold')
      have hlength : responses.length = count := by
        simpa using congrArg List.length hresponses
      refine ⟨k + count, ⟨by omega, ?_, ?_, ?_⟩, ?_, hlength⟩
      · exact reopened_of_persistState hcodec (setting.idAt_ne_none (by omega) (by omega)) hpersist
      · rintro q hq
        cases hq
        rfl
      · rintro q hq
        cases hq
        exact h.builders p hp
      · rw [← hlength]
        exact ⟨rfl, by rw [hlength]; exact hresponses⟩

theorem Replica.At.withProcess (h : replica.At setting k) (hp : replica.process = some p)
    {q : Process Bytes} (hinner : q.inner = p.inner)
    (hbuilders : ∀ b ∈ q.builders, ∃ j ≤ setting.log.length, b.captured = setting.specAt j) :
    Replica.At setting { replica with process := some q } k := by
  refine ⟨h.bound, h.disk, ?_, ?_⟩
  · intro q' hq
    cases hq
    rw [hinner]
    exact h.memory p hp
  · intro q' hq
    cases hq
    exact hbuilders

theorem capture_at (h : replica.At setting k) (hp : replica.process = some p) :
    (replica.capture p).1.At setting k := by
  refine h.withProcess hp (q := { p with builders := p.builders ++ [⟨p.inner, false⟩] }) rfl ?_
  intro b hb
  rcases List.mem_append.mp hb with hold | hnew
  · exact h.builders p hp b hold
  · obtain rfl := List.mem_singleton.mp hnew
    exact ⟨k, h.bound, h.memory p hp⟩

theorem finish_at (h : replica.At setting k) (hp : replica.process = some p) (builder : Nat)
    (io : Io) :
    (replica.finish setting p builder io).1.At setting k ∧
      setting.Explains k k (replica.finish setting p builder io).2 := by
  unfold Replica.finish
  split
  · exact ⟨h, rfl⟩
  · rename_i b hb
    have hothers : ∀ b' ∈ p.builders.eraseIdx builder,
        ∃ j ≤ setting.log.length, b'.captured = setting.specAt j :=
      fun b' hb' => h.builders p hp b' (List.mem_of_mem_eraseIdx hb')
    simp only
    split
    · rename_i idx e hfinish
      exact ⟨h.withProcess hp rfl hothers, rfl⟩
    · rename_i idx db snapshot hfinish
      obtain ⟨⟨hid, hmembership, hdata⟩, rfl⟩ := finishSnapshot_eq_ok hfinish
      obtain ⟨j, hj, hcaptured⟩ := h.builders p hp b (List.mem_of_getElem? hb)
      refine ⟨⟨h.bound, ?_, ?_, ?_⟩, rfl, j, hj, ?_, ?_, ?_⟩
      · rw [reopened_withSnapshot]
        exact h.disk
      · intro q hq
        cases hq
        exact h.memory p hp
      · intro q hq b' hb'
        cases hq
        obtain ⟨b₀, hb₀, rfl⟩ := List.mem_map.mp hb'
        exact hothers b₀ hb₀
      · rw [hid, hcaptured]
        rfl
      · rw [hmembership, hcaptured]
        rfl
      · rw [hdata, hcaptured]
        rfl

theorem install_at (hcodec : setting.codec.Lossless) (h : replica.At setting k)
    (hp : replica.process = some p) {snapshot : Snapshot Bytes}
    (hsnapshot : setting.IsSnapshot snapshot) :
    ∃ k', (replica.install setting p snapshot io).1.At setting k' ∧
      setting.Explains k k' (replica.install setting p snapshot io).2 := by
  unfold Replica.install
  split
  · exact ⟨k, h, rfl⟩
  · rename_i hguard
    simp only [not_or] at hguard
    split
    · exact ⟨k, h, rfl⟩
    · rename_i db inner hinstall
      obtain ⟨j, hj, hid, hmembership, hdata⟩ := hsnapshot
      obtain ⟨⟨state, hstate, hinner⟩, mid, hpersist, rfl⟩ := installSnapshot_eq_ok hinstall
      have hspec : inner = setting.specAt j := by
        rw [hdata, hcodec.state] at hstate
        cases hstate
        rw [hinner, hid, hmembership]
        rfl
      refine ⟨j, ⟨hj, ?_, ?_, ?_⟩, ?_⟩
      · rw [reopened_withSnapshot, ← hspec]
        refine reopened_of_persistState hcodec ?_ hpersist
        rw [hinner]
        exact hguard.1
      · intro q hq
        cases hq
        exact hspec
      · intro q hq b' hb'
        cases hq
        obtain ⟨b₀, hb₀, rfl⟩ := List.mem_map.mp hb'
        exact h.builders p hp b₀ hb₀
      · have hbeyond := not_lt.mp hguard.2
        rw [h.memory p hp, hid] at hbeyond
        exact hbeyond

theorem readMeta_at (h : replica.At setting k) (hp : replica.process = some p) :
    (replica.readMeta p io).1.At setting k ∧ setting.Explains k k (replica.readMeta p io).2 := by
  unfold Replica.readMeta
  split
  · exact ⟨h, rfl⟩
  · exact ⟨h, rfl⟩
  · exact ⟨h.withProcess hp rfl (h.builders p hp), rfl⟩

theorem readData_at (h : replica.At setting k) (hp : replica.process = some p) (reader : Nat) :
    (replica.readData setting p reader io).1.At setting k ∧
      setting.Explains k k (replica.readData setting p reader io).2 := by
  unfold Replica.readData
  split
  · exact ⟨h, rfl⟩
  · exact ⟨h.withProcess hp rfl (h.builders p hp), rfl⟩

theorem reopen_at (h : replica.At setting k) :
    (replica.reopen setting io).1.At setting k ∧
      setting.Explains k k (replica.reopen setting io).2 := by
  unfold Replica.reopen
  split
  · exact ⟨h, rfl⟩
  · rename_i inner hopen
    have hinner : inner = setting.specAt k :=
      Except.ok.inj ((reopened_of_openInner hopen).symm.trans h.disk)
    refine ⟨⟨h.bound, h.disk, ?_, ?_⟩, rfl⟩
    · intro q hq
      cases hq
      exact hinner
    · intro q hq b hb
      cases hq
      cases hb

theorem act_at (hcodec : setting.codec.Lossless) (hlog : setting.Increasing)
    {built : List (Snapshot Bytes)} (hbuilt : ∀ snapshot ∈ built, setting.IsSnapshot snapshot)
    (h : replica.At setting k) (action : Action) :
    ∃ k', (replica.act setting built action).1.At setting k' ∧
      setting.Explains k k' (replica.act setting built action).2 := by
  unfold Replica.act
  split
  · exact ⟨k, reopen_at h⟩
  · rename_i p count io hp
    obtain ⟨k', hat, hexplains, -⟩ := applyNext_at hcodec hlog h hp count
    exact ⟨k', hat, hexplains⟩
  · rename_i p hp
    exact ⟨k, capture_at h hp, rfl⟩
  · rename_i p builder io hp
    exact ⟨k, finish_at h hp builder io⟩
  · rename_i p index io hp
    split
    · exact ⟨k, h, rfl⟩
    · rename_i snapshot hindex
      exact install_at hcodec h hp (hbuilt snapshot (List.mem_of_getElem? hindex))
  · rename_i p io hp
    exact ⟨k, readMeta_at h hp⟩
  · rename_i p reader io hp
    exact ⟨k, readData_at h hp reader⟩
  · refine ⟨k, ⟨h.bound, h.disk, ?_, ?_⟩, rfl⟩
    · intro q hq
      cases hq
    · intro q hq
      cases hq
  · exact ⟨k, h, rfl⟩

theorem act_of_applied (hcodec : setting.codec.Lossless) (hlog : setting.Increasing)
    {built : List (Snapshot Bytes)} (h : replica.At setting k) {action : Action}
    {responses : List PolicyResult}
    (hreply : (replica.act setting built action).2 = .applied (.ok responses)) :
    ∃ count io, action = .apply count io ∧ responses.length = count := by
  unfold Replica.act at hreply
  split at hreply
  · unfold Replica.reopen at hreply
    split at hreply <;> cases hreply
  · rename_i p count io hp
    obtain ⟨-, -, -, hanswers⟩ :
        ∃ k', (replica.applyNext setting p count io).1.At setting k' ∧ _ ∧ _ :=
      applyNext_at hcodec hlog h hp count
    rw [hreply] at hanswers
    exact ⟨count, io, rfl, hanswers⟩
  · cases hreply
  · unfold Replica.finish at hreply
    split at hreply
    · cases hreply
    · simp only at hreply
      split at hreply <;> cases hreply
  · split at hreply
    · cases hreply
    · unfold Replica.install at hreply
      split at hreply
      · cases hreply
      · split at hreply <;> cases hreply
  · unfold Replica.readMeta at hreply
    split at hreply <;> cases hreply
  · unfold Replica.readData at hreply
    split at hreply <;> cases hreply
  · cases hreply
  · cases hreply

def Reply.failed : Reply Bytes → Bool
  | .applied (.error _) => true
  | .built (.error _) => true
  | .installed (.error _) => true
  | .served (.error _) => true
  | .reopened (.error _) => true
  | _ => false

/-- What a failed operation leaves behind: builders and readers apart, what was there. -/
def Replica.Kept (replica after : Replica Bytes) : Prop :=
  after.db = replica.db ∧ after.process.map Process.inner = replica.process.map Process.inner

theorem Replica.Kept.withProcess (hp : replica.process = some p) {q : Process Bytes}
    (hinner : q.inner = p.inner) : replica.Kept { replica with process := some q } := by
  refine ⟨rfl, ?_⟩
  rw [hp, Option.map_some, Option.map_some, hinner]

theorem finish_of_failed (hp : replica.process = some p) {builder : Nat}
    (h : (replica.finish setting p builder io).2.failed = true) :
    replica.Kept (replica.finish setting p builder io).1 := by
  revert h
  unfold Replica.finish
  split
  · exact fun _ => ⟨rfl, rfl⟩
  · simp only
    split
    · exact fun _ => .withProcess hp rfl
    · exact fun h => absurd h (by simp [Reply.failed])

theorem act_of_failed {built : List (Snapshot Bytes)} {action : Action}
    (h : (replica.act setting built action).2.failed = true) :
    replica.Kept (replica.act setting built action).1 := by
  revert h
  unfold Replica.act
  split
  · unfold Replica.reopen
    split
    · exact fun _ => ⟨rfl, rfl⟩
    · exact fun h => absurd h (by simp [Reply.failed])
  · unfold Replica.applyNext
    split
    · exact fun _ => ⟨rfl, rfl⟩
    · split
      · exact fun _ => ⟨rfl, rfl⟩
      · split
        · exact fun _ => ⟨rfl, rfl⟩
        · exact fun h => absurd h (by simp [Reply.failed])
  · exact fun h => absurd h (by simp [Replica.capture, Reply.failed])
  · rename_i p builder io hp
    exact finish_of_failed hp
  · split
    · exact fun _ => ⟨rfl, rfl⟩
    · unfold Replica.install
      split
      · exact fun _ => ⟨rfl, rfl⟩
      · split
        · exact fun _ => ⟨rfl, rfl⟩
        · exact fun h => absurd h (by simp [Reply.failed])
  · unfold Replica.readMeta
    split
    · exact fun _ => ⟨rfl, rfl⟩
    · exact fun _ => ⟨rfl, rfl⟩
    · exact fun h => absurd h (by simp [Reply.failed])
  · rename_i p reader io hp
    unfold Replica.readData
    split
    · exact fun _ => ⟨rfl, rfl⟩
    · exact fun _ => .withProcess hp rfl
  · exact fun h => absurd h (by simp [Reply.failed])
  · exact fun _ => ⟨rfl, rfl⟩

/-! ## Runs of a cluster -/

def Cluster.after (setting : Setting Bytes) (events : List (NodeId × Action)) (n : Nat) :
    Cluster Bytes :=
  Runs.stateAt (Cluster.step setting) .start events n

theorem Cluster.after_succ {events : List (NodeId × Action)} {n : Nat} (hn : n < events.length) :
    Cluster.after setting events (n + 1) =
      (Cluster.after setting events n).step setting events[n] :=
  Runs.stateAt_succ hn

theorem Cluster.invariant_after {events : List (NodeId × Action)} {P : Cluster Bytes → Prop}
    (hstart : P .start)
    (hstep : ∀ n, n < events.length → P (Cluster.after setting events n) →
      P (Cluster.after setting events (n + 1))) (n : Nat) :
    P (Cluster.after setting events n) := by
  apply Runs.invariant hstart
  intro n hn h
  have hnext := hstep n hn h
  rw [Cluster.after_succ hn] at hnext
  exact hnext

structure Cluster.Sound (setting : Setting Bytes) (c : Cluster Bytes) : Prop where
  replica : ∀ r, ∃ k, (c.replicas r).At setting k
  built : ∀ snapshot ∈ c.built, setting.IsSnapshot snapshot

theorem sound_start (setting : Setting Bytes) :
    (Cluster.start : Cluster Bytes).Sound setting := by
  refine ⟨fun r => ⟨0, Nat.zero_le _, ?_, ?_, ?_⟩, ?_⟩
  · exact reopened_empty setting.codec setting.network
  · intro p hp
    cases hp
  · intro p hp
    cases hp
  · intro snapshot hmem
    cases hmem

theorem step_replicas_self (c : Cluster Bytes) (event : NodeId × Action) :
    (c.step setting event).replicas event.1 =
      ((c.replicas event.1).act setting c.built event.2).1 :=
  Function.update_self _ _ _

theorem step_replicas_of_ne (c : Cluster Bytes) {event : NodeId × Action} {r : NodeId}
    (hr : r ≠ event.1) : (c.step setting event).replicas r = c.replicas r :=
  Function.update_of_ne hr _ _

theorem sound_step (hcodec : setting.codec.Lossless) (hlog : setting.Increasing)
    {c : Cluster Bytes} (h : c.Sound setting) (event : NodeId × Action) :
    (c.step setting event).Sound setting := by
  obtain ⟨k, hk⟩ := h.replica event.1
  obtain ⟨k', hact, hexplains⟩ := act_at hcodec hlog h.built hk event.2
  constructor
  · intro r
    by_cases hr : r = event.1
    · subst hr
      rw [step_replicas_self]
      exact ⟨k', hact⟩
    · rw [step_replicas_of_ne c hr]
      exact h.replica r
  · intro snapshot hmem
    unfold Cluster.step at hmem
    simp only at hmem
    split at hmem
    · rename_i new hreply
      rcases List.mem_append.mp hmem with hold | hnew
      · exact h.built snapshot hold
      · obtain rfl := List.mem_singleton.mp hnew
        rw [Cluster.reply] at hreply
        rw [hreply] at hexplains
        exact hexplains.2
    · exact h.built snapshot hmem

theorem sound_after (hcodec : setting.codec.Lossless) (hlog : setting.Increasing)
    (events : List (NodeId × Action)) (n : Nat) :
    (Cluster.after setting events n).Sound setting := by
  apply Runs.invariant (sound_start setting)
  intro n hn h
  exact sound_step hcodec hlog h events[n]

def Cluster.replyAt (setting : Setting Bytes) (events : List (NodeId × Action)) (n : Nat) :
    Option (Reply Bytes) :=
  events[n]?.map fun event => (Cluster.after setting events n).reply setting event

theorem moves_after (hcodec : setting.codec.Lossless) (hlog : setting.Increasing)
    {events : List (NodeId × Action)} {n : Nat} (hn : n < events.length)
    (hk : ((Cluster.after setting events n).replicas events[n].1).At setting k) :
    ∃ k' reply, ((Cluster.after setting events (n + 1)).replicas events[n].1).At setting k' ∧
      Cluster.replyAt setting events n = some reply ∧ setting.Explains k k' reply := by
  have hbuilt := (sound_after hcodec hlog events n).built
  obtain ⟨k', hact, hexplains⟩ := act_at hcodec hlog hbuilt hk events[n].2
  refine ⟨k', _, ?_, ?_, hexplains⟩
  · rw [Cluster.after_succ hn, step_replicas_self]
    exact hact
  · rw [Cluster.replyAt, List.getElem?_eq_getElem hn, Option.map_some]
    rfl

theorem replica_state_determined_by_applied (setting : Setting Bytes)
    (hcodec : setting.codec.Lossless)
    (hlog : setting.Increasing) (events : List (NodeId × Action)) :
    -- the applied id is always that of an entry, or none, and survives a restart
    (∀ (n : Nat) (r : NodeId), ∃ k ≤ setting.log.length,
      ((Cluster.after setting events n).replicas r).db.reopened setting.codec setting.network =
        .ok (setting.specAt k)) ∧
    -- it determines the state and the membership in memory, and what a restart reads back
    (∀ (n : Nat) (r : NodeId) (p : Process Bytes),
      ((Cluster.after setting events n).replicas r).process = some p →
      ∃ k ≤ setting.log.length, p.inner.applied = setting.idAt k ∧
        ∀ k' ≤ setting.log.length, p.inner.applied = setting.idAt k' →
          p.inner.state = setting.policyAt k' ∧
          p.inner.membership = setting.membershipAt k' ∧
          ((Cluster.after setting events n).replicas r).db.reopened setting.codec
            setting.network = .ok p.inner) ∧
    -- every entry of a batch has its response, and responses are those of the fold, however the
    -- log was cut into batches
    (∀ (n : Nat) (hn : n < events.length) (p : Process Bytes) (responses : List PolicyResult)
        (k : Nat), k ≤ setting.log.length →
      ((Cluster.after setting events n).replicas events[n].1).process = some p →
      p.inner.applied = setting.idAt k →
      Cluster.replyAt setting events n = some (.applied (.ok responses)) →
      ∃ count io, events[n].2 = .apply count io ∧ responses.length = count ∧
        responses.map some = (List.range' k count).map setting.responseAt ∧
        ((Cluster.after setting events (n + 1)).replicas events[n].1).db.reopened setting.codec
          setting.network = .ok (setting.specAt (k + count))) ∧
    -- a failed operation changes neither the file nor the memory
    (∀ (n : Nat) (hn : n < events.length) (reply : Reply Bytes),
      Cluster.replyAt setting events n = some reply → reply.failed = true →
      ((Cluster.after setting events (n + 1)).replicas events[n].1).db =
        ((Cluster.after setting events n).replicas events[n].1).db ∧
      ((Cluster.after setting events (n + 1)).replicas events[n].1).process.map Process.inner =
        ((Cluster.after setting events n).replicas events[n].1).process.map Process.inner) := by
  have hsound := sound_after hcodec hlog events
  refine ⟨?_, ?_, ?_, ?_⟩
  · intro n r
    obtain ⟨k, hk⟩ := (hsound n).replica r
    exact ⟨k, hk.bound, hk.disk⟩
  · intro n r p hp
    obtain ⟨k, hk⟩ := (hsound n).replica r
    have hinner := hk.memory p hp
    refine ⟨k, hk.bound, by rw [hinner]; rfl, ?_⟩
    intro k' hk' happlied
    rw [hinner] at happlied
    obtain rfl := setting.idAt_injective hlog hk.bound hk' happlied
    rw [hinner]
    exact ⟨rfl, rfl, hk.disk⟩
  · intro n hn p responses k hkbound hp happlied hreply
    obtain ⟨j, hj⟩ := (hsound n).replica events[n].1
    rw [hj.memory p hp] at happlied
    obtain rfl := setting.idAt_injective hlog hj.bound hkbound happlied
    obtain ⟨k', reply, hnext, hreply', hexplains⟩ := moves_after hcodec hlog hn hj
    obtain rfl := Option.some.inj (hreply.symm.trans hreply')
    obtain ⟨rfl, hresponses⟩ := hexplains
    rw [Cluster.replyAt, List.getElem?_eq_getElem hn, Option.map_some, Cluster.reply] at hreply
    obtain ⟨count, io, hevent, rfl⟩ := act_of_applied hcodec hlog hj (Option.some.inj hreply)
    exact ⟨responses.length, io, hevent, rfl, hresponses, hnext.disk⟩
  · intro n hn reply hreply hfailed
    rw [Cluster.replyAt, List.getElem?_eq_getElem hn, Option.map_some] at hreply
    obtain rfl := Option.some.inj hreply
    have hkeep := act_of_failed hfailed
    rw [Cluster.after_succ hn, step_replicas_self]
    exact hkeep

/-- Two terms, with a membership, a blank entry and a gap in the indexes. -/
def sampleSetting : Setting Blob where
  prim := samplePrimitives
  codec := sampleCodec
  network := "net"
  log :=
    [⟨⟨⟨1, 1⟩, 1⟩, .membership ⟨[.ofList [1, 2]], .ofList [(1, (⟨peerA, "", ""⟩ : RaftNode))]⟩⟩,
      ⟨⟨⟨1, 1⟩, 2⟩, .normal (.createService "api" [peerA])⟩,
      ⟨⟨⟨2, 2⟩, 3⟩, .blank⟩,
      ⟨⟨⟨2, 2⟩, 5⟩, .normal (.addMembers "api" [peerB])⟩]

/-- Node 2 takes a snapshot of node 1, fails to apply once, and restarts. -/
def mixedRun : List (NodeId × Action) :=
  [(1, .reopen .fine), (1, .apply 2 .fine), (1, .capture), (1, .finish 0 .fine),
    (2, .reopen .fine), (2, .install 0 .fine),
    (2, .apply 1 fun what _ => if what = "commit apply" then some "disk full" else none),
    (2, .apply 2 .fine), (2, .close), (2, .reopen .fine)]

theorem replica_state_determined_by_applied_mixedRun :
    ∃ p, ((Cluster.after sampleSetting mixedRun 10).replicas 2).process = some p ∧
      p.inner.applied = some ⟨⟨2, 2⟩, 5⟩ ∧ p.inner.state = sampleSetting.policyAt 4 ∧
      p.inner.membership = sampleSetting.membershipAt 4 ∧
      ((Cluster.after sampleSetting mixedRun 10).replicas 2).db.reopened sampleCodec "net" =
        .ok p.inner := by
  have happlied : ((Cluster.after sampleSetting mixedRun 10).replicas 2).process.map
      (fun p => p.inner.applied) = some (some ⟨⟨2, 2⟩, 5⟩) := by decide +kernel
  obtain ⟨p, hp, hid⟩ := Option.map_eq_some_iff.mp happlied
  obtain ⟨k, hk, -, hstate⟩ :=
    (replica_state_determined_by_applied sampleSetting sampleCodec_lossless
    (by decide) mixedRun).2.1 10 2 p hp
  exact ⟨p, hp, hid, hstate 4 (by decide) hid⟩

end NexusAuth.Raft
