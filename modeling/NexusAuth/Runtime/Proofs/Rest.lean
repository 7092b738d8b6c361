import NexusAuth.Runtime.Proofs.Locks
import NexusAuth.Store.Proofs.Replication

/-!
# What a process waits for

When nothing goes on any more, every task that has not ended is held up from outside: by a node
that sends nothing and stays connected, by one that does not read what is written to it, or by a
quorum that does not answer.  No two tasks wait for each other.  A node of the second kind can
keep all others out, since `join_lock`, `raft_start_lock` and `publish_lock` are held while
control calls are written.
-/

namespace NexusAuth.Runtime

open NexusAuth.Connection NexusAuth.Lib.Interaction NexusAuth.Lib.Rely NexusAuth.Lib.Tasks

/-! ## Read loops -/

def Reads (conn : Nat) : Call → Prop
  | .readFrame c | .beginReading c | .endReading c => c = conn
  | .ctx | .spawnRequest _ | .deliver _ => True
  | _ => False

/-- A read loop is waited for by the task that has spawned it. -/
structure ReadGuard (s : Process) (i : Actor) (q : Call) : Prop where
  reads : ∀ conn, i = .reader conn → Reads conn q
  spawned : ∀ conn, q = .joinReadTask conn → i = .connection conn ∧ conn ∈ s.reading

def ReadersInv (s : Process) : Prop := s.readDone ⊆ s.reading

structure ReadersMay (s s' : Process) : Prop where
  reading : s.reading ⊆ s'.reading
  readDone : s.readDone ⊆ s'.readDone

def readersProtocol : Protocol Actor Process Call Answer :=
  Protocol.guarded ⟨answers, ReadersInv, fun _ => ReadersMay⟩ ReadGuard

def IsReading (conn : Nat) (s : Process) : Prop := conn ∈ s.reading

def HasRead (conn : Nat) (s : Process) : Prop := conn ∈ s.readDone

section Readers

variable {s s' : Process} {i : Actor} {conn : Nat} {P : Process → Prop}

theorem stable_isReading : readersProtocol.Stable i (IsReading conn) :=
  fun _ _ _ _ _ h hmay => hmay.reading h

theorem stable_hasRead : readersProtocol.Stable i (HasRead conn) :=
  fun _ _ _ _ _ h hmay => hmay.readDone h

theorem readers_same (hs : ReadersInv s) (hreading : s'.reading = s.reading)
    (hdone : s'.readDone = s.readDone) : ReadersInv s' ∧ ReadersMay s s' := by
  refine ⟨?_, hreading ▸ List.Subset.refl _, hdone ▸ List.Subset.refl _⟩
  rw [ReadersInv, hreading, hdone]
  exact hs

theorem readers_step {q : Call} (hq : Spares [.readers] q)
    (hreads : ∀ conn, i = .reader conn → Reads conn q) {a : Answer q} (hs : ReadersInv s)
    (h : readersProtocol.answers s i q a s') :
    ReadersInv s' ∧ ReadersMay s s' := by
  have hguard : ReadGuard s i q :=
    ⟨hreads, fun conn heq => absurd (congrArg Call.part heq) (hq .readers (by decide))⟩
  obtain ⟨hreading, hdone⟩ := hq.frame (h hguard) .readers (by decide)
  exact readers_same hs hreading hdone

theorem kept_readers {q : Call} (hq : Spares [.readers] q)
    (hreads : ∀ conn, i = .reader conn → Reads conn q)
    (hkeep : ∀ s s', ReadersMay s s' → P s → P s') (a : Answer q) (s s' : Process)
    (hs : ReadersInv s) (hP : P s) (h : readersProtocol.answers s i q a s') :
    ReadersInv s' ∧ ReadersMay s s' ∧ P s' := by
  obtain ⟨hinv, hmay⟩ := readers_step hq hreads hs h
  exact ⟨hinv, hmay, hkeep s s' hmay hP⟩

theorem stable_of_keep (hkeep : ∀ s s', ReadersMay s s' → P s → P s') :
    readersProtocol.Stable i P :=
  fun _ s s' _ _ h hmay => hkeep s s' hmay h

theorem triple_readers {α : Type} {p : RtM α} (hi : ∀ conn, i ≠ .reader conn)
    (hkeep : ∀ s s', ReadersMay s s' → P s → P s') (h : Asks (Spares [.readers]) p) :
    readersProtocol.Triple i P p fun _ => P :=
  triple_of_asks (stable_of_keep hkeep) (fun _ _ _ _ hq => kept_readers hq
    (fun conn heq => absurd heq (hi conn)) hkeep _ _ _) h

theorem spawnReadLoop_step (hi : ∀ conn, i ≠ .reader conn) (a : Answer (.spawnReadLoop conn))
    (s s' : Process) (hs : ReadersInv s) (_ : True)
    (h : readersProtocol.answers s i (.spawnReadLoop conn) a s') :
    ReadersInv s' ∧ ReadersMay s s' ∧ IsReading conn s' := by
  obtain rfl := h ⟨fun c heq => absurd heq (hi c), fun _ heq => by cases heq⟩
  exact ⟨fun c hc => List.mem_cons_of_mem _ (hs hc), ⟨List.subset_cons_self _ _,
    List.Subset.refl _⟩, List.mem_cons_self⟩

theorem joinReadTask_step (a : Answer (.joinReadTask conn)) (s s' : Process) (hs : ReadersInv s)
    (hreading : IsReading conn s)
    (h : readersProtocol.answers s (.connection conn) (.joinReadTask conn) a s') :
    ReadersInv s' ∧ ReadersMay s s' ∧ True := by
  have hguard : ReadGuard s (.connection conn) (.joinReadTask conn) :=
    ⟨fun _ => Actor.noConfusion, fun c heq => Call.joinReadTask.inj heq ▸ ⟨rfl, hreading⟩⟩
  obtain ⟨-, rfl⟩ := h hguard
  exact ⟨hs, ⟨List.Subset.refl _, List.Subset.refl _⟩, trivial⟩

theorem triple_readers_connection (config : RtConfig) :
    readersProtocol.Triple (.connection conn) (fun _ => True) (handleConnection config conn)
      fun _ _ => True := by
  have hi : ∀ c, Actor.connection conn ≠ .reader c := fun _ => Actor.noConfusion
  have hkeep : ∀ s s', ReadersMay s s' → IsReading conn s → IsReading conn s' :=
    fun _ _ hmay h => hmay.reading h
  have hjoin : readersProtocol.Triple (.connection conn) (IsReading conn)
      (call (.joinReadTask conn)) fun _ _ => True :=
    triple_request (fun _ => stable_const) joinReadTask_step
  refine triple_handleConnection
    (triple_readers hi (fun _ _ _ => id) (asks_handshake (by decide) conn)) (fun _ _ => id)
    (triple_request (fun _ => stable_isReading) (spawnReadLoop_step hi))
    (triple_outcome (triple_readers hi hkeep
      (asks_ensureReady (by decide) (by decide) (by decide) (by decide) config conn)))
    hjoin (fun _ => triple_readers hi hkeep
      (asks_ensureRaft (by decide) (by decide) (by decide) (by decide) (by decide) config conn))
    fun _ => ?_
  refine triple_kept_bind stable_isReading (kept_readers (spares_of_some rfl (by decide))
    (fun c heq => absurd heq (hi c)) hkeep) fun _ => hjoin.bind fun _ => ?_
  exact triple_readers hi (fun _ _ _ => id) ⟨spares_of_some rfl (by decide), fun _ => trivial⟩

theorem triple_readers_readTask (frames : Nat) :
    readersProtocol.Triple (.reader conn) (fun _ => True) (readTask conn frames)
      fun _ => HasRead conn := by
  have hkeep : ∀ s s', ReadersMay s s' → IsReading conn s → IsReading conn s' :=
    fun _ _ hmay h => hmay.reading h
  have hreads : ∀ {q}, Reads conn q → ∀ c, Actor.reader conn = .reader c → Reads c q :=
    fun hq c heq => Actor.reader.inj heq ▸ hq
  have hloop : Asks (fun q => Spares [.readers] q ∧ Reads conn q) (readLoop conn frames) :=
    asks_readLoop ⟨spares_of_none rfl, rfl⟩ ⟨spares_of_none rfl, trivial⟩
      (fun _ => ⟨spares_of_some rfl (by decide), trivial⟩)
      (fun _ => ⟨spares_of_none rfl, trivial⟩) frames
  refine triple_request_bind (fun _ => IsReading conn) (fun _ => stable_isReading) ?_ fun _ =>
    (triple_of_asks stable_isReading (fun _ _ _ _ hq => kept_readers hq.1 (hreads hq.2) hkeep
      _ _ _) hloop).bind fun _ => triple_request (fun _ => stable_hasRead) ?_
  · intro a s s' hs _ h
    obtain ⟨hreading, rfl⟩ := h ⟨hreads rfl, fun _ heq => by cases heq⟩
    exact ⟨hs, ⟨List.Subset.refl _, List.Subset.refl _⟩, hreading⟩
  · intro a s s' hs hreading h
    obtain rfl := h ⟨hreads rfl, fun _ heq => by cases heq⟩
    exact ⟨List.cons_subset.mpr ⟨hreading, hs⟩, ⟨List.Subset.refl _, List.subset_cons_self _ _⟩,
      List.mem_cons_self⟩

def ReadEnd (s : Process) : Actor → Prop
  | .reader conn => HasRead conn s
  | _ => True

theorem triple_readers_program (config : RtConfig) (frames : Nat → Nat) (i : Actor) :
    readersProtocol.Triple i (fun _ => True) (program config frames i) fun _ s => ReadEnd s i := by
  cases i with
  | reader conn => exact triple_readers_readTask _
  | connection conn => exact triple_readers_connection config
  | worker n =>
      exact triple_readers (fun _ => Actor.noConfusion) (fun _ _ _ => id)
        (asks_requestTask (by decide) (by decide) (by decide))
  | caller n =>
      exact triple_readers (fun _ => Actor.noConfusion) (fun _ _ _ => id)
        (asks_callerTask (by decide) (by decide))

end Readers

/-! ## At rest -/

def Nodes.blocks (nodes : Nodes) (s : Process) : Call → Bool
  | .lock l => (s.holder l).isSome
  | .beginReading conn => conn ∉ s.reading
  | .joinReadTask conn => conn ∉ s.readDone
  | .takeJob => s.spawned.isEmpty
  | q => nodes.holdUp q

/-- No task can go on, whatever the nodes still do. -/
def AtRest (nodes : Nodes) (w : ProcessPool) : Prop :=
  ∀ i q a w', ¬Pool.Answers nodes.rules w i q a w'

/-- What a task waits for in the end: a node, a quorum, or a connection, a read loop or a request
that does not come. -/
def HeldUp (nodes : Nodes) (s : Process) : Call → Prop
  | .readFrame conn | .joinReadTask conn => nodes.silent conn
  | .writeFrame conn _ | .writeControl conn | .lock (.writer conn) => nodes.stalled conn
  | .lock .publish => (s.holder .publish).isSome ∧ (nodes.noQuorum ∨ ∃ conn, nodes.stalled conn)
  | .lock l => ∃ conn, s.holder l = some (.connection conn) ∧ nodes.stalled conn
  | .propose => nodes.noQuorum
  | .beginReading conn => conn ∉ s.reading
  | .takeJob => s.spawned = []
  | .handle job => nodes.hangs job
  | _ => False

section Rest

variable {nodes : Nodes} {s s' : Process} {i : Actor}

theorem not_answers_of_blocks {q : Call} (h : nodes.blocks s q = true) (a : Answer q) :
    ¬nodes.rules.answers s i q a s' := by
  rintro ⟨hnodes, hans⟩
  cases q with
  | lock l =>
      rw [Nodes.blocks, hans.1] at h
      cases h
  | beginReading conn | joinReadTask conn => exact of_decide_eq_true h hans.1
  | takeJob =>
      rw [Nodes.blocks, List.isEmpty_iff] at h
      exact absurd hans.1 (h ▸ List.not_mem_nil)
  | _ => exact Bool.noConfusion (hnodes.symm.trans h)

theorem exists_answer {q : Call} (hq : nodes.blocks s q = false)
    (hguard : ∀ l, q = .unlock l → s.holder l = some i) :
    ∃ a s', nodes.rules.answers s i q a s' := by
  obtain ⟨a⟩ := nonempty_answer q
  cases q with
  | lock l =>
      have hfree : s.holder l = none := Option.not_isSome_iff_eq_none.mp (Bool.eq_false_iff.mp hq)
      exact ⟨(), _, rfl, hfree, rfl⟩
  | unlock l => exact ⟨(), _, rfl, hguard l rfl, rfl⟩
  | beginReading conn | joinReadTask conn =>
      exact ⟨(), s, rfl, not_not.mp (of_decide_eq_false hq), rfl⟩
  | takeJob =>
      obtain ⟨job, hjob⟩ := List.exists_mem_of_ne_nil s.spawned fun hnil => by
        rw [Nodes.blocks, hnil] at hq
        cases hq
      exact ⟨job, _, rfl, hjob, rfl⟩
  | ctx | buildContext | hasRaft | register => exact ⟨_, _, rfl, rfl, rfl⟩
  | startRaft => exact ⟨.error "", s, rfl, rfl⟩
  | _ => exact ⟨a, _, hq, rfl⟩

def waits (nodes : Nodes) (s : Process) (task : Task Actor Call Answer) : Bool :=
  match task.rest with
  | .done _ => true
  | .ask q _ => nodes.blocks s q

theorem atRest_of_waits {w : ProcessPool} (h : w.tasks.all (waits nodes w.shared) = true) :
    AtRest nodes w := by
  rintro i q a w' ⟨k, task, next, s', htask, rfl, hrest, hans, rfl⟩
  have hwaits := List.all_eq_true.mp h task (List.mem_of_getElem? htask)
  rw [waits, hrest] at hwaits
  exact not_answers_of_blocks hwaits a hans

end Rest

section Runs

variable {config : RtConfig} {frames : Nat → Nat} {actors : List Actor}
  {ctx : Option (Option Signer × Store)} {w : ProcessPool} {nodes : Nodes}

theorem readers_proved (hactors : actors.Nodup)
    (hrun : Pool.Run rules (boot config frames actors ctx) w) :
    Proved readersProtocol (fun i s => ReadEnd s i) w := by
  refine Proved.run (proved_boot hactors ?_ (fun _ => stable_const) (fun _ => trivial)
    fun i _ => triple_readers_program config frames i) (Protocol.run_guarded hrun)
  exact List.Subset.refl _

theorem read_allowed (hactors : actors.Nodup)
    (hrun : Pool.Run rules (boot config frames actors ctx) w) {task : Task Actor Call Answer}
    (htask : task ∈ w.tasks) {q : Call} {next : Answer q → RtM Unit}
    (hrest : task.rest = .ask q next) : ReadGuard w.shared task.owner q := by
  obtain ⟨a⟩ := nonempty_answer q
  refine (readers_proved hactors hrun).allowed ⟨?_, fun h => ?_⟩ htask a hrest
  · exact { Process.initial none with readDone := [0] }
  · exact List.not_mem_nil (h List.mem_cons_self)

theorem blocks_at_rest (hactors : actors.Nodup)
    (hrun : Pool.Run rules (boot config frames actors ctx) w) (hrest : AtRest nodes w)
    {task : Task Actor Call Answer} (htask : task ∈ w.tasks) {q : Call}
    {next : Answer q → RtM Unit} (hnext : task.rest = .ask q next) :
    nodes.blocks w.shared q = true := by
  refine Bool.eq_true_of_not_eq_false fun hblocks => ?_
  have hguard := lock_allowed hactors hrun htask hnext
  obtain ⟨a, s', hans⟩ := exists_answer (i := task.owner) hblocks fun l heq => by
    subst heq
    exact hguard
  obtain ⟨k, hk⟩ := List.getElem?_of_mem htask
  exact hrest _ q a _ ⟨k, task, next, s', hk, rfl, hnext, hans, rfl⟩

/-- Who holds a lock has not ended, and waits in a way in which the lock may be held. -/
theorem question_of_holder (hactors : actors.Nodup)
    (hrun : Pool.Run rules (boot config frames actors ctx) w) (hrest : AtRest nodes w) {l : Lock}
    (hheld : (w.shared.holder l).isSome) :
    ∃ i q, w.shared.holder l = some i ∧ lockGuard w.shared i q ∧
      nodes.blocks w.shared q = true := by
  obtain ⟨i, hi⟩ := Option.isSome_iff_exists.mp hheld
  have hproved := locks_proved hactors hrun
  have hmem : i ∈ w.tasks.map Task.owner := owners_of_boot hrun ▸ hproved.inv l i hi
  obtain ⟨task, htask, rfl⟩ := List.mem_map.mp hmem
  cases hnext : task.rest with
  | ask q next =>
      exact ⟨task.owner, q, hi, lock_allowed hactors hrun htask hnext,
        blocks_at_rest hactors hrun hrest htask hnext⟩
  | done u =>
      have hnone := hproved.finished htask (by rw [Task.ended, hnext])
      exact ((hnone l).mp hi).elim

theorem writer_at_rest (hactors : actors.Nodup)
    (hrun : Pool.Run rules (boot config frames actors ctx) w) (hrest : AtRest nodes w)
    {conn : Nat} (hheld : (w.shared.holder (.writer conn)).isSome) :
    nodes.stalled conn = true := by
  obtain ⟨i, q, hheld, hguard, hblocks⟩ := question_of_holder hactors hrun hrest hheld
  cases q with
  | writeFrame c msg | writeControl c =>
      obtain rfl := (hguard.1 conn).mp hheld
      exact hblocks
  | unlock l => cases hblocks
  | lock l =>
      cases l with
      | writer c => exact absurd hheld (hguard.1 conn)
      | _ => exact ((hguard _).mp hheld).elim
  | propose => cases (hguard _).mp hheld
  | readFrame | beginReading | joinReadTask | takeJob | handle =>
      exact ((hguard _).mp hheld).elim
  | _ => exact absurd hheld (hguard conn)

/-- Who holds a lock of `Runtime` is a connection that writes to its own node. -/
theorem runtime_at_rest (hactors : actors.Nodup)
    (hrun : Pool.Run rules (boot config frames actors ctx) w) (hrest : AtRest nodes w)
    {l : Lock} (hheld : (w.shared.holder l).isSome) (hl : l.OfRuntime) :
    ∃ conn, w.shared.holder l = some (.connection conn) ∧ nodes.stalled conn = true := by
  obtain ⟨i, q, hheld, hguard, hblocks⟩ := question_of_holder hactors hrun hrest hheld
  have hown : ∀ conn, MayWrite i conn w.shared →
      w.shared.holder l = some (.connection conn) := fun conn hmay => hmay l hl hheld ▸ hheld
  cases q with
  | writeFrame c msg | writeControl c => exact ⟨c, hown c hguard.2, hblocks⟩
  | lock l' =>
      cases l' with
      | writer c => exact ⟨c, hown c hguard.2, writer_at_rest hactors hrun hrest hblocks⟩
      | _ => exact ((hguard l).mp hheld).elim
  | propose =>
      obtain rfl : l = .publish := (hguard l).mp hheld
      exact hl.elim
  | readFrame | beginReading | joinReadTask | takeJob | handle =>
      exact ((hguard l).mp hheld).elim
  | _ => cases hblocks

theorem publish_at_rest (hactors : actors.Nodup)
    (hrun : Pool.Run rules (boot config frames actors ctx) w) (hrest : AtRest nodes w)
    (hheld : (w.shared.holder .publish).isSome) :
    nodes.noQuorum = true ∨ ∃ conn, nodes.stalled conn = true := by
  obtain ⟨i, q, hheld, hguard, hblocks⟩ := question_of_holder hactors hrun hrest hheld
  cases q with
  | writeFrame c msg | writeControl c => exact Or.inr ⟨c, hblocks⟩
  | lock l =>
      cases l with
      | writer c => exact Or.inr ⟨c, writer_at_rest hactors hrun hrest hblocks⟩
      | _ => exact ((hguard _).mp hheld).elim
  | propose => exact Or.inl hblocks
  | readFrame | beginReading | joinReadTask | takeJob | handle =>
      exact ((hguard _).mp hheld).elim
  | _ => cases hblocks

theorem reader_at_rest (hactors : actors.Nodup)
    (hrun : Pool.Run rules (boot config frames actors ctx) w) (hrest : AtRest nodes w)
    {conn : Nat} (hreader : .reader conn ∈ actors) (hreading : conn ∈ w.shared.reading)
    (hdone : conn ∉ w.shared.readDone) : nodes.silent conn = true := by
  obtain ⟨task, htask, howner⟩ := List.mem_map.mp (owners_of_boot hrun ▸ hreader)
  cases hnext : task.rest with
  | done u =>
      have hend := (readers_proved hactors hrun).finished htask (by rw [Task.ended, hnext])
      rw [howner] at hend
      exact absurd hend hdone
  | ask q next =>
      have hblocks := blocks_at_rest hactors hrun hrest htask hnext
      have hreads := (read_allowed hactors hrun htask hnext).reads conn howner
      cases q with
      | readFrame c =>
          obtain rfl : c = conn := hreads
          exact hblocks
      | beginReading c =>
          obtain rfl : c = conn := hreads
          exact absurd hreading (of_decide_eq_true hblocks)
      | endReading | ctx | spawnRequest | deliver => cases hblocks
      | _ => exact hreads.elim

theorem heldUp_at_rest (hactors : actors.Nodup)
    (hreaders : ∀ conn, .connection conn ∈ actors → .reader conn ∈ actors)
    (hrun : Pool.Run rules (boot config frames actors ctx) w) (hrest : AtRest nodes w)
    {task : Task Actor Call Answer} (htask : task ∈ w.tasks) {q : Call}
    {next : Answer q → RtM Unit} (hnext : task.rest = .ask q next) :
    HeldUp nodes w.shared q := by
  have hblocks := blocks_at_rest hactors hrun hrest htask hnext
  cases q with
  | readFrame | writeFrame | writeControl | propose | handle => exact hblocks
  | takeJob => exact List.isEmpty_iff.mp hblocks
  | beginReading conn =>
      have hnot : conn ∉ w.shared.reading := of_decide_eq_true hblocks
      exact hnot
  | joinReadTask conn =>
      obtain ⟨howner, hreading⟩ := (read_allowed hactors hrun htask hnext).spawned conn rfl
      have hmem : task.owner ∈ actors := owners_of_boot hrun ▸ List.mem_map_of_mem htask
      exact reader_at_rest hactors hrun hrest (hreaders conn (howner ▸ hmem)) hreading
        (of_decide_eq_true hblocks)
  | lock l =>
      cases l with
      | writer conn => exact writer_at_rest hactors hrun hrest hblocks
      | publish => exact ⟨hblocks, publish_at_rest hactors hrun hrest hblocks⟩
      | join | raftStart => exact runtime_at_rest hactors hrun hrest hblocks trivial
  | _ => cases hblocks

/-- When nothing goes on any more, every task has ended or is held up from outside in the end, and
as long as every node reads what is written to it and a quorum answers, no lock is left held. -/
theorem process_never_deadlocks (config : RtConfig) (frames : Nat → Nat) (actors : List Actor)
    (hactors : actors.Nodup)
    (hreaders : ∀ conn, .connection conn ∈ actors → .reader conn ∈ actors)
    (ctx : Option (Option Signer × Store)) (nodes : Nodes)
    (hrun : Pool.Run rules (boot config frames actors ctx) w) (hrest : AtRest nodes w) :
    (∀ task ∈ w.tasks, task.ended ∨
      ∃ q next, task.rest = .ask q next ∧ HeldUp nodes w.shared q) ∧
      (nodes.noQuorum = false → (∀ conn, nodes.stalled conn = false) →
        ∀ l, w.shared.holder l = none) := by
  refine ⟨fun task htask => ?_, fun hquorum hstalled l => ?_⟩
  · cases hnext : task.rest with
    | done u => exact Or.inl (by rw [Task.ended, hnext])
    | ask q next =>
        exact Or.inr ⟨q, next, rfl, heldUp_at_rest hactors hreaders hrun hrest htask hnext⟩
  · refine Option.not_isSome_iff_eq_none.mp fun hheld => ?_
    have hreads : ∀ conn, nodes.stalled conn ≠ true :=
      fun conn => Bool.eq_false_iff.mp (hstalled conn)
    cases l with
    | writer c => exact hreads c (writer_at_rest hactors hrun hrest hheld)
    | publish =>
        obtain hnone | ⟨c, hc⟩ := publish_at_rest hactors hrun hrest hheld
        · exact Bool.eq_false_iff.mp hquorum hnone
        · exact hreads c hc
    | join | raftStart =>
        obtain ⟨c, -, hc⟩ := runtime_at_rest hactors hrun hrest hheld trivial
        exact hreads c hc

end Runs

def joinsByPassword : ProcessPool :=
  boot ⟨false, 60, 5⟩ (fun _ => 1) [.connection 0, .connection 1, .reader 0, .reader 1] none

/-- The first has the lock and writes its first control call, the second waits for the lock. -/
def firstJoins : List Nat := List.replicate 10 0 ++ List.replicate 6 1 ++ [2, 3]

/-- From here on no node sends anything, and the first does not read either. -/
def firstStalls : Nodes where
  silent _ := true
  stalled conn := conn == 0
  noQuorum := false
  hangs _ := false

/-- A node that does not read what is written to it keeps the others out. -/
theorem process_never_deadlocks_stalled :
    ∃ w, Pool.Run rules joinsByPassword w ∧ AtRest firstStalls w ∧
      w.shared.holder .join = some (.connection 0) ∧ w.tasks.any Task.ended = false ∧
      ∀ task ∈ w.tasks, task.ended ∨
        ∃ q next, task.rest = .ask q next ∧ HeldUp firstStalls w.shared q := by
  have hfinal : (replay Store.emptyStore joinsByPassword firstJoins).map (fun w =>
      (w.tasks.all (waits firstStalls w.shared), w.shared.holder .join, w.tasks.any Task.ended)) =
      some (true, some (.connection 0), false) := by
    decide +kernel
  obtain ⟨w, hw, hshared⟩ := Option.map_eq_some_iff.mp hfinal
  obtain ⟨hwaits, hlocal⟩ := Prod.mk.inj hshared
  obtain ⟨hheld, hended⟩ := Prod.mk.inj hlocal
  have hrest := atRest_of_waits hwaits
  have hnever := process_never_deadlocks _ _ _ (by decide) (fun conn => ?_) _ firstStalls
    (run_of_replay hw) hrest
  · exact ⟨w, run_of_replay hw, hrest, hheld, hended, hnever.1⟩
  · simp

end NexusAuth.Runtime
