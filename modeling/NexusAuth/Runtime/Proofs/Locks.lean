import NexusAuth.Runtime.Proofs.Programs

/-!
# Locks

A task that holds one of the two locks of `Runtime` asks for one more lock only, the writing end
of its own connection, and waits for nothing else that another task has to do.  Who publishes
asks for the writing ends of other connections too, one after the other, and can wait for a
quorum.  Who holds a writing end waits for the socket.
-/

namespace NexusAuth.Runtime

open NexusAuth.Connection NexusAuth.Lib.Interaction NexusAuth.Lib.Rely NexusAuth.Lib.Tasks

def Holding (i : Actor) (held : Set Lock) (s : Process) : Prop :=
  ∀ l, s.holder l = some i ↔ l ∈ held

def NotWriting (i : Actor) (s : Process) : Prop := ∀ conn, s.holder (.writer conn) ≠ some i

def Lock.OfRuntime : Lock → Prop
  | .join | .raftStart => True
  | _ => False

/-- A task with a lock of `Runtime` writes to its own connection only. -/
def MayWrite (i : Actor) (conn : Nat) (s : Process) : Prop :=
  ∀ l, l.OfRuntime → s.holder l = some i → i = .connection conn

def lockGuard (s : Process) (i : Actor) : Call → Prop
  | .lock (.writer conn) => NotWriting i s ∧ MayWrite i conn s
  | .writeFrame conn _ | .writeControl conn =>
      (∀ c, s.holder (.writer c) = some i ↔ c = conn) ∧ MayWrite i conn s
  | .unlock l => s.holder l = some i
  | .propose => Holding i {.publish} s
  | .lock _ | .readFrame _ | .beginReading _ | .joinReadTask _ | .takeJob | .handle _ =>
      Holding i ∅ s
  | _ => NotWriting i s

def LocksInv (actors : List Actor) (s : Process) : Prop :=
  ∀ l i, s.holder l = some i → i ∈ actors

def LocksMay (i : Actor) (s s' : Process) : Prop :=
  ∀ j, j ≠ i → ∀ l, s'.holder l = some j ↔ s.holder l = some j

def lockProtocol (actors : List Actor) : Protocol Actor Process Call Answer :=
  Protocol.guarded ⟨answers, LocksInv actors, LocksMay⟩ lockGuard

abbrev LockFree (q : Call) : Prop := Spares [.joinLock, .raftStartLock, .publishLock, .writers] q

/-- Locks that a task can hold while it writes to a connection. -/
structure Outer (i : Actor) (conn : Nat) (held : Set Lock) : Prop where
  outer : ∀ l ∈ held, ∀ c, l ≠ .writer c
  own : ∀ l ∈ held, l.OfRuntime → i = .connection conn

section Locks

variable {actors : List Actor} {s s' : Process} {i : Actor} {conn : Nat} {held : Set Lock}

theorem outer_empty : Outer i conn ∅ := ⟨fun _ h => h.elim, fun _ h => h.elim⟩

theorem outer_own {l : Lock} (hl : ∀ c, l ≠ .writer c) : Outer (.connection conn) conn {l} :=
  ⟨fun _ h => Set.mem_singleton_iff.mp h ▸ hl, fun _ _ _ => rfl⟩

theorem outer_publish : Outer i conn {.publish} :=
  ⟨fun _ h => Set.mem_singleton_iff.mp h ▸ fun _ => Lock.noConfusion,
    fun _ h hl => (Set.mem_singleton_iff.mp h ▸ hl : Lock.OfRuntime .publish).elim⟩

theorem Outer.notWriting (h : Outer i conn held) (hs : Holding i held s) : NotWriting i s :=
  fun c hc => h.outer _ ((hs _).mp hc) c rfl

theorem Outer.mayWrite (h : Outer i conn held) (hs : Holding i held s) : MayWrite i conn s :=
  fun l hl hheld => h.own l ((hs l).mp hheld) hl

theorem Outer.notMem (h : Outer i conn held) : .writer conn ∉ held :=
  fun hmem => h.outer _ hmem conn rfl

/-! ## Steps -/

theorem stable_holding : (lockProtocol actors).Stable i (Holding i held) :=
  fun _ _ _ hj _ h hmay l => (hmay i (Ne.symm hj) l).trans (h l)

theorem inv_of_holding (h : LocksMay i s s') (hi : ∀ l, s'.holder l = some i → i ∈ actors)
    (hs : LocksInv actors s) : LocksInv actors s' := by
  intro l j hj
  by_cases hij : j = i
  · subst hij
    exact hi l hj
  · exact hs l j ((h j hij l).mp hj)

theorem kept_holding (q : Call) (hq : LockFree q)
    (hguard : ∀ s, Holding i held s → lockGuard s i q) (a : Answer q) (s s' : Process)
    (hs : LocksInv actors s) (hheld : Holding i held s)
    (h : (lockProtocol actors).answers s i q a s') :
    LocksInv actors s' ∧ LocksMay i s s' ∧ Holding i held s' := by
  have hans := h (hguard s hheld)
  have hholder : ∀ l, s'.holder l = s.holder l := fun l => by
    cases l with
    | join => exact hq.frame hans .joinLock (by decide)
    | raftStart => exact hq.frame hans .raftStartLock (by decide)
    | publish => exact hq.frame hans .publishLock (by decide)
    | writer c => exact congrFun (hq.frame hans .writers (by decide)) c
  refine ⟨fun l => ?_, fun j _ l => ?_, fun l => ?_⟩ <;> rw [hholder l]
  · exact hs l
  · exact hheld l

theorem holder_setHolder (holder : Option Actor) (l l' : Lock) :
    (s.setHolder holder l).holder l' = if l = l' then holder else s.holder l' := by
  cases l <;> cases l' <;> simp [Process.setHolder, Process.holder, Function.update_apply, eq_comm]

theorem lock_step (hi : i ∈ actors) {l : Lock}
    (hguard : ∀ s, Holding i held s → lockGuard s i (.lock l)) (a : Answer (.lock l))
    (s s' : Process) (hs : LocksInv actors s) (hheld : Holding i held s)
    (h : (lockProtocol actors).answers s i (.lock l) a s') :
    LocksInv actors s' ∧ LocksMay i s s' ∧ Holding i (insert l held) s' := by
  obtain ⟨hfree, rfl⟩ := h (hguard s hheld)
  have hother : LocksMay i s (s.setHolder (some i) l) := by
    intro j hj l'
    rw [holder_setHolder]
    by_cases hl : l = l'
    · subst hl
      simp [hfree, Ne.symm hj]
    · rw [if_neg hl]
  refine ⟨inv_of_holding hother (fun _ _ => hi) hs, hother, fun l' => ?_⟩
  rw [holder_setHolder]
  by_cases hl : l = l'
  · simp [hl]
  · rw [if_neg hl, hheld l', Set.mem_insert_iff, or_iff_right (Ne.symm hl)]

theorem unlock_step {l : Lock} (hl : l ∉ held) (a : Answer (.unlock l)) (s s' : Process)
    (hs : LocksInv actors s) (hheld : Holding i (insert l held) s)
    (h : (lockProtocol actors).answers s i (.unlock l) a s') :
    LocksInv actors s' ∧ LocksMay i s s' ∧ Holding i held s' := by
  obtain ⟨hmine, rfl⟩ := h ((hheld l).mpr (Set.mem_insert l held))
  have hother : LocksMay i s (s.setHolder none l) := by
    intro j hj l'
    rw [holder_setHolder]
    by_cases hl : l = l'
    · subst hl
      simp [hmine, Ne.symm hj]
    · rw [if_neg hl]
  refine ⟨inv_of_holding hother (fun _ _ => hs l i hmine) hs, hother, fun l' => ?_⟩
  rw [holder_setHolder]
  by_cases hl' : l = l'
  · subst hl'
    simp [hl]
  · rw [if_neg hl', hheld l', Set.mem_insert_iff, or_iff_right (Ne.symm hl')]

theorem triple_lock_bind (hi : i ∈ actors) {α : Type} {l : Lock}
    (hguard : ∀ s, Holding i held s → lockGuard s i (.lock l)) {f : Unit → RtM α}
    {R : α → Process → Prop}
    (h : (lockProtocol actors).Triple i (Holding i (insert l held)) (f ()) R) :
    (lockProtocol actors).Triple i (Holding i held) (call (.lock l) >>= f) R :=
  triple_request_bind (fun _ => Holding i (insert l held)) (fun _ => stable_holding)
    (lock_step hi hguard) fun _ => h

theorem triple_unlock_bind {α : Type} {l : Lock} (hl : l ∉ held) {f : Unit → RtM α}
    {R : α → Process → Prop} (h : (lockProtocol actors).Triple i (Holding i held) (f ()) R) :
    (lockProtocol actors).Triple i (Holding i (insert l held)) (call (.unlock l) >>= f) R :=
  triple_request_bind (fun _ => Holding i held) (fun _ => stable_holding) (unlock_step hl)
    fun _ => h

/-! ## Writing -/

def Writes (conn : Nat) : Call → Prop
  | .writeFrame c _ | .writeControl c => c = conn
  | _ => False

theorem Writes.lockFree {q : Call} (hq : Writes conn q) : LockFree q := by
  cases q with
  | writeControl c => exact spares_of_none rfl
  | writeFrame c msg =>
      cases msg with
      | reply reply => exact spares_of_some rfl (by decide)
      | _ => exact spares_of_none rfl
  | _ => exact hq.elim

theorem Writes.guard {q : Call} (hq : Writes conn q) (h : Outer i conn held)
    (hs : Holding i (insert (.writer conn) held) s) : lockGuard s i q := by
  have hone : ∀ c, s.holder (.writer c) = some i ↔ c = conn := fun c => by
    rw [hs, Set.mem_insert_iff, or_iff_left fun hmem => h.outer _ hmem c rfl, Lock.writer.injEq]
  have hown : MayWrite i conn s := fun l hl hheld => by
    obtain rfl | hmem := Set.mem_insert_iff.mp ((hs l).mp hheld)
    · exact hl.elim
    · exact h.own l hmem hl
  cases q with
  | writeFrame c msg | writeControl c =>
      obtain rfl : c = conn := hq
      exact ⟨hone, hown⟩
  | _ => exact hq.elim

theorem triple_write_bind (hi : i ∈ actors) (h : Outer i conn held) {q : Call}
    (hq : Writes conn q) {α : Type} {f : Answer q → RtM α} {R : α → Process → Prop}
    (hf : ∀ a, (lockProtocol actors).Triple i (Holding i held) (f a) R) :
    (lockProtocol actors).Triple i (Holding i held)
      (do call (.lock (.writer conn)); let a ← call q; call (.unlock (.writer conn)); f a) R := by
  have hguard : ∀ s, Holding i held s → lockGuard s i (.lock (.writer conn)) :=
    fun s hs => ⟨h.notWriting hs, h.mayWrite hs⟩
  refine triple_lock_bind hi hguard ?_
  refine triple_kept_bind stable_holding
    (kept_holding q hq.lockFree fun _ hs => hq.guard h hs) fun a => ?_
  exact triple_unlock_bind h.notMem (hf a)

theorem triple_lock_writeMsg (hi : i ∈ actors) (h : Outer i conn held) (msg : Message) :
    (lockProtocol actors).Triple i (Holding i held) (writeMsg conn msg) fun _ => Holding i held :=
  triple_write_bind (q := .writeFrame conn msg) hi h rfl fun _ => triple_done fun _ _ => id

theorem triple_lock_controlCall (hi : i ∈ actors) (h : Outer i conn held) :
    (lockProtocol actors).Triple i (Holding i held) (controlCall conn) fun _ => Holding i held := by
  refine triple_write_bind (q := .writeControl conn) hi h rfl fun result => ?_
  cases result with
  | error e => exact triple_done fun _ _ => id
  | ok _ =>
      exact triple_request (fun _ => stable_holding)
        (kept_holding _ (spares_of_none rfl) fun _ => h.notWriting)

theorem triple_lock_controlCalls (hi : i ∈ actors) {conns : List Nat}
    (h : ∀ conn ∈ conns, Outer i conn held) :
    (lockProtocol actors).Triple i (Holding i held) (controlCalls conns)
      fun _ => Holding i held := by
  induction conns with
  | nil => exact triple_done fun _ _ => id
  | cons conn conns ih =>
      obtain ⟨hconn, hconns⟩ := List.forall_mem_cons.mp h
      exact (triple_lock_controlCall hi hconn).bind fun _ => ih hconns

theorem triple_lock_withCalls (hi : i ∈ actors) (h : Outer i conn held) {q : Call}
    (hq : LockFree q) (hguard : ∀ s, Holding i held s → lockGuard s i q) :
    (lockProtocol actors).Triple i (Holding i held) (withCalls conn q) fun _ => Holding i held := by
  refine triple_kept_bind stable_holding (kept_holding _ (spares_of_none rfl) fun _ => h.notWriting)
    fun n => Protocol.Triple.bind (M := fun _ => Holding i held) ?_ fun _ =>
      triple_request (fun _ => stable_holding) (kept_holding q hq hguard)
  exact triple_lock_controlCalls hi fun c hc => List.eq_of_mem_replicate hc ▸ h

theorem triple_lock_publishOnce (hi : i ∈ actors) :
    (lockProtocol actors).Triple i (Holding i ∅) publishOnce fun _ => Holding i ∅ := by
  have houter : Outer i 0 {.publish} := outer_publish
  have hnot : ∀ s, Holding i {.publish} s → NotWriting i s := fun _ => houter.notWriting
  have hcalls : (lockProtocol actors).Triple i (Holding i {.publish})
      (do let conns ← call .recipients; controlCalls conns; call (.unlock .publish))
      fun _ => Holding i ∅ := by
    refine triple_kept_bind stable_holding (kept_holding _ (spares_of_none rfl) hnot) fun conns =>
      (triple_lock_controlCalls hi fun _ _ => outer_publish).bind fun _ => ?_
    rw [← insert_empty_eq]
    exact triple_request (fun _ => stable_holding) (unlock_step (Set.notMem_empty _))
  refine triple_lock_bind hi (fun _ => id) ?_
  rw [insert_empty_eq]
  refine triple_kept_bind stable_holding (kept_holding _ (spares_of_none rfl) hnot) fun renews => ?_
  cases renews with
  | true =>
      exact triple_kept_bind stable_holding (kept_holding _ (spares_of_none rfl) fun _ => id)
        fun _ => hcalls
  | false => exact hcalls

theorem triple_lock_errands (hi : i ∈ actors) (todo : List Errand) :
    (lockProtocol actors).Triple i (Holding i ∅) (errands todo) fun _ => Holding i ∅ := by
  induction todo with
  | nil => exact triple_done fun _ _ => id
  | cons first rest ih =>
      refine Protocol.Triple.bind (M := fun _ => Holding i ∅) ?_ fun _ => ih
      cases first with
      | control conn => exact triple_lock_controlCall hi outer_empty
      | publish => exact triple_lock_publishOnce hi

/-! ## Programs -/

/-- A question that may be asked under any lock but a writing end. -/
def Independent : Call → Prop
  | .lock _ | .unlock _ | .writeFrame _ _ | .writeControl _ | .propose | .readFrame _
  | .beginReading _ | .joinReadTask _ | .takeJob | .handle _ => False
  | _ => True

theorem Independent.lockFree {q : Call} (hq : Independent q) : LockFree q := by
  cases q <;>
    first | exact hq.elim | exact spares_of_none rfl | exact spares_of_some rfl (by decide)

theorem Independent.guard {q : Call} (hq : Independent q) (hs : NotWriting i s) :
    lockGuard s i q := by
  cases q <;> first | exact hq.elim | exact hs

def Unlocked : Call → Prop
  | .lock _ | .unlock _ | .writeFrame _ _ | .writeControl _ | .propose => False
  | _ => True

theorem Unlocked.lockFree {q : Call} (hq : Unlocked q) : LockFree q := by
  cases q <;>
    first | exact hq.elim | exact spares_of_none rfl | exact spares_of_some rfl (by decide)

theorem Unlocked.guard {q : Call} (hq : Unlocked q) (hs : Holding i ∅ s) : lockGuard s i q := by
  have hnot : NotWriting i s := fun c hc => (hs _).mp hc
  cases q <;> first | exact hq.elim | exact hs | exact hnot

theorem kept_independent (h : Outer i conn held) (q : Call) (hq : Independent q) :
    ∀ a s s', LocksInv actors s → Holding i held s → (lockProtocol actors).answers s i q a s' →
      LocksInv actors s' ∧ LocksMay i s s' ∧ Holding i held s' :=
  kept_holding q hq.lockFree fun _ hs => hq.guard (h.notWriting hs)

theorem kept_unlocked (q : Call) (hq : Unlocked q) :
    ∀ a s s', LocksInv actors s → Holding i ∅ s → (lockProtocol actors).answers s i q a s' →
      LocksInv actors s' ∧ LocksMay i s s' ∧ Holding i ∅ s' :=
  kept_holding q hq.lockFree fun _ => hq.guard

theorem triple_unlocked {α : Type} {p : RtM α} (h : Asks Unlocked p) :
    (lockProtocol actors).Triple i (Holding i ∅) p fun _ => Holding i ∅ :=
  triple_of_asks stable_holding (fun q a s s' hq => kept_unlocked q hq a s s') h

theorem activates_locks (hi : .connection conn ∈ actors)
    (h : Outer (.connection conn) conn held) :
    Activates (lockProtocol actors) (.connection conn) conn (Holding (.connection conn) held)
      fun _ => Holding (.connection conn) held where
  stable := stable_holding
  attempts := triple_lock_withCalls hi h (spares_of_none rfl) fun _ => h.notWriting
  waits q hq := kept_independent h q (by cases q <;> trivial)
  activates _ _ :=
    triple_kept_bind stable_holding (kept_independent h _ trivial) fun _ =>
      triple_kept_bind stable_holding (kept_independent h _ trivial) fun _ =>
        triple_done fun _ _ => id

theorem triple_lock_handshake (hi : i ∈ actors) :
    (lockProtocol actors).Triple i (Holding i ∅) (handshake conn) fun _ => Holding i ∅ := by
  refine triple_kept_bind stable_holding (kept_unlocked _ trivial) fun result => ?_
  split
  · split
    · exact triple_lock_writeMsg hi outer_empty _
    · exact triple_done fun _ _ => id
  · exact triple_done fun _ _ => id
  · exact triple_done fun _ _ => id

theorem triple_lock_ensureReady (hi : .connection conn ∈ actors) (config : RtConfig) :
    (lockProtocol actors).Triple (.connection conn) (Holding (.connection conn) ∅)
      (ensureReady config conn) fun _ => Holding (.connection conn) ∅ := by
  have hactivates := activates_locks hi (outer_own (l := .join) fun _ => Lock.noConfusion)
  rw [← insert_empty_eq] at hactivates
  refine triple_kept_bind stable_holding (kept_unlocked _ trivial) fun ctx => ?_
  cases ctx with
  | some c => exact triple_done fun _ _ => id
  | none =>
      refine triple_lock_bind hi (fun _ => id) ?_
      refine Protocol.Triple.bind ?_ fun ctx =>
        triple_unlock_bind (Set.notMem_empty _) (triple_done fun _ _ => id)
      refine triple_kept_bind stable_holding ?_ fun ctx => ?_
      · rw [insert_empty_eq]
        exact kept_independent (outer_own fun _ => Lock.noConfusion) _ trivial
      cases ctx with
      | some c => exact triple_done fun _ _ => id
      | none =>
          refine (hactivates.triple_notReady config).mono (fun _ _ => id) fun ctx s _ h => ?_
          cases ctx <;> exact h

theorem triple_lock_raftLocked (hi : .connection conn ∈ actors)
    (h : Outer (.connection conn) conn held) (ctx : Nat) :
    (lockProtocol actors).Triple (.connection conn) (Holding (.connection conn) held)
      (raftLocked conn ctx) fun _ => Holding (.connection conn) held := by
  refine triple_kept_bind stable_holding (kept_independent h _ trivial) fun installed => ?_
  cases installed with
  | true => exact triple_done fun _ _ => id
  | false =>
      refine (triple_lock_withCalls hi h (spares_of_some rfl (by decide))
        fun _ => h.notWriting).bind fun result => ?_
      cases result with
      | error e => exact triple_done fun _ _ => id
      | ok raft =>
          refine (triple_lock_withCalls hi h (spares_of_none rfl) fun _ => h.notWriting).bind
            fun _ => ?_
          exact triple_kept_bind stable_holding (kept_independent h _ trivial) fun _ =>
            triple_request (fun _ => stable_holding) (kept_independent h _ trivial)

theorem triple_lock_ensureRaft (hi : .connection conn ∈ actors) (config : RtConfig) :
    (lockProtocol actors).Triple (.connection conn) (Holding (.connection conn) ∅)
      (ensureRaft config conn) fun _ => Holding (.connection conn) ∅ := by
  have hlocked := triple_lock_raftLocked hi (outer_own (l := .raftStart)
    fun _ => Lock.noConfusion)
  rw [← insert_empty_eq] at hlocked
  unfold ensureRaft
  split
  · exact triple_done fun _ _ => id
  refine triple_kept_bind stable_holding (kept_unlocked _ trivial) fun ctx => ?_
  cases ctx with
  | none => exact triple_done fun _ _ => id
  | some ctx =>
      refine triple_kept_bind stable_holding (kept_unlocked _ trivial) fun installed => ?_
      cases installed with
      | true => exact triple_done fun _ _ => id
      | false =>
          refine triple_lock_bind hi (fun _ => id) ((hlocked ctx).bind fun _ => ?_)
          exact triple_request (fun _ => stable_holding) (unlock_step (Set.notMem_empty _))

theorem triple_lock_requestTask (hi : i ∈ actors) :
    (lockProtocol actors).Triple i (Holding i ∅) requestTask fun _ => Holding i ∅ := by
  refine triple_kept_bind stable_holding (kept_unlocked _ trivial) fun job => ?_
  refine Protocol.Triple.bind (M := fun _ => Holding i ∅) ?_ fun result =>
    (triple_lock_writeMsg hi outer_empty _).bind fun _ => triple_done fun _ _ => id
  unfold handled
  split
  · exact triple_kept_bind stable_holding (kept_unlocked _ trivial) fun todo =>
      (triple_lock_errands hi todo).bind fun _ =>
        triple_request (fun _ => stable_holding) (kept_unlocked _ trivial)
  · exact triple_done fun _ _ => id

theorem triple_lock_program (hi : i ∈ actors) (config : RtConfig) (frames : Nat → Nat) :
    (lockProtocol actors).Triple i (Holding i ∅) (program config frames i)
      fun _ => Holding i ∅ := by
  cases i with
  | reader conn =>
      have hloop : Asks Unlocked (readLoop conn (frames conn)) :=
        asks_readLoop trivial trivial (fun _ => trivial) (fun _ => trivial) _
      exact triple_unlocked ⟨trivial, fun _ => hloop.bind fun _ => ⟨trivial, fun _ => trivial⟩⟩
  | worker n => exact triple_lock_requestTask hi
  | caller n =>
      exact triple_kept_bind stable_holding (kept_unlocked _ trivial) fun todo =>
        triple_lock_errands hi todo
  | connection conn =>
      exact triple_handleConnection (triple_lock_handshake hi) (fun _ _ => id)
        (triple_unlocked ⟨trivial, fun _ => trivial⟩)
        (triple_outcome (triple_lock_ensureReady hi config))
        (triple_unlocked ⟨trivial, fun _ => trivial⟩)
        (fun _ => triple_lock_ensureRaft hi config)
        fun _ => triple_unlocked ⟨trivial, fun _ => ⟨trivial, fun _ => ⟨trivial, fun _ => trivial⟩⟩⟩

end Locks

section Runs

variable {config : RtConfig} {frames : Nat → Nat} {actors : List Actor}
  {ctx : Option (Option Signer × Store)} {w : ProcessPool}

theorem locks_proved (hactors : actors.Nodup)
    (hrun : Pool.Run rules (boot config frames actors ctx) w) :
    Proved (lockProtocol actors) (fun i => Holding i ∅) w := by
  have hfree : ∀ l i, ¬(Process.initial ctx).holder l = some i := fun l i h => by
    cases l <;> cases h
  refine Proved.run (proved_boot hactors ?_ (fun _ => stable_holding) ?_
    fun i hi => triple_lock_program hi config frames) (Protocol.run_guarded hrun)
  · exact fun l i h => absurd h (hfree l i)
  · exact fun i l => iff_of_false (hfree l i) (Set.notMem_empty l)

theorem exists_not_locksInv (actors : List Actor) : ∃ s, ¬LocksInv actors s := by
  have : Infinite Actor := Infinite.of_injective Actor.worker fun _ _ => Actor.worker.inj
  obtain ⟨i, hi⟩ := Infinite.exists_notMem_finset actors.toFinset
  refine ⟨{ Process.initial none with joinLock := some i }, fun h => hi ?_⟩
  exact List.mem_toFinset.mpr (h .join i rfl)

theorem lock_allowed (hactors : actors.Nodup)
    (hrun : Pool.Run rules (boot config frames actors ctx) w) {task : Task Actor Call Answer}
    (htask : task ∈ w.tasks) {q : Call} {next : Answer q → RtM Unit}
    (hrest : task.rest = .ask q next) : lockGuard w.shared task.owner q := by
  obtain ⟨a⟩ := nonempty_answer q
  exact (locks_proved hactors hrun).allowed (exists_not_locksInv actors) htask a hrest

end Runs

end NexusAuth.Runtime
