import NexusAuth.Connection.Frames
import NexusAuth.Joining.Model
import NexusAuth.Lib.Once

/-!
# The life of a sidecar process

`runtime.rs` with the server part of `connection.rs`.  Every connection of a node has a task that
shakes hands, makes the process ready if it is not, starts Raft, and keeps the connection
registered until its read loop ends.  The read loop hands each request to a task of its own,
which writes one reply.  All these tasks share the process: the context once it is there, the
locks under which it and the Raft runtime are made, the registered connections, and the writing
ends of the connections.

Joining and starting Raft make control calls over the connection; the handling of a request and
the other tasks make them over any connection, also in publishing rounds, of which one goes on at
a time.  A control call waits for the writing end and for the socket, and then for the reply or
until its time is up.  Locks that are held for single operations only, as that of the table of
the calls that wait, are left out.
-/

namespace NexusAuth.Runtime

open NexusAuth.Connection NexusAuth.Lib.Interaction NexusAuth.Lib.Once NexusAuth.Lib.Rely
open NexusAuth.Lib.Tasks

/-- The mutexes that are held while a task waits for others: the two of `Runtime`, `publish_lock`,
and the `writer` of each connection. -/
inductive Lock
  | join
  | raftStart
  | publish
  | writer (conn : Nat)
deriving DecidableEq

/-- What a task does that takes others: a control call, or a publishing round. -/
inductive Errand
  | control (conn : Nat)
  | publish

/-- `Authority::load` of a file that is not there, or that cannot be used. -/
inductive LoadError
  | notFound
  | failed (error : String)

structure Job where
  conn : Nat
  id : CallId
  service : String
  payload : Bytes
  ctx : Option Nat
deriving DecidableEq

/-- What the tasks of a process ask.  A context and a Raft runtime are numbered in the order in
which they are made. -/
inductive Call
  | readFrame (conn : Nat)
  | writeFrame (conn : Nat) (msg : Message)
  /-- How many control calls are made before the next question. -/
  | controlCalls
  /-- `write_frame` of a control call. -/
  | writeControl (conn : Nat)
  /-- `timeout(..., rx).await` of a control call. -/
  | awaitReply
  /-- The control calls and publishing rounds of a request or of a task in the background. -/
  | errands
  /-- Whether a publishing round renews the index. -/
  | renews
  /-- `propose`, which waits for a quorum. -/
  | propose
  /-- The connections of the control calls of a publishing round, which come and go. -/
  | recipients
  | spawnReadLoop (conn : Nat)
  /-- `read_task.await`. -/
  | joinReadTask (conn : Nat)
  /-- A spawned read loop begins to run. -/
  | beginReading (conn : Nat)
  | endReading (conn : Nat)
  | ctx
  | lock (l : Lock)
  /-- The guard is dropped. -/
  | unlock (l : Lock)
  | loadAuthority
  | loadStore
  | attempt
  /-- `Instant::now() >= deadline`. -/
  | deadlinePassed
  | sleep
  /-- `build_context`, which also starts the publishing loop and, without Raft, the
  synchronisation with other sidecars. -/
  | buildContext (authority : Option Signer) (store : Store)
  | setReady (ctx : Nat)
  /-- `ctx.raft` is installed. -/
  | hasRaft (ctx : Nat)
  | startRaft
  | tryJoin (raft : Nat)
  | setAdminRaft (ctx raft : Nat)
  | setRaft (ctx raft : Nat)
  | register
  | unregister (id : Nat)
  | spawnRequest (job : Job)
  /-- The spawned task of a request begins to run. -/
  | takeJob
  /-- `handle_service_request`. -/
  | handle (job : Job)
  /-- The branch of `read_loop` for a reply. -/
  | deliver (reply : Reply)

@[reducible] def Answer : Call → Type
  | .readFrame _ => Except FrameError Message
  | .writeFrame _ _ => Except String Unit
  | .controlCalls => Nat
  | .writeControl _ => Except String Unit
  | .awaitReply => Unit
  | .errands => List Errand
  | .renews => Bool
  | .propose => Unit
  | .recipients => List Nat
  | .spawnReadLoop _ => Unit
  | .joinReadTask _ => Unit
  | .beginReading _ => Unit
  | .endReading _ => Unit
  | .ctx => Option Nat
  | .lock _ => Unit
  | .unlock _ => Unit
  | .loadAuthority => Except LoadError Signer
  | .loadStore => Except StoreError Store
  | .attempt => Except PasswordJoinError (Signer × Store)
  | .deadlinePassed => Bool
  | .sleep => Unit
  | .buildContext _ _ => Nat
  | .setReady _ => Unit
  | .hasRaft _ => Bool
  | .startRaft => Except String Nat
  | .tryJoin _ => Except String Bool
  | .setAdminRaft _ _ => Unit
  | .setRaft _ _ => Unit
  | .register => Nat
  | .unregister _ => Unit
  | .spawnRequest _ => Unit
  | .takeJob => Job
  | .handle _ => Except SidecarError Bytes
  | .deliver _ => Unit

abbrev RtM := Prog Call Answer

abbrev call (question : Call) : RtM (Answer question) := request question

structure RtConfig where
  clusterEnabled : Bool
  joinTimeoutSecs : Nat
  joinRetrySecs : Nat

def protocolVersion : UInt32 := 2

/-! ## Writing -/

def writeMsg (conn : Nat) (msg : Message) : RtM (Except String Unit) := do
  call (.lock (.writer conn))
  let result ← call (.writeFrame conn msg)
  call (.unlock (.writer conn))
  return result

/-- `call_with_timeout`. -/
def controlCall (conn : Nat) : RtM Unit := do
  call (.lock (.writer conn))
  let result ← call (.writeControl conn)
  call (.unlock (.writer conn))
  match result with
  | .error _ => return ()
  | .ok () => call .awaitReply

def controlCalls : List Nat → RtM Unit
  | [] => return ()
  | conn :: conns => do
      controlCall conn
      controlCalls conns

/-- A question whose answer takes some control calls over the connection. -/
def withCalls (conn : Nat) (question : Call) : RtM (Answer question) := do
  let n ← call .controlCalls
  controlCalls (List.replicate n conn)
  call question

/-- `publish_once`, as far as it waits for others. -/
def publishOnce : RtM Unit := do
  call (.lock .publish)
  if ← call .renews then call .propose
  let conns ← call .recipients
  controlCalls conns
  call (.unlock .publish)

def errand : Errand → RtM Unit
  | .control conn => controlCall conn
  | .publish => publishOnce

def errands : List Errand → RtM Unit
  | [] => return ()
  | first :: rest => do
      errand first
      errands rest

section Programs

variable (config : RtConfig)

/-! ## Becoming ready -/

def activate (authority : Option Signer) (store : Store) : RtM Nat := do
  let ctx ← call (.buildContext authority store)
  call (.setReady ctx)
  return ctx

/-- How often a join can be tried again before the deadline: each time at least the pause has
gone by. -/
def joinRetries : Nat :=
  (max config.joinTimeoutSecs 1 + max config.joinRetrySecs 1 - 1) / max config.joinRetrySecs 1

/-- The loop of `ensure_ready`; after the last retry the deadline has passed in any case. -/
def joinLoop (conn : Nat) : Nat → RtM (Option Nat)
  | 0 => do
      match ← withCalls conn .attempt with
      | .ok (authority, store) => return some (← activate (some authority) store)
      | .error _ => return none
  | n + 1 => do
      match ← withCalls conn .attempt with
      | .ok (authority, store) => return some (← activate (some authority) store)
      | .error _ =>
          if ← call .deadlinePassed then return none
          call .sleep
          joinLoop conn n

def readyWithStore (authority : Option Signer) : RtM (Option Nat) := do
  match ← call .loadStore with
  | .error _ => return none
  | .ok store => return some (← activate authority store)

def readyForRaft : RtM (Option Nat) := do
  match ← call .loadAuthority with
  | .error (.failed _) => return none
  | .error .notFound => readyWithStore none
  | .ok authority => readyWithStore (some authority)

/-- `ensure_ready` while `join_lock` is held. -/
def readyLocked (conn : Nat) : RtM (Option Nat) := do
  match ← call .ctx with
  | some ctx => return some ctx
  | none => if config.clusterEnabled then readyForRaft else joinLoop conn (joinRetries config)

def ensureReady (conn : Nat) : RtM (Option Nat) := do
  match ← call .ctx with
  | some ctx => return some ctx
  | none =>
      call (.lock .join)
      let ctx ← readyLocked config conn
      call (.unlock .join)
      return ctx

/-! ## Raft -/

def raftLocked (conn ctx : Nat) : RtM Unit := do
  if ← call (.hasRaft ctx) then return ()
  match ← withCalls conn .startRaft with
  | .error _ => return ()
  | .ok raft =>
      let _ ← withCalls conn (.tryJoin raft)
      call (.setAdminRaft ctx raft)
      call (.setRaft ctx raft)

def ensureRaft (conn : Nat) : RtM Unit := do
  if !config.clusterEnabled then return ()
  match ← call .ctx with
  | none => return ()
  | some ctx =>
      if ← call (.hasRaft ctx) then return ()
      call (.lock .raftStart)
      raftLocked conn ctx
      call (.unlock .raftStart)

/-! ## Connections -/

def handshake (conn : Nat) : RtM (Except String Unit) := do
  match ← call (.readFrame conn) with
  | .ok (.hello version) =>
      if version = protocolVersion then writeMsg conn (.hello protocolVersion)
      else return .error ("协议版本不兼容: 对端 " ++ toString version ++ ", 本端 " ++
        toString protocolVersion)
  | .ok other => return .error ("期望 hello 首帧, 收到 " ++ other.kind)
  | .error e => return .error e.text

def handleConnection (conn : Nat) : RtM Unit := do
  match ← handshake conn with
  | .error _ => return ()
  | .ok () =>
      call (.spawnReadLoop conn)
      match ← ensureReady config conn with
      | none => call (.joinReadTask conn)
      | some _ =>
          ensureRaft config conn
          let id ← call .register
          call (.joinReadTask conn)
          call (.unregister id)

end Programs

def readLoop (conn : Nat) : Nat → RtM Unit
  | 0 => return ()
  | n + 1 => do
      match ← call (.readFrame conn) with
      | .error _ => return ()
      | .ok (.request id service payload) =>
          let ctx ← call .ctx
          call (.spawnRequest ⟨conn, id, service, payload, ctx⟩)
          readLoop conn n
      | .ok (.reply reply) =>
          call (.deliver reply)
          readLoop conn n
      | .ok _ => readLoop conn n

def readTask (conn frames : Nat) : RtM Unit := do
  call (.beginReading conn)
  readLoop conn frames
  call (.endReading conn)

def replyTo (id : CallId) : Except SidecarError Bytes → Reply
  | .ok result => ⟨id, true, some result, none⟩
  | .error e => ⟨id, false, none, some e⟩

def handled (job : Job) : RtM (Except SidecarError Bytes) :=
  match job.ctx with
  | some _ => do
      errands (← call .errands)
      call (.handle job)
  | none => return .error (.new "joining" "边车尚未就绪")

def requestTask : RtM Unit := do
  let job ← call .takeJob
  let result ← handled job
  let _ ← writeMsg job.conn (.reply (replyTo job.id result))
  return ()

/-- A task in the background: the publishing loop, the synchronisation, Raft. -/
def callerTask : RtM Unit := do
  errands (← call .errands)

/-! ## The process -/

inductive Actor
  | connection (conn : Nat)
  | reader (conn : Nat)
  | worker (n : Nat)
  | caller (n : Nat)
deriving DecidableEq

structure Process where
  ready : Option Nat
  /-- The authority and the store that each context was made of. -/
  contexts : List (Option Signer × Store)
  /-- `admin_raft` and `raft` of each context. -/
  adminRaft : Nat → Option Nat
  raft : Nat → Option Nat
  joinLock : Option Actor
  raftStartLock : Option Actor
  publishLock : Option Actor
  writers : Nat → Option Actor
  /-- How many Raft runtimes were started. -/
  runtimes : Nat
  /-- The registered connections with their ids.  The ids of the source are of type `u64` and
  would be used again after `2 ^ 64` registrations. -/
  clients : List (Nat × Actor)
  nextId : Nat
  /-- The read loops that were spawned, and those that have ended. -/
  reading : List Nat
  readDone : List Nat
  /-- The requests that were read, in order. -/
  requests : List (Nat × CallId)
  /-- Spawned tasks that have not run yet. -/
  spawned : List Job
  /-- Tasks that have not written their reply yet. -/
  running : List (Actor × Job)
  /-- The replies that were written, and those that could not be. -/
  replies : List (Nat × Reply)
  unwritten : List (Nat × Reply)

def Process.holder (s : Process) : Lock → Option Actor
  | .join => s.joinLock
  | .raftStart => s.raftStartLock
  | .publish => s.publishLock
  | .writer conn => s.writers conn

def Process.setHolder (s : Process) (holder : Option Actor) : Lock → Process
  | .join => { s with joinLock := holder }
  | .raftStart => { s with raftStartLock := holder }
  | .publish => { s with publishLock := holder }
  | .writer conn => { s with writers := Function.update s.writers conn holder }

def Process.written (s : Process) (i : Actor) (conn : Nat) :
    Message → Except String Unit → Process
  | .reply reply, .ok () =>
      { s with
        running := s.running.filter fun task => task.1 ≠ i
        replies := s.replies ++ [(conn, reply)] }
  | .reply reply, .error _ =>
      { s with
        running := s.running.filter fun task => task.1 ≠ i
        unwritten := s.unwritten ++ [(conn, reply)] }
  | _, _ => s

/-- How a question can be answered, as far as the process itself decides it.  `build_context` can
also end the process, and then there is no answer. -/
def answers (s : Process) (i : Actor) : (q : Call) → Answer q → Process → Prop
  | .ctx, answer, s' => answer = s.ready ∧ s' = s
  | .lock l, _, s' => s.holder l = none ∧ s' = s.setHolder (some i) l
  | .unlock l, _, s' => s.holder l = some i ∧ s' = s.setHolder none l
  | .spawnReadLoop conn, _, s' => s' = { s with reading := conn :: s.reading }
  | .beginReading conn, _, s' => conn ∈ s.reading ∧ s' = s
  | .endReading conn, _, s' => s' = { s with readDone := conn :: s.readDone }
  | .joinReadTask conn, _, s' => conn ∈ s.readDone ∧ s' = s
  | .buildContext authority store, answer, s' =>
      answer = s.contexts.length ∧
        s' = { s with contexts := s.contexts ++ [(authority, store)] }
  | .setReady ctx, _, s' => s' = { s with ready := some ctx }
  | .hasRaft ctx, answer, s' => answer = (s.raft ctx).isSome ∧ s' = s
  | .startRaft, answer, s' =>
      match answer with
      | .ok raft => raft = s.runtimes ∧ s' = { s with runtimes := s.runtimes + 1 }
      | .error _ => s' = s
  | .setAdminRaft ctx raft, _, s' =>
      s' = { s with adminRaft := Function.update s.adminRaft ctx (some raft) }
  | .setRaft ctx raft, _, s' =>
      s' = { s with raft := Function.update s.raft ctx (some raft) }
  | .register, answer, s' =>
      answer = s.nextId ∧
        s' = { s with clients := s.clients ++ [(s.nextId, i)], nextId := s.nextId + 1 }
  | .unregister id, _, s' => s' = { s with clients := s.clients.filter fun client => client.1 ≠ id }
  | .spawnRequest job, _, s' =>
      s' = { s with requests := s.requests ++ [(job.conn, job.id)], spawned := s.spawned ++ [job] }
  | .takeJob, job, s' =>
      job ∈ s.spawned ∧
        s' = { s with spawned := s.spawned.erase job, running := s.running ++ [(i, job)] }
  | .writeFrame conn msg, result, s' => s' = s.written i conn msg result
  | _, _, s' => s' = s

def rules : Rules Actor Process Call Answer := ⟨fun _ _ _ => False, answers⟩

/-- What others do from now on: which nodes send nothing and stay connected, which take nothing
off their sockets, whether no quorum answers, and which requests are handled forever. -/
structure Nodes where
  silent : Nat → Bool
  stalled : Nat → Bool
  noQuorum : Bool
  hangs : Job → Bool

def Nodes.holdUp (nodes : Nodes) : Call → Bool
  | .readFrame conn => nodes.silent conn
  | .writeFrame conn _ | .writeControl conn => nodes.stalled conn
  | .propose => nodes.noQuorum
  | .handle job => nodes.hangs job
  | _ => false

def Nodes.rules (nodes : Nodes) : Rules Actor Process Call Answer :=
  ⟨fun _ _ _ => False, fun s i q a s' => nodes.holdUp q = false ∧ answers s i q a s'⟩

/-- What each task runs; a read loop gets some number of frames. -/
def program (config : RtConfig) (frames : Nat → Nat) : Actor → RtM Unit
  | .connection conn => handleConnection config conn
  | .reader conn => readTask conn (frames conn)
  | .worker _ => requestTask
  | .caller _ => callerTask

/-- The process before its first connection.  `main` has made the context already if it has all
it needs. -/
def Process.initial (ctx : Option (Option Signer × Store)) : Process where
  ready := ctx.map fun _ => 0
  contexts := ctx.toList
  adminRaft _ := none
  raft _ := none
  joinLock := none
  raftStartLock := none
  publishLock := none
  writers _ := none
  runtimes := 0
  clients := []
  nextId := 1
  reading := []
  readDone := []
  requests := []
  spawned := []
  running := []
  replies := []
  unwritten := []

abbrev ProcessPool := Pool Actor Process Call Answer

/-- All tasks that there will ever be, none of which has begun. -/
def boot (config : RtConfig) (frames : Nat → Nat) (actors : List Actor)
    (ctx : Option (Option Signer × Store)) : ProcessPool :=
  ⟨.initial ctx, actors.map fun i => ⟨i, [], program config frames i⟩⟩

/-! ## An instance -/

/-- Answers under which everything succeeds that can succeed: a node shakes hands and then sends
one request, which leads to a control call and a publishing round, what else needs control calls
needs one, there is no key but a store, and Raft starts. -/
def respond (store : Store) (i : Actor) (s : Process) : (q : Call) → Option (Answer q × Process)
  | .readFrame _ =>
      some (.ok (match i with
        | .connection _ => .hello protocolVersion
        | _ => .request 7 "auth" []), s)
  | .writeFrame conn msg => some (.ok (), s.written i conn msg (.ok ()))
  | .controlCalls => some (1, s)
  | .writeControl _ => some (.ok (), s)
  | .awaitReply => some ((), s)
  | .errands => some ([.control 0, .publish], s)
  | .renews => some (true, s)
  | .propose => some ((), s)
  | .recipients => some ([0, 1], s)
  | .spawnReadLoop conn => some ((), { s with reading := conn :: s.reading })
  | .joinReadTask conn => if conn ∈ s.readDone then some ((), s) else none
  | .beginReading conn => if conn ∈ s.reading then some ((), s) else none
  | .endReading conn => some ((), { s with readDone := conn :: s.readDone })
  | .ctx => some (s.ready, s)
  | .lock l => if s.holder l = none then some ((), s.setHolder (some i) l) else none
  | .unlock l => if s.holder l = some i then some ((), s.setHolder none l) else none
  | .loadAuthority => some (.error .notFound, s)
  | .loadStore => some (.ok store, s)
  | .attempt => some (.error .noCandidates, s)
  | .deadlinePassed => some (true, s)
  | .sleep => some ((), s)
  | .buildContext authority store =>
      some (s.contexts.length, { s with contexts := s.contexts ++ [(authority, store)] })
  | .setReady ctx => some ((), { s with ready := some ctx })
  | .hasRaft ctx => some ((s.raft ctx).isSome, s)
  | .startRaft => some (.ok s.runtimes, { s with runtimes := s.runtimes + 1 })
  | .tryJoin _ => some (.ok false, s)
  | .setAdminRaft ctx raft =>
      some ((), { s with adminRaft := Function.update s.adminRaft ctx (some raft) })
  | .setRaft ctx raft => some ((), { s with raft := Function.update s.raft ctx (some raft) })
  | .register =>
      some (s.nextId, { s with clients := s.clients ++ [(s.nextId, i)], nextId := s.nextId + 1 })
  | .unregister id => some ((), { s with clients := s.clients.filter fun client => client.1 ≠ id })
  | .spawnRequest job =>
      some ((), { s with
        requests := s.requests ++ [(job.conn, job.id)], spawned := s.spawned ++ [job] })
  | .takeJob =>
      match s.spawned with
      | [] => none
      | job :: spawned =>
          some (job, { s with spawned := spawned, running := s.running ++ [(i, job)] })
  | .handle _ => some (.ok [], s)
  | .deliver _ => some ((), s)

theorem answers_of_respond {store : Store} (i : Actor) (s : Process) (q : Call) (a : Answer q)
    (s' : Process) (h : respond store i s q = some (a, s')) : answers s i q a s' := by
  cases q with
  | lock l =>
      simp only [respond] at h
      split at h
      · rename_i hfree
        obtain ⟨-, rfl⟩ := Prod.mk.inj (Option.some.inj h)
        exact ⟨hfree, rfl⟩
      · cases h
  | unlock l =>
      simp only [respond] at h
      split at h
      · rename_i hheld
        obtain ⟨-, rfl⟩ := Prod.mk.inj (Option.some.inj h)
        exact ⟨hheld, rfl⟩
      · cases h
  | beginReading conn | joinReadTask conn =>
      simp only [respond] at h
      split at h
      · rename_i hmem
        obtain ⟨-, rfl⟩ := Prod.mk.inj (Option.some.inj h)
        exact ⟨hmem, rfl⟩
      · cases h
  | takeJob =>
      simp only [respond] at h
      split at h
      · cases h
      · rename_i job spawned hspawned
        obtain ⟨rfl, rfl⟩ := Prod.mk.inj (Option.some.inj h)
        refine ⟨by simp [hspawned], ?_⟩
        rw [hspawned, List.erase_cons_head]
  | ctx | hasRaft | buildContext | startRaft | register =>
      obtain ⟨rfl, rfl⟩ := Prod.mk.inj (Option.some.inj h)
      exact ⟨rfl, rfl⟩
  | writeFrame conn msg =>
      obtain ⟨rfl, rfl⟩ := Prod.mk.inj (Option.some.inj h)
      rfl
  | _ =>
      obtain ⟨-, rfl⟩ := Prod.mk.inj (Option.some.inj h)
      rfl

def replay (store : Store) (w : ProcessPool) (turns : List Nat) : Option ProcessPool :=
  w.script (κ := Empty) Empty.elim (fun _ _ => false) (respond store) (turns.map .answer)

theorem run_of_replay {store : Store} {w w' : ProcessPool} {turns : List Nat}
    (h : replay store w turns = some w') : Pool.Run rules w w' :=
  Pool.run_of_script (fun _ k _ => k.elim) answers_of_respond h

end NexusAuth.Runtime
