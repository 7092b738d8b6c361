import NexusAuth.Lib.Rely
import NexusAuth.Publisher.Model
import NexusAuth.Replicate.Cluster

/-!
# The publishing loop

`run` of `publisher.rs` in the legacy mode, next to the tasks that wake it: requests and pulls
that change the store, and connections that come and go.  `publish_notify` is a
`tokio::sync::Notify`: it keeps one permit, so several notifications before the next round make
one round.
-/

namespace NexusAuth.Waking

open NexusAuth.Authority NexusAuth.Lib.Interaction NexusAuth.Lib.Rely NexusAuth.Lib.Tasks
open NexusAuth.Publisher NexusAuth.Replicate NexusAuth.Service

/-- The branch of `select!` that was ready. -/
inductive Wake
  | notified
  | renewNotified
  | tick
  | shutdown
deriving DecidableEq

inductive LoopCall
  /-- A question of a request, a pull or a round. -/
  | rep (call : Replicate.RepCall)
  | select
  /-- The pause before a round is tried again. -/
  | sleep
  /-- A connection gets its id and is added to `clients`. -/
  | pushClient
  /-- `read_task.await`: the connection stays open. -/
  | joinReadTask
  | unregister (id : Nat)

@[reducible] def LoopAnswer : LoopCall → Type
  | .rep call => RepAnswer call
  | .select => Wake
  | .sleep => Unit
  | .pushClient => Nat
  | .joinReadTask => Unit
  | .unregister _ => Unit

abbrev LoopM := Prog LoopCall LoopAnswer

abbrev call (question : LoopCall) : LoopM (LoopAnswer question) := request question

def publishRoundAttempts : Nat := 3

section Programs

variable (ctx : RepContext)

def publishOnce (renew : Bool) : LoopM (Except PublishError PublishOutcome) :=
  embed .rep (onService (onNode (Publisher.publishOnce ctx.toContext renew)))

/-- The attempts of `publish_with_retry` after so many others. -/
def attemptsLeft (renew : Bool) : Nat → LoopM (Except PublishError PublishOutcome)
  | 0 => publishOnce ctx renew
  | n + 1 => do
      match ← publishOnce ctx renew with
      | .ok outcome => return .ok outcome
      | .error _ =>
          call .sleep
          attemptsLeft renew n

def publishWithRetry (renew : Bool) (attempts : Nat) : LoopM (Except PublishError PublishOutcome) :=
  attemptsLeft ctx renew (max attempts 1 - 1)

def runPublishRound (renew : Bool) : LoopM Unit := do
  let _ ← publishWithRetry ctx renew publishRoundAttempts
  return ()

/-- The loop until it has waited `n` times. -/
def run : Nat → LoopM Unit
  | 0 => return ()
  | n + 1 => do
      match ← call .select with
      | .notified =>
          runPublishRound ctx false
          run n
      | .renewNotified =>
          runPublishRound ctx true
          run n
      | .tick =>
          runPublishRound ctx true
          run n
      | .shutdown => return ()

/-- Other tasks can take steps before the notification. -/
def register : LoopM Nat := do
  let id ← call .pushClient
  call (.rep (.service .notifyPublish))
  return id

/-- The part of `handle_connection` that the publisher sees. -/
def connection : LoopM Unit := do
  let id ← register
  call .joinReadTask
  call (.unregister id)

end Programs

inductive Worker
  | loop
  | request (n : Nat)
  | pull (n : Nat)
  | connection (n : Nat)
deriving DecidableEq

def program (ctx : RepContext) (rounds : Nat) (payload : Nat → Bytes) : Worker → LoopM Unit
  | .loop => run ctx rounds
  | .request n => embed .rep (detached (onService
      (handleServiceRequest ctx.toServiceContext true true (payload n)).run))
  | .pull _ => embed .rep (detached (syncOnce ctx))
  | .connection _ => connection

/-! ## The shared state -/

structure Hub where
  store : Store
  clients : List Nat
  -- an `AtomicU64` in the source, which wraps after `2 ^ 64` connections
  nextId : Nat
  /-- `publish_notify` has a permit. -/
  permit : Bool
  /-- The store as the last round has read it. -/
  seen : Option StoreSnapshot
  /-- A round has begun, or has changed the store itself, and has not read it since. -/
  reading : Bool
  /-- The tasks that have changed the store or `clients` and not asked for a round since. -/
  unsaid : Worker → Bool
  /-- Some operation has failed after it had changed the store in memory. -/
  torn : Bool

namespace Hub

def change (s : Hub) (i : Worker) (store : Store) (succeeded : Bool) : Hub :=
  if store.snapshot = s.store.snapshot then { s with store := store }
  else if succeeded then { s with store := store, unsaid := Function.update s.unsaid i true }
  else { s with store := store, torn := true }

def pushed (s : Hub) (i : Worker) : Hub :=
  { s with
    clients := s.clients ++ [s.nextId]
    nextId := s.nextId + 1
    unsaid := Function.update s.unsaid i true }

def checked (s : Hub) (i : Worker) (empty : Bool) : Hub :=
  if i = .loop ∧ empty then { s with reading := false } else s

def bumped (s : Hub) (i : Worker) (store : Store) : Hub :=
  { s with store := store, reading := s.reading || decide (i = .loop) }

def read (s : Hub) (i : Worker) : Hub :=
  if i = .loop then { s with seen := some s.store.snapshot, reading := false } else s

def woken (s : Hub) : Wake → Hub
  | .notified => { s with permit := false, reading := true }
  | .renewNotified | .tick => { s with reading := true }
  | .shutdown => s

def initial (store : Store) : Hub := ⟨store, [], 1, false, none, false, fun _ => false, false⟩

end Hub

/-- How a question can be answered.  The timer, renewals and the end of the process come at any
time; what is not about the store or the connections has any answer. -/
def answers (prim : Primitives) (s : Hub) (i : Worker) : (q : LoopCall) → LoopAnswer q → Hub → Prop
  | .select, wake, s' => (wake = .notified → s.permit = true) ∧ s' = s.woken wake
  | .pushClient, id, s' => id = s.nextId ∧ s' = s.pushed i
  | .unregister id, _, s' => s' = { s with clients := s.clients.filter fun client => client ≠ id }
  | .rep (.service .notifyPublish), _, s' =>
      s' = { s with permit := true, unsaid := Function.update s.unsaid i false }
  -- only the Raft mode has a runtime
  | .rep (.service .runtime), answer, s' => answer = false ∧ s' = s
  | .rep (.service (.changeStore op)), answer, s' =>
      ∃ io, let out := s.store.exec prim io op
        answer = out.2.map (fun reply => (reply, out.1.snapshot)) ∧
          s' = s.change i out.1 answer.isOk
  | .rep (.service (.node .isEmpty)), answer, s' =>
      answer = s.clients.isEmpty ∧ s' = s.checked i answer
  | .rep (.service (.node .connections)), answer, s' => answer = s.clients ∧ s' = s
  | .rep (.service (.node .bumpIndexVersion)), answer, s' =>
      ∃ io, let out := s.store.bumpIndexVersion io
        answer = out.2 ∧ s' = s.bumped i out.1
  | .rep (.service (.node .storeSnapshot)), answer, s' =>
      answer = s.store.snapshot ∧ s' = s.read i
  | _, _, s' => s' = s

def rules (prim : Primitives) : Rules Worker Hub LoopCall LoopAnswer :=
  ⟨fun _ _ _ => False, answers prim⟩

abbrev HubPool := Pool Worker Hub LoopCall LoopAnswer

def boot (ctx : RepContext) (rounds : Nat) (payload : Nat → Bytes) (workers : List Worker)
    (store : Store) : HubPool :=
  ⟨.initial store, workers.map fun i => ⟨i, [], program ctx rounds payload i⟩⟩

inductive Phase
  | waiting
  | notifying
  | other
deriving DecidableEq

def phase (task : Task Worker LoopCall LoopAnswer) : Phase :=
  match task.rest with
  | .ask .select _ => .waiting
  | .ask (.rep (.service .notifyPublish)) _ => .notifying
  | _ => .other

/-! ## An instance -/

def nodeRespond (i : Worker) (s : Hub) : (q : NodeCall) → Option (NodeAnswer q × Hub)
  | .isEmpty => some (s.clients.isEmpty, s.checked i s.clients.isEmpty)
  | .connections => some (s.clients, s)
  | .storeSnapshot => some (s.store.snapshot, s.read i)
  | .bumpIndexVersion => none
  | .authoritySeed => some (some (List.replicate 32 5), s)
  | .addKey _ key _ => some (.ok ⟨true, key⟩, s)
  | q => some (idle [] q, s)

def respond (i : Worker) (s : Hub) : (q : LoopCall) → Option (LoopAnswer q × Hub)
  | .select => if s.permit then some (.notified, s.woken .notified) else none
  | .sleep => some ((), s)
  | .pushClient => some (s.nextId, s.pushed i)
  | .joinReadTask => some ((), s)
  | .unregister id => some ((), { s with clients := s.clients.filter fun client => client ≠ id })
  | .rep (.service .notifyPublish) =>
      some ((), { s with permit := true, unsaid := Function.update s.unsaid i false })
  | .rep (.service .runtime) => some (false, s)
  | .rep (.service (.changeStore op)) =>
      let out := s.store.exec samplePrimitives Store.saves op
      some (out.2.map fun reply => (reply, out.1.snapshot), s.change i out.1 out.2.isOk)
  | .rep (.service (.node q)) => nodeRespond i s q
  | .rep (.service (.verifyManagement _ _)) => some (.ok (), s)
  | .rep (.service (.broadcast _)) => some ((), s)
  | .rep _ => none

theorem answers_of_nodeRespond (i : Worker) (s : Hub) (q : NodeCall) (a : NodeAnswer q) (s' : Hub)
    (h : nodeRespond i s q = some (a, s')) :
    answers samplePrimitives s i (.rep (.service (.node q))) a s' := by
  cases q with
  | isEmpty | connections | storeSnapshot =>
      obtain ⟨rfl, rfl⟩ := Prod.mk.inj (Option.some.inj h)
      exact ⟨rfl, rfl⟩
  | bumpIndexVersion => cases h
  | _ =>
      obtain ⟨-, rfl⟩ := Prod.mk.inj (Option.some.inj h)
      rfl

theorem answers_of_respond (i : Worker) (s : Hub) (q : LoopCall) (a : LoopAnswer q) (s' : Hub)
    (h : respond i s q = some (a, s')) : answers samplePrimitives s i q a s' := by
  cases q with
  | select =>
      simp only [respond] at h
      split at h
      · rename_i hpermit
        obtain ⟨rfl, rfl⟩ := Prod.mk.inj (Option.some.inj h)
        exact ⟨fun _ => hpermit, rfl⟩
      · cases h
  | pushClient =>
      obtain ⟨rfl, rfl⟩ := Prod.mk.inj (Option.some.inj h)
      exact ⟨rfl, rfl⟩
  | rep q =>
      cases q with
      | service q =>
          cases q with
          | node q => exact answers_of_nodeRespond i s q a s' h
          | runtime =>
              obtain ⟨rfl, rfl⟩ := Prod.mk.inj (Option.some.inj h)
              exact ⟨rfl, rfl⟩
          | changeStore op =>
              obtain ⟨rfl, rfl⟩ := Prod.mk.inj (Option.some.inj h)
              refine ⟨Store.saves, rfl, ?_⟩
              cases (s.store.exec samplePrimitives Store.saves op).2 <;> rfl
          | notifyPublish | verifyManagement | broadcast =>
              obtain ⟨-, rfl⟩ := Prod.mk.inj (Option.some.inj h)
              rfl
          | _ => cases h
      | _ => cases h
  | _ =>
      obtain ⟨-, rfl⟩ := Prod.mk.inj (Option.some.inj h)
      rfl

def replay (w : HubPool) (turns : List Nat) : Option HubPool :=
  w.script (κ := Empty) Empty.elim (fun _ _ => false) respond (turns.map .answer)

theorem run_of_replay {w w' : HubPool} {turns : List Nat} (h : replay w turns = some w') :
    Pool.Run (rules samplePrimitives) w w' :=
  Pool.run_of_script (fun _ k _ => k.elim) answers_of_respond h

def oneChange : HubPool :=
  boot clusterContext 3 (fun _ => [0]) [.loop, .request 0, .connection 0] Store.emptyStore

/-- The request changes the store when the first round has just read it. -/
def duringRound : List Nat := [2, 2, 0, 0, 0] ++ List.replicate 6 1 ++ List.replicate 19 0

end NexusAuth.Waking
