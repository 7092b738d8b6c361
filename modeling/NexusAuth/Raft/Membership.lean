import NexusAuth.Lib.Runs
import NexusAuth.Raft.Runtime

/-!
# Membership operations next to each other

A leader handles every request in a task of its own, and no lock is held between the
view that an operation reads and the change that it submits.  The world is the
membership of one leader together with all calls so far.  openraft works on one change
at a time: while one is uncommitted the next is refused, the metrics already show the
new membership, and the call that submitted it waits.

The node stays leader throughout, so `transfer_leader_away` never sees another one.
-/

namespace NexusAuth.Raft

open NexusAuth.Lib NexusAuth.Lib.Interaction

inductive MemberOp
  | addLearnerNode (id : NodeId) (node : RaftNode)
  | promoteVoter (id : NodeId)
  | demoteVoter (id : NodeId)
  | removeMember (id : NodeId)
deriving DecidableEq

def MemberOp.program (self : NodeId) : MemberOp → RuntimeM (Except String Unit)
  | .addLearnerNode id node => do return (← Runtime.addLearnerNode id node).map fun _ => ()
  | .promoteVoter id => Runtime.promoteVoter id
  | .demoteVoter id => Runtime.demoteVoter self id
  | .removeMember id => Runtime.removeMember self id

structure MemberCall where
  op : MemberOp
  rest : RuntimeM (Except String Unit)

/-- A change that was submitted by the call number `owner` and is not committed. -/
structure PendingChange where
  owner : Nat
  members : Members

structure LeaderWorld where
  self : NodeId
  committed : Members
  pending : Option PendingChange
  calls : List MemberCall

/-- What the surroundings contribute to one step: the current term, the text of a refusal
and the outcome of a request or a wait. -/
structure Outside where
  term : Nat
  refusal : String
  reply : Except String Unit

inductive MemberEvent
  | start (op : MemberOp)
  /-- The call takes its next step, if it does not wait for a commit. -/
  | step (call : Nat) (outside : Outside)
  /-- The pending change is committed. -/
  | commit

namespace LeaderWorld

def init (self : NodeId) (members : Members) : LeaderWorld := ⟨self, members, none, []⟩

variable (w : LeaderWorld)

/-- The last membership in the log, committed or not. -/
def effective : Members :=
  match w.pending with
  | some change => change.members
  | none => w.committed

def waits (i : Nat) : Prop := w.pending.map PendingChange.owner = some i

instance decidableWaits (i : Nat) : Decidable (w.waits i) :=
  inferInstanceAs (Decidable (_ = _))

def answer (outside : Outside) : (q : RuntimeCall) → RuntimeAnswer q
  | .metrics => ⟨outside.term, some w.self, .leader, w.effective⟩
  | .change _ => .error outside.refusal
  | .catchUp _ | .elect _ _ => outside.reply
  | .elected _ => false
  | .replaceNodes _ => ()

/-- The membership that a change would make, if openraft takes it now. -/
def submit (change : Change) : Option Members :=
  match w.pending with
  | some _ => none
  | none => w.committed.accept change

def resume (i : Nat) (call : MemberCall) (rest : RuntimeM (Except String Unit)) : LeaderWorld :=
  { w with calls := w.calls.set i { call with rest := rest } }

def stepCall (i : Nat) (call : MemberCall) (outside : Outside) (q : RuntimeCall)
    (next : RuntimeAnswer q → RuntimeM (Except String Unit)) : LeaderWorld :=
  match q, next with
  | .change change, next =>
      match w.submit change with
      | some members =>
          { w.resume i call (next (.ok ())) with pending := some ⟨i, members⟩ }
      | none => w.resume i call (next (.error outside.refusal))
  | q, next => w.resume i call (next (w.answer outside q))

def step : MemberEvent → LeaderWorld
  | .start op => { w with calls := w.calls ++ [⟨op, op.program w.self⟩] }
  | .step i outside =>
      if w.waits i then w
      else match w.calls[i]? with
        | none => w
        | some call =>
            match call.rest with
            | .done _ => w
            | .ask q next => w.stepCall i call outside q next
  | .commit =>
      match w.pending with
      | none => w
      | some change => { w with committed := change.members, pending := none }

def after (self : NodeId) (members : Members) (events : List MemberEvent) (k : Nat) : LeaderWorld :=
  Runs.stateAt step (init self members) events k

def returned (i : Nat) : Option (Except String Unit) :=
  if w.waits i then none
  else match w.calls[i]? with
    | some ⟨_, .done result⟩ => some result
    | _ => none

def InProgress (i : Nat) : Prop := i < w.calls.length ∧ w.returned i = none

instance decidableInProgress (i : Nat) : Decidable (w.InProgress i) :=
  inferInstanceAs (Decidable (_ ∧ _))

def ops (calls : List Nat) : List MemberOp :=
  calls.filterMap fun i => w.calls[i]?.map MemberCall.op

def succeeded : List MemberOp :=
  w.ops ((List.range w.calls.length).filter fun i => (w.returned i).any Except.isOk)

end LeaderWorld

/-- The call `i` returns Ok or has a change taken by openraft. -/
def Effective (self : NodeId) (members : Members) (events : List MemberEvent) (i : Nat) : Prop :=
  ∃ k, (LeaderWorld.after self members events k).returned i = some (.ok ()) ∨
    (LeaderWorld.after self members events k).waits i

inductive Serial (self : NodeId) : Members → List MemberOp → Members → Prop
  | nil (m : Members) : Serial self m [] m
  | cons {m m₁ m' : Members} {op : MemberOp} {ops : List MemberOp}
      (h : Executes (leaderAnswers self) (op.program self) m m₁ (.ok ()))
      (rest : Serial self m₁ ops m') : Serial self m (op :: ops) m'

/-- The final voters and learners are those after the operations in some order. -/
def Serializable (self : NodeId) (start final : Members) (ops : List MemberOp) : Prop :=
  ∃ order result, order.Perm ops ∧ Serial self start order result ∧
    final.voters = result.voters ∧ final.learners = result.learners

end NexusAuth.Raft
