import NexusAuth.Lib.Interaction
import NexusAuth.Lib.OrderedMap
import NexusAuth.Raft.Types

/-!
# Membership operations of the Raft runtime

The methods of `RaftRuntime` (`raft/mod.rs`) that read and change the membership, as
programs that ask openraft and the network.  Each one reads a view from the metrics
and later submits changes that it computes from the view.

`Members` is the membership as openraft keeps it: every voter has an entry in `nodes`,
and a node that is not a voter is a learner.
-/

namespace NexusAuth.Raft

open NexusAuth.Lib.Interaction NexusAuth.Lib.OrderedMap

/-! ## Memberships -/

structure Members where
  voters : BTreeSet NodeId
  nodes : BTreeMap NodeId RaftNode
  voters_known : ∀ id ∈ voters, id ∈ nodes
deriving DecidableEq

inductive Change
  /-- `ChangeMembers::AddNodes`, from `add_learner`. -/
  | addNodes (id : NodeId) (node : RaftNode)
  /-- A set of voters with `retain = true`. -/
  | replaceVoters (voters : BTreeSet NodeId)
  /-- `ChangeMembers::RemoveNodes` of a single node. -/
  | removeNodes (id : NodeId)

namespace Members

variable (m : Members)

/-- The membership after a change, unless openraft finds it invalid: a set of voters is
not empty and has only known nodes, and a voter cannot be removed. -/
def accept : Change → Option Members
  | .addNodes id node => some {
      voters := m.voters
      nodes := m.nodes.insertIfNew id node
      voters_known := fun voter h =>
        Std.ExtTreeMap.mem_insertIfNew.mpr (.inr (m.voters_known voter h)) }
  | .replaceVoters voters =>
      if h : voters ≠ ∅ ∧ ∀ id ∈ voters.toList, id ∈ m.nodes then
        some ⟨voters, m.nodes, fun id hid => h.2 id (Std.ExtTreeSet.mem_toList.mpr hid)⟩
      else none
  | .removeNodes id =>
      if h : id ∈ m.voters then none
      else some {
        voters := m.voters
        nodes := m.nodes.erase id
        voters_known := fun voter hv => Std.ExtTreeMap.mem_erase.mpr
          ⟨fun heq => h (Std.LawfulEqCmp.eq_of_compare heq ▸ hv), m.voters_known voter hv⟩ }

def learners : List NodeId := m.nodes.keys.filter fun id => id ∉ m.voters

end Members

inductive ServerState
  | leader
  | follower
  | candidate
  | learner
  | shutdown
deriving DecidableEq

/-- The part of openraft's metrics that the membership operations read. -/
structure RaftMetrics where
  currentTerm : Nat
  currentLeader : Option NodeId
  state : ServerState
  members : Members

structure MemberInfo where
  nodeId : NodeId
  peerId : String
  identityKey : String
  x25519Key : String
  voter : Bool
deriving DecidableEq

structure MembershipView where
  voters : List MemberInfo
  learners : List MemberInfo
  leader : Option NodeId
  term : Nat
deriving DecidableEq

namespace MembershipView

variable (view : MembershipView) (id : NodeId)

def all : List MemberInfo := view.voters ++ view.learners

def find : Option MemberInfo := view.all.find? fun member => member.nodeId == id

def isVoter : Bool := view.voters.any fun member => member.nodeId == id

def isMember : Bool := (view.find id).isSome

end MembershipView

def Members.info (m : Members) (id : NodeId) (node : RaftNode) : MemberInfo :=
  ⟨id, node.peerId, node.identityKey, node.x25519Key, id ∈ m.voters⟩

/-- All members with their keys; `nodes()` enumerates them in the order of their ids, so
that the sorting in `membership_view` keeps the lists as they are. -/
def Members.infos (m : Members) : List MemberInfo :=
  m.nodes.toList.map fun (id, node) => m.info id node

def RaftMetrics.membershipView (metrics : RaftMetrics) : MembershipView where
  voters := metrics.members.infos.filter fun info => info.voter
  learners := metrics.members.infos.filter fun info => !info.voter
  leader := metrics.currentLeader
  term := metrics.currentTerm

/-! ## Programs -/

inductive RuntimeCall
  /-- A copy of the current metrics. -/
  | metrics
  /-- `change_membership`: submit a change and wait until it is committed. -/
  | change (change : Change)
  /-- The wait of a blocking `add_learner` for the learner to reach line rate. -/
  | catchUp (id : NodeId)
  /-- The signed `Elect` request to a node and its verified reply. -/
  | elect (target : NodeId) (node : RaftNode)
  /-- The polling loop of `transfer_leader_away`: within 8 seconds the metrics showed the
  candidate as leader and this node in another state. -/
  | elected (candidate : NodeId)
  /-- `RpcVerifier::replace_nodes`, whose result is ignored. -/
  | replaceNodes (nodes : List (NodeId × String))

@[reducible] def RuntimeAnswer : RuntimeCall → Type
  | .metrics => RaftMetrics
  | .change _ => Except String Unit
  | .catchUp _ => Except String Unit
  | .elect _ _ => Except String Unit
  | .elected _ => Bool
  | .replaceNodes _ => Unit

abbrev RuntimeM := Prog RuntimeCall RuntimeAnswer

namespace Runtime

abbrev ask (question : RuntimeCall) : RuntimeM (RuntimeAnswer question) := request question

def membershipView : RuntimeM MembershipView := do
  let metrics ← ask .metrics
  return metrics.membershipView

def memberNode (id : NodeId) : RuntimeM (Option RaftNode) := do
  let metrics ← ask .metrics
  return metrics.members.nodes[id]?

def isLeader : RuntimeM Bool := do
  let metrics ← ask .metrics
  return metrics.state == .leader

section Reads

variable {α : Type}

@[simp] theorem membershipView_bind (f : MembershipView → RuntimeM α) :
    membershipView >>= f = ask .metrics >>= fun metrics => f metrics.membershipView := rfl

@[simp] theorem memberNode_bind (id : NodeId) (f : Option RaftNode → RuntimeM α) :
    memberNode id >>= f = ask .metrics >>= fun metrics => f metrics.members.nodes[id]? := rfl

@[simp] theorem isLeader_bind (f : Bool → RuntimeM α) :
    isLeader >>= f = ask .metrics >>= fun metrics => f (metrics.state == .leader) := rfl

end Reads

def refreshVerifierFromMetrics : RuntimeM Unit := do
  let metrics ← ask .metrics
  let nodes := metrics.members.nodes.toList.map fun (id, node) => (id, node.identityKey)
  if nodes.isEmpty then
    return ()
  ask (.replaceNodes nodes)

/-- openraft's `Raft::add_learner`; a node that is already there keeps its entry. -/
def addLearner (id : NodeId) (node : RaftNode) (blocking : Bool) :
    RuntimeM (Except String Unit) := do
  match ← ask (.change (.addNodes id node)) with
  | .error e => return .error e
  | .ok () => if blocking then ask (.catchUp id) else return .ok ()

def remainingVoters (voters : List NodeId) (remove : NodeId) : Except String (BTreeSet NodeId) :=
  let remaining : BTreeSet NodeId :=
    .ofList (voters.filter fun id => id != remove) compare
  if remaining.isEmpty then .error "refusing to remove/demote the last voter" else .ok remaining

/-- `send_body` with `RaftRpcBody::Elect`. -/
def sendElect (target : NodeId) : RuntimeM (Except String Unit) := do
  match ← memberNode target with
  | none => return .error s!"unknown target node {target}"
  | some node => ask (.elect target node)

variable (self : NodeId)

def transferLeaderAway : RuntimeM (Except String Unit) := do
  let view ← membershipView
  match (view.voters.map fun member => member.nodeId).find? fun id => id != self with
  | none => return .error "no other voter available for leader transfer"
  | some candidate =>
      match ← sendElect candidate with
      | .error e => return .error e
      | .ok () =>
          if ← ask (.elected candidate) then
            return .ok ()
          return .error "leader re-election timed out before membership change"

/-- A leader that is to lose its own vote or place first gives up the leadership. -/
def stepAside (id : NodeId) : RuntimeM (Except String Unit) := do
  if id = self then
    if ← isLeader then
      return ← transferLeaderAway self
  return .ok ()

def addLearnerNode (id : NodeId) (node : RaftNode) : RuntimeM (Except String MemberInfo) := do
  let view ← membershipView
  if view.isMember id then
    return .error s!"node {id} is already a member"
  if node.identityKey.isEmpty then
    return .error "identity_key is required"
  match ← addLearner id node false with
  | .error e => return .error e
  | .ok () =>
      refreshVerifierFromMetrics
      return .ok ⟨id, node.peerId, node.identityKey, node.x25519Key, false⟩

def promoteVoter (id : NodeId) : RuntimeM (Except String Unit) := do
  let view ← membershipView
  if view.isVoter id then
    return .error s!"node {id} is already a voter"
  match view.find id with
  | none => return .error s!"node {id} is not a learner"
  | some member =>
      -- the view is not read again after the wait for the learner
      match ← addLearner id ⟨member.peerId, member.identityKey, member.x25519Key⟩ true with
      | .error e => return .error e
      | .ok () =>
          let voters : BTreeSet NodeId :=
            .ofList (view.voters.map fun member => member.nodeId) compare
          match ← ask (.change (.replaceVoters (voters.insert id))) with
          | .error e => return .error e
          | .ok () =>
              refreshVerifierFromMetrics
              return .ok ()

def demoteVoter (id : NodeId) : RuntimeM (Except String Unit) := do
  let view ← membershipView
  if !view.isVoter id then
    return .error s!"node {id} is not a voter"
  match remainingVoters (view.voters.map fun member => member.nodeId) id with
  | .error e => return .error e
  | .ok remaining =>
      match ← stepAside self id with
      | .error e => return .error e
      | .ok () =>
          match ← ask (.change (.replaceVoters remaining)) with
          | .error e => return .error e
          | .ok () =>
              refreshVerifierFromMetrics
              return .ok ()

/-- The first half of `remove_member`: a voter is made a learner. -/
def demoteBeforeRemoval (view : MembershipView) (id : NodeId) : RuntimeM (Except String Unit) := do
  if view.isVoter id then
    match remainingVoters (view.voters.map fun member => member.nodeId) id with
    | .error e => return .error e
    | .ok remaining => ask (.change (.replaceVoters remaining))
  else return .ok ()

/-- The second half of `remove_member`: the node is looked up again and removed. -/
def removeLearner (id : NodeId) : RuntimeM (Except String Unit) := do
  match ← memberNode id with
  | none => return .ok ()
  | some _ => ask (.change (.removeNodes id))

def removeMember (id : NodeId) : RuntimeM (Except String Unit) := do
  let view ← membershipView
  if !view.isMember id then
    return .error s!"node {id} is not a member"
  match ← stepAside self id with
  | .error e => return .error e
  | .ok () =>
      match ← demoteBeforeRemoval view id with
      | .error e => return .error e
      | .ok () =>
          match ← removeLearner id with
          | .error e => return .error e
          | .ok () =>
              refreshVerifierFromMetrics
              return .ok ()

end Runtime

/-! ## Answers -/

/-- What a leader that runs one call at a time and keeps its office is answered. -/
def leaderAnswers (self : NodeId) (m : Members) :
    (q : RuntimeCall) → RuntimeAnswer q → Members → Prop
  | .metrics, metrics, m' =>
      metrics.state = .leader ∧ metrics.currentLeader = some self ∧ metrics.members = m ∧ m' = m
  | .change change, .ok (), m' => m.accept change = some m'
  | .change change, .error _, m' => m.accept change = none ∧ m' = m
  | .elected _, answer, m' => answer = false ∧ m' = m
  | .catchUp _, _, m' | .elect _ _, _, m' | .replaceNodes _, _, m' => m' = m

/-- What can be answered when requests get lost, changes are refused for any reason and
the leadership moves: still, a change has been made exactly when it is reported. -/
def faultyAnswers (m : Members) : (q : RuntimeCall) → RuntimeAnswer q → Members → Prop
  | .metrics, metrics, m' => metrics.members = m ∧ m' = m
  | .change change, .ok (), m' => m.accept change = some m'
  | .change _, .error _, m' => m' = m
  | .elected _, _, m' | .catchUp _, _, m' | .elect _ _, _, m' | .replaceNodes _, _, m' => m' = m

theorem faultyAnswers_of_leaderAnswers {self : NodeId} {m m' : Members} {q : RuntimeCall}
    {answer : RuntimeAnswer q} (h : leaderAnswers self m q answer m') :
    faultyAnswers m q answer m' := by
  cases q with
  | metrics => exact h.2.2
  | change change =>
      cases answer with
      | ok value => exact h
      | error e => exact h.2
  | elected candidate => exact h.2
  | _ => exact h

end NexusAuth.Raft
