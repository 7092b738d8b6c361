import NexusAuth.Raft.Types

/-!
# The replicated policy state machine

`raft/state_machine.rs`: a deterministic function of the committed log.  Commands
edit services and join tokens; commands of administrators carry a request id and
are answered from a bounded table when they are seen again.

Every refusal is returned before the first write, so a method on `&mut self` is a
function that returns either the refusal or the new state with its result.
-/

namespace NexusAuth.Raft

open NexusAuth.Authority NexusAuth.Lib.OrderedMap NexusAuth.Lib.Words

def dedupMaxEntries : Nat := 10000

/-- How long a request is remembered, in seconds of request time. -/
def dedupTtlSecs : Nat := 24 * 60 * 60

structure AdminRecord where
  requestHash : String
  outcome : AdminOutcome
  policyEpoch : Nat
  raftIndex : Nat
  requestTs : Nat
deriving DecidableEq

structure PolicyState where
  network : String
  policyEpoch : Nat
  indexExpiresAt : Nat
  services : BTreeMap String ServiceState
  tombstones : BTreeMap String Nat
  dedup : BTreeMap String AdminRecord
  joinTokens : BTreeMap String StoredJoinToken
deriving DecidableEq

abbrev Refusal := String × String

abbrev Report := Option String × Option Nat × Bool

def validatePeers (prim : Primitives) (peers : List String) : Except Refusal Unit :=
  validatePeersWith prim (fun peer => ("invalid_peer", "非法 PeerId: " ++ peer)) peers

/-- `char::is_whitespace`, the Unicode `White_Space` property. -/
def isWhitespace (c : Char) : Bool :=
  let n := c.toNat
  (9 ≤ n && n ≤ 13) || n == 0x20 || n == 0x85 || n == 0xA0 || n == 0x1680 ||
    (0x2000 ≤ n && n ≤ 0x200A) || n == 0x2028 || n == 0x2029 || n == 0x202F || n == 0x205F ||
    n == 0x3000

def trimIsEmpty (s : String) : Bool := s.toList.all isWhitespace

namespace PolicyState

def new (network : String) : PolicyState :=
  { network := network
    policyEpoch := 1
    indexExpiresAt := 0
    services := ∅
    tombstones := ∅
    dedup := ∅
    joinTokens := ∅ }

/-! ## Join tokens -/

def issueJoinToken (s : PolicyState) (token : JoinToken) : Except Refusal PolicyState :=
  if token.v ≠ 1 then
    .error ("join_token_bad_version", "unsupported join token version: " ++ toString token.v)
  else if trimIsEmpty token.jti then
    .error ("join_token_bad_jti", "join token jti is empty")
  else if token.maxUses = 0 then
    .error ("join_token_bad_uses", "join token max_uses must be positive")
  else if token.network ≠ s.network then
    .error ("join_token_wrong_network",
      "join token network " ++ token.network ++ " does not match state network " ++ s.network)
  else if s.joinTokens.contains token.jti then
    .error ("join_token_exists", "join token jti already recorded: " ++ token.jti)
  else
    .ok { s with joinTokens := s.joinTokens.insert token.jti ⟨token, 0⟩ }

def consumeJoinToken (s : PolicyState) (jti peerId : String) (usedAt : Nat) :
    Except Refusal PolicyState :=
  match s.joinTokens[jti]? with
  | none => .error ("join_token_unknown", "unknown join token: " ++ jti)
  | some record =>
      if record.uses ≥ record.token.maxUses then
        .error ("join_token_replayed", "join token already used: " ++ jti)
      else if !record.token.bindPeerId.isEmpty && record.token.bindPeerId != peerId then
        .error ("join_token_wrong_peer", "join token bound to a different peer: " ++ jti)
      else if record.token.expiresAt = 0 ∨ usedAt > record.token.expiresAt then
        .error ("join_token_expired", "join token expired: " ++ jti)
      else
        .ok { s with
          joinTokens := s.joinTokens.insert jti
            { record with uses := saturatingSucc32 record.uses } }

/-! ## Services and members -/

def createService (prim : Primitives) (s : PolicyState) (service : String)
    (members : List String) : Except Refusal (PolicyState × Nat) :=
  if !isValidServiceName service then .error ("invalid_service", "非法服务名: " ++ service)
  else
    match validatePeers prim members with
    | .error e => .error e
    | .ok () =>
        if s.services.contains service then .error ("already_exists", "服务已存在: " ++ service)
        else
          .ok ({ s with
            services := s.services.insert service ⟨1, collectPeers members⟩
            policyEpoch := saturatingSucc64 s.policyEpoch }, 1)

def deleteService (s : PolicyState) (service : String) : Except Refusal (PolicyState × Nat) :=
  match s.services[service]? with
  | none => .error ("not_found", "服务不存在: " ++ service)
  | some removed =>
      let tombstone := saturatingSucc64 removed.version
      .ok ({ s with
        services := s.services.erase service
        tombstones := s.tombstones.insert service tombstone
        policyEpoch := saturatingSucc64 s.policyEpoch }, tombstone)

def finishChange (s : PolicyState) (service : String) (changed : Bool) :
    PolicyState × Nat × Bool :=
  match s.services[service]? with
  -- `expect("service exists")`: every caller has just looked the service up
  | none => (s, 0, false)
  | some state =>
      if !changed then (s, state.version, false)
      else
        let version := saturatingSucc64 state.version
        ({ s with
          services := s.services.insert service { state with version := version }
          policyEpoch := saturatingSucc64 s.policyEpoch }, version, true)

/-- The common body of `add_members`, `remove_members` and `set_members`. -/
def editMembers (prim : Primitives) (edit : PeerSet → List String → PeerSet × Bool)
    (s : PolicyState) (service : String) (peers : List String) :
    Except Refusal (PolicyState × Nat × Bool) :=
  match validatePeers prim peers with
  | .error e => .error e
  | .ok () =>
      match s.services[service]? with
      | none => .error ("not_found", "服务不存在: " ++ service)
      | some state =>
          let edited := edit state.members peers
          let s' := { s with
            services := s.services.insert service { state with members := edited.1 } }
          .ok (s'.finishChange service edited.2)

def addMembers (prim : Primitives) (s : PolicyState) (service : String) (peers : List String) :
    Except Refusal (PolicyState × Nat × Bool) :=
  editMembers prim insertPeers s service peers

def removeMembers (prim : Primitives) (s : PolicyState) (service : String) (peers : List String) :
    Except Refusal (PolicyState × Nat × Bool) :=
  editMembers prim removePeers s service peers

def setMembers (prim : Primitives) (s : PolicyState) (service : String) (peers : List String) :
    Except Refusal (PolicyState × Nat × Bool) :=
  editMembers prim replacePeers s service peers

/-! ## Applying commands -/

def applyInner (prim : Primitives) (s : PolicyState) :
    PolicyCommand → Except Refusal (PolicyState × Report)
  | .createService service members => do
      let (t, version) ← s.createService prim service members
      return (t, some service, some version, true)
  | .deleteService service => do
      let (t, tombstone) ← s.deleteService service
      return (t, some service, some tombstone, true)
  | .addMembers service peers => do
      let (t, version, changed) ← s.addMembers prim service peers
      return (t, some service, some version, changed)
  | .removeMembers service peers => do
      let (t, version, changed) ← s.removeMembers prim service peers
      return (t, some service, some version, changed)
  | .setMembers service peers => do
      let (t, version, changed) ← s.setMembers prim service peers
      return (t, some service, some version, changed)
  | .admin _ _ _ _ _ => .error ("bad_command", "nested Admin command is not allowed")
  | .renewIndex expiresAt =>
      .ok ({ s with
        policyEpoch := saturatingSucc64 s.policyEpoch
        indexExpiresAt := expiresAt }, none, none, true)
  | .issueJoinToken token => do
      let t ← s.issueJoinToken token
      return (t, some token.jti, some token.expiresAt, true)
  | .consumeJoinToken jti _ peerId usedAt => do
      let t ← s.consumeJoinToken jti peerId usedAt
      return (t, some jti, none, true)

/-- `prune_dedup`: forget what is too old, then the lowest log indexes. -/
def pruneDedup (s : PolicyState) (now : Nat) : PolicyState :=
  { s with
    dedup := evict AdminRecord.raftIndex dedupMaxEntries
      (s.dedup.filter fun _ record => decide (now - record.requestTs ≤ dedupTtlSecs)) }

def applyAdmin (prim : Primitives) (s : PolicyState) (requestId requestHash : String)
    (requestTs : Nat) (command : PolicyCommand) (raftIndex : Nat) : PolicyState × PolicyResult :=
  match s.dedup[requestId]? with
  | some record =>
      if record.requestHash = requestHash then
        (s, .admin requestId record.policyEpoch record.raftIndex true record.outcome)
      else
        (s, .admin requestId s.policyEpoch raftIndex true
          (.rejected "request_id_conflict"
            ("request_id " ++ requestId ++ " reused with different request content")))
  | none =>
      let (t, outcome) := match s.applyInner prim command with
        | .ok (t, service, version, changed) => (t, AdminOutcome.applied service version changed)
        | .error (code, message) => (s, .rejected code message)
      let recorded := { t with
        dedup := t.dedup.insert requestId
          ⟨requestHash, outcome, t.policyEpoch, raftIndex, requestTs⟩ }
      (recorded.pruneDedup requestTs, .admin requestId t.policyEpoch raftIndex false outcome)

/-- `apply_command_at`: one log entry at index `raftIndex`. -/
def applyCommandAt (prim : Primitives) (s : PolicyState) (cmd : PolicyCommand) (raftIndex : Nat) :
    PolicyState × PolicyResult :=
  match cmd with
  | .admin requestId _ requestHash requestTs command =>
      s.applyAdmin prim requestId requestHash requestTs command raftIndex
  | cmd =>
      match s.applyInner prim cmd with
      | .ok (t, service, version, changed) => (t, .applied service version t.policyEpoch changed)
      | .error (code, message) => (s, .rejected code message s.policyEpoch)

end PolicyState

end NexusAuth.Raft
