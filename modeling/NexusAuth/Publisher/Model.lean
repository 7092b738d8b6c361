import NexusAuth.Node

/-!
# Publishing rounds

`publisher.rs`: a round signs a whitelist for every service, sends each to all
connections, and then sends an index that names their hashes.  The connections are
read again for every record.  In Raft mode a round takes its content from a snapshot
of the state machine and asks three times whether the node still leads; in the legacy
mode it takes it from the store.  Rounds of one process hold `publish_lock`, so they
follow one another.
-/

namespace NexusAuth.Publisher

open NexusAuth.Authority NexusAuth.Lib.Interaction NexusAuth.Lib.OrderedMap NexusAuth.Lib.Words
open NexusAuth.Raft

def publishAttempts : Nat := 3

inductive PublishOutcome
  | published (policyEpoch : Nat)
  | noConnections
  | notLeader
deriving DecidableEq

structure PublishError where
  message : String
deriving DecidableEq

structure ServiceRow where
  name : String
  version : Nat
  members : List String

/-! ## The status -/

/-- `record_success` and `record_failure`. -/
def recorded (status : PublishStatus) : PublishRecord → PublishStatus
  | .success epoch at_ => ⟨some epoch, true, none, some at_⟩
  | .failure epoch error at_ =>
      { lastPublishEpoch := match epoch with
          | none => status.lastPublishEpoch
          | some epoch => some (match status.lastPublishEpoch with
              | some previous => max previous epoch
              | none => epoch)
        lastPublishOk := false
        lastPublishError := some error
        lastPublishAt := some at_ }

def recordSuccess (epoch : Nat) : NodeM Unit := do
  let at_ ← ask .now
  ask (.record (.success epoch at_))

def recordFailure (epoch : Option Nat) (error : String) : NodeM Unit := do
  let at_ ← ask .now
  ask (.record (.failure epoch error at_))

/-! ## Sending one record -/

/-- The attempts that `add_key_with_retry` has left; `last` is the error of the previous one. -/
def addKeyAttempts (conn : Nat) (key : String) (value : Bytes) :
    Nat → SidecarError → NodeM (Except SidecarError Unit)
  | 0, last => pure (.error last)
  | attempts + 1, _ => do
      match ← ask (.addKey conn key value) with
      | .ok _ => pure (.ok ())
      | .error e => addKeyAttempts conn key value attempts e

def addKeyWithRetry (conn : Nat) (key : String) (value : Bytes) :
    NodeM (Except SidecarError Unit) :=
  addKeyAttempts conn key value publishAttempts (.new "publish_failed" "no attempt made")

def connError (id : Nat) (key : String) (e : SidecarError) : String :=
  "conn#" ++ toString id ++ " " ++ key ++ ": [" ++ e.code ++ "] " ++ e.message

/-- The loop of `publish` over the connections; only the first error is kept. -/
def publishTo (key : String) (value : Bytes) : List Nat → Option String → NodeM (Option String)
  | [], firstError => pure firstError
  | id :: ids, firstError => do
      match ← addKeyWithRetry id key value with
      | .ok () => publishTo key value ids firstError
      | .error e => publishTo key value ids (firstError.or (some (connError id key e)))

def publish (key : String) (value : Bytes) : NodeM (Except PublishError Unit) := do
  let clients ← ask .connections
  match ← publishTo key value clients none with
  | some message => pure (.error ⟨message⟩)
  | none => pure (.ok ())

/-! ## The two phases of a round -/

structure Pending where
  entry : ServiceEntry
  key : String
  value : Bytes

/-- The first loop of `publish_whitelists`: nothing is sent unless every service can be signed. -/
def prepareWhitelists (crypto : Crypto) (signer : Signer) :
    List ServiceRow → Except PublishError (List Pending)
  | [] => .ok []
  | service :: services => do
      let value ← (signer.signWhitelist crypto service.name
        ⟨service.version, service.members⟩).mapError
        fun e => ⟨"whitelist sign failed for " ++ service.name ++ ": " ++ e.text⟩
      let key ← (signer.serviceKey crypto service.name).mapError
        fun e => ⟨"invalid service " ++ service.name ++ ": " ++ e.text⟩
      let pending ← prepareWhitelists crypto signer services
      return ⟨⟨service.name, contentHash crypto.toPrimitives value, value.length⟩, key, value⟩ ::
        pending

/-- The second loop: the first record that some connection refuses ends it. -/
def publishAll : List Pending → NodeM (Except PublishError Unit)
  | [] => pure (.ok ())
  | record :: records => do
      match ← publish record.key record.value with
      | .error e => pure (.error e)
      | .ok () => publishAll records

def noSeed : PublishError := ⟨"learner has no authority seed; refusing to publish"⟩

def publishWhitelists (ctx : Context) (services : List ServiceRow) :
    NodeM (Except PublishError (List ServiceEntry)) := do
  match ← ctx.authority with
  | none => pure (.error noSeed)
  | some signer =>
      match prepareWhitelists ctx.crypto signer services with
      | .error e => pure (.error e)
      | .ok pending =>
          match ← publishAll pending with
          | .error e => pure (.error e)
          | .ok () => pure (.ok (pending.map Pending.entry))

def publishIndex (ctx : Context) (indexVersion expiresAt : Nat) (services : List ServiceEntry) :
    NodeM (Except PublishError Unit) := do
  match ← ctx.authority with
  | none => pure (.error noSeed)
  | some signer =>
      match signer.signIndex ctx.crypto ⟨indexVersion, expiresAt, services⟩ with
      | .error e => pure (.error ⟨"index sign failed: " ++ e.text⟩)
      | .ok bytes => publish (indexKey ctx.crypto signer.network) bytes

/-! ## Rounds -/

def serviceRows (services : BTreeMap String ServiceState) : List ServiceRow :=
  services.toList.map fun entry => ⟨entry.1, entry.2.version, entry.2.members.toList⟩

def failRound (epoch : Nat) (message : String) : NodeM (Except PublishError PublishOutcome) := do
  recordFailure (some epoch) message
  pure (.error ⟨message⟩)

def staleEpoch (status : PublishStatus) (epoch : Nat) : Option Nat :=
  status.lastPublishEpoch.filter fun last => epoch < last

/-- The end of `publish_once_raft`: both phases, with a question for leadership between them. -/
def publishSnapshot (ctx : Context) (state : PolicyState) :
    NodeM (Except PublishError PublishOutcome) := do
  match ← publishWhitelists ctx (serviceRows state.services) with
  | .error e => failRound state.policyEpoch e.message
  | .ok entries =>
      if !(← ask .isLeader) then
        failRound state.policyEpoch "lost leadership before publishing index"
      else
        match ← publishIndex ctx state.policyEpoch state.indexExpiresAt entries with
        | .error e => failRound state.policyEpoch e.message
        | .ok () =>
            recordSuccess state.policyEpoch
            pure (.ok (.published state.policyEpoch))

/-- `publish_once_raft` from the second question for leadership on. -/
def publishState (ctx : Context) (state : PolicyState) :
    NodeM (Except PublishError PublishOutcome) := do
  if !(← ask .isLeader) then pure (.ok .notLeader)
  else
    match staleEpoch (← ask .status) state.policyEpoch with
    | some last =>
        failRound state.policyEpoch ("stale policy_epoch " ++ toString state.policyEpoch ++
          " < last_publish_epoch " ++ toString last)
    | none =>
        if state.indexExpiresAt = 0 then
          failRound state.policyEpoch "state machine has no index expires_at"
        else publishSnapshot ctx state

def publishOnceRaft (ctx : Context) (renew : Bool) :
    NodeM (Except PublishError PublishOutcome) := do
  if !(← ask .adminRaft) then pure (.error ⟨"raft_not_ready: Raft 控制面尚未就绪"⟩)
  else if !(← ask .isLeader) then pure (.ok .notLeader)
  else
    let state ← ask .policySnapshot
    let now ← ask .now
    if renew || state.indexExpiresAt ≤ now then
      match ← ask (.propose (.renewIndex (saturatingAdd64 now ctx.expiresSecs))) with
      | .error e => failRound state.policyEpoch ("renew_index failed: " ++ e)
      | .ok _ => publishState ctx (← ask .policySnapshot)
    else publishState ctx state

def renewLegacy (renew : Bool) : NodeM Unit :=
  if renew then do
    let _ ← ask .bumpIndexVersion
    pure ()
  else pure ()

/-- The legacy part of `publish_once`. -/
def publishOnceLegacy (ctx : Context) (renew : Bool) :
    NodeM (Except PublishError PublishOutcome) := do
  renewLegacy renew
  let store ← ask .storeSnapshot
  let now ← ask .now
  match ← publishWhitelists ctx (serviceRows store.services) with
  | .error e => pure (.error e)
  | .ok entries =>
      match ← publishIndex ctx store.indexVersion (saturatingAdd64 now ctx.expiresSecs) entries with
      | .error e => pure (.error e)
      | .ok () =>
          recordSuccess store.indexVersion
          pure (.ok (.published store.indexVersion))

def publishOnce (ctx : Context) (renew : Bool) : NodeM (Except PublishError PublishOutcome) := do
  if ← ask .isEmpty then pure (.ok .noConnections)
  else if ctx.raftRequired then publishOnceRaft ctx renew
  else publishOnceLegacy ctx renew

/-! ## Runs of rounds -/

def rounds (round : Bool → NodeM (Except PublishError PublishOutcome)) : List Bool → NodeM Unit
  | [] => pure ()
  | renew :: later => do
      let _ ← round renew
      rounds round later

theorem rounds_invariant {env : Oracle NodeCall NodeAnswer}
    {round : Bool → NodeM (Except PublishError PublishOutcome)} {I : List NodeEvent → Prop}
    (hstep : ∀ past renew, I past → I (play env past (round renew)).1) (flags : List Bool)
    {past : List NodeEvent} (h : I past) : I (play env past (rounds round flags)).1 := by
  induction flags generalizing past with
  | nil => exact h
  | cons renew flags ih =>
      rw [rounds, play_bind]
      exact ih (hstep past renew h)

def records (events : List NodeEvent) : List PublishRecord :=
  events.filterMap fun
    | ⟨.record entry, _⟩ => some entry
    | _ => none

def statusAfter (events : List NodeEvent) : PublishStatus :=
  (records events).foldl recorded .default

/-- The surroundings `env` of a process that keeps its own status. -/
def ownStatus (env : Oracle NodeCall NodeAnswer) : Oracle NodeCall NodeAnswer
  | past, .status => statusAfter past
  | past, question => env past question

def snapshots (events : List NodeEvent) : List PolicyState :=
  events.filterMap fun
    | ⟨.policySnapshot, state⟩ => some state
    | _ => none

def connectionLists (events : List NodeEvent) : List (List Nat) :=
  events.filterMap fun
    | ⟨.connections, ids⟩ => some ids
    | _ => none

@[simp] theorem records_append (a b : List NodeEvent) : records (a ++ b) = records a ++ records b :=
  List.filterMap_append

theorem statusAfter_append (a b : List NodeEvent) :
    statusAfter (a ++ b) = (records b).foldl recorded (statusAfter a) := by
  rw [statusAfter, records_append, List.foldl_append, statusAfter]

@[simp] theorem snapshots_append (a b : List NodeEvent) :
    snapshots (a ++ b) = snapshots a ++ snapshots b :=
  List.filterMap_append

@[simp] theorem connectionLists_append (a b : List NodeEvent) :
    connectionLists (a ++ b) = connectionLists a ++ connectionLists b :=
  List.filterMap_append

def IsIndexRecord (ctx : Context) (value : Bytes) (doc : IndexDoc) : Prop :=
  ∃ seed, Signer.signIndex ctx.crypto ⟨seed, ctx.network⟩ doc = .ok value

/-! ## The connections

Connections come and go while a round waits.  The source counts their ids in an
`AtomicU64`, which wraps after `2 ^ 64` connections; `nextId` is a natural number and does
not, so here an id is never given twice. -/

structure Registry where
  clients : List Nat
  nextId : Nat

inductive RegistryOp
  | register
  | unregister (id : Nat)

namespace Registry

def new : Registry := ⟨[], 1⟩

def step (r : Registry) : RegistryOp → Registry
  | .register => ⟨r.clients ++ [r.nextId], r.nextId + 1⟩
  | .unregister id => { r with clients := r.clients.filter (· ≠ id) }

/-- The connections when event `n` of a run happens; `schedule n` is what was done to them since
the event before. -/
def before (schedule : Nat → List RegistryOp) : Nat → Registry
  | 0 => (schedule 0).foldl step new
  | n + 1 => (schedule (n + 1)).foldl step (before schedule n)

end Registry

def withRegistry (schedule : Nat → List RegistryOp) (env : Oracle NodeCall NodeAnswer) :
    Oracle NodeCall NodeAnswer
  | past, .connections => (Registry.before schedule past.length).clients
  | past, .isEmpty => (Registry.before schedule past.length).clients.isEmpty
  | past, question => env past question

end NexusAuth.Publisher
