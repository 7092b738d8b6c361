import NexusAuth.Authority

/-!
# The legacy multi-writer store

`store.rs`: every sidecar keeps services with their member sets, a version for
each service, a tombstone version for each deleted one, and an index version.
Local operations edit this state; `apply_replicated` and `merge_snapshot` join
it with what other sidecars send.

A method on `&mut self` returns the store it leaves behind next to its result,
because an error does not roll back what was already written to memory.  The
file at `path` is represented by its parsed content, and each call is given the
outcome of the write that `save` would attempt.
-/

namespace NexusAuth

open NexusAuth.Authority NexusAuth.Lib.OrderedMap NexusAuth.Lib.Words

inductive StoreError
  | io (error : String)
  | parse (error : String)
  | networkMismatch (expected found : String)
  | invalidService (service : String)
  | invalidPeer (peer : String)
  | notFound (service : String)
  | alreadyExists (service : String)
deriving DecidableEq

structure ServiceState where
  version : Nat
  members : PeerSet
deriving DecidableEq

structure StoreSnapshot where
  network : String
  indexVersion : Nat
  services : BTreeMap String ServiceState
  tombstones : BTreeMap String Nat
deriving DecidableEq

/-- The in-memory state has the fields of a snapshot; `file` is the parsed content
of the file at `path`. -/
structure Store extends StoreSnapshot where
  file : Option StoreSnapshot
deriving DecidableEq

/-- The error met when a snapshot is encoded and written by `atomic_write`; `none`
when the file now holds it. -/
abbrev SaveIo := StoreSnapshot → Option StoreError

/-- What `fs::read_to_string` and `toml::from_str` give for the state file. -/
inductive FileRead
  | found (parsed : Except String StoreSnapshot)
  | missing
  | failed (error : String)

/-- One replicated change, the arguments of `apply_replicated`. -/
structure Update where
  service : String
  version : Nat
  members : List String
  indexVersion : Nat
  deleted : Bool
deriving DecidableEq

def validatePeers (prim : Primitives) (peers : List String) : Except StoreError Unit :=
  validatePeersWith prim StoreError.invalidPeer peers

/-- Canonical hash of a member set: the members in order, each followed by a NUL. -/
def membersHash (prim : Primitives) (members : PeerSet) : List UInt8 :=
  contentHash prim (members.toList.flatMap fun m => utf8Bytes m ++ [0])

namespace Store

def snapshot (s : Store) : StoreSnapshot := s.toStoreSnapshot

def save (io : SaveIo) (s : Store) : Store × Except StoreError Unit :=
  match io s.snapshot with
  | some e => (s, .error e)
  | none => ({ s with file := some s.snapshot }, .ok ())

/-- `self.save()?; Ok(value)`. -/
def saveThen {α : Type} (io : SaveIo) (s : Store) (value : α) : Store × Except StoreError α :=
  match s.save io with
  | (s', .error e) => (s', .error e)
  | (s', .ok ()) => (s', .ok value)

/-! ## Construction -/

/-- The loop of `load_or_create` over the configured services. -/
def seedServices (prim : Primitives) (services : BTreeMap String ServiceState) :
    List (String × List String) → Except StoreError (BTreeMap String ServiceState)
  | [] => .ok services
  | (name, members) :: rest =>
      if !isValidServiceName name then .error (.invalidService name)
      else
        match validatePeers prim members with
        | .error e => .error e
        | .ok () => seedServices prim (services.insert name ⟨1, collectPeers members⟩) rest

def loadOrCreate (prim : Primitives) (io : SaveIo) (read : FileRead) (network : String)
    (initial : BTreeMap String (List String)) : Except StoreError Store :=
  match read with
  | .found (.error e) => .error (.parse e)
  | .found (.ok file) =>
      if file.network != network then .error (.networkMismatch network file.network)
      else
        .ok { file := some file, network := network, indexVersion := file.indexVersion,
              services := file.services, tombstones := file.tombstones }
  | .missing =>
      match seedServices prim ∅ initial.toList with
      | .error e => .error e
      | .ok services =>
          let store : Store :=
            { file := none, network := network, indexVersion := 1, services := services,
              tombstones := ∅ }
          match store.save io with
          | (_, .error e) => .error e
          | (store, .ok ()) => .ok store
  | .failed e => .error (.io e)

def fromSnapshot (io : SaveIo) (network : String) (snapshot : StoreSnapshot) :
    Except StoreError Store :=
  if snapshot.network != network then .error (.networkMismatch network snapshot.network)
  else
    let store : Store :=
      { file := none, network := network, indexVersion := snapshot.indexVersion,
        services := snapshot.services, tombstones := snapshot.tombstones }
    match store.save io with
    | (_, .error e) => .error e
    | (store, .ok ()) => .ok store

/-! ## Local operations -/

/-- `finish_change`: a real change raises the service and the index version.  The
outcome of the write is ignored. -/
def finishChange (io : SaveIo) (s : Store) (service : String) (changed : Bool) : Store × Nat :=
  match s.services[service]? with
  -- `expect("service exists")`: every caller has just looked the service up
  | none => (s, 0)
  | some state =>
      if !changed then (s, state.version)
      else
        let version := succ64 state.version
        let s' := { s with
          services := s.services.insert service { state with version := version }
          indexVersion := succ64 s.indexVersion }
        ((s'.save io).1, version)

/-- The common body of `add_members`, `remove_members` and `set_members`. -/
def editMembers (prim : Primitives) (io : SaveIo)
    (edit : PeerSet → List String → PeerSet × Bool) (s : Store) (service : String)
    (peers : List String) : Store × Except StoreError Nat :=
  match validatePeers prim peers with
  | .error e => (s, .error e)
  | .ok () =>
      match s.services[service]? with
      | none => (s, .error (.notFound service))
      | some state =>
          let edited := edit state.members peers
          let s' := { s with
            services := s.services.insert service { state with members := edited.1 } }
          let done := finishChange io s' service edited.2
          (done.1, .ok done.2)

def addMembers (prim : Primitives) (io : SaveIo) (s : Store) (service : String)
    (peers : List String) : Store × Except StoreError Nat :=
  editMembers prim io insertPeers s service peers

def removeMembers (prim : Primitives) (io : SaveIo) (s : Store) (service : String)
    (peers : List String) : Store × Except StoreError Nat :=
  editMembers prim io removePeers s service peers

def setMembers (prim : Primitives) (io : SaveIo) (s : Store) (service : String)
    (peers : List String) : Store × Except StoreError Nat :=
  editMembers prim io replacePeers s service peers

def createService (prim : Primitives) (io : SaveIo) (s : Store) (service : String)
    (peers : List String) : Store × Except StoreError Nat :=
  if !isValidServiceName service then (s, .error (.invalidService service))
  else
    match validatePeers prim peers with
    | .error e => (s, .error e)
    | .ok () =>
        if s.services.contains service then (s, .error (.alreadyExists service))
        else
          let s' := { s with
            services := s.services.insert service ⟨1, collectPeers peers⟩
            indexVersion := succ64 s.indexVersion }
          s'.saveThen io 1

def deleteService (io : SaveIo) (s : Store) (service : String) : Store × Except StoreError Nat :=
  match s.services[service]? with
  | none => (s, .error (.notFound service))
  | some removed =>
      let tombstone := succ64 removed.version
      let s' := { s with
        services := s.services.erase service
        tombstones := s.tombstones.insert service tombstone
        indexVersion := succ64 s.indexVersion }
      s'.saveThen io tombstone

def bumpIndexVersion (io : SaveIo) (s : Store) : Store × Nat :=
  let s' := { s with indexVersion := succ64 s.indexVersion }
  ((s'.save io).1, s'.indexVersion)

def setIndexVersion (io : SaveIo) (s : Store) (version : Nat) : Store × Except StoreError Unit :=
  if s.indexVersion ≠ version then { s with indexVersion := version }.saveThen io ()
  else (s, .ok ())

/-! ## Merging -/

/-- `merge_service`: deletion wins at one version, and different contents at one
version are decided by the larger hash.  Every error is returned before the
store is touched. -/
def mergeService (prim : Primitives) (s : Store) (u : Update) : Except StoreError (Store × Bool) :=
  if !isValidServiceName u.service then .error (.invalidService u.service)
  else
    let current := (s.services[u.service]?.map ServiceState.version).getD 0
    let tombstone := s.tombstones[u.service]?.getD 0
    if u.deleted then
      if u.version < current || u.version < tombstone then .ok (s, false)
      else if !s.services.contains u.service && tombstone ≥ u.version then .ok (s, false)
      else
        .ok ({ s with
          services := s.services.erase u.service
          tombstones := s.tombstones.insert u.service u.version }, true)
    else
      match validatePeers prim u.members with
      | .error e => .error e
      | .ok () =>
          let incoming := collectPeers u.members
          let accepted := { s with
            services := s.services.insert u.service ⟨u.version, incoming⟩
            tombstones := s.tombstones.erase u.service }
          if u.version ≤ tombstone || u.version < current then .ok (s, false)
          else if u.version = current then
            match s.services[u.service]? with
            -- `expect("current > 0")`: a missing service has `current = 0 ≤ tombstone`
            | none => .ok (accepted, true)
            | some existing =>
                if existing.members = incoming then .ok (s, false)
                else if membersHash prim existing.members ≥ membersHash prim incoming then
                  .ok (s, false)
                else .ok (accepted, true)
          else .ok (accepted, true)

/-- `merge_entry`: the index version is raised even when the entry is ignored. -/
def mergeEntry (prim : Primitives) (s : Store) (u : Update) : Except StoreError (Store × Bool) :=
  match s.mergeService prim u with
  | .error e => .error e
  | .ok (s', entryChanged) =>
      let indexChanged := decide (u.indexVersion > s'.indexVersion)
      .ok (if indexChanged then { s' with indexVersion := u.indexVersion } else s',
        entryChanged || indexChanged)

def applyReplicated (prim : Primitives) (io : SaveIo) (s : Store) (u : Update) :
    Store × Except StoreError Bool :=
  match s.mergeEntry prim u with
  | .error e => (s, .error e)
  | .ok (s', changed) => if changed then s'.saveThen io changed else (s', .ok changed)

/-- The loops of `merge_snapshot`; an error leaves the entries before it merged. -/
def mergeEntries (prim : Primitives) : Store → Bool → List Update → Store × Except StoreError Bool
  | s, changed, [] => (s, .ok changed)
  | s, changed, u :: us =>
      match s.mergeEntry prim u with
      | .error e => (s, .error e)
      | .ok (s', entryChanged) => mergeEntries prim s' (changed || entryChanged) us

end Store

/-- The entries `merge_snapshot` goes through: the services in name order, then the
tombstones in name order. -/
def StoreSnapshot.updates (snap : StoreSnapshot) : List Update :=
  snap.services.toList.map (fun (name, state) =>
      ⟨name, state.version, state.members.toList, snap.indexVersion, false⟩) ++
    snap.tombstones.toList.map (fun (name, version) =>
      ⟨name, version, [], snap.indexVersion, true⟩)

namespace Store

def mergeSnapshot (prim : Primitives) (io : SaveIo) (s : Store) (snap : StoreSnapshot) :
    Store × Except StoreError Bool :=
  match mergeEntries prim s false snap.updates with
  | (s', .error e) => (s', .error e)
  | (s', .ok changed) => if changed then s'.saveThen io changed else (s', .ok changed)

/-! ## Runs -/

inductive Op
  | createService (service : String) (peers : List String)
  | deleteService (service : String)
  | addMembers (service : String) (peers : List String)
  | removeMembers (service : String) (peers : List String)
  | setMembers (service : String) (peers : List String)
  | bumpIndexVersion
  | applyReplicated (update : Update)
  | mergeSnapshot (snapshot : StoreSnapshot)
deriving DecidableEq

inductive Reply
  | version (version : Nat)
  | changed (changed : Bool)
deriving DecidableEq

def exec (prim : Primitives) (io : SaveIo) (s : Store) : Op → Store × Except StoreError Reply
  | .createService service peers =>
      let out := s.createService prim io service peers
      (out.1, out.2.map .version)
  | .deleteService service =>
      let out := s.deleteService io service
      (out.1, out.2.map .version)
  | .addMembers service peers =>
      let out := s.addMembers prim io service peers
      (out.1, out.2.map .version)
  | .removeMembers service peers =>
      let out := s.removeMembers prim io service peers
      (out.1, out.2.map .version)
  | .setMembers service peers =>
      let out := s.setMembers prim io service peers
      (out.1, out.2.map .version)
  | .bumpIndexVersion =>
      let out := s.bumpIndexVersion io
      (out.1, .ok (.version out.2))
  | .applyReplicated update =>
      let out := s.applyReplicated prim io update
      (out.1, out.2.map .changed)
  | .mergeSnapshot snap =>
      let out := s.mergeSnapshot prim io snap
      (out.1, out.2.map .changed)

end Store

structure StoreSnapshot.Bounded (s : StoreSnapshot) : Prop where
  indexVersion : s.indexVersion < u64Max
  services : ∀ (name : String) (state : ServiceState),
    s.services[name]? = some state → state.version < u64Max
  tombstones : ∀ (name : String) (version : Nat),
    s.tombstones[name]? = some version → version < u64Max

instance (s : StoreSnapshot) : Decidable s.Bounded :=
  decidable_of_iff
    (s.indexVersion < u64Max ∧ (∀ entry ∈ s.services.toList, entry.2.version < u64Max) ∧
      ∀ entry ∈ s.tombstones.toList, entry.2 < u64Max)
    ⟨fun h => ⟨h.1, forall_mem_toList.mp h.2.1, forall_mem_toList.mp h.2.2⟩,
      fun h => ⟨h.1, forall_mem_toList.mpr h.2, forall_mem_toList.mpr h.3⟩⟩

namespace Store

/-- A call that succeeds and is `allowed`, with any outcome of the writes whose
result the code ignores. -/
def Step (prim : Primitives) (allowed : Store → Op → Prop) (s t : Store) : Prop :=
  ∃ io op reply, allowed s op ∧ s.exec prim io op = (t, .ok reply) ∧ t.Bounded

/-- The stores a sidecar can hold: freshly created, loaded from a file such a store
has written, or after a call. -/
inductive Reachable (prim : Primitives) (network : String) (allowed : Store → Op → Prop) :
    Store → Prop
  | created {io : SaveIo} {initial : BTreeMap String (List String)} {s : Store}
      (h : loadOrCreate prim io .missing network initial = .ok s) :
      Reachable prim network allowed s
  | reloaded {io : SaveIo} {initial : BTreeMap String (List String)} {s t : Store}
      (hs : Reachable prim network allowed s)
      (h : loadOrCreate prim io (.found (.ok s.snapshot)) network initial = .ok t) :
      Reachable prim network allowed t
  | step {s t : Store} (hs : Reachable prim network allowed s)
      (h : Step prim allowed s t) : Reachable prim network allowed t

end Store

end NexusAuth
