import NexusAuth.Service.Writes
import NexusAuth.Store.Proofs.Replication

/-!
# The two control planes implement one policy

The legacy store edits its state in place and saves it; the Raft state machine applies
the commands that `policy_command_for` builds, with the peers in canonical form.  Run on
the same operations from an empty start, the two stay in step: a simulation relation
between their states is kept by every operation, and both answer alike.
-/

namespace NexusAuth.Service

open Std (ExtTreeMap ExtTreeSet)
open NexusAuth.Authority NexusAuth.Lib NexusAuth.Lib.OrderedMap NexusAuth.Lib.Words
open NexusAuth.Raft

/-! ## Operations -/

/-- A policy change as an administrator asks for it, or the renewal of the index. -/
inductive PolicyOp
  | createService (service : String) (peers : List String)
  | deleteService (service : String)
  | addMembers (service : String) (peers : List String)
  | removeMembers (service : String) (peers : List String)
  | setMembers (service : String) (peers : List String)
  | renewIndex (expiresAt : Nat)
deriving DecidableEq

namespace PolicyOp

def service : PolicyOp → Option String
  | .createService service _ | .deleteService service | .addMembers service _
  | .removeMembers service _ | .setMembers service _ => some service
  | .renewIndex _ => none

def call : PolicyOp → Store.Op
  | .createService service peers => .createService service peers
  | .deleteService service => .deleteService service
  | .addMembers service peers => .addMembers service peers
  | .removeMembers service peers => .removeMembers service peers
  | .setMembers service peers => .setMembers service peers
  | .renewIndex _ => .bumpIndexVersion

def request (op service : String) (peers : List String) : AdminRequestV2 :=
  { AdminRequestV2.default with op := op, service := service, peers := peers }

def command : PolicyOp → Except SidecarError PolicyCommand
  | .createService service peers => policyCommandFor (request "create_service" service peers)
  | .deleteService service => policyCommandFor (request "delete_service" service [])
  | .addMembers service peers => policyCommandFor (request "add_members" service peers)
  | .removeMembers service peers => policyCommandFor (request "remove_members" service peers)
  | .setMembers service peers => policyCommandFor (request "set_members" service peers)
  | .renewIndex expiresAt => .ok (.renewIndex expiresAt)

end PolicyOp

/-! ## The two runs -/

abbrev Answer := Except String Nat

def answerOfReply : Store.Reply → Answer
  | .version version => .ok version
  | .changed _ => .error "no version"

/-- A renewal has no service version; its result carries the epoch it reached. -/
def answerOfResult : PolicyResult → Answer
  | .applied _ (some version) _ _ => .ok version
  | .applied _ none policyEpoch _ => .ok policyEpoch
  | .rejected code _ _ => .error code
  | .admin _ _ _ _ _ => .error "no version"

def onStore (prim : Primitives) (s : Store) (op : PolicyOp) : Store × Answer :=
  match s.exec prim Store.saves op.call with
  | (t, .ok reply) => (t, answerOfReply reply)
  | (t, .error e) => (t, .error e.code)

def onPolicy (prim : Primitives) (s : PolicyState) (op : PolicyOp) (raftIndex : Nat) :
    PolicyState × Answer :=
  match op.command with
  | .error e => (s, .error e.code)
  | .ok cmd =>
      let out := s.applyCommandAt prim cmd raftIndex
      (out.1, answerOfResult out.2)

def storeAfter (prim : Primitives) (start : Store) (ops : List (PolicyOp × Nat))
    (k : Nat) : Store :=
  Runs.stateAt (fun s op => (onStore prim s op.1).1) start ops k

def policyAfter (prim : Primitives) (network : String) (ops : List (PolicyOp × Nat)) (k : Nat) :
    PolicyState :=
  Runs.stateAt (fun s op => (onPolicy prim s op.1 op.2).1) (PolicyState.new network) ops k

/-! ## Canonical peer lists -/

theorem mem_canonicalPeers {peers : List String} {p : String} :
    p ∈ canonicalPeers peers ↔ p ∈ peers := by
  rw [canonicalPeers, ExtTreeSet.mem_toList, mem_collectPeers]

@[simp] theorem collectPeers_canonicalPeers (peers : List String) :
    collectPeers (canonicalPeers peers) = collectPeers peers :=
  collectPeers_toList _

def ReadsPeersAsSet (edit : PeerSet → List String → PeerSet × Bool) : Prop :=
  ∀ members peers, edit members (canonicalPeers peers) = edit members peers

/-- The reported flag follows from the resulting set, so the sets decide. -/
theorem readsPeersAsSet_of_fst {edit : PeerSet → List String → PeerSet × Bool}
    (hreport : ReportsChange edit)
    (h : ∀ members peers, (edit members (canonicalPeers peers)).1 = (edit members peers).1) :
    ReadsPeersAsSet edit := by
  intro members peers
  apply Prod.ext (h members peers)
  rw [Bool.eq_iff_iff, hreport, hreport, h members peers]

theorem insertPeers_readsPeersAsSet : ReadsPeersAsSet insertPeers := by
  apply readsPeersAsSet_of_fst insertPeers_reportsChange
  intro members peers
  apply ExtTreeSet.ext_mem
  intro p
  rw [mem_insertPeers, mem_insertPeers, mem_canonicalPeers]

theorem removePeers_readsPeersAsSet : ReadsPeersAsSet removePeers := by
  apply readsPeersAsSet_of_fst removePeers_reportsChange
  intro members peers
  apply ExtTreeSet.ext_mem
  intro p
  rw [mem_removePeers, mem_removePeers, mem_canonicalPeers]

theorem replacePeers_readsPeersAsSet : ReadsPeersAsSet replacePeers := by
  apply readsPeersAsSet_of_fst replacePeers_reportsChange
  intro members peers
  rw [replacePeers_fst, replacePeers_fst, collectPeers_canonicalPeers]

theorem validatePeersWith_error {ε : Type} {prim : Primitives} {invalid : String → ε}
    {peers : List String} (h : ¬∀ p ∈ peers, isValidPeerId prim p = true) :
    ∃ p, validatePeersWith prim invalid peers = .error (invalid p) := by
  induction peers with
  | nil => simp at h
  | cons p peers ih =>
      by_cases hp : isValidPeerId prim p = true
      · have htail : ¬∀ q ∈ peers, isValidPeerId prim q = true := by
          intro hall
          exact h (List.forall_mem_cons.mpr ⟨hp, hall⟩)
        obtain ⟨q, hq⟩ := ih htail
        exact ⟨q, by simpa [validatePeersWith, hp] using hq⟩
      · exact ⟨p, by simp [validatePeersWith, hp]⟩

/-- Both planes accept the peers, or both refuse, possibly naming different ones. -/
theorem validatePeers_agree (prim : Primitives) (peers : List String) :
    NexusAuth.validatePeers prim peers = .ok () ∧
        Raft.validatePeers prim (canonicalPeers peers) = .ok () ∨
      ∃ p message, NexusAuth.validatePeers prim peers = .error (.invalidPeer p) ∧
        Raft.validatePeers prim (canonicalPeers peers) = .error ("invalid_peer", message) := by
  have hcanonical : (∀ p ∈ canonicalPeers peers, isValidPeerId prim p = true) ↔
      ∀ p ∈ peers, isValidPeerId prim p = true := by
    simp only [mem_canonicalPeers]
  by_cases hall : ∀ p ∈ peers, isValidPeerId prim p = true
  · exact Or.inl ⟨validatePeersWith_eq_ok_iff.mpr hall,
      validatePeersWith_eq_ok_iff.mpr (hcanonical.mpr hall)⟩
  · obtain ⟨p, hp⟩ := validatePeersWith_error hall
    obtain ⟨q, hq⟩ := validatePeersWith_error (hcanonical.not.mpr hall)
    exact Or.inr ⟨p, _, hp, hq⟩

/-! ## The simulation -/

/-- The store and the policy state hold the same policy at the same version. -/
structure InStep (s : Store) (p : PolicyState) : Prop where
  services : s.services = p.services
  tombstones : s.tombstones = p.tombstones
  version : s.indexVersion = p.policyEpoch

def Alike (out : Store × Answer) (out' : PolicyState × Answer) : Prop :=
  InStep out.1 out'.1 ∧ out.2 = out'.2

variable {prim : Primitives} {s : Store} {p : PolicyState} {service : String}
  {peers : List String} {raftIndex : Nat}

theorem succ64_eq_saturatingSucc64 {n : Nat} (h : n < u64Max) : succ64 n = saturatingSucc64 n := by
  rw [succ64_of_lt h, saturatingSucc64_of_lt h]

/-- What `policy_command_for` makes of an operation with a named service. -/
def PolicyOp.canonical : PolicyOp → PolicyCommand
  | .createService service peers => .createService service (canonicalPeers peers)
  | .deleteService service => .deleteService service
  | .addMembers service peers => .addMembers service (canonicalPeers peers)
  | .removeMembers service peers => .removeMembers service (canonicalPeers peers)
  | .setMembers service peers => .setMembers service (canonicalPeers peers)
  | .renewIndex expiresAt => .renewIndex expiresAt

theorem requireServiceV2_request {op : String} (hname : service ≠ "") :
    requireServiceV2 (PolicyOp.request op service peers) = .ok service := by
  simp [requireServiceV2, PolicyOp.request, Results.ensure, hname, bind, Except.bind, pure,
    Except.pure]

theorem command_eq_canonical {op : PolicyOp} (h : op.service ≠ some "") :
    op.command = .ok op.canonical := by
  cases op with
  | renewIndex expiresAt => rfl
  | _ =>
      simp only [PolicyOp.command, policyCommandFor,
        requireServiceV2_request fun hname => h (congrArg some hname)]
      rfl

theorem onPolicy_eq {op : PolicyOp} (h : op.service ≠ some "") :
    onPolicy prim p op raftIndex =
      match p.applyInner prim op.canonical with
      | .ok (q, _, version, _) => (q, .ok (version.getD q.policyEpoch))
      | .error (code, _) => (p, .error code) := by
  have happly : p.applyCommandAt prim op.canonical raftIndex =
      match p.applyInner prim op.canonical with
      | .ok (q, service, version, changed) =>
          (q, .applied service version q.policyEpoch changed)
      | .error (code, message) => (p, .rejected code message p.policyEpoch) := by
    cases op <;> rfl
  rw [onPolicy, command_eq_canonical h]
  simp only [happly]
  rcases p.applyInner prim op.canonical with ⟨code, message⟩ | ⟨q, service, version, changed⟩
  · rfl
  · cases version <;> rfl

inductive Matches (s : Store) :
    Store × Except StoreError Nat → Except Refusal (PolicyState × Report) → Prop
  | done {t : Store} {q : PolicyState} {v : Nat} {subject : Option String} {version : Option Nat}
      {changed : Bool} (h : InStep t q) (hversion : version.getD q.policyEpoch = v) :
      Matches s (t, .ok v) (.ok (q, subject, version, changed))
  | refused {e : StoreError} {code message : String} (h : e.code = code) :
      Matches s (s, .error e) (.error (code, message))

theorem alike_of_matches {op : PolicyOp} {out : Store × Except StoreError Nat} (h : InStep s p)
    (hnamed : op.service ≠ some "")
    (hcall : s.exec prim Store.saves op.call = (out.1, out.2.map .version))
    (hmatch : Matches s out (p.applyInner prim op.canonical)) :
    Alike (onStore prim s op) (onPolicy prim p op raftIndex) := by
  rw [onPolicy_eq hnamed, onStore, hcall]
  generalize p.applyInner prim op.canonical = applied at hmatch
  cases hmatch with
  | done hstep hversion =>
      refine ⟨hstep, ?_⟩
      simp [Except.map, answerOfReply, hversion]
  | refused hcode =>
      refine ⟨h, ?_⟩
      simp [Except.map, hcode]

/-! ## Each operation -/

theorem matches_createService (h : InStep s p) (hb : s.Bounded) :
    Matches s (s.createService prim Store.saves service peers)
      (p.applyInner prim (.createService service (canonicalPeers peers))) := by
  unfold Store.createService PolicyState.applyInner PolicyState.createService
  by_cases hname : isValidServiceName service = true
  · rcases validatePeers_agree prim peers with ⟨hstore, hraft⟩ | ⟨q, message, hstore, hraft⟩
    · rw [← h.services]
      by_cases hlive : s.services.contains service = true
      · simp only [hname, hstore, hraft, hlive, Bool.not_true, Bool.false_eq_true,
          if_false, if_true]
        exact .refused rfl
      · simp only [hname, hstore, hraft, hlive, Bool.not_true, Bool.false_eq_true, if_false,
          Store.saveThen_of_ok (show Store.saves _ = none from rfl), collectPeers_canonicalPeers]
        refine .done ⟨?_, h.tombstones, ?_⟩ rfl
        · rfl
        · exact (succ64_eq_saturatingSucc64 hb.indexVersion).trans (by rw [h.version])
    · simp only [hname, hstore, hraft, Bool.not_true, Bool.false_eq_true, if_false]
      exact .refused rfl
  · simp only [hname, Bool.not_false, if_true]
    exact .refused rfl

theorem matches_deleteService (h : InStep s p) (hb : s.Bounded) :
    Matches s (s.deleteService Store.saves service)
      (p.applyInner prim (.deleteService service)) := by
  cases hlive : s.services[service]? with
  | none =>
      simp only [Store.deleteService, PolicyState.applyInner, PolicyState.deleteService,
        ← h.services, hlive]
      exact .refused rfl
  | some removed =>
      have hversion := succ64_eq_saturatingSucc64 (hb.services _ _ hlive)
      simp only [Store.deleteService, PolicyState.applyInner, PolicyState.deleteService,
        ← h.services, hlive, Store.saveThen_of_ok (show Store.saves _ = none from rfl)]
      refine .done ⟨rfl, ?_, ?_⟩ hversion.symm
      · simp only [h.tombstones, hversion]
      · exact (succ64_eq_saturatingSucc64 hb.indexVersion).trans (by rw [h.version])

theorem matches_editMembers {edit : PeerSet → List String → PeerSet × Bool} {cmd : PolicyCommand}
    (h : InStep s p) (hb : s.Bounded) (hedit : ReadsPeersAsSet edit)
    (hcmd : p.applyInner prim cmd = do
      let (t, version, changed) ← p.editMembers prim edit service (canonicalPeers peers)
      return (t, some service, some version, changed)) :
    Matches s (s.editMembers prim Store.saves edit service peers) (p.applyInner prim cmd) := by
  rw [hcmd]
  unfold Store.editMembers PolicyState.editMembers
  rcases validatePeers_agree prim peers with ⟨hstore, hraft⟩ | ⟨q, message, hstore, hraft⟩
  · simp only [hstore, hraft, ← h.services]
    cases hlive : s.services[service]? with
    | none => exact .refused rfl
    | some state =>
        have hversion := succ64_eq_saturatingSucc64 (hb.services _ _ hlive)
        simp only [hedit state.members peers, Store.finishChange, PolicyState.finishChange,
          ExtTreeMap.getElem?_insert_self]
        cases (edit state.members peers).2 with
        | false => exact .done ⟨rfl, h.tombstones, h.version⟩ rfl
        | true =>
            simp only [Bool.not_true, Bool.false_eq_true, if_false,
              Store.save_of_ok (show Store.saves _ = none from rfl)]
            refine .done ⟨?_, h.tombstones, ?_⟩ hversion.symm
            · simp only [hversion]
            · exact (succ64_eq_saturatingSucc64 hb.indexVersion).trans (by rw [h.version])
  · simp only [hstore, hraft]
    exact .refused rfl

theorem matches_renewIndex {expiresAt : Nat} (h : InStep s p) (hb : s.Bounded) :
    Matches s ((s.bumpIndexVersion Store.saves).1, .ok (s.bumpIndexVersion Store.saves).2)
      (p.applyInner prim (.renewIndex expiresAt)) := by
  have hversion : succ64 s.indexVersion = saturatingSucc64 p.policyEpoch :=
    (succ64_eq_saturatingSucc64 hb.indexVersion).trans (by rw [h.version])
  exact .done ⟨h.services, h.tombstones, hversion⟩ hversion.symm

theorem alike_step {op : PolicyOp} (h : InStep s p) (hb : s.Bounded)
    (hnamed : op.service ≠ some "") :
    Alike (onStore prim s op) (onPolicy prim p op raftIndex) := by
  cases op with
  | createService service peers =>
      exact alike_of_matches h hnamed rfl (matches_createService h hb)
  | deleteService service =>
      exact alike_of_matches h hnamed rfl (matches_deleteService h hb)
  | addMembers service peers =>
      exact alike_of_matches h hnamed rfl
        (matches_editMembers h hb insertPeers_readsPeersAsSet rfl)
  | removeMembers service peers =>
      exact alike_of_matches h hnamed rfl
        (matches_editMembers h hb removePeers_readsPeersAsSet rfl)
  | setMembers service peers =>
      exact alike_of_matches h hnamed rfl
        (matches_editMembers h hb replacePeers_readsPeersAsSet rfl)
  | renewIndex expiresAt =>
      exact alike_of_matches h hnamed rfl (matches_renewIndex h hb)

/-! ## Whole runs -/

theorem inStep_start {network : String} {start : Store}
    (h : Store.loadOrCreate prim Store.saves .missing network ∅ = .ok start) :
    InStep start (PolicyState.new network) := by
  have hempty : (∅ : BTreeMap String (List String)).toList = [] := by rfl
  simp only [Store.loadOrCreate, hempty, Store.seedServices,
    Store.save_of_ok (show Store.saves _ = none from rfl), Except.ok.injEq] at h
  subst h
  exact ⟨rfl, rfl, rfl⟩

/-- From an empty start the legacy store and the Raft state machine go through the same
services, versions, members and tombstones, count their versions up together, and give
the same version or the same kind of error at every operation. -/
theorem control_planes_agree (prim : Primitives) (network : String) {start : Store}
    (hstart : Store.loadOrCreate prim Store.saves .missing network ∅ = .ok start)
    (ops : List (PolicyOp × Nat)) (hnamed : ∀ op ∈ ops, op.1.service ≠ some "")
    (hbounded : ∀ k < ops.length, (storeAfter prim start ops k).Bounded) :
    (∀ k,
      (storeAfter prim start ops k).services = (policyAfter prim network ops k).services ∧
      (storeAfter prim start ops k).tombstones = (policyAfter prim network ops k).tombstones ∧
      ((storeAfter prim start ops k).indexVersion : Int) - start.indexVersion =
        (policyAfter prim network ops k).policyEpoch - (PolicyState.new network).policyEpoch) ∧
    ∀ k (hk : k < ops.length),
      (onStore prim (storeAfter prim start ops k) ops[k].1).2 =
        (onPolicy prim (policyAfter prim network ops k) ops[k].1 ops[k].2).2 := by
  have hinit := inStep_start hstart
  have hrun : ∀ k, InStep (storeAfter prim start ops k) (policyAfter prim network ops k) := by
    apply Runs.lockstep hinit
    intro k hk hstep
    exact (alike_step hstep (hbounded k hk) (hnamed _ (List.getElem_mem hk))).1
  refine ⟨fun k => ⟨(hrun k).services, (hrun k).tombstones, ?_⟩, fun k hk => ?_⟩
  · rw [(hrun k).version, hinit.version]
  · exact (alike_step (hrun k) (hbounded k hk) (hnamed _ (List.getElem_mem hk))).2

/-- A service is created, changed twice with repeated and unordered peers, deleted and
renewed around. -/
def policyRun : List (PolicyOp × Nat) :=
  [(.createService "api" [peerB, peerA, peerB], 1), (.addMembers "api" [peerA, peerA], 2),
    (.removeMembers "api" [peerB, peerB], 3), (.renewIndex 60, 4),
    (.setMembers "api" ["nobody"], 5),
    (.deleteService "api", 6), (.createService "api" [], 7)]

theorem control_planes_agree_policyRun :
    (onStore samplePrimitives (storeAfter samplePrimitives Store.emptyStore policyRun 2)
        (.removeMembers "api" [peerB, peerB])).2 = .ok 2 ∧
      (onPolicy samplePrimitives (policyAfter samplePrimitives "myorg" policyRun 2)
        (.removeMembers "api" [peerB, peerB]) 3).2 = .ok 2 := by
  have hstart : Store.loadOrCreate samplePrimitives Store.saves .missing "myorg" ∅ =
      .ok Store.emptyStore := rfl
  have hagree := control_planes_agree samplePrimitives "myorg" hstart policyRun (by decide)
    (by decide +kernel)
  have hstore : (onStore samplePrimitives (storeAfter samplePrimitives Store.emptyStore policyRun 2)
      (.removeMembers "api" [peerB, peerB])).2 = .ok 2 := by decide +kernel
  exact ⟨hstore, (hagree.2 2 (by decide)).symm.trans hstore⟩

end NexusAuth.Service
