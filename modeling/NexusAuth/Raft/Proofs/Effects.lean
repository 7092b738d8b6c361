import NexusAuth.Lib.Results
import NexusAuth.Lib.Runs
import NexusAuth.Raft.StateMachine

/-!
# What a command can do to the policy state

`Effect` lists what a command that is not refused does, with its report.
`applyCommandAt_outcome` lifts this to a log entry: an entry either takes effect or
leaves everything but the request table as it was.  Every invariant of a run is a
case analysis over `Effect`.
-/

namespace NexusAuth.Raft

open Std (ExtTreeMap)
open NexusAuth.Authority NexusAuth.Lib NexusAuth.Lib.OrderedMap NexusAuth.Lib.Results
  NexusAuth.Lib.Words

/-- The command inside an administrator's request, or the command itself. -/
def PolicyCommand.inner : PolicyCommand → PolicyCommand
  | .admin _ _ _ _ command => command
  | command => command

def PolicyCommand.editedService : PolicyCommand → Option String
  | .addMembers service _ => some service
  | .removeMembers service _ => some service
  | .setMembers service _ => some service
  | _ => none

/-- What was reported for an entry that took effect; nothing for a refusal or for
the answer to a repeated request. -/
def PolicyResult.report : PolicyResult → Option Report
  | .applied service version _ changed => some (service, version, changed)
  | .admin _ _ _ false (.applied service version changed) => some (service, version, changed)
  | _ => none

theorem validatePeers_eq_ok {prim : Primitives} {peers : List String}
    (h : validatePeers prim peers = .ok ()) : ∀ p ∈ peers, isValidPeerId prim p = true :=
  validatePeersWith_eq_ok_iff.mp h

namespace PolicyState

variable {prim : Primitives} {s t : PolicyState}

inductive Effect (prim : Primitives) (s : PolicyState) :
    PolicyCommand → PolicyState → Report → Prop
  | created {service : String} {members : List String}
      (hname : isValidServiceName service = true)
      (hpeers : ∀ p ∈ members, isValidPeerId prim p = true)
      (hfresh : s.services[service]? = none) :
      Effect prim s (.createService service members)
        { s with
          services := s.services.insert service ⟨1, collectPeers members⟩
          policyEpoch := saturatingSucc64 s.policyEpoch }
        (some service, some 1, true)
  | deleted {service : String} {removed : ServiceState}
      (hlive : s.services[service]? = some removed) :
      Effect prim s (.deleteService service)
        { s with
          services := s.services.erase service
          tombstones := s.tombstones.insert service (saturatingSucc64 removed.version)
          policyEpoch := saturatingSucc64 s.policyEpoch }
        (some service, some (saturatingSucc64 removed.version), true)
  | kept {cmd : PolicyCommand} {service : String} {state : ServiceState}
      (hcmd : cmd.editedService = some service) (hlive : s.services[service]? = some state) :
      Effect prim s cmd s (some service, some state.version, false)
  | edited {cmd : PolicyCommand} {service : String} {state : ServiceState} {members : PeerSet}
      (hcmd : cmd.editedService = some service) (hlive : s.services[service]? = some state)
      (hne : members ≠ state.members) :
      Effect prim s cmd
        { s with
          services := s.services.insert service ⟨saturatingSucc64 state.version, members⟩
          policyEpoch := saturatingSucc64 s.policyEpoch }
        (some service, some (saturatingSucc64 state.version), true)
  | renewed {expiresAt : Nat} :
      Effect prim s (.renewIndex expiresAt)
        { s with
          policyEpoch := saturatingSucc64 s.policyEpoch
          indexExpiresAt := expiresAt }
        (none, none, true)
  | issued {token : JoinToken} (huses : token.maxUses ≠ 0)
      (hfresh : s.joinTokens[token.jti]? = none) :
      Effect prim s (.issueJoinToken token)
        { s with joinTokens := s.joinTokens.insert token.jti ⟨token, 0⟩ }
        (some token.jti, some token.expiresAt, true)
  | consumed {jti : String} {nodeId : NodeId} {peerId : String} {usedAt : Nat}
      {record : StoredJoinToken}
      (hrecord : s.joinTokens[jti]? = some record)
      (huses : record.uses < record.token.maxUses)
      (hpeer : record.token.bindPeerId ≠ "" → record.token.bindPeerId = peerId)
      (hexpires : record.token.expiresAt ≠ 0) (hused : usedAt ≤ record.token.expiresAt) :
      Effect prim s (.consumeJoinToken jti nodeId peerId usedAt)
        { s with
          joinTokens := s.joinTokens.insert jti
            { record with uses := saturatingSucc32 record.uses } }
        (some jti, none, true)

theorem dedup_of_effect {cmd : PolicyCommand} {report : Report}
    (h : Effect prim s cmd t report) : t.dedup = s.dedup := by
  cases h <;> rfl

/-! ## Inverting a command -/

theorem createService_eq_ok {service : String} {members : List String} {version : Nat}
    (h : s.createService prim service members = .ok (t, version)) :
    Effect prim s (.createService service members) t (some service, some version, true) := by
  unfold createService at h
  split at h
  · simp at h
  · rename_i hname
    split at h
    · simp at h
    · rename_i hpeers
      split at h
      · simp at h
      · rename_i hfresh
        cases h
        exact .created (by simpa using hname) (validatePeers_eq_ok hpeers)
          (getElem?_eq_none_of_not_contains hfresh)

theorem deleteService_eq_ok {service : String} {version : Nat}
    (h : s.deleteService service = .ok (t, version)) :
    Effect prim s (.deleteService service) t (some service, some version, true) := by
  unfold deleteService at h
  split at h
  · simp at h
  · rename_i removed hlive
    cases h
    exact .deleted hlive

/-- An edit that is not refused writes exactly the edited set, if that is a new one. -/
theorem editMembers_inv {edit : PeerSet → List String → PeerSet × Bool} {service : String}
    {peers : List String} {version : Nat} {changed : Bool} (hreport : ReportsChange edit)
    (h : s.editMembers prim edit service peers = .ok (t, version, changed)) :
    (∀ p ∈ peers, isValidPeerId prim p = true) ∧
      ∃ state, s.services[service]? = some state ∧
        ((changed = false ∧ version = state.version ∧ t = s ∧
            (edit state.members peers).1 = state.members) ∨
          (changed = true ∧ version = saturatingSucc64 state.version ∧
            t = { s with
              services := s.services.insert service
                ⟨saturatingSucc64 state.version, (edit state.members peers).1⟩
              policyEpoch := saturatingSucc64 s.policyEpoch } ∧
            (edit state.members peers).1 ≠ state.members)) := by
  unfold editMembers at h
  split at h
  · simp at h
  · rename_i hpeers
    refine ⟨validatePeers_eq_ok hpeers, ?_⟩
    split at h
    · simp at h
    · rename_i state hlive
      refine ⟨state, hlive, ?_⟩
      have hiff := hreport state.members peers
      simp only [finishChange, ExtTreeMap.getElem?_insert_self] at h
      cases hflag : (edit state.members peers).2 with
      | false =>
          have hsame : (edit state.members peers).1 = state.members := by
            by_contra hne
            simpa [hflag] using hiff.mpr hne
          simp only [hflag, hsame, insert_eq_self hlive] at h
          cases h
          exact .inl ⟨rfl, rfl, rfl, hsame⟩
      | true =>
          simp only [hflag, insert_insert] at h
          cases h
          exact .inr ⟨rfl, rfl, rfl, hiff.mp hflag⟩

theorem editMembers_eq_ok {edit : PeerSet → List String → PeerSet × Bool} {cmd : PolicyCommand}
    {service : String} {peers : List String} {version : Nat} {changed : Bool}
    (hreport : ReportsChange edit) (hcmd : cmd.editedService = some service)
    (h : s.editMembers prim edit service peers = .ok (t, version, changed)) :
    Effect prim s cmd t (some service, some version, changed) := by
  obtain ⟨-, state, hlive, ⟨rfl, rfl, rfl, -⟩ | ⟨rfl, rfl, rfl, hne⟩⟩ := editMembers_inv hreport h
  · exact .kept hcmd hlive
  · exact .edited hcmd hlive hne

theorem issueJoinToken_eq_ok {token : JoinToken} (h : s.issueJoinToken token = .ok t) :
    Effect prim s (.issueJoinToken token) t (some token.jti, some token.expiresAt, true) := by
  unfold issueJoinToken at h
  split at h
  · simp at h
  split at h
  · simp at h
  split at h
  · simp at h
  rename_i huses
  split at h
  · simp at h
  split at h
  · simp at h
  rename_i hfresh
  cases h
  exact .issued huses (getElem?_eq_none_of_not_contains hfresh)

theorem consumeJoinToken_eq_ok {jti peerId : String} {nodeId : NodeId} {usedAt : Nat}
    (h : s.consumeJoinToken jti peerId usedAt = .ok t) :
    Effect prim s (.consumeJoinToken jti nodeId peerId usedAt) t (some jti, none, true) := by
  unfold consumeJoinToken at h
  split at h
  · simp at h
  · rename_i record hrecord
    split at h
    · simp at h
    · rename_i huses
      split at h
      · simp at h
      · rename_i hpeer
        split at h
        · simp at h
        · rename_i hexpired
          cases h
          simp only [not_or, not_lt] at hexpired
          refine .consumed hrecord (by simpa using huses) ?_ hexpired.1 hexpired.2
          intro hbound
          by_contra hne
          simp [hbound, hne] at hpeer

theorem effect_of_applyInner {cmd : PolicyCommand} {report : Report}
    (h : s.applyInner prim cmd = .ok (t, report)) : Effect prim s cmd t report := by
  cases cmd with
  | createService service members =>
      obtain ⟨⟨w, version⟩, hout, hret⟩ := bind_eq_ok.mp h
      cases hret
      exact createService_eq_ok hout
  | deleteService service =>
      obtain ⟨⟨w, version⟩, hout, hret⟩ := bind_eq_ok.mp h
      cases hret
      exact deleteService_eq_ok hout
  | addMembers service peers =>
      obtain ⟨⟨w, version, changed⟩, hout, hret⟩ := bind_eq_ok.mp h
      cases hret
      exact editMembers_eq_ok insertPeers_reportsChange rfl hout
  | removeMembers service peers =>
      obtain ⟨⟨w, version, changed⟩, hout, hret⟩ := bind_eq_ok.mp h
      cases hret
      exact editMembers_eq_ok removePeers_reportsChange rfl hout
  | setMembers service peers =>
      obtain ⟨⟨w, version, changed⟩, hout, hret⟩ := bind_eq_ok.mp h
      cases hret
      exact editMembers_eq_ok replacePeers_reportsChange rfl hout
  | admin requestId kid requestHash requestTs command => cases h
  | renewIndex expiresAt =>
      cases h
      exact .renewed
  | issueJoinToken token =>
      obtain ⟨w, hout, hret⟩ := bind_eq_ok.mp h
      cases hret
      exact issueJoinToken_eq_ok hout
  | consumeJoinToken jti nodeId peerId usedAt =>
      obtain ⟨w, hout, hret⟩ := bind_eq_ok.mp h
      cases hret
      exact consumeJoinToken_eq_ok hout

/-! ## Inverting a log entry -/

/-- The command an entry makes the machine carry out: none for a repeated request. -/
def executed (s : PolicyState) : PolicyCommand → Option PolicyCommand
  | .admin requestId _ _ _ command => if s.dedup.contains requestId then none else some command
  | command => some command

def SamePolicy (s t : PolicyState) : Prop := ∃ dedup, t = { s with dedup := dedup }

inductive Outcome (prim : Primitives) (s : PolicyState) (cmd : PolicyCommand) :
    PolicyState → Option Report → Prop
  | effect {t u : PolicyState} {report : Report}
      (hexec : s.executed cmd = some cmd.inner) (heffect : Effect prim s cmd.inner t report)
      (hsame : SamePolicy t u) : Outcome prim s cmd u (some report)
  | none {u : PolicyState} (hsame : SamePolicy s u) : Outcome prim s cmd u none

theorem applyAdmin_outcome {requestId kid requestHash : String} {requestTs : Nat}
    {command : PolicyCommand} {raftIndex : Nat} :
    let out := s.applyAdmin prim requestId requestHash requestTs command raftIndex
    Outcome prim s (.admin requestId kid requestHash requestTs command) out.1 out.2.report := by
  intro out
  cases hseen : s.dedup[requestId]? with
  | some record =>
      have hstate : out.1 = s := by
        simp only [out, applyAdmin, hseen]
        split <;> rfl
      have hreport : out.2.report = none := by
        simp only [out, applyAdmin, hseen]
        split <;> rfl
      rw [hstate, hreport]
      exact .none ⟨s.dedup, rfl⟩
  | none =>
      have hexec : s.executed (.admin requestId kid requestHash requestTs command) =
          some command := by
        rw [executed, ExtTreeMap.contains_eq_isSome_getElem?, hseen]
        rfl
      cases hinner : s.applyInner prim command with
      | error refusal =>
          simp only [out, applyAdmin, hseen, hinner]
          exact .none ⟨_, rfl⟩
      | ok result =>
          obtain ⟨t, service, version, changed⟩ := result
          simp only [out, applyAdmin, hseen, hinner]
          exact .effect hexec (effect_of_applyInner hinner) ⟨_, rfl⟩

theorem applyCommandAt_outcome (cmd : PolicyCommand) (raftIndex : Nat) :
    let out := s.applyCommandAt prim cmd raftIndex
    Outcome prim s cmd out.1 out.2.report := by
  cases cmd with
  | admin requestId kid requestHash requestTs command => exact applyAdmin_outcome
  | _ =>
      intro out
      simp only [out, applyCommandAt]
      split
      · rename_i t service version changed hinner
        exact .effect rfl (effect_of_applyInner hinner) ⟨t.dedup, rfl⟩
      · exact .none ⟨s.dedup, rfl⟩

/-! ## Runs -/

def after (prim : Primitives) (network : String) (log : List (PolicyCommand × Nat)) (k : Nat) :
    PolicyState :=
  Runs.stateAt (fun s entry => (s.applyCommandAt prim entry.1 entry.2).1) (new network) log k

def resultAt (prim : Primitives) (network : String) (log : List (PolicyCommand × Nat)) (k : Nat) :
    Option PolicyResult :=
  log[k]?.map fun entry => ((after prim network log k).applyCommandAt prim entry.1 entry.2).2

variable {network : String} {log : List (PolicyCommand × Nat)}

theorem after_succ {k : Nat} (hk : k < log.length) :
    after prim network log (k + 1) =
      ((after prim network log k).applyCommandAt prim log[k].1 log[k].2).1 :=
  Runs.stateAt_succ hk

theorem after_succ_of_length_le {k : Nat} (hk : log.length ≤ k) :
    after prim network log (k + 1) = after prim network log k := by
  unfold after
  rw [Runs.stateAt_eq_of_length_le hk, Runs.stateAt_eq_of_length_le (by omega)]

@[simp] theorem after_zero : after prim network log 0 = new network :=
  Runs.stateAt_zero

theorem invariant_after {P : PolicyState → Prop} (hnew : P (new network))
    (hstep : ∀ k, k < log.length → P (after prim network log k) →
      P (after prim network log (k + 1))) (k : Nat) : P (after prim network log k) := by
  apply Runs.invariant hnew
  intro k hk h
  have hnext := hstep k hk h
  rw [after_succ hk] at hnext
  exact hnext

theorem resultAt_of_lt {k : Nat} (hk : k < log.length) :
    resultAt prim network log k =
      some ((after prim network log k).applyCommandAt prim log[k].1 log[k].2).2 := by
  rw [resultAt, List.getElem?_eq_getElem hk, Option.map_some]

theorem outcome_after (prim : Primitives) (network : String) {k : Nat} (hk : k < log.length) :
    Outcome prim (after prim network log k) log[k].1 (after prim network log (k + 1))
      ((resultAt prim network log k).bind PolicyResult.report) := by
  rw [after_succ hk, resultAt_of_lt hk]
  exact applyCommandAt_outcome _ _

end PolicyState

end NexusAuth.Raft
