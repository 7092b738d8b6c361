import NexusAuth.Raft.Proofs.Effects

/-!
# The effect of every policy command

A command is refused, changes nothing, or changes one service, the index or one join token
and nothing else.  An administrator's request does to the policy what the command inside it
does, and besides that only writes the request table; a repeated request does nothing.
-/

namespace NexusAuth.Raft

open Std (ExtTreeMap)
open NexusAuth.Authority NexusAuth.Lib NexusAuth.Lib.OrderedMap NexusAuth.Lib.Results
  NexusAuth.Lib.Words

/-! ## Commands and results -/

def PolicyCommand.isAdmin : PolicyCommand → Bool
  | .admin _ _ _ _ _ => true
  | _ => false

def PolicyCommand.service : PolicyCommand → Option String
  | .createService service _ => some service
  | .deleteService service => some service
  | .addMembers service _ => some service
  | .removeMembers service _ => some service
  | .setMembers service _ => some service
  | _ => none

def PolicyCommand.tokenId : PolicyCommand → Option String
  | .issueJoinToken token => some token.jti
  | .consumeJoinToken jti _ _ _ => some jti
  | _ => none

/-- What became of a command that was carried out; nothing for the answer to a repeated
request. -/
def PolicyResult.outcome : PolicyResult → Option AdminOutcome
  | .applied service version _ changed => some (.applied service version changed)
  | .rejected code message _ => some (.rejected code message)
  | .admin _ _ _ false outcome => some outcome
  | .admin _ _ _ true _ => none

def PolicyResult.policyEpoch : PolicyResult → Nat
  | .applied _ _ policyEpoch _ => policyEpoch
  | .rejected _ _ policyEpoch => policyEpoch
  | .admin _ policyEpoch _ _ _ => policyEpoch

inductive MemberEdit
  | add
  | remove
  | set
deriving DecidableEq

namespace MemberEdit

def command : MemberEdit → String → List String → PolicyCommand
  | .add => .addMembers
  | .remove => .removeMembers
  | .set => .setMembers

def loop : MemberEdit → PeerSet → List String → PeerSet × Bool
  | .add => insertPeers
  | .remove => removePeers
  | .set => replacePeers

def Leaves (members : PeerSet) (peers : List String) (p : String) : MemberEdit → Prop
  | .add => p ∈ members ∨ p ∈ peers
  | .remove => p ∈ members ∧ p ∉ peers
  | .set => p ∈ peers

theorem loop_reportsChange (edit : MemberEdit) : ReportsChange edit.loop := by
  cases edit with
  | add => exact insertPeers_reportsChange
  | remove => exact removePeers_reportsChange
  | set => exact replacePeers_reportsChange

theorem mem_loop (edit : MemberEdit) {members : PeerSet} {peers : List String} {p : String} :
    p ∈ (edit.loop members peers).1 ↔ edit.Leaves members peers p := by
  cases edit with
  | add => exact mem_insertPeers
  | remove => exact mem_removePeers
  | set =>
      rw [loop, replacePeers_fst]
      exact mem_collectPeers

theorem applyInner_command (prim : Primitives) (s : PolicyState) (edit : MemberEdit)
    (service : String) (peers : List String) :
    s.applyInner prim (edit.command service peers) = (do
      let (t, version, changed) ← s.editMembers prim edit.loop service peers
      return (t, some service, some version, changed)) := by
  cases edit <;> rfl

end MemberEdit

namespace PolicyState

variable {prim : Primitives} {s t u : PolicyState} {cmd : PolicyCommand}

/-! ## The command itself -/

/-- `t` differs from `s` at most in what it says about `service` and in the policy epoch. -/
structure OnlyService (service : String) (s t : PolicyState) : Prop where
  services : ∀ other, other ≠ service → t.services[other]? = s.services[other]?
  tombstones : ∀ other, other ≠ service → t.tombstones[other]? = s.tombstones[other]?
  joinTokens : t.joinTokens = s.joinTokens
  indexExpiresAt : t.indexExpiresAt = s.indexExpiresAt
  network : t.network = s.network

structure OnlyToken (jti : String) (s t : PolicyState) : Prop where
  joinTokens : ∀ other, other ≠ jti → t.joinTokens[other]? = s.joinTokens[other]?
  rest : t = { s with joinTokens := t.joinTokens }

def versionOf (s : PolicyState) (service : String) : Option Nat :=
  match s.services[service]? with
  | some state => some state.version
  | none => s.tombstones[service]?

theorem unchanged_of_effect {service : Option String} {version : Option Nat}
    (h : Effect prim s cmd t (service, version, false)) : t = s := by
  cases h
  rfl

theorem service_of_editedService {service : String} (h : cmd.editedService = some service) :
    cmd.service = some service := by
  cases cmd <;> first | exact h | simp [PolicyCommand.editedService] at h

theorem onlyService_of_effect {service : String} {name : Option String} {version : Option Nat}
    (hcmd : cmd.service = some service) (h : Effect prim s cmd t (name, version, true)) :
    name = some service ∧ OnlyService service s t ∧ version = t.versionOf service := by
  cases h with
  | created hname hpeers hfresh =>
      obtain rfl := Option.some.inj hcmd
      refine ⟨rfl, ⟨fun other hne => ?_, fun _ _ => rfl, rfl, rfl, rfl⟩, ?_⟩
      · simp [ExtTreeMap.getElem?_insert, Ne.symm hne]
      · simp [versionOf]
  | deleted hlive =>
      obtain rfl := Option.some.inj hcmd
      refine ⟨rfl, ⟨fun other hne => ?_, fun other hne => ?_, rfl, rfl, rfl⟩, ?_⟩
      · simp [ExtTreeMap.getElem?_erase, Ne.symm hne]
      · simp [ExtTreeMap.getElem?_insert, Ne.symm hne]
      · simp [versionOf]
  | edited hedited hlive hne =>
      obtain rfl := Option.some.inj ((service_of_editedService hedited).symm.trans hcmd)
      refine ⟨rfl, ⟨fun other hne => ?_, fun _ _ => rfl, rfl, rfl, rfl⟩, ?_⟩
      · simp [ExtTreeMap.getElem?_insert, Ne.symm hne]
      · simp [versionOf]
  | renewed => simp [PolicyCommand.service] at hcmd
  | issued huses hfresh => simp [PolicyCommand.service] at hcmd
  | consumed hrecord huses hpeer hexpires hused => simp [PolicyCommand.service] at hcmd

theorem onlyToken_of_effect {jti : String} {report : Report} (hcmd : cmd.tokenId = some jti)
    (h : Effect prim s cmd t report) : OnlyToken jti s t := by
  cases h with
  | issued huses hfresh =>
      obtain rfl := Option.some.inj hcmd
      exact ⟨fun other hne => by simp [ExtTreeMap.getElem?_insert, Ne.symm hne], rfl⟩
  | consumed hrecord huses hpeer hexpires hused =>
      obtain rfl := Option.some.inj hcmd
      exact ⟨fun other hne => by simp [ExtTreeMap.getElem?_insert, Ne.symm hne], rfl⟩
  | kept hedited hlive =>
      cases cmd <;> simp [PolicyCommand.tokenId, PolicyCommand.editedService] at *
  | edited hedited hlive hne =>
      cases cmd <;> simp [PolicyCommand.tokenId, PolicyCommand.editedService] at *
  | created hname hpeers hfresh => simp [PolicyCommand.tokenId] at hcmd
  | deleted hlive => simp [PolicyCommand.tokenId] at hcmd
  | renewed => simp [PolicyCommand.tokenId] at hcmd

theorem isOk_editMembers {edit : PeerSet → List String → PeerSet × Bool} {service : String}
    {peers : List String} :
    (∃ out, s.editMembers prim edit service peers = .ok out) ↔
      (∀ p ∈ peers, isValidPeerId prim p = true) ∧ ∃ state, s.services[service]? = some state := by
  constructor
  · rintro ⟨out, hout⟩
    unfold editMembers at hout
    split at hout
    · simp at hout
    · rename_i hpeers
      split at hout
      · simp at hout
      · rename_i state hlive
        exact ⟨validatePeers_eq_ok hpeers, state, hlive⟩
  · rintro ⟨hpeers, state, hlive⟩
    have hok : validatePeers prim peers = .ok () := validatePeersWith_eq_ok_iff.mpr hpeers
    exact ⟨_, by rw [editMembers, hok, hlive]⟩

structure Edits (prim : Primitives) (edit : MemberEdit) (service : String) (peers : List String)
    (s t : PolicyState) (outcome : AdminOutcome) : Prop where
  taken_iff : (∃ name version changed, outcome = .applied name version changed) ↔
    (∀ p ∈ peers, isValidPeerId prim p = true) ∧ ∃ state, s.services[service]? = some state
  members : ∀ name version changed, outcome = .applied name version changed →
    ∃ old new, s.services[service]? = some old ∧ t.services[service]? = some new ∧
      (∀ p, p ∈ new.members ↔ edit.Leaves old.members peers p) ∧
      (changed = true ↔ new.members ≠ old.members)

def outcomeOf : Except Refusal (PolicyState × Report) → AdminOutcome
  | .ok (_, service, version, changed) => .applied service version changed
  | .error (code, message) => .rejected code message

theorem edits_of_applyInner {edit : MemberEdit} {service : String} {peers : List String}
    {result : Except Refusal (PolicyState × Report)}
    (h : s.applyInner prim (edit.command service peers) = result)
    (ht : ∀ w report, result = .ok (w, report) → t = w) :
    Edits prim edit service peers s t (outcomeOf result) := by
  rw [edit.applyInner_command] at h
  have hisOk : (∃ out, s.editMembers prim edit.loop service peers = .ok out) ↔
      (∀ p ∈ peers, isValidPeerId prim p = true) ∧
        ∃ state, s.services[service]? = some state := isOk_editMembers
  cases hout : s.editMembers prim edit.loop service peers with
  | error refusal =>
      have hnone : ¬∃ out, s.editMembers prim edit.loop service peers = .ok out := by
        simp [hout]
      rw [hout] at h
      obtain rfl : Except.error refusal = result := h
      exact
        { taken_iff := by
            rw [← hisOk]
            simp [outcomeOf, hnone]
          members := by simp [outcomeOf] }
  | ok out =>
      obtain ⟨w, version, changed⟩ := out
      rw [hout] at h
      obtain rfl : Except.ok (w, some service, some version, changed) = result := h
      obtain rfl := ht _ _ rfl
      refine ⟨?_, ?_⟩
      · rw [← hisOk]
        simp [outcomeOf, hout]
      · rintro name version' changed' heq
        obtain ⟨rfl, rfl, rfl⟩ : some service = name ∧ some version = version' ∧
            changed = changed' := by simpa [outcomeOf] using heq
        obtain ⟨-, old, hlive, ⟨rfl, -, rfl, hsame⟩ | ⟨rfl, -, rfl, hne⟩⟩ :=
          editMembers_inv edit.loop_reportsChange hout
        · refine ⟨old, old, hlive, hlive, fun p => ?_, by simp⟩
          rw [← edit.mem_loop, hsame]
        · exact ⟨old, _, hlive, ExtTreeMap.getElem?_insert_self, fun p => edit.mem_loop,
            by simpa using hne⟩

/-! ## A log entry -/

def stateOf (s : PolicyState) : Except Refusal (PolicyState × Report) → PolicyState
  | .ok (t, _) => t
  | .error _ => s

/-- How a log entry ends: a repeated request does nothing, and every other entry leaves the
state of its command, next to some request table if it is a request. -/
inductive Ends (prim : Primitives) (s : PolicyState) (cmd : PolicyCommand) :
    PolicyState → PolicyResult → Prop
  | repeated {result : PolicyResult} (hexec : s.executed cmd = none)
      (houtcome : result.outcome = none) : Ends prim s cmd s result
  | carriedOut {u : PolicyState} {result : PolicyResult}
      {inner : Except Refusal (PolicyState × Report)}
      (hexec : s.executed cmd = some cmd.inner) (hinner : s.applyInner prim cmd.inner = inner)
      (hstate : SamePolicy (stateOf s inner) u) (hbare : cmd.isAdmin = false → u = stateOf s inner)
      (houtcome : result.outcome = some (outcomeOf inner))
      (hepoch : result.policyEpoch = (stateOf s inner).policyEpoch) : Ends prim s cmd u result

theorem ends_applyAdmin {requestId kid requestHash : String} {requestTs : Nat}
    {command : PolicyCommand} {raftIndex : Nat} :
    let out := s.applyAdmin prim requestId requestHash requestTs command raftIndex
    Ends prim s (.admin requestId kid requestHash requestTs command) out.1 out.2 := by
  intro out
  cases hseen : s.dedup[requestId]? with
  | some record =>
      have hexec : s.executed (.admin requestId kid requestHash requestTs command) = none := by
        rw [executed, ExtTreeMap.contains_eq_isSome_getElem?, hseen]
        rfl
      simp only [out, applyAdmin, hseen]
      split
      · exact .repeated hexec rfl
      · exact .repeated hexec rfl
  | none =>
      have hexec : s.executed (.admin requestId kid requestHash requestTs command) =
          some command := by
        rw [executed, ExtTreeMap.contains_eq_isSome_getElem?, hseen]
        rfl
      cases hinner : s.applyInner prim command with
      | error refusal =>
          simp only [out, applyAdmin, hseen, hinner]
          exact .carriedOut hexec hinner ⟨_, rfl⟩ (by simp [PolicyCommand.isAdmin]) rfl rfl
      | ok result =>
          simp only [out, applyAdmin, hseen, hinner]
          exact .carriedOut hexec hinner ⟨_, rfl⟩ (by simp [PolicyCommand.isAdmin]) rfl rfl

theorem ends_applyCommandAt (cmd : PolicyCommand) (raftIndex : Nat) :
    let out := s.applyCommandAt prim cmd raftIndex
    Ends prim s cmd out.1 out.2 := by
  cases cmd with
  | admin requestId kid requestHash requestTs command => exact ends_applyAdmin
  | _ =>
      intro out
      simp only [out, applyCommandAt]
      split
      · rename_i hinner
        exact .carriedOut rfl hinner ⟨_, rfl⟩ (fun _ => rfl) rfl rfl
      · rename_i hinner
        exact .carriedOut rfl hinner ⟨_, rfl⟩ (fun _ => rfl) rfl rfl

theorem invariant_applyCommandAt {P : PolicyState → Prop} (raftIndex : Nat)
    (htable : ∀ t u, SamePolicy t u → P t → P u)
    (hinner : ∀ t report, s.applyInner prim cmd.inner = .ok (t, report) → P t) (hs : P s) :
    P (s.applyCommandAt prim cmd raftIndex).1 := by
  have hends : Ends prim s cmd (s.applyCommandAt prim cmd raftIndex).1
      (s.applyCommandAt prim cmd raftIndex).2 := ends_applyCommandAt cmd raftIndex
  generalize s.applyCommandAt prim cmd raftIndex = out at hends
  obtain ⟨u, result⟩ := out
  cases hends with
  | repeated hexec houtcome => exact hs
  | @carriedOut _ _ inner hexec hresult hstate hbare houtcome hepoch =>
      apply htable _ _ hstate
      cases inner with
      | error refusal => exact hs
      | ok out => exact hinner out.1 out.2 hresult

theorem dedup_stateOf {inner : Except Refusal (PolicyState × Report)}
    (h : s.applyInner prim cmd = inner) : (stateOf s inner).dedup = s.dedup := by
  cases inner with
  | error refusal => rfl
  | ok out => exact dedup_of_effect (effect_of_applyInner h)

/-- With the old request table put back, a state is the one its command has left. -/
theorem restored_eq_stateOf {inner : Except Refusal (PolicyState × Report)}
    (h : s.applyInner prim cmd = inner) (hstate : SamePolicy (stateOf s inner) u) :
    { u with dedup := s.dedup } = stateOf s inner := by
  obtain ⟨table, rfl⟩ := hstate
  rw [← dedup_stateOf h]

/-- The effect of every log entry.  Outside the request table, which only a request writes
that is seen for the first time:

* a refused command and one that reports no change leave everything as it was;
* a command about a service that reports a change touches no other service and no other
  tombstone, no token and not the expiry of the index, and reports the version and the
  epoch of the new state;
* `AddMembers`, `RemoveMembers` and `SetMembers` leave the union, the difference and the
  given set, and report a change exactly if that is not the old set;
* a command about a token touches the record of that token only. -/
theorem policy_command_effects (prim : Primitives) (s : PolicyState) (cmd : PolicyCommand)
    (raftIndex : Nat) :
    let out := s.applyCommandAt prim cmd raftIndex
    let t := { out.1 with dedup := s.dedup }
    (cmd.isAdmin = false → out.1 = t) ∧
      (s.executed cmd = none → out.1 = s) ∧
      (s.executed cmd ≠ none → ∃ outcome, out.2.outcome = some outcome) ∧
      (∀ code message, out.2.outcome = some (.rejected code message) → t = s) ∧
      (∀ service version, out.2.outcome = some (.applied service version false) → t = s) ∧
      (∀ service name version, cmd.inner.service = some service →
        out.2.outcome = some (.applied name version true) →
          name = some service ∧ OnlyService service s t ∧ version = t.versionOf service ∧
            out.2.policyEpoch = t.policyEpoch) ∧
      (∀ edit service peers outcome, cmd.inner = MemberEdit.command edit service peers →
        out.2.outcome = some outcome → Edits prim edit service peers s t outcome) ∧
      ∀ jti, cmd.inner.tokenId = some jti → OnlyToken jti s t := by
  intro out t
  have hends : Ends prim s cmd out.1 out.2 := ends_applyCommandAt cmd raftIndex
  clear_value out
  obtain ⟨u, result⟩ := out
  cases hends with
  | repeated hexec houtcome =>
      simp only at houtcome
      simp only [t, houtcome]
      exact ⟨fun _ => trivial, fun _ => trivial,
        fun h => absurd hexec h, by simp, by simp, by simp, by simp,
        fun jti _ => ⟨fun _ _ => rfl, rfl⟩⟩
  | @carriedOut _ _ inner hexec hinner hstate hbare houtcome hepoch =>
      have ht : t = stateOf s inner := restored_eq_stateOf hinner hstate
      rw [ht]
      simp only at houtcome hbare hepoch
      simp only [houtcome, Option.some.injEq]
      refine ⟨hbare, fun h => ?_, fun _ => ⟨_, rfl⟩, ?_, ?_, ?_, ?_, ?_⟩
      · simp [hexec] at h
      · intro code message h
        cases inner with
        | error refusal => rfl
        | ok out => simp [outcomeOf] at h
      · intro service version h
        cases inner with
        | error refusal => rfl
        | ok out =>
            obtain ⟨w, name, version', changed⟩ := out
            obtain ⟨rfl, rfl, rfl⟩ : name = service ∧ version' = version ∧ changed = false := by
              simpa [outcomeOf] using h
            exact unchanged_of_effect (effect_of_applyInner hinner)
      · intro service name version hservice h
        cases inner with
        | error refusal => simp [outcomeOf] at h
        | ok out =>
            obtain ⟨w, name', version', changed⟩ := out
            obtain ⟨rfl, rfl, rfl⟩ : name' = name ∧ version' = version ∧ changed = true := by
              simpa [outcomeOf] using h
            obtain ⟨hname, honly, hversion⟩ :=
              onlyService_of_effect hservice (effect_of_applyInner hinner)
            exact ⟨hname, honly, hversion, hepoch⟩
      · rintro edit service peers outcome hcmd rfl
        rw [hcmd] at hinner
        apply edits_of_applyInner hinner
        rintro w report rfl
        rfl
      · intro jti htoken
        cases inner with
        | error refusal => exact ⟨fun _ _ => rfl, rfl⟩
        | ok out => exact onlyToken_of_effect htoken (effect_of_applyInner hinner)

end PolicyState

end NexusAuth.Raft
