import NexusAuth.Raft.Proofs.Effects

/-!
# Service versions

Every name has a level: the version of the live service, or of its tombstone.  A
command assigns at most one version, to the one name it changes.  As long as no
deleted name is created again, that version is above the level of the name, so
levels only rise along a run and a level determines the entry it belongs to.

`create_service` starts every service at version 1, also over a tombstone.
`createService_reuses_versions` is a run in which that happens.
-/

namespace NexusAuth.Raft

open Std (ExtTreeMap)
open NexusAuth.Authority NexusAuth.Lib NexusAuth.Lib.OrderedMap NexusAuth.Lib.Words

def PolicyCommand.isServiceCommand : PolicyCommand → Bool
  | .createService _ _ => true
  | .deleteService _ => true
  | .addMembers _ _ => true
  | .removeMembers _ _ => true
  | .setMembers _ _ => true
  | _ => false

def PolicyCommand.assignment (cmd : PolicyCommand) : Report → Option (String × Nat)
  | (some service, some version, true) =>
      if cmd.isServiceCommand then some (service, version) else none
  | _ => none

namespace PolicyState

def assigned (prim : Primitives) (network : String) (log : List (PolicyCommand × Nat)) (k : Nat) :
    Option (String × Nat) := do
  let entry ← log[k]?
  let result ← resultAt prim network log k
  let report ← result.report
  entry.1.inner.assignment report

def VersionsBelow (s : PolicyState) : Prop :=
  ∀ (name : String) (state : ServiceState),
    s.services[name]? = some state → state.version < u64Max

instance (s : PolicyState) : Decidable s.VersionsBelow :=
  decidable_of_iff (∀ entry ∈ s.services.toList, entry.2.version < u64Max)
    (forall_mem_toList (Q := fun _ (state : ServiceState) => state.version < u64Max))

/-- The command is not a valid creation of a name that has a tombstone. -/
def RevivesNothing (prim : Primitives) (s : PolicyState) : Option PolicyCommand → Prop
  | some (.createService service members) =>
      isValidServiceName service = true → (∀ p ∈ members, isValidPeerId prim p = true) →
        s.services[service]? = none → s.tombstones[service]? = none
  | _ => True

instance (prim : Primitives) (s : PolicyState) :
    (cmd : Option PolicyCommand) → Decidable (s.RevivesNothing prim cmd)
  | some (.createService service members) =>
      inferInstanceAs (Decidable (isValidServiceName service = true →
        (∀ p ∈ members, isValidPeerId prim p = true) →
          s.services[service]? = none → s.tombstones[service]? = none))
  | none => .isTrue trivial
  | some (.deleteService _) => .isTrue trivial
  | some (.addMembers _ _) => .isTrue trivial
  | some (.removeMembers _ _) => .isTrue trivial
  | some (.setMembers _ _) => .isTrue trivial
  | some (.admin _ _ _ _ _) => .isTrue trivial
  | some (.renewIndex _) => .isTrue trivial
  | some (.issueJoinToken _) => .isTrue trivial
  | some (.consumeJoinToken _ _ _ _) => .isTrue trivial

def NoRevival (prim : Primitives) (s : PolicyState) (cmd : PolicyCommand) : Prop :=
  s.RevivesNothing prim (s.executed cmd)

instance (prim : Primitives) (s : PolicyState) (cmd : PolicyCommand) :
    Decidable (s.NoRevival prim cmd) :=
  inferInstanceAs (Decidable (s.RevivesNothing prim (s.executed cmd)))

def Disjoint (s : PolicyState) : Prop :=
  ∀ (name : String) (state : ServiceState),
    s.services[name]? = some state → s.tombstones[name]? = none

def view (s : PolicyState) (name : String) : Option ServiceState × Option Nat :=
  (s.services[name]?, s.tombstones[name]?)

def level (s : PolicyState) (name : String) : Nat :=
  max (((s.view name).1.map ServiceState.version).getD 0) ((s.view name).2.getD 0)

variable {prim : Primitives} {s t : PolicyState}

theorem view_eq_of_same (h : SamePolicy s t) (name : String) : t.view name = s.view name := by
  obtain ⟨dedup, rfl⟩ := h
  rfl

theorem level_congr {name : String} (h : t.view name = s.view name) :
    t.level name = s.level name := by
  rw [level, h, level]

theorem level_of_live {name : String} {state : ServiceState}
    (hlive : s.services[name]? = some state) (hnone : s.tombstones[name]? = none) :
    s.level name = state.version := by
  simp [level, view, hlive, hnone]

theorem level_of_tombstone {name : String} {tombstone : Nat} (hnone : s.services[name]? = none)
    (h : s.tombstones[name]? = some tombstone) : s.level name = tombstone := by
  simp [level, view, hnone, h]

theorem level_of_absent {name : String} (hservice : s.services[name]? = none)
    (htombstone : s.tombstones[name]? = none) : s.level name = 0 := by
  simp [level, view, hservice, htombstone]

/-! ## One command -/

inductive Recorded (s t : PolicyState) : Option (String × Nat) → Prop
  | nothing (hview : ∀ name, t.view name = s.view name) : Recorded s t none
  | version {service : String} {v : Nat}
      (hother : ∀ name, name ≠ service → t.view name = s.view name)
      (hold : s.level service < v) (hnew : t.level service = v)
      (hkeep : s.tombstones[service]? = none) (hdisjoint : (t.view service).1 = none ∨
        (t.view service).2 = none) : Recorded s t (some (service, v))

theorem isServiceCommand_of_editedService {cmd : PolicyCommand} {service : String}
    (h : cmd.editedService = some service) : cmd.isServiceCommand = true := by
  cases cmd <;> first | rfl | cases h

theorem recorded_of_effect {cmd : PolicyCommand} {report : Report} (hd : s.Disjoint)
    (hb : s.VersionsBelow) (hrev : s.RevivesNothing prim (some cmd))
    (h : Effect prim s cmd t report) : Recorded s t (cmd.assignment report) := by
  cases h with
  | @created service members hname hpeers hfresh =>
      have hnone : s.tombstones[service]? = none := hrev hname hpeers hfresh
      refine .version (fun name hne => ?_) ?_ ?_ hnone (Or.inr hnone)
      · simp [view, ExtTreeMap.getElem?_insert, Ne.symm hne]
      · rw [level_of_absent hfresh hnone]
        exact Nat.one_pos
      · simp [level, view, hnone]
  | @deleted service removed hlive =>
      have hnone := hd _ _ hlive
      have hversion := saturatingSucc64_of_lt (hb _ _ hlive)
      refine .version (fun name hne => ?_) ?_ ?_ hnone (Or.inl ExtTreeMap.getElem?_erase_self)
      · simp [view, ExtTreeMap.getElem?_insert, ExtTreeMap.getElem?_erase, Ne.symm hne]
      · rw [level_of_live hlive hnone]
        omega
      · exact level_of_tombstone ExtTreeMap.getElem?_erase_self ExtTreeMap.getElem?_insert_self
  | kept hcmd hlive => exact .nothing fun name => rfl
  | @edited _ service state members hcmd hlive hne =>
      have hnone := hd _ _ hlive
      have hversion := saturatingSucc64_of_lt (hb _ _ hlive)
      rw [PolicyCommand.assignment, if_pos (isServiceCommand_of_editedService hcmd)]
      refine .version (fun name hne => ?_) ?_ ?_ hnone (Or.inr hnone)
      · simp [view, ExtTreeMap.getElem?_insert, Ne.symm hne]
      · rw [level_of_live hlive hnone]
        omega
      · simp [level, view, hnone]
  | renewed => exact .nothing fun name => rfl
  | issued huses hfresh => exact .nothing fun name => rfl
  | consumed hrecord huses hpeer hexpires hused => exact .nothing fun name => rfl

theorem Recorded.congr {u : PolicyState} {a : Option (String × Nat)} (h : Recorded s t a)
    (hsame : SamePolicy t u) : Recorded s u a := by
  have hview := view_eq_of_same hsame
  cases h with
  | nothing h => exact .nothing fun name => (hview name).trans (h name)
  | version hother hold hnew hkeep hdisjoint =>
      refine .version (fun name hne => (hview name).trans (hother name hne)) hold ?_ hkeep ?_
      · rw [level_congr (hview _), hnew]
      · rw [hview]
        exact hdisjoint

theorem Recorded.disjoint {a : Option (String × Nat)} (hd : s.Disjoint) (h : Recorded s t a) :
    t.Disjoint := by
  have hcases : ∀ name, t.view name = s.view name ∨ (t.view name).1 = none ∨
      (t.view name).2 = none := by
    intro name
    cases h with
    | nothing hview => exact Or.inl (hview name)
    | @version service v hother hold hnew hkeep hdisjoint =>
        by_cases hname : name = service
        · subst hname
          exact Or.inr hdisjoint
        · exact Or.inl (hother name hname)
  intro name state hlive
  obtain hsame | hgone | hnone := hcases name
  · have hview := Prod.mk.inj hsame
    rw [hview.2]
    exact hd name state (hview.1 ▸ hlive)
  · exact absurd (hlive.symm.trans hgone) (by simp)
  · exact hnone

theorem Recorded.fences {a : Option (String × Nat)} (h : Recorded s t a) (name : String) :
    (t.level name = s.level name ∧ t.view name = s.view name) ∨ s.level name < t.level name := by
  cases h with
  | nothing hview => exact Or.inl ⟨level_congr (hview name), hview name⟩
  | @version service v hother hold hnew hkeep hdisjoint =>
      by_cases hname : name = service
      · subst hname
        exact Or.inr (hnew ▸ hold)
      · exact Or.inl ⟨level_congr (hother name hname), hother name hname⟩

theorem Recorded.keeps_tombstone {a : Option (String × Nat)} (h : Recorded s t a) {name : String}
    {tombstone : Nat} (hs : s.tombstones[name]? = some tombstone) :
    t.tombstones[name]? = some tombstone := by
  have hview : t.view name = s.view name := by
    cases h with
    | nothing hview => exact hview name
    | @version service v hother hold hnew hkeep hdisjoint =>
        apply hother name
        rintro rfl
        exact absurd (hs.symm.trans hkeep) (by simp)
  exact (Prod.mk.inj hview).2.trans hs

/-! ## Whole runs -/

section Run

variable {network : String} {log : List (PolicyCommand × Nat)}

theorem assigned_of_lt {k : Nat} (hk : k < log.length) :
    assigned prim network log k =
      ((resultAt prim network log k).bind PolicyResult.report).bind
        log[k].1.inner.assignment := by
  rw [assigned, List.getElem?_eq_getElem hk, resultAt_of_lt hk]
  rfl

theorem recorded_after {k : Nat} (hk : k < log.length)
    (hd : (after prim network log k).Disjoint) (hb : (after prim network log k).VersionsBelow)
    (hrev : (after prim network log k).NoRevival prim log[k].1) :
    Recorded (after prim network log k) (after prim network log (k + 1))
      (assigned prim network log k) := by
  rw [assigned_of_lt hk]
  have hout := outcome_after prim network hk
  generalize (resultAt prim network log k).bind PolicyResult.report = report at hout ⊢
  cases hout with
  | effect hexec heffect hsame =>
      rw [NoRevival, hexec] at hrev
      exact (recorded_of_effect hd hb hrev heffect).congr hsame
  | none hsame => exact .nothing (view_eq_of_same hsame)

variable (hbelow : ∀ k ≤ log.length, (after prim network log k).VersionsBelow)
  (hrevival : ∀ k (hk : k < log.length), (after prim network log k).NoRevival prim log[k].1)

include hbelow hrevival

theorem disjoint_after (k : Nat) : (after prim network log k).Disjoint := by
  apply invariant_after
  · intro name state hlive
    exact absurd hlive (by simp [new])
  · intro k hk hd
    exact (recorded_after hk hd (hbelow k hk.le) (hrevival k hk)).disjoint hd

theorem recorded_step {k : Nat} (hk : k < log.length) :
    Recorded (after prim network log k) (after prim network log (k + 1))
      (assigned prim network log k) :=
  recorded_after hk (disjoint_after hbelow hrevival k) (hbelow k hk.le) (hrevival k hk)

/-- Levels only rise, and a level determines what is recorded. -/
theorem level_fences (name : String) {i j : Nat} (hij : i ≤ j) :
    (after prim network log i).level name ≤ (after prim network log j).level name ∧
      ((after prim network log i).level name = (after prim network log j).level name →
        (after prim network log i).view name = (after prim network log j).view name) := by
  apply Runs.fenced (level · name) (view · name) _ hij
  intro k hk
  have hstep := recorded_step hbelow hrevival hk
  rw [after_succ hk] at hstep
  exact hstep.fences name

theorem level_of_assigned {k : Nat} {name : String} {v : Nat}
    (h : assigned prim network log k = some (name, v)) :
    (after prim network log k).level name < v ∧
      (after prim network log (k + 1)).level name = v := by
  have hk : k < log.length := by
    by_contra hk
    rw [assigned, List.getElem?_eq_none (by omega)] at h
    cases h
  have hstep := recorded_step hbelow hrevival hk
  rw [h] at hstep
  cases hstep with
  | version hother hold hnew hkeep hdisjoint => exact ⟨hold, hnew⟩

theorem tombstone_after {i j : Nat} (hij : i ≤ j) {name : String} {tombstone : Nat}
    (h : (after prim network log i).tombstones[name]? = some tombstone) :
    (after prim network log j).tombstones[name]? = some tombstone := by
  revert h
  apply Runs.relates (R := fun s t : PolicyState =>
    s.tombstones[name]? = some tombstone → t.tombstones[name]? = some tombstone) _ _ _ hij
  · exact fun s h => h
  · exact fun s t u hst htu h => htu (hst h)
  · intro k hk h
    have hstep := recorded_step hbelow hrevival hk
    rw [after_succ hk] at hstep
    exact hstep.keeps_tombstone h

omit hbelow hrevival

end Run

/-- Create, edit and delete a service, then do it again without the edit. -/
def recreation : List (PolicyCommand × Nat) :=
  [(.createService "api" [peerA], 1), (.addMembers "api" [peerB], 2), (.deleteService "api", 3),
    (.createService "api" [peerB], 4), (.deleteService "api", 5)]

/-- Versions 1, 2 and 3 are followed by 1 and 2: version 1 names two member sets,
the second life of the service is below its tombstone, and the tombstone goes from
3 down to 2. -/
theorem createService_reuses_versions :
    (∀ k ≤ recreation.length, (after samplePrimitives "net" recreation k).VersionsBelow) ∧
      (List.range 5).map (assigned samplePrimitives "net" recreation) =
        [some ("api", 1), some ("api", 2), some ("api", 3), some ("api", 1), some ("api", 2)] ∧
      (after samplePrimitives "net" recreation 1).view "api" =
        (some ⟨1, collectPeers [peerA]⟩, none) ∧
      (after samplePrimitives "net" recreation 4).view "api" =
        (some ⟨1, collectPeers [peerB]⟩, some 3) ∧
      (after samplePrimitives "net" recreation 5).view "api" = (none, some 2) := by
  decide +kernel

/-- In a run that creates no deleted name again, each assigned version is above all
versions the name had before. -/
theorem versions_never_reused (prim : Primitives) (network : String)
    (log : List (PolicyCommand × Nat))
    (hbelow : ∀ k ≤ log.length, (after prim network log k).VersionsBelow)
    (hrevival : ∀ k (hk : k < log.length),
      (after prim network log k).NoRevival prim log[k].1) :
    (∀ (i j : Nat) (name : String) (v w : Nat), i < j →
      assigned prim network log i = some (name, v) →
      assigned prim network log j = some (name, w) → v < w) ∧
    (∀ (k : Nat) (name : String) (state : ServiceState) (tombstone : Nat),
      (after prim network log k).services[name]? = some state →
      (after prim network log k).tombstones[name]? = some tombstone →
      tombstone < state.version) ∧
    (∀ (i j : Nat) (name : String) (tombstone : Nat), i ≤ j →
      (after prim network log i).tombstones[name]? = some tombstone →
      ∃ later, (after prim network log j).tombstones[name]? = some later ∧ tombstone ≤ later) ∧
    (∀ (i j : Nat) (name : String) (state state' : ServiceState),
      (after prim network log i).services[name]? = some state →
      (after prim network log j).services[name]? = some state' →
      state.version = state'.version → state.members = state'.members) := by
  have hdisjoint := disjoint_after hbelow hrevival
  refine ⟨?_, ?_, ?_, ?_⟩
  · intro i j name v w hij hv hw
    have hi := level_of_assigned hbelow hrevival hv
    have hj := level_of_assigned hbelow hrevival hw
    have hmono := (level_fences hbelow hrevival name (show i + 1 ≤ j by omega)).1
    omega
  · intro k name state tombstone hlive hdead
    exact absurd (hdead.symm.trans (hdisjoint k name state hlive)) (by simp)
  · intro i j name tombstone hij h
    exact ⟨tombstone, tombstone_after hbelow hrevival hij h, le_rfl⟩
  · have hordered : ∀ (i j : Nat) (name : String) (state state' : ServiceState), i ≤ j →
        (after prim network log i).services[name]? = some state →
        (after prim network log j).services[name]? = some state' →
        state.version = state'.version → state = state' := by
      intro i j name state state' hij hi hj hversion
      have hlevel : (after prim network log i).level name =
          (after prim network log j).level name := by
        rw [level_of_live hi (hdisjoint i name state hi),
          level_of_live hj (hdisjoint j name state' hj), hversion]
      have hview := (level_fences hbelow hrevival name hij).2 hlevel
      exact Option.some.inj (hi.symm.trans ((Prod.mk.inj hview).1.trans hj))
    intro i j name state state' hi hj hversion
    rcases Nat.le_total i j with hij | hji
    · rw [hordered i j name state state' hij hi hj hversion]
    · rw [hordered j i name state' state hji hj hi hversion.symm]

/-- An edit that changes nothing, an administrator's request and its repetition, and
refused creations of a deleted and of a live name. -/
def singleLives : List (PolicyCommand × Nat) :=
  [(.createService "api" [peerA], 1), (.addMembers "api" [peerA], 2),
    (.admin "r1" "root" "h1" 100 (.addMembers "api" [peerB, peerB]), 3),
    (.admin "r1" "root" "h1" 100 (.addMembers "api" [peerB, peerB]), 4),
    (.createService "web" [], 5), (.deleteService "api", 6), (.createService "api" ["?"], 7),
    (.createService "web" [peerA], 8), (.setMembers "web" [peerB], 9)]

theorem versions_never_reused_singleLives :
    (List.range 9).map (assigned samplePrimitives "net" singleLives) =
        [some ("api", 1), none, some ("api", 2), none, some ("web", 1), some ("api", 3), none, none,
          some ("web", 2)] ∧
      (∀ (i j : Nat) (name : String) (v w : Nat), i < j →
        assigned samplePrimitives "net" singleLives i = some (name, v) →
        assigned samplePrimitives "net" singleLives j = some (name, w) → v < w) :=
  ⟨by decide +kernel,
    (versions_never_reused samplePrimitives "net" singleLives (by decide +kernel)
      (by decide +kernel)).1⟩

end PolicyState

end NexusAuth.Raft
