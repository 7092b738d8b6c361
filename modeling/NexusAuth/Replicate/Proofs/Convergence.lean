import NexusAuth.Lib.Gossip
import NexusAuth.Replicate.Proofs.Provenance

/-!
# Sidecars that fall silent agree

After the last local change, sidecars pull each other's snapshots in any order, next to
whatever is still under way: broadcasts, old responses, snapshots that a task has read and not
yet sent.  Once each of them has heard from every other, directly or through others, all have
the same services and tombstones, and these are the newest that any of them had.
-/

namespace NexusAuth.Replicate

open NexusAuth.Authority NexusAuth.Lib NexusAuth.Lib.Gossip NexusAuth.Lib.Interaction
open NexusAuth.Lib.OrderedMap NexusAuth.Lib.Results NexusAuth.Lib.Tasks NexusAuth.Service

/-- No deleted name is created again, and no counter gets to its end. -/
def Unrevived (s : Store) (op : Store.Op) (t : Store) : Prop := Store.NoRevival s op ∧ t.Bounded

def Quiet (_ : Store) (op : Store.Op) (t : Store) : Prop := op.service = none ∧ t.Bounded

theorem unrevived_of_quiet {s t : Store} {op : Store.Op} (h : Quiet s op t) : Unrevived s op t := by
  refine ⟨?_, h.2⟩
  cases op with
  | createService service peers => cases h.1
  | _ => trivial

section Newest

variable {ι : Type} (prim : Primitives) (c : Cluster ι)

def Surpassed (name : String) (e : Entry) : Prop :=
  ∃ i, e.rank prim ≤ ((c.sidecar i).store.entry name).rank prim

def AllSound : Prop := ∀ i, (c.sidecar i).store.Sound prim

end Newest

section Flows

variable {ι : Type} [DecidableEq ι] {setting : Setting ι}
  {permits : Store → Store.Op → Store → Prop} {c c' : Cluster ι}

theorem sound_of_answers (hpermits : ∀ s op t, permits s op t → Unrevived s op t)
    (hsound : AllSound setting.crypto.toPrimitives c) {i : ι} {q : RepCall} {a : RepAnswer q}
    (h : answers setting permits c i q a c') (j : ι) :
    (c'.sidecar j).store.Sound setting.crypto.toPrimitives ∧
      (c.sidecar j).store.snapshot.Climbs setting.crypto.toPrimitives
        (c'.sidecar j).store.snapshot := by
  obtain hsame | ⟨io, op, hop, hstore⟩ := (moves_of_answers h).store j
  · rw [hsame]
    exact ⟨hsound j, .refl _⟩
  · obtain ⟨hrevival, hbounded⟩ := hpermits _ _ _ hop
    rw [hstore]
    exact Store.sound_exec (hsound j) hrevival hbounded

theorem flow_surpassed (hplain : setting.crypto.toPrimitives.PlainPeerIds)
    (hsigning : setting.crypto.toCrypto.Signing) :
    Flow setting Unrevived (AllSound setting.crypto.toPrimitives)
      (Surpassed setting.crypto.toPrimitives) where
  plain := hplain
  signing := hsigning
  keeps _ _ _ _ _ hsound h j := (sound_of_answers (fun _ _ _ => id) hsound h j).1
  mono _ _ _ _ _ hsound h name _ := fun ⟨j, hj⟩ =>
    ⟨j, hj.trans ((sound_of_answers (fun _ _ _ => id) hsound h j).2.rank name)⟩
  writes c i io op _ hI _ _ hpermits name e he _ := by
    have hsound := (Store.sound_exec (hI.base i) hpermits.1 hpermits.2).1
    refine ⟨i, ?_⟩
    rw [store_setStore, if_pos rfl, entry_of_holds hsound.separated he]

/-- Without local changes nothing newer comes up than there was. -/
theorem flow_quiet (hplain : setting.crypto.toPrimitives.PlainPeerIds)
    (hsigning : setting.crypto.toCrypto.Signing) (c₀ : Cluster ι) :
    Flow setting Quiet (AllSound setting.crypto.toPrimitives)
      fun _ => Surpassed setting.crypto.toPrimitives c₀ where
  plain := hplain
  signing := hsigning
  keeps _ _ _ _ _ hsound h j := (sound_of_answers (fun _ _ _ => unrevived_of_quiet) hsound h j).1
  mono _ _ _ _ _ _ _ _ _ := id
  writes _ _ _ op _ _ _ hreq hpermits _ _ _ _ := by
    have hservice : op.service = none := hpermits.1
    cases hreq <;> cases hservice

end Flows

/-! ## Pulls -/

section Runs

variable {ι : Type} [DecidableEq ι] (setting : Setting ι) (w : ℕ → ClusterPool ι)

def storeAt (t : ℕ) (i : ι) : Store := ((w t).shared.sidecar i).store

def rankAt (t : ℕ) (i : ι) (name : String) :=
  ((storeAt w t i).entry name).rank setting.crypto.toPrimitives

/-- Between `t` and `t + 1` a pull of `i` ends with the merge of what `k` had at time `r`. -/
def Pulls (t : ℕ) (i : ι) (r : ℕ) (k : ι) : Prop :=
  ∃ result, Pool.Answers (rules setting Quiet) (w t) i
    (.service (.changeStore (.mergeSnapshot (storeAt w r k).snapshot))) (.ok result) (w (t + 1))

variable {setting w} {t r : ℕ} {i k : ι}

theorem sound_of_step (hsound : AllSound setting.crypto.toPrimitives (w t).shared)
    (h : Pool.Step (rules setting Quiet) (w t) (w (t + 1))) (i : ι) :
    (storeAt w (t + 1) i).Sound setting.crypto.toPrimitives ∧
      (storeAt w t i).snapshot.Climbs setting.crypto.toPrimitives
        (storeAt w (t + 1) i).snapshot := by
  unfold storeAt
  generalize w (t + 1) = w' at h ⊢
  cases h with
  | started _ => exact ⟨hsound i, .refl _⟩
  | answered hanswers =>
      obtain ⟨k, task, next, s, -, -, -, hq, rfl⟩ := hanswers
      exact sound_of_answers (fun _ _ _ => unrevived_of_quiet) hsound hq i

theorem rank_le_of_pulls (hs : (storeAt w t i).Sound setting.crypto.toPrimitives)
    (hk : (storeAt w r k).Sound setting.crypto.toPrimitives) (h : Pulls setting w t i r k)
    (name : String) :
    rankAt setting w r k name ≤ rankAt setting w (t + 1) i name := by
  obtain ⟨result, index, task, next, c, -, -, -, ⟨io, -, hresult, rfl⟩, hw⟩ := h
  obtain ⟨reply, hreply, -⟩ := map_eq_ok.mp hresult.symm
  have hexec : (storeAt w t i).exec setting.crypto.toPrimitives io
      (.mergeSnapshot (storeAt w r k).snapshot) = (storeAt w (t + 1) i, .ok reply) := by
    refine Prod.ext ?_ hreply
    change _ = ((w (t + 1)).shared.sidecar i).store
    rw [hw]
    exact ((store_setStore _ _ _ _).trans (if_pos rfl)).symm
  rw [rankAt, rankAt, Store.entry_of_merge hs hk hexec name]
  exact Lww.le_rank_join_right _ _ _

/-! ## The silent part of a run -/

variable {store : ι → Store} {n : ℕ}

theorem sound_of_quiet (h : AllSound setting.crypto.toPrimitives (w 0).shared)
    (hquiet : ∀ t < n, Pool.Step (rules setting Quiet) (w t) (w (t + 1))) :
    ∀ t ≤ n, AllSound setting.crypto.toPrimitives (w t).shared := by
  intro t
  induction t with
  | zero => exact fun _ => h
  | succ t ih =>
      intro ht i
      exact (sound_of_step (ih (Nat.le_of_succ_le ht)) (hquiet t ht) i).1

omit [DecidableEq ι] in
theorem run_of_steps {rules : Rules ι (Cluster ι) RepCall RepAnswer}
    (h : ∀ t < n, Pool.Step rules (w t) (w (t + 1))) : Pool.Run rules (w 0) (w n) := by
  induction n with
  | zero => exact .refl
  | succ n ih => exact .tail (ih fun t ht => h t (Nat.lt_succ_of_lt ht)) (h n (Nat.lt_succ_self n))

theorem upheld_before (hplain : setting.crypto.toPrimitives.PlainPeerIds)
    (hsigning : setting.crypto.toCrypto.Signing)
    (hstart : ∀ i, (store i).Sound setting.crypto.toPrimitives) {w₀ : ClusterPool ι}
    (hbefore : Pool.Run (rules setting Unrevived) (start store) w₀) :
    Upheld setting (AllSound setting.crypto.toPrimitives) (Surpassed setting.crypto.toPrimitives)
      w₀ := by
  refine (flow_surpassed hplain hsigning).upheld hstart (fun i => startable_of_sound (hstart i)) ?_
    hbefore
  intro i name e he
  refine ⟨i, le_of_eq ?_⟩
  exact congrArg (Entry.rank _) (entry_of_holds (hstart i).separated he).symm

theorem surpassed_of_quiet (hplain : setting.crypto.toPrimitives.PlainPeerIds)
    (hsigning : setting.crypto.toCrypto.Signing) {w₀ w' : ClusterPool ι}
    (hw₀ : Upheld setting (AllSound setting.crypto.toPrimitives)
      (Surpassed setting.crypto.toPrimitives) w₀)
    (hrun : Pool.Run (rules setting Quiet) w₀ w') (i : ι) (name : String) :
    Surpassed setting.crypto.toPrimitives w₀.shared name
      ((w'.shared.sidecar i).store.entry name) := by
  have hw' := Pool.Governed.run (flow_quiet hplain hsigning w₀.shared).disciplined hw₀.freeze hrun
  by_cases habsent : (w'.shared.sidecar i).store.entry name = .absent
  · rw [habsent]
    exact ⟨i, rank_absent_le_entry (hw₀.shared.base i).separated name⟩
  · exact ((hw'.shared.stores i).entries name _ (holds_entry habsent)).holds

/-- Sidecars that have all heard from each other since the last local change have the same
services and tombstones, the newest of those that there were. -/
theorem silent_sidecars_agree (setting : Setting ι)
    (hplain : setting.crypto.toPrimitives.PlainPeerIds)
    (hsigning : setting.crypto.toCrypto.Signing) (store : ι → Store)
    (hstart : ∀ i, (store i).Sound setting.crypto.toPrimitives) (w : ℕ → ClusterPool ι) (n : ℕ)
    (hbefore : Pool.Run (rules setting Unrevived) (start store) (w 0))
    (hquiet : ∀ t < n, Pool.Step (rules setting Quiet) (w t) (w (t + 1)))
    (hheard : ∀ i j, Heard (Pulls setting w) n i j)
    (hinj : ∀ i j, Set.InjOn (membersHash setting.crypto.toPrimitives)
      (Store.memberSets (storeAt w n i).snapshot ∪ Store.memberSets (storeAt w n j).snapshot)) :
    (∀ i j, (storeAt w n i).services = (storeAt w n j).services ∧
      (storeAt w n i).tombstones = (storeAt w n j).tombstones) ∧
    ∀ i name, IsGreatest (Set.range fun j => rankAt setting w 0 j name)
      (rankAt setting w n i name) := by
  have hw₀ := upheld_before hplain hsigning hstart hbefore
  have hsound := sound_of_quiet hw₀.shared.base hquiet
  have hgreatest : ∀ i name, IsGreatest (Set.range fun j => rankAt setting w 0 j name)
      (rankAt setting w n i name) := by
    intro i name
    refine isGreatest_of_heard ?_ ?_ ?_ (hheard i)
    · intro t ht i name
      exact (sound_of_step (hsound t ht.le) (hquiet t ht) i).2.rank name
    · intro t ht i r k hpulls hr name
      exact rank_le_of_pulls (hsound t ht.le i) (hsound r (hr.trans ht.le) k) hpulls name
    · exact surpassed_of_quiet hplain hsigning hw₀ (run_of_steps hquiet) i name
  refine ⟨fun i j => ?_, hgreatest⟩
  have hentry : ∀ name, (storeAt w n i).entry name = (storeAt w n j).entry name := fun name =>
    Store.entry_eq_of_rank (hsound n le_rfl i).admissible (hsound n le_rfl j).admissible (hinj i j)
      name ((hgreatest i name).unique (hgreatest j name))
  exact ⟨services_eq_of_entry hentry, tombstones_eq_of_entry (hsound n le_rfl i).separated
    (hsound n le_rfl j).separated hentry⟩

end Runs

/-! ## Two sidecars that pull from each other -/

instance (s t : Store) (op : Store.Op) : Decidable (Unrevived s op t) :=
  inferInstanceAs (Decidable (Store.NoRevival s op ∧ t.Bounded))

instance (s t : Store) (op : Store.Op) : Decidable (Quiet s op t) :=
  inferInstanceAs (Decidable (op.service = none ∧ t.Bounded))

def silentPool : ClusterPool Bool :=
  (sampleScript (fun s op t => decide (Unrevived s op t)) (start fun _ => Store.emptyStore)
    sampleRequests).getD (start fun _ => Store.emptyStore)

def pullingPool (t : ℕ) : ClusterPool Bool :=
  (sampleScript (fun s op t => decide (Quiet s op t)) silentPool (samplePulls.take t)).getD
    silentPool

theorem run_silentPool :
    Pool.Run (rules clusterSetting Unrevived) (start fun _ => Store.emptyStore) silentPool := by
  have hsome : (sampleScript (fun s op t => decide (Unrevived s op t))
      (start fun _ => Store.emptyStore) sampleRequests).isSome = true := by
    decide +kernel
  obtain ⟨w, hw⟩ := Option.isSome_iff_exists.mp hsome
  have hrun : Pool.Run (rules clusterSetting Unrevived) (start fun _ => Store.emptyStore) w :=
    run_of_sampleScript (fun _ _ _ => of_decide_eq_true) hw
  rw [silentPool, hw]
  exact hrun

theorem move_pullingPool {t : ℕ} {m : Pool.Move (Bool × SampleTask)}
    (hm : samplePulls[t]? = some m) :
    (pullingPool t).move sampleProgram (fun _ _ => true)
      (sampleRespond fun s op t => decide (Quiet s op t)) m = some (pullingPool (t + 1)) := by
  have hsome : (sampleScript (fun s op t => decide (Quiet s op t)) silentPool samplePulls).isSome =
      true := by
    decide +kernel
  obtain ⟨w, hw⟩ := Option.isSome_iff_exists.mp hsome
  obtain ⟨w₁, w₂, hfirst, hstep, hsecond⟩ := Pool.move_of_script hw hm
  have h₁ : pullingPool t = w₁ := congrArg (Option.getD · silentPool) hfirst
  have h₂ : pullingPool (t + 1) = w₂ := congrArg (Option.getD · silentPool) hsecond
  rw [h₁, h₂]
  exact hstep

def mergedSnapshot : RepEvent → Option StoreSnapshot
  | ⟨.service (.changeStore (.mergeSnapshot snap)), .ok _⟩ => some snap
  | _ => none

theorem answers_quiet (i : Bool) (c : Cluster Bool) (q : RepCall) (a : RepAnswer q)
    (c' : Cluster Bool)
    (h : sampleRespond (fun s op t => decide (Quiet s op t)) i c q = some (a, c')) :
    (rules clusterSetting Quiet).answers c i q a c' :=
  answers_of_sampleRespond (fun _ _ _ => of_decide_eq_true) i c q a c' h

theorem pulls_pullingPool {t r : ℕ} (index : ℕ) {i k : Bool}
    (hm : samplePulls[t]? = some (.answer index))
    (h : ((pullingPool (t + 1)).lastEvent index).bind (fun e => (mergedSnapshot e.2).map (e.1, ·)) =
      some (i, (storeAt pullingPool r k).snapshot)) : Pulls clusterSetting pullingPool t i r k := by
  obtain ⟨owner, ⟨q, a⟩, hlast, hanswers⟩ :=
    Pool.answers_of_move answers_quiet (move_pullingPool hm)
  rw [hlast] at h
  obtain ⟨snap, hsnap, heq⟩ := Option.map_eq_some_iff.mp h
  obtain ⟨rfl, rfl⟩ := Prod.mk.inj heq
  unfold mergedSnapshot at hsnap
  split at hsnap
  · rename_i snap' result hevent
    cases hevent
    obtain rfl := Option.some.inj hsnap
    exact ⟨result, hanswers⟩
  · cases hsnap

theorem silent_sidecars_agree_pulled :
    (storeAt pullingPool 0 true).services ≠ (storeAt pullingPool 0 false).services ∧
      (storeAt pullingPool 30 true).services = (storeAt pullingPool 30 false).services := by
  have hpullTrue : Pulls clusterSetting pullingPool 26 true 0 false :=
    pulls_pullingPool 2 rfl (by decide +kernel)
  have hpullFalse : Pulls clusterSetting pullingPool 29 false 0 true :=
    pulls_pullingPool 3 rfl (by decide +kernel)
  have hheard : ∀ i j, Heard (Pulls clusterSetting pullingPool) 30 i j := by
    intro i j
    by_cases hij : i = j
    · subst hij
      exact (Heard.self i).mono (Nat.zero_le _)
    · cases i with
      | true =>
          obtain rfl : j = false := by simpa using hij
          exact (Heard.taken hpullTrue (Nat.zero_le _) (.self _)).mono (by decide)
      | false =>
          obtain rfl : j = true := by simpa using hij
          exact .taken hpullFalse (Nat.zero_le _) (.self _)
  have hquiet : ∀ t < 30, Pool.Step (rules clusterSetting Quiet) (pullingPool t)
      (pullingPool (t + 1)) := by
    intro t ht
    have hm : samplePulls[t]? = some samplePulls[t] := List.getElem?_eq_getElem ht
    exact Pool.step_of_move (fun c job _ => starts_sampleProgram c job) answers_quiet
      (move_pullingPool hm)
  refine ⟨by decide +kernel, ?_⟩
  refine ((silent_sidecars_agree clusterSetting samplePrimitives_plainPeerIds idealCrypto_signing _
    (fun _ => sound_emptyStore) pullingPool 30 run_silentPool hquiet hheard ?_).1 true false).1
  intro i j
  cases i <;> cases j <;> exact Store.injOn_memberSets (by decide +kernel)

end NexusAuth.Replicate
