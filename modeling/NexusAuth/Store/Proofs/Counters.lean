import NexusAuth.Store.Proofs.AntiEntropy
import NexusAuth.Store.Proofs.Durability

/-!
# Counters that merges bring along

Versions are of type `u64`, and a merge takes them over as they come.  A local change does
what it should exactly when the counters that it raises have room and it does not create a
name over its tombstone, which starts again at version 1.

How much room there is depends on the encoder of the state file, which is taken to accept
integers up to `i64::MAX`; a merge whose result it refuses has failed.
-/

namespace NexusAuth

open Std (ExtTreeMap ExtTreeSet)
open NexusAuth.Authority NexusAuth.Lib NexusAuth.Lib.OrderedMap NexusAuth.Lib.Words

def i64Max : Nat := 2 ^ 63 - 1

def Entry.version : Entry → Nat
  | .absent => 0
  | .tombstone version => version
  | .live version _ => version

structure StoreSnapshot.Within (bound : Nat) (s : StoreSnapshot) : Prop where
  indexVersion : s.indexVersion ≤ bound
  services : ∀ (name : String) (state : ServiceState),
    s.services[name]? = some state → state.version ≤ bound
  tombstones : ∀ (name : String) (version : Nat),
    s.tombstones[name]? = some version → version ≤ bound

instance (bound : Nat) (s : StoreSnapshot) : Decidable (s.Within bound) :=
  decidable_of_iff
    (s.indexVersion ≤ bound ∧ (∀ entry ∈ s.services.toList, entry.2.version ≤ bound) ∧
      ∀ entry ∈ s.tombstones.toList, entry.2 ≤ bound)
    ⟨fun h => ⟨h.1, forall_mem_toList.mp h.2.1, forall_mem_toList.mp h.2.2⟩,
      fun h => ⟨h.1, forall_mem_toList.mpr h.2, forall_mem_toList.mpr h.3⟩⟩

abbrev StoreSnapshot.Encodable (s : StoreSnapshot) : Prop := s.Within i64Max

namespace StoreSnapshot.Within

variable {s t : StoreSnapshot} {bound bound' : Nat} {service : String}

theorem mono (hs : s.Within bound) (h : bound ≤ bound') : s.Within bound' where
  indexVersion := hs.indexVersion.trans h
  services name state hstate := (hs.services name state hstate).trans h
  tombstones name version hversion := (hs.tombstones name version hversion).trans h

theorem write_iff {state : ServiceState} (hs : s.Within bound)
    (hservices : t.services = s.services.insert service state)
    (htombstones : ∀ (name : String) (version : Nat),
      t.tombstones[name]? = some version → s.tombstones[name]? = some version) :
    t.Within bound ↔ t.indexVersion ≤ bound ∧ state.version ≤ bound := by
  constructor
  · intro h
    exact ⟨h.indexVersion, h.services service state (by simp [hservices])⟩
  · rintro ⟨hindex, hversion⟩
    exact ⟨hindex, fun _ _ => hservices ▸ forall_insert hs.services hversion,
      fun name version h => hs.tombstones name version (htombstones name version h)⟩

theorem bury_iff {version : Nat} (hs : s.Within bound)
    (hservices : t.services = s.services.erase service)
    (htombstones : t.tombstones = s.tombstones.insert service version) :
    t.Within bound ↔ t.indexVersion ≤ bound ∧ version ≤ bound := by
  constructor
  · intro h
    exact ⟨h.indexVersion, h.tombstones service version (by simp [htombstones])⟩
  · rintro ⟨hindex, hversion⟩
    refine ⟨hindex, fun name state h => ?_,
      fun _ _ => htombstones ▸ forall_insert hs.tombstones hversion⟩
    rw [hservices] at h
    exact hs.services name state (getElem?_of_getElem?_erase h)

end StoreSnapshot.Within

namespace Store

/-- `save` when the encoder accepts integers up to `i64::MAX` and the disk takes everything the
encoder gives. -/
def tomlSave (error : String) : SaveIo := fun s =>
  if s.Encodable then none else some (.parse error)

def Op.edited : Op → Option String
  | .addMembers service _ | .removeMembers service _ | .setMembers service _ => some service
  | _ => none

def Op.service : Op → Option String
  | .createService service _ | .deleteService service => some service
  | op => op.edited

def Op.received : Op → Option (List Update)
  | .applyReplicated u => some [u]
  | .mergeSnapshot snap => some snap.updates
  | _ => none

theorem Op.kinds (op : Op) : (∃ service, op.service = some service) ∨ op = .bumpIndexVersion ∨
    ∃ us, op.received = some us := by
  cases op with
  | bumpIndexVersion => exact .inr (.inl rfl)
  | applyReplicated u => exact .inr (.inr ⟨[u], rfl⟩)
  | mergeSnapshot snap => exact .inr (.inr ⟨snap.updates, rfl⟩)
  | _ => exact .inl ⟨_, rfl⟩

/-- The counters that a local call raises are below `i64::MAX`, and a new service has no past. -/
def HasRoom (s : Store) : Op → Prop
  | .createService service _ => (s.entry service).version = 0 ∧ s.indexVersion < i64Max
  | .deleteService service | .addMembers service _ | .removeMembers service _
  | .setMembers service _ => (s.entry service).version < i64Max ∧ s.indexVersion < i64Max
  | .bumpIndexVersion => s.indexVersion < i64Max
  | .applyReplicated _ | .mergeSnapshot _ => True

variable {prim : Primitives} {io : SaveIo} {s t : Store} {op : Op} {service : String}
  {error network : String}

theorem succ64_of_le_i64Max {n : Nat} (h : n ≤ i64Max) : succ64 n = n + 1 := by
  apply succ64_of_lt
  unfold i64Max at h
  unfold u64Max
  omega

theorem tomlSave_eq_none {snap : StoreSnapshot} : tomlSave error snap = none ↔ snap.Encodable := by
  unfold tomlSave
  by_cases h : snap.Encodable
  · simp [h]
  · simp [h]

/-! ## What a local call writes -/

inductive Wrote (s : Store) : Op → StoreSnapshot → Prop
  | created {service : String} {peers : List String} {members : PeerSet} {snap : StoreSnapshot}
      (hfresh : s.services[service]? = none)
      (hservices : snap.services = s.services.insert service ⟨1, members⟩)
      (htombstones : snap.tombstones = s.tombstones)
      (hindex : snap.indexVersion = succ64 s.indexVersion) :
      Wrote s (.createService service peers) snap
  | deleted {service : String} {removed : ServiceState} {snap : StoreSnapshot}
      (hlive : s.services[service]? = some removed)
      (hservices : snap.services = s.services.erase service)
      (htombstones : snap.tombstones = s.tombstones.insert service (succ64 removed.version))
      (hindex : snap.indexVersion = succ64 s.indexVersion) :
      Wrote s (.deleteService service) snap
  | edited {op : Op} {service : String} {state : ServiceState} {members : PeerSet}
      {snap : StoreSnapshot} (hop : op.edited = some service)
      (hlive : s.services[service]? = some state)
      (hservices : snap.services = s.services.insert service ⟨succ64 state.version, members⟩)
      (htombstones : snap.tombstones = s.tombstones)
      (hindex : snap.indexVersion = succ64 s.indexVersion) : Wrote s op snap

theorem wrote_of_editMembers {edit : PeerSet → List String → PeerSet × Bool} {peers : List String}
    (hreport : ReportsChange edit) (hop : op.edited = some service) :
    (s.editMembers prim io edit service peers).1 = s ∨
      Wrote s op (s.editMembers prim io edit service peers).1.snapshot := by
  unfold editMembers
  split
  · exact .inl rfl
  split
  · exact .inl rfl
  rename_i state hlive
  simp only [finishChange, ExtTreeMap.getElem?_insert_self]
  by_cases hchanged : (edit state.members peers).2 = true
  · right
    simp only [hchanged, Bool.not_true, Bool.false_eq_true, if_false, snapshot_save, insert_insert]
    exact .edited hop hlive rfl rfl rfl
  · left
    have hsame : (edit state.members peers).1 = state.members := by
      by_contra hne
      exact hchanged ((hreport _ _).mpr hne)
    rw [Bool.not_eq_true] at hchanged
    simp only [hchanged, Bool.not_false, if_true, hsame, insert_eq_self hlive]

/-- A local call on a service leaves the store alone or writes the service and the index
version, whatever becomes of the file. -/
theorem wrote_of_exec (prim : Primitives) (io : SaveIo) (s : Store)
    (hop : op.service = some service) :
    (s.exec prim io op).1 = s ∨ Wrote s op (s.exec prim io op).1.snapshot := by
  cases op with
  | createService name peers =>
      simp only [exec, createService]
      split
      · exact .inl rfl
      split
      · exact .inl rfl
      split
      · exact .inl rfl
      rename_i hfresh
      rw [snapshot_saveThen]
      exact .inr (.created (getElem?_eq_none_of_not_contains hfresh) rfl rfl rfl)
  | deleteService name =>
      simp only [exec, deleteService]
      split
      · exact .inl rfl
      rename_i removed hlive
      rw [snapshot_saveThen]
      exact .inr (.deleted hlive rfl rfl rfl)
  | addMembers name peers => exact wrote_of_editMembers insertPeers_reportsChange rfl
  | removeMembers name peers => exact wrote_of_editMembers removePeers_reportsChange rfl
  | setMembers name peers => exact wrote_of_editMembers replacePeers_reportsChange rfl
  | bumpIndexVersion | applyReplicated u | mergeSnapshot snap => cases hop

/-- The service and the index version have gone up, and the state can be saved. -/
def Advances (s : Store) (service : String) (snap : StoreSnapshot) : Prop :=
  (s.entry service).version < (snap.entry service).version ∧
    s.indexVersion < snap.indexVersion ∧ snap.Encodable

theorem advances_of_write {snap : StoreSnapshot} {state : ServiceState} (hs : s.Encodable)
    (hservices : snap.services = s.services.insert service state)
    (htombstones : snap.tombstones = s.tombstones)
    (hindex : snap.indexVersion = succ64 s.indexVersion) :
    Advances s service snap ↔ (s.entry service).version < state.version ∧
      state.version ≤ i64Max ∧ s.indexVersion < i64Max := by
  have hentry : (snap.entry service).version = state.version := by
    rw [entry_of_live (by rw [hservices, ExtTreeMap.getElem?_insert_self])]
    rfl
  have hwithin := hs.write_iff hservices fun _ _ h => htombstones ▸ h
  rw [Advances, hentry, StoreSnapshot.Encodable, hwithin, hindex,
    succ64_of_le_i64Max hs.indexVersion]
  omega

theorem advances_of_bury {snap : StoreSnapshot} {version : Nat} (hs : s.Encodable)
    (hservices : snap.services = s.services.erase service)
    (htombstones : snap.tombstones = s.tombstones.insert service version)
    (hindex : snap.indexVersion = succ64 s.indexVersion) :
    Advances s service snap ↔ (s.entry service).version < version ∧ version ≤ i64Max ∧
      s.indexVersion < i64Max := by
  have hentry : (snap.entry service).version = version := by
    rw [entry_of_tombstone (by rw [hservices, ExtTreeMap.getElem?_erase_self])
      (by rw [htombstones, ExtTreeMap.getElem?_insert_self])]
    rfl
  rw [Advances, hentry, StoreSnapshot.Encodable, hs.bury_iff hservices htombstones, hindex,
    succ64_of_le_i64Max hs.indexVersion]
  omega

theorem hasRoom_iff_of_wrote {snap : StoreSnapshot} (hs : s.Encodable)
    (hop : op.service = some service) (h : Wrote s op snap) :
    HasRoom s op ↔ Advances s service snap := by
  cases h with
  | created _ hservices htombstones hindex =>
      obtain rfl := Option.some.inj hop
      rw [advances_of_write hs hservices htombstones hindex]
      have hone : 1 ≤ i64Max := by decide
      simp only [HasRoom]
      omega
  | deleted hlive hservices htombstones hindex =>
      obtain rfl := Option.some.inj hop
      rw [advances_of_bury hs hservices htombstones hindex]
      simp only [HasRoom, entry_of_live hlive, Entry.version,
        succ64_of_le_i64Max (hs.services _ _ hlive)]
      omega
  | @edited _ name state members _ hedited hlive hservices htombstones hindex =>
      obtain ⟨rfl, hroom⟩ : name = service ∧ (HasRoom s op ↔
          (s.entry name).version < i64Max ∧ s.indexVersion < i64Max) := by
        cases op with
        | addMembers _ _ | removeMembers _ _ | setMembers _ _ =>
            obtain rfl := Option.some.inj hedited
            exact ⟨Option.some.inj hop, Iff.rfl⟩
        | _ => cases hedited
      rw [hroom, advances_of_write hs hservices htombstones hindex]
      simp only [entry_of_live hlive, Entry.version, succ64_of_le_i64Max (hs.services _ _ hlive)]
      omega

/-! ## Runs -/

/-- The stores of a sidecar whose disk works, when every local call that changed the store has
had room.  Merges may carry any versions, as long as they succeed. -/
inductive Kept (prim : Primitives) (error network : String) : Store → Prop
  | created {initial : BTreeMap String (List String)} {s : Store}
      (h : loadOrCreate prim (tomlSave error) .missing network initial = .ok s) :
      Kept prim error network s
  | restarted {initial : BTreeMap String (List String)} {s t : Store}
      (hs : Kept prim error network s)
      (h : s.reload prim (tomlSave error) network initial = .ok t) : Kept prim error network t
  | step {s t : Store} {op : Op} {reply : Reply} (hs : Kept prim error network s)
      (hroom : t = s ∨ HasRoom s op) (h : s.exec prim (tomlSave error) op = (t, .ok reply)) :
      Kept prim error network t

theorem io_of_saveThen {α : Type} {value a : α} (h : s.saveThen io value = (t, .ok a)) :
    io s.snapshot = none := by
  cases hio : io s.snapshot with
  | none => rfl
  | some e => simp [saveThen, save, hio] at h

theorem merged_of_saveThen {us : List Update} {w : Store} {changed flag : Bool}
    (hmerge : mergeEntries prim s false us = (w, .ok changed))
    (h : (if changed then w.saveThen io changed else (w, .ok changed)) = (t, .ok flag)) :
    w.snapshot = t.snapshot ∧ (t = s ∨ io t.snapshot = none) := by
  cases changed with
  | false =>
      obtain rfl : w = t := (Prod.mk.inj h).1
      exact ⟨rfl, .inl (eq_of_mergeEntries_false hmerge).1⟩
  | true =>
      have hsame : w.snapshot = t.snapshot := by
        simpa using congrArg (fun out => out.1.snapshot) h
      exact ⟨hsame, .inr (hsame ▸ io_of_saveThen h)⟩

/-- A merge that succeeds has gone through all its entries; it has changed nothing, or its result
was saved. -/
theorem merged_of_exec {us : List Update} {reply : Reply} (hop : op.received = some us)
    (h : s.exec prim io op = (t, .ok reply)) :
    (∃ w flag, mergeEntries prim s false us = (w, .ok flag) ∧ w.snapshot = t.snapshot) ∧
      (t = s ∨ io t.snapshot = none) := by
  cases op with
  | applyReplicated u =>
      obtain rfl := Option.some.inj hop
      obtain ⟨flag, hout⟩ := ok_of_map_eq_ok h
      unfold applyReplicated at hout
      split at hout
      · cases hout
      · rename_i w changed hmerge
        have hone : mergeEntries prim s false [u] = (w, .ok changed) := by
          simp [mergeEntries, hmerge]
        obtain ⟨hsnapshot, hsaved⟩ := merged_of_saveThen hone hout
        exact ⟨⟨w, changed, hone, hsnapshot⟩, hsaved⟩
  | mergeSnapshot snap =>
      obtain rfl := Option.some.inj hop
      obtain ⟨flag, hout⟩ := ok_of_map_eq_ok h
      unfold mergeSnapshot at hout
      split at hout
      · cases hout
      · rename_i w changed hmerge
        obtain ⟨hsnapshot, hsaved⟩ := merged_of_saveThen hmerge hout
        exact ⟨⟨w, changed, hmerge, hsnapshot⟩, hsaved⟩
  | _ => cases hop

theorem snapshot_of_bump {reply : Reply}
    (h : s.exec prim io .bumpIndexVersion = (t, .ok reply)) :
    t.snapshot = { s.snapshot with indexVersion := succ64 s.indexVersion } := by
  have ht := congrArg (fun out => out.1.snapshot) h
  simp only [exec, bumpIndexVersion, snapshot_save] at ht
  exact ht.symm

theorem encodable_of_exec {reply : Reply} (hs : s.Encodable) (hroom : t = s ∨ HasRoom s op)
    (h : s.exec prim (tomlSave error) op = (t, .ok reply)) : t.Encodable := by
  obtain rfl | hroom := hroom
  · exact hs
  obtain ⟨service, hop⟩ | rfl | ⟨us, hop⟩ := op.kinds
  · have hwrote := wrote_of_exec prim (tomlSave error) s hop
    rw [h] at hwrote
    obtain rfl | hwrote := hwrote
    · exact hs
    · exact ((hasRoom_iff_of_wrote hs hop hwrote).mp hroom).2.2
  · change t.snapshot.Encodable
    rw [snapshot_of_bump h, succ64_of_le_i64Max hs.indexVersion]
    exact { hs with indexVersion := hroom }
  · obtain ⟨-, rfl | hio⟩ := merged_of_exec hop h
    · exact hs
    · exact tomlSave_eq_none.mp hio

theorem encodable_of_created {initial : BTreeMap String (List String)}
    (h : loadOrCreate prim (tomlSave error) .missing network initial = .ok s) : s.Encodable := by
  simp only [loadOrCreate] at h
  split at h
  · cases h
  · rename_i services hseed
    cases hio : tomlSave error ⟨network, 1, services, ∅⟩ with
    | none =>
        simp only [save, snapshot, hio, Except.ok.injEq] at h
        subst h
        exact tomlSave_eq_none.mp hio
    | some e => simp [save, snapshot, hio] at h

theorem encodable_of_kept (h : Kept prim error network s) : s.Encodable ∧ Settled network s := by
  induction h with
  | created h => exact ⟨encodable_of_created h, settled_of_load h⟩
  | restarted _ h ih =>
      rw [reload_of_settled ih.2] at h
      obtain rfl := Except.ok.inj h
      exact ih
  | @step s t op reply _ hroom h ih =>
      obtain ⟨hencodable, hsettled⟩ := ih
      have hnext := encodable_of_exec hencodable hroom h
      refine ⟨hnext, ?_⟩
      have hends := ends_exec prim (tomlSave error) s op
      rw [h] at hends
      cases hends with
      | untouched => exact hsettled
      | saved hwritten _ => exact ⟨rfl, (network_of_next hwritten).trans hsettled.network⟩
      | swallowed _ hio =>
          rw [tomlSave_eq_none.mpr hnext] at hio
          cases hio

/-! ## Histories that leave room

Counters that come from elsewhere stay below a bound, and every call raises a counter by at most
one. -/

def Op.Carries (bound : Nat) (op : Op) : Prop :=
  ∀ us, op.received = some us → ∀ u ∈ us, u.version ≤ bound ∧ u.indexVersion ≤ bound

/-- The stores after `calls` successful calls that carry at most `bound` and revive no name. -/
inductive Young (prim : Primitives) (error network : String) (bound : Nat) : Nat → Store → Prop
  | created {initial : BTreeMap String (List String)} {s : Store}
      (h : loadOrCreate prim (tomlSave error) .missing network initial = .ok s) :
      Young prim error network bound 0 s
  | step {calls : Nat} {s t : Store} {op : Op} {reply : Reply}
      (hs : Young prim error network bound calls s) (hcarries : op.Carries bound)
      (hnew : NoRevival s op) (h : s.exec prim (tomlSave error) op = (t, .ok reply)) :
      Young prim error network bound (calls + 1) t

variable {bound n : Nat}

theorem version_entry_le (hs : s.Within n) (name : String) : (s.entry name).version ≤ n := by
  cases hlive : s.services[name]? with
  | some state =>
      rw [entry_of_live hlive]
      exact hs.services name state hlive
  | none =>
      cases hdead : s.tombstones[name]? with
      | some version =>
          rw [entry_of_tombstone hlive hdead]
          exact hs.tombstones name version hdead
      | none =>
          rw [entry_of_absent hlive hdead]
          exact Nat.zero_le n

theorem hasRoom_of_wrote {snap : StoreSnapshot} (hs : s.Within n) (hn : n < i64Max)
    (hnew : NoRevival s op) (h : Wrote s op snap) : HasRoom s op := by
  have hversion := fun name => (version_entry_le hs name).trans_lt hn
  have hindex := hs.indexVersion.trans_lt hn
  cases h with
  | created hfresh =>
      refine ⟨?_, hindex⟩
      rw [entry_of_absent hfresh hnew]
      rfl
  | deleted => exact ⟨hversion _, hindex⟩
  | edited hedited =>
      cases op with
      | addMembers | removeMembers | setMembers => exact ⟨hversion _, hindex⟩
      | _ => cases hedited

theorem within_of_wrote {snap : StoreSnapshot} (hs : s.Within n) (hn : n < i64Max)
    (h : Wrote s op snap) : snap.Within (n + 1) := by
  have hnext := hs.mono (Nat.le_add_right n 1)
  have hsucc : ∀ m ≤ n, succ64 m ≤ n + 1 := by
    intro m hm
    rw [succ64_of_le_i64Max (by omega)]
    omega
  have hindex' := hsucc _ hs.indexVersion
  cases h with
  | created _ hservices htombstones hindex =>
      rw [hnext.write_iff hservices fun _ _ h => htombstones ▸ h, hindex]
      exact ⟨hindex', Nat.le_add_left 1 n⟩
  | deleted hlive hservices htombstones hindex =>
      rw [hnext.bury_iff hservices htombstones, hindex]
      exact ⟨hindex', hsucc _ (hs.services _ _ hlive)⟩
  | edited _ hlive hservices htombstones hindex =>
      rw [hnext.write_iff hservices fun _ _ h => htombstones ▸ h, hindex]
      exact ⟨hindex', hsucc _ (hs.services _ _ hlive)⟩

theorem within_place {u : Update} (hs : s.Within n) (hu : u.version ≤ n) :
    (s.place u.service u.entry).Within n := by
  by_cases hdeleted : u.deleted = true
  · simp only [Update.entry, hdeleted, if_true, place]
    exact (hs.bury_iff rfl rfl).mpr ⟨hs.indexVersion, hu⟩
  · simp only [Update.entry, hdeleted, Bool.false_eq_true, if_false, place]
    exact (hs.write_iff rfl fun _ _ => getElem?_of_getElem?_erase).mpr ⟨hs.indexVersion, hu⟩

theorem within_mergeEntries (prim : Primitives) (changed : Bool) {us : List Update}
    (hs : s.Within n) (hus : ∀ u ∈ us, u.version ≤ n ∧ u.indexVersion ≤ n) :
    (mergeEntries prim s changed us).1.Within n := by
  induction us generalizing s changed with
  | nil => exact hs
  | cons u us ih =>
      obtain ⟨⟨hversion, hindex⟩, hus⟩ := List.forall_mem_cons.mp hus
      rw [mergeEntries]
      split
      · exact hs
      · rename_i t flag hmerge
        refine ih _ ?_ hus
        obtain ⟨-, rfl | ⟨-, rfl⟩⟩ := mergeEntry_cases hmerge
        · exact { hs with indexVersion := max_le hs.indexVersion hindex }
        · have hplaced := within_place hs hversion
          exact { hplaced with indexVersion := max_le hplaced.indexVersion hindex }

theorem version_of_seedServices {services services' : BTreeMap String ServiceState}
    {initial : List (String × List String)} (h : seedServices prim services initial = .ok services')
    (hone : ∀ (name : String) (state : ServiceState),
      services[name]? = some state → state.version = 1)
    (name : String) (state : ServiceState) (hstate : services'[name]? = some state) :
    state.version = 1 := by
  induction initial generalizing services with
  | nil =>
      obtain rfl := Except.ok.inj h
      exact hone name state hstate
  | cons entry rest ih =>
      obtain ⟨newName, members⟩ := entry
      rw [seedServices] at h
      split at h
      · cases h
      split at h
      · cases h
      exact ih h fun _ _ => forall_insert hone rfl

theorem within_of_created {initial : BTreeMap String (List String)}
    (h : loadOrCreate prim io .missing network initial = .ok s) : s.Within 1 := by
  simp only [loadOrCreate] at h
  split at h
  · cases h
  · rename_i services hseed
    have hservices := version_of_seedServices hseed (by simp)
    cases hio : io ⟨network, 1, services, ∅⟩ with
    | none =>
        simp only [save, snapshot, hio, Except.ok.injEq] at h
        subst h
        exact ⟨le_rfl, fun name state hstate => (hservices name state hstate).le, by simp⟩
    | some e => simp [save, snapshot, hio] at h

/-- As long as the largest version from elsewhere and the number of calls together do not exceed
`i64::MAX`, every call has had room. -/
theorem kept_of_young {calls : Nat} (h : Young prim error network bound calls s)
    (hbound : 1 ≤ bound) (hfits : bound + calls ≤ i64Max) :
    Kept prim error network s ∧ s.Within (bound + calls) := by
  induction h with
  | created h => exact ⟨.created h, (within_of_created h).mono hbound⟩
  | @step calls s t op reply _ hcarries hnew h ih =>
      obtain ⟨hkept, hwithin⟩ := ih (by omega)
      have hlt : bound + calls < i64Max := by omega
      obtain ⟨service, hop⟩ | rfl | ⟨us, hop⟩ := op.kinds
      · have hwrote := wrote_of_exec prim (tomlSave error) s hop
        rw [h] at hwrote
        obtain rfl | hwrote := hwrote
        · exact ⟨hkept, hwithin.mono (by omega)⟩
        · exact ⟨.step hkept (.inr (hasRoom_of_wrote hwithin hlt hnew hwrote)) h,
            within_of_wrote hwithin hlt hwrote⟩
      · have hroom : HasRoom s .bumpIndexVersion := hwithin.indexVersion.trans_lt hlt
        refine ⟨.step hkept (.inr hroom) h, ?_⟩
        have hnext := hwithin.mono (Nat.le_add_right _ 1)
        change t.snapshot.Within _
        rw [snapshot_of_bump h, succ64_of_le_i64Max (hwithin.indexVersion.trans hlt.le)]
        exact { hnext with indexVersion := Nat.succ_le_succ hwithin.indexVersion }
      · obtain ⟨⟨w, flag, hmerge, hsnapshot⟩, -⟩ := merged_of_exec hop h
        have hroom : HasRoom s op := by
          cases op with
          | applyReplicated | mergeSnapshot => trivial
          | _ => cases hop
        refine ⟨.step hkept (.inr hroom) h, ?_⟩
        have hall : ∀ u ∈ us, u.version ≤ bound + calls ∧ u.indexVersion ≤ bound + calls := by
          intro u hu
          have hu := hcarries us hop u hu
          omega
        have hw := within_mergeEntries prim false hwithin hall
        rw [hmerge] at hw
        change t.snapshot.Within _
        rw [← hsnapshot]
        exact hw.mono (by omega)

/-! ## Local changes -/

/-- A local call that changes a service raises its version and the index version and leaves a
state that can be saved, exactly if it has room.  It has room after every history in which the
largest version from elsewhere and the number of calls together are below `i64::MAX`, if it does
not revive a name. -/
theorem local_change_advances (prim : Primitives) (error network : String) :
    (∀ s, Kept prim error network s → ∀ op service, op.service = some service →
      (s.exec prim (tomlSave error) op).1 ≠ s →
      (HasRoom s op ↔ Advances s service (s.exec prim (tomlSave error) op).1.snapshot)) ∧
    ∀ bound calls s, Young prim error network bound calls s → 1 ≤ bound →
      bound + calls < i64Max → ∀ op service, op.service = some service → NoRevival s op →
      (s.exec prim (tomlSave error) op).1 ≠ s →
      Advances s service (s.exec prim (tomlSave error) op).1.snapshot := by
  have hwrites : ∀ s op service, op.service = some service →
      (s.exec prim (tomlSave error) op).1 ≠ s →
      Wrote s op (s.exec prim (tomlSave error) op).1.snapshot := by
    intro s op service hop hchanged
    exact (wrote_of_exec prim (tomlSave error) s hop).resolve_left hchanged
  constructor
  · intro s hs op service hop hchanged
    exact hasRoom_iff_of_wrote (encodable_of_kept hs).1 hop (hwrites s op service hop hchanged)
  · intro bound calls s hyoung hbound hfits op service hop hnew hchanged
    obtain ⟨hkept, hwithin⟩ := kept_of_young hyoung hbound hfits.le
    have hwrote := hwrites s op service hop hchanged
    exact (hasRoom_iff_of_wrote (encodable_of_kept hkept).1 hop hwrote).mp
      (hasRoom_of_wrote hwithin hfits hnew hwrote)

abbrev sampleSave : SaveIo := tomlSave "out of range"

def encoded (ops : List Op) : Store :=
  ops.foldl (fun s op => (s.exec samplePrimitives sampleSave op).1) emptyStore

theorem loads_emptyStore :
    loadOrCreate samplePrimitives sampleSave .missing "myorg" ∅ = .ok emptyStore := rfl

theorem creates_web : emptyStore.exec samplePrimitives sampleSave (.createService "web" [peerA]) =
    (encoded [.createService "web" [peerA]], .ok (.version 1)) := by
  decide +kernel

/-- `web` as another sidecar announces it at version 7, and then a new member. -/
theorem local_change_advances_web :
    let s := encoded [.createService "web" [peerA], .applyReplicated ⟨"web", 7, [peerA], 9, false⟩]
    Advances s "web"
      (s.exec samplePrimitives sampleSave (.addMembers "web" [peerB])).1.snapshot := by
  intro s
  have hmerges : (encoded [.createService "web" [peerA]]).exec samplePrimitives sampleSave
      (.applyReplicated ⟨"web", 7, [peerA], 9, false⟩) = (s, .ok (.changed true)) := by
    decide +kernel
  have hcreated : Young samplePrimitives "out of range" "myorg" 9 1
      (encoded [.createService "web" [peerA]]) :=
    .step (.created loads_emptyStore) (fun us hus => by cases hus) (by decide +kernel) creates_web
  have hs : Young samplePrimitives "out of range" "myorg" 9 2 s := by
    refine .step hcreated ?_ (by trivial) hmerges
    intro us hus
    obtain rfl := Option.some.inj hus
    decide
  exact (local_change_advances samplePrimitives "out of range" "myorg").2 9 2 s hs (by decide)
    (by decide) (.addMembers "web" [peerB]) "web" rfl trivial (by decide +kernel)

/-- The tombstone of `web` arrives at version 7.  Creating the service afterwards succeeds and
starts again at version 1, below the tombstone. -/
theorem revived_service_goes_back :
    let s := encoded [.applyReplicated ⟨"web", 7, [], 9, true⟩]
    let t := s.exec samplePrimitives sampleSave (.createService "web" [peerA])
    Kept samplePrimitives "out of range" "myorg" s ∧ t.2 = .ok (.version 1) ∧
      (s.entry "web").version = 7 ∧ (t.1.entry "web").version = 1 ∧
      ¬Advances s "web" t.1.snapshot := by
  intro s t
  have hmerges : emptyStore.exec samplePrimitives sampleSave
      (.applyReplicated ⟨"web", 7, [], 9, true⟩) = (s, .ok (.changed true)) := by
    decide +kernel
  have hs : (s.entry "web").version = 7 := by decide +kernel
  have ht : (t.1.entry "web").version = 1 := by decide +kernel
  refine ⟨.step (.created loads_emptyStore) (.inr (by trivial)) hmerges, ?_, hs, ht, ?_⟩
  · decide +kernel
  · rintro ⟨hraised, -⟩
    change (s.entry "web").version < (t.1.entry "web").version at hraised
    omega

end Store

end NexusAuth
