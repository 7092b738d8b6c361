import NexusAuth.Runtime.Proofs.Once

/-!
# Registered connections

A connection is registered only while its task runs, under an id of its own and once the process
is ready.
-/

namespace NexusAuth.Runtime

open NexusAuth.Connection NexusAuth.Lib.Interaction NexusAuth.Lib.Rely NexusAuth.Lib.Tasks

/-- What holds of the registered connections; `actors` are all tasks. -/
structure RegistryInv (actors : List Actor) (s : Process) : Prop where
  ids : (s.clients.map Prod.fst).Nodup
  owners : (s.clients.map Prod.snd).Nodup
  below : ∀ client ∈ s.clients, client.1 < s.nextId
  ready : s.clients ≠ [] → s.ready.isSome
  known : ∀ client ∈ s.clients, client.2 ∈ actors ∧ ∃ conn, client.2 = .connection conn

structure RegistryMay (i : Actor) (s s' : Process) : Prop where
  clients : ∀ j, j ≠ i → ∀ id, (id, j) ∈ s'.clients ↔ (id, j) ∈ s.clients
  ready : s.ready.isSome → s'.ready.isSome

def registryProtocol (actors : List Actor) : Protocol Actor Process Call Answer where
  answers := answers
  inv := RegistryInv actors
  may := RegistryMay

def Registered (i : Actor) (ids : Set Nat) (s : Process) : Prop :=
  ∀ id, (id, i) ∈ s.clients ↔ id ∈ ids

def IsReady (s : Process) : Prop := s.ready.isSome = true

abbrev RegistryFree (q : Call) : Prop := Spares [.clients] q

section Registry

variable {actors : List Actor} {s s' : Process} {i : Actor}

theorem stable_registered {ids : Set Nat} :
    (registryProtocol actors).Stable i (Registered i ids) :=
  fun _ _ _ hj _ h hmay id => (hmay.clients i (Ne.symm hj) id).trans (h id)

theorem stable_isReady : (registryProtocol actors).Stable i IsReady :=
  fun _ _ _ _ _ h hmay => hmay.ready h

theorem ready_of_answers {q : Call} {a : Answer q} (h : answers s i q a s') (hs : IsReady s) :
    IsReady s' := by
  by_cases hq : q.part = some .ready
  · cases q with
    | setReady c =>
        obtain rfl := h
        exact rfl
    | lock l | unlock l => cases l <;> cases hq
    | writeFrame conn msg => cases msg <;> cases hq
    | _ => cases hq
  · have hready : s'.ready = s.ready := frame h hq
    rw [IsReady, hready]
    exact hs

theorem registry_step {q : Call} (hq : RegistryFree q) {a : Answer q}
    (h : answers s i q a s') (hs : RegistryInv actors s) :
    RegistryInv actors s' ∧ RegistryMay i s s' := by
  obtain ⟨hclients, hnext⟩ := hq.frame h .clients (List.mem_singleton_self _)
  have hready : s.ready.isSome → s'.ready.isSome := ready_of_answers h
  refine ⟨⟨hclients ▸ hs.ids, hclients ▸ hs.owners, ?_,
    fun hne => hready (hs.ready (hclients ▸ hne)), hclients ▸ hs.known⟩,
    fun j _ id => by rw [hclients], hready⟩
  rw [hclients, hnext]
  exact hs.below

theorem registered_of_same {q : Call} (hq : RegistryFree q) {a : Answer q}
    (h : answers s i q a s') {ids : Set Nat} (hs : Registered i ids s) : Registered i ids s' := by
  intro id
  rw [(hq.frame h .clients (List.mem_singleton_self _)).1]
  exact hs id

def CanRegister (i : Actor) (s : Process) : Prop := Registered i ∅ s ∧ IsReady s

theorem stable_canRegister : (registryProtocol actors).Stable i (CanRegister i) :=
  stable_registered.and stable_isReady

theorem kept_registered (q : Call) (hq : RegistryFree q) {ids : Set Nat} (a : Answer q)
    (s s' : Process) (hs : RegistryInv actors s) (hregistered : Registered i ids s)
    (h : answers s i q a s') : RegistryInv actors s' ∧ RegistryMay i s s' ∧ Registered i ids s' :=
  ⟨(registry_step hq h hs).1, (registry_step hq h hs).2, registered_of_same hq h hregistered⟩

theorem kept_canRegister (q : Call) (hq : RegistryFree q) (a : Answer q) (s s' : Process)
    (hs : RegistryInv actors s) (hcan : CanRegister i s) (h : answers s i q a s') :
    RegistryInv actors s' ∧ RegistryMay i s s' ∧ CanRegister i s' :=
  ⟨(registry_step hq h hs).1, (registry_step hq h hs).2, registered_of_same hq h hcan.1,
    ready_of_answers h hcan.2⟩

theorem triple_registered {α : Type} {p : RtM α} {ids : Set Nat}
    (h : Asks RegistryFree p) :
    (registryProtocol actors).Triple i (Registered i ids) p fun _ => Registered i ids :=
  triple_of_asks stable_registered (fun q a s s' hq => kept_registered q hq a s s') h

theorem activates_registry (conn : Nat) :
    Activates (registryProtocol actors) i conn (Registered i ∅) fun _ => CanRegister i where
  stable := stable_registered
  attempts := triple_registered (asks_calls (by decide) conn (spares_of_none rfl))
  waits q hq := kept_registered q (spares_of_waits hq)
  activates authority store := by
    have hfree : ∀ c, RegistryFree (.setReady c) := fun c => spares_of_some rfl (by decide)
    refine triple_kept_bind stable_registered
      (kept_registered _ (spares_of_some rfl (by decide))) fun c => ?_
    refine triple_request_bind (fun _ => CanRegister i) (fun _ => stable_canRegister) ?_ fun _ =>
      triple_done fun _ _ => id
    intro a s s' hs hregistered h
    obtain ⟨hinv, hmay, hregistered'⟩ := kept_registered _ (hfree c) a s s' hs hregistered h
    obtain rfl := h
    exact ⟨hinv, hmay, hregistered', rfl⟩

theorem triple_registry_ensureReady (config : RtConfig) (conn : Nat) :
    (registryProtocol actors).Triple i (Registered i ∅) (ensureReady config conn)
      (Outcome (Registered i ∅) fun _ => CanRegister i) := by
  refine (activates_registry conn).triple_ensureReady (fun _ => stable_canRegister) ?_
    (kept_registered _ (spares_of_some rfl (by decide))) (fun ctx => ?_) config
  · rintro ctx s s' hs hregistered ⟨rfl, rfl⟩
    refine ⟨hs, ⟨fun _ _ _ => Iff.rfl, id⟩, ?_⟩
    cases hready : s'.ready with
    | none => exact hregistered
    | some c => exact ⟨hregistered, Option.isSome_iff_exists.mpr ⟨c, hready⟩⟩
  · cases ctx with
    | none => exact kept_registered _ (spares_of_some rfl (by decide))
    | some c => exact kept_canRegister _ (spares_of_some rfl (by decide))

theorem register_step (hi : i ∈ actors ∧ ∃ conn, i = .connection conn) (id : Nat)
    (s s' : Process) (hs : RegistryInv actors s) (hcan : CanRegister i s)
    (h : answers s i .register id s') :
    RegistryInv actors s' ∧ RegistryMay i s s' ∧ Registered i {id} s' := by
  obtain ⟨rfl, rfl⟩ := h
  have hfresh : s.nextId ∉ s.clients.map Prod.fst := fun hmem => by
    obtain ⟨client, hclient, heq⟩ := List.mem_map.mp hmem
    exact (hs.below client hclient).ne heq
  have hnew : i ∉ s.clients.map Prod.snd := fun hmem => by
    obtain ⟨client, hclient, rfl⟩ := List.mem_map.mp hmem
    exact (hcan.1 client.1).mp hclient
  refine ⟨⟨?_, ?_, ?_, fun _ => hcan.2, ?_⟩, ⟨fun j hj n => ?_, fun h => h⟩, fun n => ?_⟩
  · rw [List.map_append]
    exact hs.ids.append (List.nodup_singleton _) (List.disjoint_singleton.mpr hfresh)
  · rw [List.map_append]
    exact hs.owners.append (List.nodup_singleton _) (List.disjoint_singleton.mpr hnew)
  · intro client hclient
    obtain hold | hlast := List.mem_append.mp hclient
    · exact Nat.lt_succ_of_lt (hs.below client hold)
    · rw [List.mem_singleton.mp hlast]
      exact Nat.lt_succ_self _
  · intro client hclient
    obtain hold | hlast := List.mem_append.mp hclient
    · exact hs.known client hold
    · rw [List.mem_singleton.mp hlast]
      exact hi
  · simp [hj]
  · have hnone : (n, i) ∉ s.clients := (hcan.1 n).mp
    simp [hnone]

/-- Ids are distinct, so that no other connection is taken out with it. -/
theorem unregister_step {id : Nat} (s s' : Process) (hs : RegistryInv actors s)
    (hregistered : Registered i {id} s) (h : answers s i (.unregister id) () s') :
    RegistryInv actors s' ∧ RegistryMay i s s' ∧ Registered i ∅ s' := by
  obtain rfl := h
  have hsub : (s.clients.filter fun client => client.1 ≠ id).Sublist s.clients :=
    List.filter_sublist
  have hmine : (id, i) ∈ s.clients := (hregistered id).mpr rfl
  refine ⟨⟨hs.ids.sublist (hsub.map _), hs.owners.sublist (hsub.map _),
    fun client hclient => hs.below client (hsub.subset hclient),
    fun hne => hs.ready fun hnil => hne ?_,
    fun client hclient => hs.known client (hsub.subset hclient)⟩,
    ⟨fun j hj n => ?_, fun h => h⟩, fun n => ?_⟩
  · rw [hnil, List.filter_nil]
  · simp only [List.mem_filter, decide_eq_true_eq, and_iff_left_iff_imp]
    rintro hother rfl
    exact hj (Prod.mk.inj (List.inj_on_of_nodup_map hs.ids hother hmine rfl)).2
  · simp only [List.mem_filter, decide_eq_true_eq, Set.mem_empty_iff_false, iff_false, not_and,
      not_not]
    exact (hregistered n).mp

theorem triple_registry_program (config : RtConfig) (frames : Nat → Nat) (hi : i ∈ actors) :
    (registryProtocol actors).Triple i (Registered i ∅) (program config frames i)
      fun _ => Registered i ∅ := by
  cases i with
  | reader conn => exact triple_registered (asks_readTask (by decide) (by decide) conn _)
  | worker n => exact triple_registered (asks_requestTask (by decide) (by decide) (by decide))
  | caller n => exact triple_registered (asks_callerTask (by decide) (by decide))
  | connection conn =>
      refine triple_handleConnection (triple_registered (asks_handshake (by decide) conn))
        (fun _ _ => id) (triple_registered (asks_spawnReadLoop (by decide) conn))
        (triple_registry_ensureReady config conn)
        (triple_registered (asks_joinReadTask (by decide) conn)) (fun _ => ?_) fun _ => ?_
      · exact triple_of_asks stable_canRegister (fun q a s s' hq => kept_canRegister q hq a s s')
          (asks_ensureRaft (by decide) (by decide) (by decide) (by decide) (by decide) config conn)
      · refine triple_request_bind (fun id => Registered _ {id}) (fun _ => stable_registered)
          (register_step ⟨hi, conn, rfl⟩) fun id => ?_
        refine triple_kept_bind stable_registered
          (kept_registered _ (spares_of_some rfl (by decide))) fun _ => ?_
        exact triple_request (fun _ => stable_registered) fun _ s s' => unregister_step s s'

end Registry

section Runs

variable {config : RtConfig} {frames : Nat → Nat} {actors : List Actor}
  {ctx : Option (Option Signer × Store)} {w : ProcessPool}

theorem registry_proved (hactors : actors.Nodup)
    (hrun : Pool.Run rules (boot config frames actors ctx) w) :
    Proved (registryProtocol actors) (fun i => Registered i ∅) w := by
  refine Proved.run (proved_boot hactors ?_ (fun _ => stable_registered) ?_
    fun i hi => triple_registry_program config frames hi) hrun
  · exact ⟨List.nodup_nil, List.nodup_nil, by simp [Process.initial], fun h => absurd rfl h,
      by simp [Process.initial]⟩
  · exact fun i id => by simp [Process.initial]

/-- A connection is registered at most once, under an id of its own, only if the process is ready
and only as long as its task has not ended. -/
theorem registered_connections_are_open (config : RtConfig) (frames : Nat → Nat)
    (actors : List Actor) (hactors : actors.Nodup) (ctx : Option (Option Signer × Store))
    (hrun : Pool.Run rules (boot config frames actors ctx) w) :
    (w.shared.clients.map Prod.fst).Nodup ∧ (w.shared.clients.map Prod.snd).Nodup ∧
      ∀ client ∈ w.shared.clients, w.shared.ready.isSome ∧ (∃ conn, client.2 = .connection conn) ∧
        ∃ task ∈ w.tasks, task.owner = client.2 ∧ task.ended = false := by
  have hproved := registry_proved hactors hrun
  refine ⟨hproved.inv.ids, hproved.inv.owners, fun client hclient => ⟨?_, ?_, ?_⟩⟩
  · exact hproved.inv.ready (List.ne_nil_of_mem hclient)
  · exact (hproved.inv.known client hclient).2
  · obtain ⟨task, htask, howner⟩ :=
      List.mem_map.mp (owners_of_boot hrun ▸ (hproved.inv.known client hclient).1)
    refine ⟨task, htask, howner, Bool.eq_false_iff.mpr fun hended => ?_⟩
    have hnone := hproved.finished htask hended
    rw [howner] at hnone
    exact (hnone client.1).mp hclient

end Runs

theorem registered_connections_are_open_two :
    ∃ w, Pool.Run rules twoConnections w ∧
      w.shared.clients = [(1, .connection 0), (2, .connection 1)] ∧
        ∀ client ∈ w.shared.clients,
          ∃ task ∈ w.tasks, task.owner = client.2 ∧ task.ended = false := by
  have hfinal : (replay Store.emptyStore twoConnections bothStart).map (fun w => w.shared.clients) =
      some [(1, .connection 0), (2, .connection 1)] := by
    decide +kernel
  obtain ⟨w, hw, hclients⟩ := Option.map_eq_some_iff.mp hfinal
  have hopen := registered_connections_are_open _ _ _ (by decide) _ (run_of_replay hw)
  exact ⟨w, run_of_replay hw, hclients, fun client hclient => (hopen.2.2 client hclient).2.2⟩

end NexusAuth.Runtime
