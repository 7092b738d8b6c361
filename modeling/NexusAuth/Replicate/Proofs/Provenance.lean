import NexusAuth.Replicate.Proofs.Flow

/-!
# Where a policy comes from

Every entry in the store of any sidecar goes back to the configuration of some sidecar or to
management requests that some sidecar has verified: there is no service that nobody created,
no member of a service that nobody named for it, and no deletion that nobody asked for.  The
tasks of the sidecars are interleaved in any way, and the network does what it wants.
-/

namespace NexusAuth.Replicate

open NexusAuth.Authority NexusAuth.Lib.Interaction NexusAuth.Lib.OrderedMap NexusAuth.Lib.Tasks
open NexusAuth.Lib.Words NexusAuth.Service

/-! ## What justifies an entry -/

section Justified

variable {ι : Type} (store : ι → Store) (approved : List ManagementRequest) (service : String)

/-- The service was configured, or its creation was requested. -/
def Created : Prop :=
  (∃ i state, (store i).services[service]? = some state) ∨
    ∃ req ∈ approved, req.op = "create_service" ∧ req.service = service

/-- The peer was configured as a member, or a request named it for the service. -/
def Granted (peer : String) : Prop :=
  (∃ i state, (store i).services[service]? = some state ∧ peer ∈ state.members) ∨
    ∃ req ∈ approved,
      (req.op = "create_service" ∨ req.op = "add_members" ∨ req.op = "set_members") ∧
        req.service = service ∧ peer ∈ req.peers

/-- There was a tombstone at the start, or the deletion was requested. -/
def Deleted : Prop :=
  (∃ (i : ι) (version : Nat), (store i).tombstones[service]? = some version) ∨
    ∃ req ∈ approved, req.op = "delete_service" ∧ req.service = service

inductive Justified : Entry → Prop
  | live {version : Nat} {members : PeerSet} (hcreated : Created store approved service)
      (hmembers : ∀ p ∈ members, Granted store approved service p) :
      Justified (.live version members)
  | tombstone {version : Nat} (hdeleted : Deleted store approved service) :
      Justified (.tombstone version)

variable {store approved service}

theorem Justified.mono {approved' : List ManagementRequest} {e : Entry}
    (happroved : ∀ req ∈ approved, req ∈ approved') (h : Justified store approved service e) :
    Justified store approved' service e := by
  cases h with
  | live hcreated hmembers =>
      refine .live (hcreated.imp_right ?_) fun p hp => (hmembers p hp).imp_right ?_
      · exact fun ⟨req, hreq, hrest⟩ => ⟨req, happroved req hreq, hrest⟩
      · exact fun ⟨req, hreq, hrest⟩ => ⟨req, happroved req hreq, hrest⟩
  | tombstone hdeleted =>
      exact .tombstone (hdeleted.imp_right fun ⟨req, hreq, hrest⟩ =>
        ⟨req, happroved req hreq, hrest⟩)

theorem justified_of_holds {i : ι} {e : Entry} (h : (store i).Holds service e) :
    Justified store approved service e := by
  cases h with
  | live hlive => exact .live (.inl ⟨i, _, hlive⟩) fun p hp => .inl ⟨i, _, hlive, hp⟩
  | tombstone htomb => exact .tombstone (.inl ⟨i, _, htomb⟩)

theorem justified_of_writes {prim : Primitives} {s : Store} {op : Store.Op}
    {req : ManagementRequest} {e : Entry} (hreq : req ∈ approved) (hop : Requested req op)
    (hs : ∀ e, s.Holds service e → Justified store approved service e)
    (h : Store.Writes prim s op service e) : Justified store approved service e := by
  cases h with
  | created hcreate =>
      subst hcreate
      cases hop with
      | create hname =>
          refine .live (.inr ⟨req, hreq, hname, rfl⟩) fun p hp =>
            .inr ⟨req, hreq, .inl hname, rfl, ?_⟩
          exact mem_collectPeers.mp hp
  | deleted hdelete =>
      subst hdelete
      cases hop with
      | delete hname => exact .tombstone (.inr ⟨req, hreq, hname, rfl⟩)
  | @edited state members hedited hlive hmembers =>
      cases hs _ (.live hlive) with
      | live hcreated hold =>
          refine .live hcreated fun p hp => (hmembers p hp).elim (hold p) fun hnew => ?_
          cases hop with
          | add hname =>
              exact .inr ⟨req, hreq, .inr (.inl hname), Option.some.inj hedited, hnew.1⟩
          | set hname =>
              exact .inr ⟨req, hreq, .inr (.inr hname), Option.some.inj hedited, hnew.1⟩
          | remove _ => cases hnew.1
          | create _ => cases hedited
          | delete _ => cases hedited
  | received hreceived => cases hop <;> cases hreceived

end Justified

/-! ## Every run -/

section Runs

variable {ι : Type} [DecidableEq ι] {setting : Setting ι}
  {permits : Store → Store.Op → Store → Prop} {c c' : Cluster ι}

theorem flow_justified (hplain : setting.crypto.toPrimitives.PlainPeerIds)
    (hsigning : setting.crypto.toCrypto.Signing) (store : ι → Store) :
    Flow setting permits (fun _ => True) fun c name e => Justified store c.approved name e where
  plain := hplain
  signing := hsigning
  keeps _ _ _ _ _ _ _ := trivial
  mono _ _ _ _ _ _ h _ _ he := he.mono (moves_of_answers h).mem_approved
  writes _ i _ _ _ hI hreq hop _ _ _ _ hwrites :=
    justified_of_writes hreq hop (fun e he => ((hI.stores i).entries _ e he).holds) hwrites

/-- Whatever a sidecar holds at any time was configured or requested. -/
theorem entries_are_justified (setting : Setting ι)
    (hplain : setting.crypto.toPrimitives.PlainPeerIds)
    (hsigning : setting.crypto.toCrypto.Signing) (store : ι → Store)
    (hstart : ∀ i, Startable setting.crypto.toPrimitives (store i)) {w : ClusterPool ι}
    (hrun : Pool.Run (rules setting fun _ _ _ => True) (start store) w) (i : ι)
    {name : String} {e : Entry} (h : (w.shared.sidecar i).store.Holds name e) :
    Justified store w.shared.approved name e := by
  have hflow : Flow setting (fun _ _ _ => True) (fun _ => True) fun c name e =>
      Justified store c.approved name e := flow_justified hplain hsigning store
  have hw := hflow.upheld trivial hstart (fun _ _ _ he => justified_of_holds he) hrun
  exact ((hw.shared.stores i).entries name e h).holds

end Runs

theorem sound_emptyStore : Store.Sound samplePrimitives Store.emptyStore :=
  Store.sound_of_reachable Store.reachable_emptyStore

theorem startable_emptyStore : Startable samplePrimitives Store.emptyStore :=
  startable_of_sound sound_emptyStore

/-- The service `cmd` gets from the sidecar that was asked to create it to the other one. -/
theorem entries_are_justified_pulled :
    ∃ w, Pool.Run (rules clusterSetting fun _ _ _ => True) (start fun _ => Store.emptyStore) w ∧
      (w.shared.sidecar true).store.Holds "cmd" (.live 1 (collectPeers [peerA])) ∧
      Justified (fun _ : Bool => Store.emptyStore) w.shared.approved "cmd"
        (.live 1 (collectPeers [peerA])) := by
  let final := sampleScript (fun _ _ _ => true) (start fun _ => Store.emptyStore)
    (sampleRequests ++ samplePulls)
  have hfinal : (final.bind fun w => (w.shared.sidecar true).store.services["cmd"]?) =
      some ⟨1, collectPeers [peerA]⟩ := by
    decide +kernel
  obtain ⟨w, hw, hlive⟩ := Option.bind_eq_some_iff.mp hfinal
  have hrun : Pool.Run (rules clusterSetting fun _ _ _ => True)
      (start fun _ => Store.emptyStore) w :=
    run_of_sampleScript (fun _ _ _ _ => trivial) hw
  exact ⟨w, hrun, .live hlive, entries_are_justified clusterSetting samplePrimitives_plainPeerIds
    idealCrypto_signing _ (fun _ => startable_emptyStore) hrun true (.live hlive)⟩

end NexusAuth.Replicate
