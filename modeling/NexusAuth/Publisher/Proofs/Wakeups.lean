import NexusAuth.Publisher.Loop
import NexusAuth.Replicate.Proofs.Programs
import NexusAuth.Store.Proofs.Durability

/-!
# No change is missed

When the publishing loop waits, nothing is left to do: the last round has read the store as it
is, unless a task is just about to ask for another round.  The exceptions are operations that
fail after they have changed the store in memory; their tasks end without asking.
-/

namespace NexusAuth.Waking

open NexusAuth.Authority NexusAuth.Lib.Interaction NexusAuth.Lib.Rely NexusAuth.Lib.Results
open NexusAuth.Lib.Tasks NexusAuth.Publisher NexusAuth.Replicate NexusAuth.Service

/-! ## The protocol -/

def Hub.Behind (s : Hub) : Prop := s.clients ≠ [] ∧ s.seen ≠ some s.store.snapshot

/-- There will be another round; `workers` are all tasks. -/
structure HubInv (workers : List Worker) (s : Hub) : Prop where
  awaited : s.Behind → s.permit = true ∨ s.reading = true ∨ (∃ i, s.unsaid i = true) ∨ s.torn = true
  known : ∀ i, s.unsaid i = true → i ∈ workers

structure HubMay (i : Worker) (s s' : Hub) : Prop where
  reading : i ≠ .loop → s'.reading = s.reading
  unsaid : ∀ j, j ≠ i → s'.unsaid j = s.unsaid j

def Said (i : Worker) (s : Hub) : Prop := s.unsaid i = false

def Rested (s : Hub) : Prop := Said .loop s ∧ s.reading = false

/-- The next question after a change asks for a round, and only a rested loop waits. -/
def hubGuard (s : Hub) (i : Worker) : LoopCall → Prop
  | .rep (.service .notifyPublish) => True
  | .select => i = .loop ∧ Rested s
  | _ => Said i s

def hubProtocol (prim : Primitives) (workers : List Worker) :
    Protocol Worker Hub LoopCall LoopAnswer :=
  Protocol.guarded ⟨answers prim, HubInv workers, HubMay⟩ hubGuard

section Protocol

variable {prim : Primitives} {workers : List Worker} {i : Worker} {s s' : Hub}

theorem stable_said {Q : Type} {A : Q → Type} {proto : Protocol Worker Hub Q A}
    (hproto : proto.may = HubMay) : proto.Stable i (Said i) := by
  intro j s s' hj _ h hmay
  rw [hproto] at hmay
  exact (hmay.unsaid i (Ne.symm hj)).trans h

theorem stable_rested {Q : Type} {A : Q → Type} {proto : Protocol Worker Hub Q A}
    (hproto : proto.may = HubMay) : proto.Stable .loop Rested := by
  intro j s s' hj hinv h hmay
  refine ⟨stable_said hproto j s s' hj hinv h.1 hmay, ?_⟩
  rw [hproto] at hmay
  exact (hmay.reading hj).trans h.2

theorem HubMay.refl : HubMay i s s := ⟨fun _ => rfl, fun _ _ => rfl⟩

def Plain : LoopCall → Prop
  | .select | .pushClient | .rep (.service (.changeStore _))
  | .rep (.service (.node .bumpIndexVersion)) => False
  | _ => True

structure Keeps (i : Worker) (s s' : Hub) : Prop where
  said : Said i s → Said i s'
  reading : s.reading = false → s'.reading = false

theorem Keeps.refl : Keeps i s s := ⟨id, id⟩

theorem checked_step (hs : HubInv workers s) :
    HubInv workers (s.checked i s.clients.isEmpty) ∧ HubMay i s (s.checked i s.clients.isEmpty) ∧
      Keeps i s (s.checked i s.clients.isEmpty) := by
  unfold Hub.checked
  split
  · rename_i hempty
    refine ⟨⟨fun hbehind => absurd ?_ hbehind.1, hs.known⟩,
      ⟨fun hi => absurd hempty.1 hi, fun _ _ => rfl⟩,
      ⟨id, fun _ => rfl⟩⟩
    exact List.isEmpty_iff.mp hempty.2
  · exact ⟨hs, .refl, .refl⟩

theorem read_step (hs : HubInv workers s) :
    HubInv workers (s.read i) ∧ HubMay i s (s.read i) ∧ Keeps i s (s.read i) := by
  unfold Hub.read
  split
  · rename_i hi
    exact ⟨⟨fun hbehind => absurd rfl hbehind.2, hs.known⟩, ⟨fun h => absurd hi h, fun _ _ => rfl⟩,
      ⟨id, fun _ => rfl⟩⟩
  · exact ⟨hs, .refl, .refl⟩

theorem known_update (hi : i ∈ workers) (hs : HubInv workers s) (j : Worker)
    (hj : Function.update s.unsaid i true j = true) : j ∈ workers := by
  by_cases hji : j = i
  · exact hji ▸ hi
  · exact hs.known j (by simpa [hji] using hj)

theorem pushed_step (hi : i ∈ workers) (hs : HubInv workers s) :
    HubInv workers (s.pushed i) ∧ HubMay i s (s.pushed i) :=
  ⟨⟨fun _ => Or.inr (Or.inr (Or.inl ⟨i, Function.update_self _ _ _⟩)), known_update hi hs⟩,
    fun _ => rfl, fun _ hj => Function.update_of_ne hj _ _⟩

theorem unregister_step (hs : HubInv workers s) (id : Nat) :
    HubInv workers { s with clients := s.clients.filter fun client => client ≠ id } ∧
      HubMay i s { s with clients := s.clients.filter fun client => client ≠ id } ∧
      Keeps i s { s with clients := s.clients.filter fun client => client ≠ id } := by
  refine ⟨⟨fun hbehind => hs.awaited ⟨fun hnil => hbehind.1 ?_, hbehind.2⟩, hs.known⟩,
    ⟨fun _ => rfl, fun _ _ => rfl⟩, ⟨fun h => h, fun h => h⟩⟩
  simp only [hnil, List.filter_nil]

theorem notify_step (hs : HubInv workers s) :
    HubInv workers { s with permit := true, unsaid := Function.update s.unsaid i false } ∧
      HubMay i s { s with permit := true, unsaid := Function.update s.unsaid i false } := by
  refine ⟨⟨fun _ => Or.inl rfl, fun j hj => ?_⟩, fun _ => rfl,
    fun j hj => Function.update_of_ne hj _ _⟩
  by_cases hji : j = i
  · subst hji
    simp at hj
  · exact hs.known j (by simpa [hji] using hj)

theorem plain_step {q : LoopCall} (hq : Plain q) {a : LoopAnswer q} (hs : HubInv workers s)
    (h : answers prim s i q a s') : HubInv workers s' ∧ HubMay i s s' ∧ Keeps i s s' := by
  have hsame : s' = s → HubInv workers s' ∧ HubMay i s s' ∧ Keeps i s s' := by
    rintro rfl
    exact ⟨hs, .refl, .refl⟩
  cases q with
  | select | pushClient => exact hq.elim
  | sleep | joinReadTask => exact hsame h
  | unregister id =>
      obtain rfl := h
      exact unregister_step hs id
  | rep q =>
      cases q with
      | service q =>
          cases q with
          | node q =>
              cases q with
              | isEmpty =>
                  obtain ⟨rfl, rfl⟩ := h
                  exact checked_step hs
              | storeSnapshot =>
                  obtain ⟨-, rfl⟩ := h
                  exact read_step hs
              | connections => exact hsame h.2
              | bumpIndexVersion => exact hq.elim
              | _ => exact hsame h
          | runtime => exact hsame h.2
          | notifyPublish =>
              obtain rfl := h
              obtain ⟨hinv, hmay⟩ := notify_step (i := i) hs
              exact ⟨hinv, hmay, fun _ => Function.update_self _ _ _, id⟩
          | changeStore => exact hq.elim
          | _ => exact hsame h
      | _ => exact hsame h

theorem guard_of_plain {q : LoopCall} (hq : Plain q) (hs : Said i s) : hubGuard s i q := by
  cases q with
  | select | pushClient => exact hq.elim
  | rep q =>
      cases q with
      | service q => cases q <;> trivial
      | _ => exact hs
  | _ => exact hs

theorem kept_said (q : LoopCall) (hq : Plain q) (a : LoopAnswer q) (s s' : Hub)
    (hs : HubInv workers s) (hsaid : Said i s) (h : (hubProtocol prim workers).answers s i q a s') :
    HubInv workers s' ∧ HubMay i s s' ∧ Said i s' := by
  obtain ⟨hinv, hmay, hkeeps⟩ := plain_step hq hs (h (guard_of_plain hq hsaid))
  exact ⟨hinv, hmay, hkeeps.said hsaid⟩

theorem notify_said (u : Unit) (s s' : Hub) (hs : HubInv workers s)
    (h : (hubProtocol prim workers).answers s i (.rep (.service .notifyPublish)) u s') :
    HubInv workers s' ∧ HubMay i s s' ∧ Said i s' := by
  obtain rfl := h trivial
  exact ⟨(notify_step hs).1, (notify_step hs).2, Function.update_self _ _ _⟩

theorem kept_rested (q : LoopCall) (hq : Plain q) (a : LoopAnswer q) (s s' : Hub)
    (hs : HubInv workers s) (hrested : Rested s)
    (h : (hubProtocol prim workers).answers s .loop q a s') :
    HubInv workers s' ∧ HubMay .loop s s' ∧ Rested s' := by
  obtain ⟨hinv, hmay, hkeeps⟩ := plain_step hq hs (h (guard_of_plain hq hrested.1))
  exact ⟨hinv, hmay, hkeeps.said hrested.1, hkeeps.reading hrested.2⟩

/-! ## Changes -/

theorem snapshot_of_unchanged {io : SaveIo} {store store' : Store} {op : Store.Op}
    {reply : Store.Reply} (h : store.exec prim io op = (store', .ok reply))
    (hreply : replyChanged reply = false) : store'.snapshot = store.snapshot := by
  have hversion : ∀ {out : Store × Except StoreError Nat},
      (out.1, out.2.map Store.Reply.version) = (store', .ok reply) → False := by
    intro out hout
    obtain ⟨version, -, rfl⟩ := map_eq_ok.mp (Prod.mk.inj hout).2
    cases hreply
  cases op with
  | applyReplicated u =>
      obtain ⟨flag, hflag, rfl⟩ := map_eq_ok.mp (Prod.mk.inj h).2
      obtain rfl : flag = false := hreply
      have hout : store.applyReplicated prim io u = (store', .ok false) :=
        Prod.ext (Prod.mk.inj h).1 hflag
      unfold Store.applyReplicated at hout
      split at hout
      · cases (Prod.mk.inj hout).2
      rename_i w changed hmerge
      cases changed with
      | true => cases Store.value_of_saveThen hout
      | false =>
          obtain rfl := (Prod.mk.inj hout).1
          rw [Store.eq_of_mergeEntry_false hmerge]
  | mergeSnapshot snap =>
      obtain ⟨flag, hflag, rfl⟩ := map_eq_ok.mp (Prod.mk.inj h).2
      obtain rfl : flag = false := hreply
      obtain ⟨w, hmerge, hw⟩ := Store.mergeEntries_of_mergeSnapshot
        (Prod.ext (Prod.mk.inj h).1 hflag : store.mergeSnapshot prim io snap = (store', .ok false))
      rw [← hw, (Store.eq_of_mergeEntries_false hmerge).1]
  | bumpIndexVersion =>
      obtain rfl := Except.ok.inj (Prod.mk.inj h).2
      cases hreply
  | _ => exact (hversion h).elim

theorem change_step (hi : i ∈ workers) (hs : HubInv workers s) (store : Store) (succeeded : Bool) :
    HubInv workers (s.change i store succeeded) ∧ HubMay i s (s.change i store succeeded) ∧
      (succeeded = false ∨ store.snapshot = s.store.snapshot → Said i s →
        Said i (s.change i store succeeded)) := by
  unfold Hub.change
  split
  · rename_i hsame
    refine ⟨⟨fun hbehind => hs.awaited ⟨hbehind.1, ?_⟩, hs.known⟩, ⟨fun _ => rfl, fun _ _ => rfl⟩,
      fun _ => id⟩
    rw [← hsame]
    exact hbehind.2
  rename_i hchanged
  split
  · refine ⟨⟨fun _ => Or.inr (Or.inr (Or.inl ⟨i, Function.update_self _ _ _⟩)), known_update hi hs⟩,
      ⟨fun _ => rfl, fun j hj => Function.update_of_ne hj _ _⟩, fun h => ?_⟩
    simp_all
  · exact ⟨⟨fun _ => Or.inr (Or.inr (Or.inr rfl)), hs.known⟩, ⟨fun _ => rfl, fun _ _ => rfl⟩,
      fun _ => id⟩

/-! ## Requests and pulls -/

abbrev repProtocol (prim : Primitives) (workers : List Worker) :
    Protocol Worker Hub Replicate.RepCall RepAnswer :=
  (hubProtocol prim workers).comap .rep

abbrev serviceProtocol (prim : Primitives) (workers : List Worker) :
    Protocol Worker Hub ServiceCall ServiceAnswer :=
  (repProtocol prim workers).comap .service

abbrev nodeProtocol (prim : Primitives) (workers : List Worker) :
    Protocol Worker Hub NodeCall NodeAnswer :=
  (serviceProtocol prim workers).comap .node

theorem onService_eq_embed {α : Type} (p : ServiceM α) : onService p = embed .service p := by
  induction p with
  | done a => rfl
  | ask q next ih => exact congrArg (Prog.ask (Replicate.RepCall.service q)) (funext ih)

theorem onNode_eq_embed {α : Type} (p : NodeM α) : onNode p = embed .node p := by
  induction p with
  | done a => rfl
  | ask q next ih => exact congrArg (Prog.ask (ServiceCall.node q)) (funext ih)

theorem triple_service {α : Type} {p : ServiceM α} {P : Hub → Prop} {R : α → Hub → Prop}
    (h : (serviceProtocol prim workers).Triple i P p R) :
    (repProtocol prim workers).Triple i P (onService p) R :=
  onService_eq_embed p ▸ triple_embed h

theorem triple_node {α : Type} {p : NodeM α} {P : Hub → Prop} {R : α → Hub → Prop}
    (h : (nodeProtocol prim workers).Triple i P p R) :
    (serviceProtocol prim workers).Triple i P (onNode p) R :=
  onNode_eq_embed p ▸ triple_embed h

abbrev PlainService (q : ServiceCall) : Prop := Plain (.rep (.service q))

theorem plainService_of_reads {q : ServiceCall} (h : Reads q) : PlainService q := by
  cases q with
  | node q => cases q <;> trivial
  | _ => trivial

theorem triple_said {α : Type} {p : ServiceM α} (h : Asks PlainService p) :
    (serviceProtocol prim workers).Triple i (Said i) p fun _ => Said i :=
  triple_of_asks (stable_said rfl) (fun q a s s' hq => kept_said (.rep (.service q)) hq a s s') h

theorem triple_reads {α : Type} {p : ServiceM α} (h : Asks Reads p) :
    (serviceProtocol prim workers).Triple i (Said i) p fun _ => Said i :=
  triple_said (h.mono fun _ => plainService_of_reads)

theorem triple_plain_bind {α : Type} (q : ServiceCall) (hq : PlainService q)
    {f : ServiceAnswer q → HandlerM α}
    (hf : ∀ a, (serviceProtocol prim workers).Triple i (Said i) (f a).run fun _ => Said i) :
    (serviceProtocol prim workers).Triple i (Said i) (consult q >>= f).run fun _ => Said i :=
  triple_kept_bind (stable_said rfl) (kept_said (.rep (.service q)) hq) hf

theorem triple_check_bind {α β ε : Type} {g : ε → SidecarError} (p : ServiceM (Except ε β))
    (hp : Asks PlainService p) {f : β → HandlerM α}
    (hf : ∀ b, (serviceProtocol prim workers).Triple i (Said i) (f b).run fun _ => Said i) :
    (serviceProtocol prim workers).Triple i (Said i) (consultOr g p >>= f).run fun _ => Said i := by
  refine triple_attempt_bind (M := fun _ => Said i) ((triple_said hp).mono (fun _ _ => id) ?_) hf
  rintro (e | b) s - h <;> exact h

def Owing (i : Worker) (out : Store.Reply × StoreSnapshot) (s : Hub) : Prop :=
  replyChanged out.1 = false → Said i s

theorem changeStore_step (hi : i ∈ workers) (op : Store.Op)
    (a : ServiceAnswer (.changeStore op)) (s s' : Hub) (hs : HubInv workers s) (hsaid : Said i s)
    (h : (hubProtocol prim workers).answers s i (.rep (.service (.changeStore op))) a s') :
    HubInv workers s' ∧ HubMay i s s' ∧ Settled (Owing i) (Said i) a s' := by
  obtain ⟨io, ha, rfl⟩ := h hsaid
  obtain ⟨hinv, hmay, hkeeps⟩ := change_step hi hs (s.store.exec prim io op).1 a.isOk
  refine ⟨hinv, hmay, ?_⟩
  cases a with
  | error e => exact hkeeps (Or.inl rfl) hsaid
  | ok out =>
      intro hunchanged
      obtain ⟨reply, hreply, rfl⟩ := map_eq_ok.mp ha.symm
      exact hkeeps (Or.inr (snapshot_of_unchanged (Prod.ext rfl hreply) hunchanged)) hsaid

theorem triple_change_bind {α : Type} (hi : i ∈ workers) {op : Store.Op}
    {f : Store.Reply × StoreSnapshot → HandlerM α}
    (hf : ∀ out, (serviceProtocol prim workers).Triple i (Owing i out)
      (f out).run fun _ => Said i) :
    (serviceProtocol prim workers).Triple i (Said i)
      (consultOr storeError (pose (.changeStore op)) >>= f).run fun _ => Said i := by
  refine triple_attempt_bind (triple_request (fun a => ?_) (changeStore_step hi op)) hf
  exact stable_settled (fun out => stable_imp (stable_said rfl)) (stable_said rfl) a

theorem triple_notify_bind {α : Type} {P : Hub → Prop} {f : Unit → HandlerM α}
    (hf : (serviceProtocol prim workers).Triple i (Said i) (f ()).run fun _ => Said i) :
    (serviceProtocol prim workers).Triple i P (consult .notifyPublish >>= f).run
      fun _ => Said i := by
  exact triple_request_bind (fun _ => Said i) (fun _ => stable_said rfl)
    (fun u s s' hs _ => notify_said u s s' hs) fun _ => hf

section Handlers

variable {ctx : ServiceContext} {client : Bool} {value : Json} {req : ManagementRequest}

theorem triple_afterChange_bind {α : Type} {update : Update} {P : Hub → Prop}
    {f : Unit → HandlerM α} (hf : ∀ u, Asks Reads (f u).run) :
    (serviceProtocol prim workers).Triple i P (afterChange ctx client update >>= f).run
      fun _ => Said i := by
  refine triple_bindExcept (M := fun _ => Said i) ?_ fun u => triple_reads (hf u)
  refine Protocol.Triple.mono (triple_notify_bind ?_) (fun _ _ => id) fun r s _ h => ?_
  · split
    · exact triple_said ⟨trivial, fun _ => trivial⟩
    · exact triple_done fun _ _ => id
  · cases r <;> exact h

theorem triple_changeMembers (hi : i ∈ workers) {op : String → List String → Store.Op} :
    (serviceProtocol prim workers).Triple i (Said i) (changeMembers ctx client req op).run
      fun _ => Said i := by
  refine triple_fallible_bind (fun _ _ => id) fun service _ => triple_change_bind hi fun out => ?_
  exact triple_afterChange_bind fun _ => asks_query_bind.mpr ⟨trivial, fun _ => trivial⟩

theorem triple_deleteService (hi : i ∈ workers) :
    (serviceProtocol prim workers).Triple i (Said i) (deleteService ctx client req).run
      fun _ => Said i := by
  refine triple_fallible_bind (fun _ _ => id) fun service _ => triple_change_bind hi fun out => ?_
  exact triple_afterChange_bind fun _ => trivial

theorem triple_handleManagement (hi : i ∈ workers) :
    (serviceProtocol prim workers).Triple i (Said i) (handleManagement ctx client req).run
      fun _ => Said i := by
  unfold handleManagement
  split
  · exact triple_reads ((asks_status ctx).bindExcept fun _ => trivial)
  · exact triple_reads ((asks_publicKey ctx).bindExcept fun _ => trivial)
  · exact triple_reads (asks_query_bind.mpr ⟨trivial, fun _ => trivial⟩)
  · exact triple_reads (asks_listMembers ctx req)
  · exact triple_changeMembers hi
  · exact triple_changeMembers hi
  · exact triple_changeMembers hi
  · exact triple_changeMembers hi
  · exact triple_deleteService hi
  · exact triple_notify_bind (triple_done fun _ _ => id)
  · exact triple_done fun _ _ => id

theorem triple_owing {out : Store.Reply × StoreSnapshot} {α : Type} {result : α} :
    (serviceProtocol prim workers).Triple i (Owing i out)
      (show HandlerM α from do
        if replyChanged out.1 then
          consult .notifyPublish
        return result).run fun _ => Said i := by
  split
  · exact triple_notify_bind (triple_done fun _ _ => id)
  · rename_i hunchanged
    exact triple_done fun _ _ h => h (Bool.eq_false_iff.mpr hunchanged)

theorem triple_handleReplicate (hi : i ∈ workers) :
    (serviceProtocol prim workers).Triple i (Said i) (handleReplicate ctx value).run
      fun _ => Said i := by
  refine triple_fallible_bind (fun _ _ => id) fun msg _ => ?_
  refine triple_plain_bind (.node .now) trivial fun now => ?_
  refine triple_check_bind (pose (.verifyReplicate msg now)) ⟨trivial, fun _ => trivial⟩ fun _ => ?_
  exact triple_change_bind hi fun out => triple_owing

theorem asks_handleSyncRequest : Asks PlainService (handleSyncRequest ctx value).run := by
  refine asks_fallible_bind.mpr fun req _ => asks_query_bind.mpr ⟨trivial, fun now => ?_⟩
  refine asks_attempt_bind ⟨trivial, fun _ => trivial⟩ fun _ => ?_
  refine asks_query_bind.mpr ⟨trivial, fun snapshot => asks_query_bind.mpr ⟨trivial, fun ts => ?_⟩⟩
  exact asks_attempt_bind ⟨trivial, fun _ => trivial⟩ fun _ => trivial

theorem triple_raftRuntime_bind {α : Type} {f : Unit → HandlerM α} :
    (serviceProtocol prim workers).Triple i (Said i) (raftRuntime >>= f).run fun _ => Said i := by
  refine triple_request_bind (fun ready s => ready = false ∧ Said i s)
    (fun _ => stable_const.and (stable_said rfl)) ?_ fun ready => ?_
  · intro ready s s' hs hsaid h
    obtain ⟨rfl, rfl⟩ := h hsaid
    exact ⟨hs, .refl, rfl, hsaid⟩
  · cases ready with
    | false => exact triple_done fun _ _ h => h.2
    | true => exact triple_false.mono (fun _ _ h => by cases h.1) fun _ _ _ => id

theorem triple_handleServiceRequest (hi : i ∈ workers) (hlegacy : ctx.raftRequired = false)
    {forwarder : Bool} {payload : Bytes} :
    (serviceProtocol prim workers).Triple i (Said i)
      (handleServiceRequest ctx client forwarder payload).run fun _ => Said i := by
  refine triple_fallible_bind (fun _ _ => id) fun value _ => ?_
  refine triple_fallible_bind (fun _ _ => id) fun op _ => ?_
  split
  · refine triple_plain_bind .runtime trivial fun ready => triple_fallible_bind (fun _ _ => id)
      fun _ _ => ?_
    exact triple_said (Asks.attempt ⟨trivial, fun _ => trivial⟩)
  split
  · exact triple_raftRuntime_bind
  split
  · exact triple_raftRuntime_bind
  split
  · exact triple_raftRuntime_bind
  split
  · exact triple_fallible_bind (fun _ _ => id) fun _ _ => triple_reads (asks_handleJoin ctx value)
  split
  · exact triple_fallible_bind (fun _ _ => id) fun _ _ => triple_handleReplicate hi
  split
  · exact triple_fallible_bind (fun _ _ => id) fun _ _ => triple_said asks_handleSyncRequest
  rw [hlegacy]
  refine triple_fallible_bind (fun _ _ => id) fun req _ => ?_
  refine triple_plain_bind (.node .now) trivial fun now => ?_
  exact triple_check_bind (pose (.verifyManagement req now)) ⟨trivial, fun _ => trivial⟩ fun _ =>
    triple_handleManagement hi

end Handlers

section Pulls

variable {ctx : RepContext}

theorem triple_rep {α : Type} {p : RepM α} (h : Asks (fun q => Plain (.rep q)) p) :
    (repProtocol prim workers).Triple i (Said i) p fun _ => Said i :=
  triple_of_asks (stable_said rfl) (fun q a s s' hq => kept_said (.rep q) hq a s s') h

theorem triple_inquire_bind {α : Type} (q : Replicate.RepCall) (hq : Plain (.rep q))
    {f : RepAnswer q → SyncM α}
    (hf : ∀ a, (repProtocol prim workers).Triple i (Said i) (f a).run fun _ => Said i) :
    (repProtocol prim workers).Triple i (Said i) (inquire q >>= f).run fun _ => Said i :=
  triple_kept_bind (stable_said rfl) (kept_said (.rep q) hq) hf

theorem triple_try_bind {α β ε : Type} {g : ε → String} (p : RepM (Except ε β))
    (hp : Asks (fun q => Plain (.rep q)) p) {f : β → SyncM α}
    (hf : ∀ b, (repProtocol prim workers).Triple i (Said i) (f b).run fun _ => Said i) :
    (repProtocol prim workers).Triple i (Said i) (attempt g p >>= f).run fun _ => Said i := by
  refine triple_attempt_bind (M := fun _ => Said i) ((triple_rep hp).mono (fun _ _ => id) ?_) hf
  rintro (e | b) s - h <;> exact h

theorem triple_syncWithPeer (hi : i ∈ workers) (peer : String) :
    (repProtocol prim workers).Triple i (Said i) (syncWithPeer ctx peer).run fun _ => Said i := by
  refine triple_inquire_bind (.randomB64 16) trivial fun nonce => ?_
  refine triple_inquire_bind (.service (.node .now)) trivial fun ts => ?_
  refine triple_inquire_bind (.signSyncRequest ctx.network nonce ts) trivial fun mac => ?_
  refine triple_fallible_bind (fun _ _ => id) fun payload _ => ?_
  refine triple_try_bind (Replicate.call (.service (.serviceRequestTo peer payload)))
    ⟨trivial, fun _ => trivial⟩ fun bytes => ?_
  refine triple_fallible_bind (fun _ _ => id) fun resp _ => ?_
  refine triple_try_bind (Replicate.call (.verifySyncResponse ctx.network nonce resp))
    ⟨trivial, fun _ => trivial⟩ fun _ => ?_
  refine triple_attempt_bind (M := Owing i) (triple_request (fun a => ?_)
    (changeStore_step hi (.mergeSnapshot resp.snapshot))) fun out => ?_
  · exact stable_settled (fun out => stable_imp (stable_said rfl)) (stable_said rfl) a
  · obtain ⟨reply, store⟩ := out
    dsimp only
    split
    · exact triple_request_bind (fun _ => Said i) (fun _ => stable_said rfl)
        (fun u s s' hs _ => notify_said u s s' hs) fun _ => triple_done fun _ _ => id
    · rename_i hunchanged
      exact triple_done fun _ _ h => h (Bool.eq_false_iff.mpr hunchanged)

theorem triple_syncFirst (hi : i ∈ workers) (peers : List String) :
    (repProtocol prim workers).Triple i (Said i) (syncFirst ctx peers) fun _ => Said i := by
  induction peers with
  | nil => exact triple_done fun _ _ => id
  | cons peer peers ih =>
      refine (triple_syncWithPeer hi peer).bind fun result => ?_
      cases result with
      | ok changed => exact triple_done fun _ _ => id
      | error e => exact ih

theorem asks_shuffle (n : Nat) (peers : List String) :
    Asks (fun q => Plain (.rep q)) (shuffle peers n) := by
  induction n generalizing peers with
  | zero => trivial
  | succ n ih => exact ⟨trivial, fun _ => ih _⟩

theorem triple_syncOnce (hi : i ∈ workers) :
    (repProtocol prim workers).Triple i (Said i) (syncOnce ctx) fun _ => Said i := by
  refine Protocol.Triple.bind (M := fun _ => Said i) (triple_rep ?_) fun peers => ?_
  · refine ⟨trivial, fun _ => ⟨trivial, fun me => ?_⟩⟩
    cases me <;> trivial
  · split
    · exact triple_done fun _ _ => id
    · exact (triple_rep (asks_shuffle _ _)).bind fun peers => triple_syncFirst hi peers

end Pulls

/-! ## The loop -/

section Loop

variable {ctx : RepContext}

abbrev PlainNode (q : NodeCall) : Prop := Plain (.rep (.service (.node q)))

theorem triple_node_rested {α : Type} {p : NodeM α} (h : Asks PlainNode p) :
    (nodeProtocol prim workers).Triple .loop Rested p fun _ => Rested :=
  triple_of_asks (stable_rested rfl)
    (fun q a s s' hq => kept_rested (.rep (.service (.node q))) hq a s s') h

theorem triple_renewLegacy (renew : Bool) :
    (nodeProtocol prim workers).Triple .loop (Said .loop) (renewLegacy renew)
      fun _ => Said .loop := by
  unfold renewLegacy
  split
  · refine triple_request_bind (fun _ => Said .loop) (fun _ => stable_said rfl) ?_ fun _ =>
      triple_done fun _ _ => id
    intro a s s' hs hsaid h
    obtain ⟨io, -, rfl⟩ := h hsaid
    refine ⟨⟨fun _ => Or.inr (Or.inl ?_), hs.known⟩,
      ⟨fun hi => absurd rfl hi, fun _ _ => rfl⟩, hsaid⟩
    exact Bool.or_true _
  · exact triple_done fun _ _ => id

theorem triple_publishOnceLegacy (renew : Bool) :
    (nodeProtocol prim workers).Triple .loop (Said .loop) (publishOnceLegacy ctx.toContext renew)
      fun _ => Rested := by
  refine (triple_renewLegacy renew).bind fun _ => ?_
  refine triple_request_bind (fun _ => Rested) (fun _ => stable_rested rfl) ?_ fun store =>
    triple_node_rested ?_
  · intro a s s' hs hsaid h
    obtain ⟨-, rfl⟩ := h hsaid
    obtain ⟨hinv, hmay, hkeeps⟩ := read_step (i := .loop) hs
    exact ⟨hinv, hmay, hkeeps.said hsaid, rfl⟩
  · refine ⟨trivial, fun now => ?_⟩
    refine (asks_publishWhitelists_of trivial trivial fun _ _ _ _ _ _ => trivial).bind
      fun entries => ?_
    cases entries with
    | error e => trivial
    | ok entries =>
        refine (asks_publishIndex_of trivial trivial fun _ _ _ _ _ => trivial).bind fun result => ?_
        cases result with
        | error e => trivial
        | ok u => exact ⟨trivial, fun _ => ⟨trivial, fun _ => trivial⟩⟩

theorem triple_publishOnce (hlegacy : ctx.raftRequired = false) (renew : Bool) :
    (hubProtocol prim workers).Triple .loop (Said .loop) (publishOnce ctx renew)
      fun _ => Rested := by
  refine triple_embed (triple_service (triple_node ?_))
  refine triple_request_bind (fun empty s => Said .loop s ∧ (empty = true → Rested s))
    (fun _ => (stable_said rfl).and (stable_imp (stable_rested rfl))) ?_ fun empty => ?_
  · intro empty s s' hs hsaid h
    obtain ⟨rfl, rfl⟩ := h hsaid
    obtain ⟨hinv, hmay, hkeeps⟩ := checked_step (i := .loop) hs
    refine ⟨hinv, hmay, hkeeps.said hsaid, fun hempty => ⟨hkeeps.said hsaid, ?_⟩⟩
    rw [Hub.checked, if_pos ⟨rfl, hempty⟩]
  · cases empty with
    | true => exact triple_done fun _ _ h => h.2 rfl
    | false =>
        simp only [Bool.false_eq_true, if_false, hlegacy]
        exact (triple_publishOnceLegacy renew).mono (fun _ _ h => h.1) fun _ _ _ => id

theorem triple_attemptsLeft (hlegacy : ctx.raftRequired = false) (renew : Bool) (n : Nat) :
    (hubProtocol prim workers).Triple .loop (Said .loop) (attemptsLeft ctx renew n)
      fun _ => Rested := by
  induction n with
  | zero => exact triple_publishOnce hlegacy renew
  | succ n ih =>
      refine (triple_publishOnce hlegacy renew).bind fun result => ?_
      cases result with
      | ok outcome => exact triple_done fun _ _ => id
      | error e =>
          refine triple_kept_bind (stable_rested rfl) (kept_rested .sleep trivial) fun _ => ?_
          exact ih.mono (fun _ _ h => h.1) fun _ _ _ => id

theorem woken_step (wake : Wake) (s s' : Hub) (hs : HubInv workers s) (hrested : Rested s)
    (h : (hubProtocol prim workers).answers s .loop .select wake s') :
    HubInv workers s' ∧ HubMay .loop s s' ∧ Said .loop s' ∧ (wake = .shutdown → Rested s') := by
  obtain ⟨-, rfl⟩ := h ⟨rfl, hrested⟩
  cases wake with
  | shutdown => exact ⟨hs, .refl, hrested.1, fun _ => hrested⟩
  | _ => exact ⟨⟨fun _ => Or.inr (Or.inl rfl), hs.known⟩, ⟨fun hi => absurd rfl hi, fun _ _ => rfl⟩,
      hrested.1, fun h => by cases h⟩

theorem triple_run (hlegacy : ctx.raftRequired = false) (n : Nat) :
    (hubProtocol prim workers).Triple .loop Rested (run ctx n) fun _ => Rested := by
  induction n with
  | zero => exact triple_done fun _ _ => id
  | succ n ih =>
      have hround : ∀ renew, (hubProtocol prim workers).Triple .loop (Said .loop)
          (runPublishRound ctx renew >>= fun _ => run ctx n) fun _ => Rested := fun renew =>
        ((triple_attemptsLeft hlegacy renew _).bind fun _ => triple_done fun _ _ => id).bind
          fun _ => ih
      refine triple_request_bind (fun wake s => Said .loop s ∧ (wake = .shutdown → Rested s))
        (fun _ => (stable_said rfl).and (stable_imp (stable_rested rfl))) woken_step fun wake => ?_
      cases wake with
      | shutdown => exact triple_done fun _ _ h => h.2 rfl
      | notified => exact (hround false).mono (fun _ _ h => h.1) fun _ _ _ => id
      | renewNotified => exact (hround true).mono (fun _ _ h => h.1) fun _ _ _ => id
      | tick => exact (hround true).mono (fun _ _ h => h.1) fun _ _ _ => id

/-- A connection owes a round between the two steps of its registration. -/
theorem triple_connection (hi : i ∈ workers) :
    (hubProtocol prim workers).Triple i (Said i) connection fun _ => Said i := by
  refine triple_request_bind (fun _ _ => True) (fun _ => stable_const) ?_ fun id => ?_
  · intro id s s' hs hsaid h
    obtain ⟨-, rfl⟩ := h hsaid
    obtain ⟨hinv, hmay⟩ := pushed_step hi hs
    exact ⟨hinv, hmay, trivial⟩
  refine triple_request_bind (fun _ => Said i) (fun _ => stable_said rfl)
    (fun u s s' hs _ => notify_said u s s' hs) fun _ => ?_
  exact triple_of_asks (stable_said rfl) (fun q a s s' hq => kept_said q hq a s s')
    ⟨trivial, fun _ => ⟨trivial, fun _ => trivial⟩⟩

def Quiet (i : Worker) (s : Hub) : Prop := Said i s ∧ (i = .loop → Rested s)

theorem stable_quiet : (hubProtocol prim workers).Stable i (Quiet i) := by
  refine (stable_said rfl).and ?_
  by_cases hi : i = .loop
  · subst hi
    exact stable_imp (stable_rested rfl)
  · exact fun _ _ _ _ _ _ _ h => absurd h hi

theorem triple_program (hlegacy : ctx.raftRequired = false) (hi : i ∈ workers) (rounds : Nat)
    (payload : Nat → Bytes) :
    (hubProtocol prim workers).Triple i (Quiet i) (program ctx rounds payload i)
      fun _ => Quiet i := by
  have hother : i ≠ .loop → (hubProtocol prim workers).Triple i (Said i)
      (program ctx rounds payload i) (fun _ => Said i) →
      (hubProtocol prim workers).Triple i (Quiet i) (program ctx rounds payload i)
        fun _ => Quiet i :=
    fun hi h => h.mono (fun _ _ h => h.1) fun _ _ _ h => ⟨h, fun heq => absurd heq hi⟩
  cases i with
  | loop => exact (triple_run hlegacy rounds).mono (fun _ _ h => h.2 rfl) fun _ _ _ h =>
      ⟨h.1, fun _ => h⟩
  | request n =>
      refine hother (by simp) (triple_embed ?_)
      exact (triple_service (triple_handleServiceRequest hi hlegacy)).bind fun _ =>
        triple_done fun _ _ => id
  | pull n =>
      refine hother (by simp) (triple_embed ?_)
      exact (triple_syncOnce hi).bind fun _ => triple_done fun _ _ => id
  | connection n => exact hother (by simp) (triple_connection hi)

end Loop

end Protocol

/-! ## Runs -/

section Runs

variable {prim : Primitives} {ctx : RepContext} {rounds : Nat} {payload : Nat → Bytes}
  {workers : List Worker} {store : Store} {w : HubPool}

theorem hub_proved (hlegacy : ctx.raftRequired = false) (hworkers : workers.Nodup)
    (hrun : Pool.Run (rules prim) (boot ctx rounds payload workers store) w) :
    Proved (hubProtocol prim workers) Quiet w := by
  have hboot : Proved (hubProtocol prim workers) Quiet (boot ctx rounds payload workers store) := by
    refine ⟨⟨fun h => absurd rfl h.1, fun _ h => by cases h⟩, ?_, fun task htask => ?_⟩
    · simpa [boot, Function.comp_def] using hworkers
    · obtain ⟨i, hi, rfl⟩ := List.mem_map.mp htask
      exact ⟨Quiet i, stable_quiet, ⟨rfl, fun _ => ⟨rfl, rfl⟩⟩,
        triple_program hlegacy hi rounds payload⟩
  exact hboot.run (Protocol.run_guarded hrun)

theorem nonempty_answer (q : LoopCall) : Nonempty (LoopAnswer q) := by
  cases q with
  | select => exact ⟨Wake.tick⟩
  | pushClient => exact ⟨(0 : Nat)⟩
  | rep q =>
      cases q with
      | service q => exact ⟨idleService [] q⟩
      | discoverProviders => exact ⟨.ok []⟩
      | verifySyncResponse => exact ⟨.ok ()⟩
      | randomB64 | signReplicate | signSyncRequest => exact ⟨""⟩
      | nextU32 => exact ⟨(0 : Nat)⟩
  | _ => exact ⟨()⟩

theorem said_of_guard {s : Hub} {i : Worker} {q : LoopCall}
    (hq : q ≠ .rep (.service .notifyPublish)) (h : hubGuard s i q) : Said i s := by
  cases q with
  | select => exact h.1 ▸ h.2.1
  | rep q =>
      cases q with
      | service q => cases q <;> first | exact h | exact absurd rfl hq
      | _ => exact h
  | _ => exact h

theorem hub_allowed (hlegacy : ctx.raftRequired = false) (hworkers : workers.Nodup)
    (hrun : Pool.Run (rules prim) (boot ctx rounds payload workers store) w)
    {task : Task Worker LoopCall LoopAnswer} (htask : task ∈ w.tasks) {q : LoopCall}
    {next : LoopAnswer q → LoopM Unit} (hrest : task.rest = .ask q next) :
    hubGuard w.shared task.owner q := by
  obtain ⟨a⟩ := nonempty_answer q
  refine (hub_proved hlegacy hworkers hrun).allowed ⟨?_, fun h => ?_⟩ htask a hrest
  · exact { Hub.initial store with clients := [1] }
  · obtain hpermit | hreading | ⟨i, hi⟩ | htorn := h.awaited ⟨by simp, by simp [Hub.initial]⟩
    · cases hpermit
    · cases hreading
    · cases hi
    · cases htorn

theorem awaits_of_unsaid (hlegacy : ctx.raftRequired = false) (hworkers : workers.Nodup)
    (hrun : Pool.Run (rules prim) (boot ctx rounds payload workers store) w) {i : Worker}
    (hi : w.shared.unsaid i = true) :
    ∃ task ∈ w.tasks, phase task = .notifying := by
  have hproved := hub_proved hlegacy hworkers hrun
  have hrun' : Pool.Run (hubProtocol prim workers).rules
      (boot ctx rounds payload workers store) w :=
    Protocol.run_guarded hrun
  have howners : w.tasks.map Task.owner = workers :=
    (owners_of_run hrun').trans (by simp [boot, Function.comp_def])
  have hunsaid : ¬Said i w.shared := by rw [Said, hi]; exact Bool.noConfusion
  obtain ⟨task, htask, rfl⟩ := List.mem_map.mp (howners ▸ hproved.inv.known i hi)
  cases hrest : task.rest with
  | done u => exact absurd (hproved.finished htask (by rw [Task.ended, hrest])).1 hunsaid
  | ask q next =>
      by_cases hq : q = .rep (.service .notifyPublish)
      · subst hq
        exact ⟨task, htask, by rw [phase, hrest]⟩
      · exact absurd (said_of_guard hq (hub_allowed hlegacy hworkers hrun htask hrest)) hunsaid

theorem rested_of_waiting (hlegacy : ctx.raftRequired = false) (hworkers : workers.Nodup)
    (hrun : Pool.Run (rules prim) (boot ctx rounds payload workers store) w)
    {task : Task Worker LoopCall LoopAnswer} (htask : task ∈ w.tasks)
    (hphase : phase task = .waiting) : Rested w.shared := by
  unfold phase at hphase
  split at hphase
  · rename_i next hrest
    exact (hub_allowed hlegacy hworkers hrun htask hrest).2
  · cases hphase
  · cases hphase

/-- When the loop waits without a permit, no task is about to give it one, and there are
connections, then the last round has read the store as it is, unless some operation has failed
after it had changed the store in memory. -/
theorem no_change_is_missed (prim : Primitives) (ctx : RepContext)
    (hlegacy : ctx.raftRequired = false) (rounds : Nat) (payload : Nat → Bytes)
    (workers : List Worker) (hworkers : workers.Nodup) (store : Store)
    (hrun : Pool.Run (rules prim) (boot ctx rounds payload workers store) w)
    (hwaits : ∃ task ∈ w.tasks, phase task = .waiting)
    (hsaid : ∀ task ∈ w.tasks, phase task ≠ .notifying)
    (hpermit : w.shared.permit = false) (hclients : w.shared.clients ≠ [])
    (htorn : w.shared.torn = false) : w.shared.seen = some w.shared.store.snapshot := by
  by_contra hseen
  obtain h | h | ⟨i, hi⟩ | h := (hub_proved hlegacy hworkers hrun).inv.awaited ⟨hclients, hseen⟩
  · rw [hpermit] at h
    cases h
  · obtain ⟨task, htask, hwaiting⟩ := hwaits
    rw [(rested_of_waiting hlegacy hworkers hrun htask hwaiting).2] at h
    cases h
  · obtain ⟨task, htask, hnotify⟩ := awaits_of_unsaid hlegacy hworkers hrun hi
    exact hsaid task htask hnotify
  · rw [htorn] at h
    cases h

theorem no_change_is_missed_during_round :
    ∃ w, Pool.Run (rules samplePrimitives) oneChange w ∧
      w.shared.store.snapshot ≠ Store.emptyStore.snapshot ∧
        w.shared.seen = some w.shared.store.snapshot := by
  have hfinal : (replay oneChange duringRound).map (fun w => (w.tasks.map phase, w.shared.permit,
      w.shared.clients, w.shared.torn, w.shared.store.snapshot.services.keys)) =
      some ([.waiting, .other, .other], false, [1], false, ["cmd"]) := by
    decide +kernel
  obtain ⟨w, hw, hshared⟩ := Option.map_eq_some_iff.mp hfinal
  obtain ⟨hphase, hrest⟩ := Prod.mk.inj hshared
  obtain ⟨hpermit, hrest⟩ := Prod.mk.inj hrest
  obtain ⟨hclients, hrest⟩ := Prod.mk.inj hrest
  obtain ⟨htorn, hkeys⟩ := Prod.mk.inj hrest
  have hrun := run_of_replay hw
  refine ⟨w, hrun, fun hsame => ?_,
    no_change_is_missed _ _ rfl _ _ _ (by decide) _ hrun ?_ ?_ hpermit ?_ htorn⟩
  · rw [hsame] at hkeys
    revert hkeys
    decide +kernel
  · have hmem : Phase.waiting ∈ w.tasks.map phase := by rw [hphase]; decide
    exact List.mem_map.mp hmem
  · intro task htask hnotifying
    have hmem : Phase.notifying ∈ w.tasks.map phase := List.mem_map.mpr ⟨task, htask, hnotifying⟩
    rw [hphase] at hmem
    revert hmem
    decide
  · rw [hclients]
    exact List.cons_ne_nil _ _

end Runs

end NexusAuth.Waking
