import NexusAuth.Joining.Proofs.Handshake
import NexusAuth.Replicate.Proofs.Programs

/-!
# What flows between sidecars

Whatever is true of the entries that sidecars start with and write themselves is true of every
entry anywhere: in the stores, in the messages under way and in the snapshots that tasks hold
on to (`Flow.disciplined`).  The network cannot add anything, since an entry enters a store only
from a message with a MAC, and the MAC fixes the entry.
-/

namespace NexusAuth.Replicate

open NexusAuth.Authority NexusAuth.Lib.Framing NexusAuth.Lib.Interaction NexusAuth.Lib.Results
open NexusAuth.Lib.Tasks NexusAuth.Lib.Words NexusAuth.Service

/-! ## What a MAC fixes -/

section Inputs

variable {crypto : MacCrypto} {network network' nonce nonce' : String} {ts ts' : Nat}
  {snapshot snapshot' : StoreSnapshot} {input : Bytes}

theorem nonce_of_syncReqInput (hnetwork : 0 ∉ utf8Bytes network) (hnonce : 0 ∉ utf8Bytes nonce)
    (h : syncReqInput network' nonce' ts' = syncReqInput network nonce ts) : nonce' = nonce := by
  rw [syncReqInput_eq, syncReqInput_eq, List.append_right_inj, List.cons.injEq] at h
  have hsplit : ∀ network nonce ts, utf8Bytes network ++ 0 :: (utf8Bytes nonce ++ 0 :: beBytes ts) =
      (utf8Bytes network ++ 0 :: utf8Bytes nonce) ++ 0 :: beBytes ts := by
    intro network nonce ts
    rw [List.append_assoc, List.cons_append]
  rw [hsplit, hsplit] at h
  obtain ⟨htexts, -⟩ := List.append_inj' h.2 (by simp)
  exact utf8Bytes_inj (append_sep_inj_of_plain hnetwork hnonce htexts).2

theorem snapshot_of_syncRespInput (hsigning : crypto.toCrypto.Signing)
    (hnonce : 0 ∉ utf8Bytes nonce) (hnonce' : 0 ∉ utf8Bytes nonce')
    (h : syncRespInput crypto network nonce snapshot ts = .ok input)
    (h' : syncRespInput crypto network nonce' snapshot' ts' = .ok input) :
    snapshot' = snapshot := by
  simp only [syncRespInput, bind_eq_ok, pure_eq_ok] at h h'
  obtain ⟨cbor, hcbor, rfl⟩ := h
  obtain ⟨cbor', hcbor', hinput⟩ := h'
  simp only [List.append_assoc, List.cons_append, List.nil_append, List.append_cancel_left_eq,
    List.cons.injEq, true_and] at hinput
  obtain ⟨-, hrest⟩ := append_sep_inj hnonce' hnonce hinput
  obtain ⟨rfl, -⟩ := List.append_inj' hrest (by simp)
  have hfields := hsigning.cbor_inj _ _ _ (by rfl) (mapError_eq_ok.mp hcbor')
    (mapError_eq_ok.mp hcbor)
  exact PasswordJoin.snapshot_cbor_inj (congrArg Cbor.map hfields)

theorem entry_of_agree {msg msg' : ReplicateMsg} (h : msg.Agree msg') :
    msg.update.entry = msg'.update.entry := by
  simp only [ReplicateMsg.update, Update.entry, ← h.version, ← h.deleted]
  by_cases hd : msg.deleted = true
  · simp only [hd, if_true]
  · simp only [hd, h.members (Bool.eq_false_of_not_eq_true hd)]

end Inputs

namespace Cluster

variable {ι : Type} {crypto : MacCrypto} {c : Cluster ι}

theorem HasMac.replicate {msg : ReplicateMsg} (h : c.HasMac crypto (replicateInput msg)) :
    ∃ msg', .replicate msg' ∈ c.signed ∧ replicateInput msg' = replicateInput msg := by
  obtain ⟨item, hmem, hinput⟩ := h
  cases item with
  | replicate msg' => exact ⟨msg', hmem, Except.ok.inj hinput⟩
  | syncRequest network nonce ts =>
      exact absurd (Except.ok.inj hinput).symm (replicateInput_ne_syncReqInput _ _ _ _)
  | syncResponse network nonce snapshot ts =>
      exact absurd rfl (replicateInput_ne_syncRespInput hinput msg)

theorem HasMac.syncRequest {network nonce : String} {ts : Nat}
    (h : c.HasMac crypto (syncReqInput network nonce ts)) :
    ∃ network' nonce' ts', .syncRequest network' nonce' ts' ∈ c.signed ∧
      syncReqInput network' nonce' ts' = syncReqInput network nonce ts := by
  obtain ⟨item, hmem, hinput⟩ := h
  cases item with
  | replicate msg => exact absurd (Except.ok.inj hinput) (replicateInput_ne_syncReqInput _ _ _ _)
  | syncRequest network' nonce' ts' => exact ⟨_, _, _, hmem, Except.ok.inj hinput⟩
  | syncResponse network' nonce' snapshot ts' =>
      exact absurd rfl (syncReqInput_ne_syncRespInput hinput network nonce ts)

theorem HasMac.syncResponse {network nonce : String} {snapshot : StoreSnapshot} {ts : Nat}
    {input : Bytes} (hinput : syncRespInput crypto network nonce snapshot ts = .ok input)
    (h : c.HasMac crypto input) :
    ∃ network' nonce' snapshot' ts', .syncResponse network' nonce' snapshot' ts' ∈ c.signed ∧
      syncRespInput crypto network' nonce' snapshot' ts' = .ok input := by
  obtain ⟨item, hmem, hitem⟩ := h
  cases item with
  | replicate msg =>
      exact absurd (Except.ok.inj hitem) (replicateInput_ne_syncRespInput hinput msg)
  | syncRequest network' nonce' ts' =>
      exact absurd (Except.ok.inj hitem) (syncReqInput_ne_syncRespInput hinput _ _ _)
  | syncResponse network' nonce' snapshot' ts' => exact ⟨_, _, _, _, hmem, hitem⟩

end Cluster

/-! ## Good entries -/

structure Fits (prim : Primitives) (name : String) (e : Entry) : Prop where
  name : isValidServiceName name = true
  version : e.version < 2 ^ 64
  members : ∀ p ∈ e.members, isValidPeerId prim p = true

section Good

variable {ι : Type} (setting : Setting ι) (P : String → Entry → Prop)

structure Good (name : String) (e : Entry) : Prop where
  fits : Fits setting.crypto.toPrimitives name e
  holds : P name e

structure GoodSnapshot (snap : StoreSnapshot) : Prop where
  indexVersion : snap.indexVersion < 2 ^ 64
  entries : ∀ name e, snap.Holds name e → Good setting P name e

structure GoodUpdate (u : Update) : Prop where
  indexVersion : u.indexVersion < 2 ^ 64
  entry : Good setting P u.service u.entry

def GoodSigned : Signed → Prop
  | .replicate msg => msg.ts < 2 ^ 64 ∧ GoodUpdate setting P msg.update
  | .syncRequest network nonce _ => network = setting.network ∧ 0 ∉ utf8Bytes nonce
  | .syncResponse network nonce snap _ =>
      network = setting.network ∧ 0 ∉ utf8Bytes nonce ∧ GoodSnapshot setting P snap

variable (Φ : Cluster ι → String → Entry → Prop) (c : Cluster ι)

structure Intact (J : Cluster ι → Prop) : Prop where
  base : J c
  stores : ∀ i, GoodSnapshot setting (Φ c) (c.sidecar i).store.snapshot
  queued : ∀ item ∈ c.queued, GoodUpdate setting (Φ c) item.2
  signed : ∀ item ∈ c.signed, GoodSigned setting (Φ c) item

/-- What is known of an answer, for as long as a task keeps it. -/
def Credible (e : RepEvent) : Prop :=
  match e with
  | ⟨.randomB64 _, nonce⟩ => 0 ∉ utf8Bytes nonce
  | ⟨.service (.node .now), now⟩ => now < 2 ^ 64
  | ⟨.service .runtime, ready⟩ => ready = false
  | ⟨.service (.node .storeSnapshot), snap⟩ => GoodSnapshot setting (Φ c) snap
  | ⟨.service (.changeStore op), result⟩ => ∀ reply snap, result = .ok (reply, snap) →
      GoodSnapshot setting (Φ c) snap ∧ Store.Reported op reply snap
  | ⟨.service (.verifyManagement req _), result⟩ => result = .ok () → req ∈ c.approved
  | ⟨.service (.verifyReplicate msg _), result⟩ => result = .ok () → ∃ msg',
      (msg'.ts < 2 ^ 64 ∧ GoodUpdate setting (Φ c) msg'.update) ∧
        replicateInput msg' = replicateInput msg
  | ⟨.service (.verifySyncRequest req _), result⟩ => result = .ok () → 0 ∉ utf8Bytes req.nonce
  | ⟨.verifySyncResponse network nonce resp, result⟩ => result = .ok () →
      network = setting.network → 0 ∉ utf8Bytes nonce → GoodSnapshot setting (Φ c) resp.snapshot
  | _ => True

/-- How an answer to one task can move the cluster under the others. -/
structure Grows (c' : Cluster ι) : Prop where
  queued : ∀ item ∈ c.queued, item ∈ c'.queued
  approved : ∀ req ∈ c.approved, req ∈ c'.approved
  property : ∀ name e, Φ c name e → Φ c' name e

end Good

section Mono

variable {ι : Type} {setting : Setting ι} {P P' : String → Entry → Prop}
  {Φ : Cluster ι → String → Entry → Prop} {J : Cluster ι → Prop} {c c' : Cluster ι}

theorem grows_of (hmono : ∀ name e, Φ c name e → Φ c' name e) (hqueued : c'.queued = c.queued)
    (happroved : c'.approved = c.approved) : Grows Φ c c' :=
  ⟨fun _ => hqueued ▸ id, fun _ => happroved ▸ id, hmono⟩

theorem Good.mono (hmono : ∀ name e, P name e → P' name e) {name : String} {e : Entry}
    (h : Good setting P name e) : Good setting P' name e :=
  ⟨h.fits, hmono _ _ h.holds⟩

theorem GoodSnapshot.mono (hmono : ∀ name e, P name e → P' name e) {snap : StoreSnapshot}
    (h : GoodSnapshot setting P snap) : GoodSnapshot setting P' snap :=
  ⟨h.indexVersion, fun name e he => (h.entries name e he).mono hmono⟩

theorem GoodUpdate.mono (hmono : ∀ name e, P name e → P' name e) {u : Update}
    (h : GoodUpdate setting P u) : GoodUpdate setting P' u :=
  ⟨h.indexVersion, h.entry.mono hmono⟩

theorem GoodSigned.mono (hmono : ∀ name e, P name e → P' name e) {item : Signed}
    (h : GoodSigned setting P item) : GoodSigned setting P' item := by
  cases item with
  | replicate msg => exact ⟨h.1, h.2.mono hmono⟩
  | syncRequest network nonce ts => exact h
  | syncResponse network nonce snap ts => exact ⟨h.1, h.2.1, h.2.2.mono hmono⟩

theorem Credible.mono (hgrows : Grows Φ c c') {e : RepEvent} (h : Credible setting Φ c e) :
    Credible setting Φ c' e := by
  unfold Credible at h ⊢
  split at h
  · exact h
  · exact h
  · exact h
  · exact h.mono hgrows.property
  · intro reply snap hresult
    exact ⟨(h reply snap hresult).1.mono hgrows.property, (h reply snap hresult).2⟩
  · exact fun hresult => hgrows.approved _ (h hresult)
  · intro hresult
    obtain ⟨msg', ⟨hts, hgood⟩, hinput⟩ := h hresult
    exact ⟨msg', ⟨hts, hgood.mono hgrows.property⟩, hinput⟩
  · exact h
  · exact fun hresult hnetwork hnonce => (h hresult hnetwork hnonce).mono hgrows.property
  · trivial

theorem Allowed.mono {i : ι} {past : List RepEvent} {q : RepCall} (hgrows : Grows Φ c c')
    (h : Allowed setting i past c q) : Allowed setting i past c' q := by
  refine h.imp_right fun hproper => ?_
  unfold Proper at hproper ⊢
  split at hproper
  · exact hproper
  · exact hproper
  · exact hproper
  · exact ⟨hgrows.queued _ hproper.1, hproper.2⟩
  · exact hproper
  · trivial

theorem Intact.step (h : Intact setting Φ c J) (hbase : J c')
    (hmono : ∀ name e, Φ c name e → Φ c' name e)
    (hstores : ∀ i, (c'.sidecar i).store = (c.sidecar i).store ∨
      GoodSnapshot setting (Φ c') (c'.sidecar i).store.snapshot)
    (hqueued : ∀ item ∈ c'.queued, item ∈ c.queued ∨ GoodUpdate setting (Φ c') item.2)
    (hsigned : ∀ item ∈ c'.signed, item ∈ c.signed ∨ GoodSigned setting (Φ c') item) :
    Intact setting Φ c' J where
  base := hbase
  stores i := by
    obtain hsame | hgood := hstores i
    · rw [hsame]
      exact (h.stores i).mono hmono
    · exact hgood
  queued item hitem := (hqueued item hitem).elim (fun hold => (h.queued item hold).mono hmono) id
  signed item hitem := (hsigned item hitem).elim (fun hold => (h.signed item hold).mono hmono) id

theorem GoodUpdate.valid {u : Update} (h : GoodUpdate setting P u) :
    u.Valid setting.crypto.toPrimitives := by
  refine ⟨h.entry.fits.name, fun hdeleted p hp => h.entry.fits.members p ?_⟩
  rw [Update.entry, if_neg (by simp [hdeleted])]
  exact mem_collectPeers.mpr hp

theorem GoodUpdate.version {u : Update} (h : GoodUpdate setting P u) : u.version < 2 ^ 64 := by
  have hversion := h.entry.fits.version
  unfold Update.entry at hversion
  split at hversion
  · exact hversion
  · exact hversion

end Mono

/-! ## What an answer moves -/

section Moves

variable {ι : Type} [DecidableEq ι]

theorem store_setStore (c : Cluster ι) (i j : ι) (store : Store) :
    ((c.setStore i store).sidecar j).store = if j = i then store else (c.sidecar j).store := by
  unfold Cluster.setStore
  by_cases h : j = i
  · subst h
    simp
  · simp [h]

theorem store_setGuard (c : Cluster ι) (i j : ι) (guard : ReplayGuard) :
    ((c.setGuard i guard).sidecar j).store = (c.sidecar j).store := by
  unfold Cluster.setGuard
  by_cases h : j = i
  · subst h
    simp
  · simp [h]

inductive Moves (setting : Setting ι) (permits : Store → Store.Op → Store → Prop) (c : Cluster ι)
    (i : ι) : Cluster ι → Prop
  | still : Moves setting permits c i c
  | signed (item : Signed) : Moves setting permits c i (c.sign item)
  | queued (update : Update) :
      Moves setting permits c i { c with queued := c.queued ++ [(i, update)] }
  | approved (req : ManagementRequest) :
      Moves setting permits c i { c with approved := c.approved ++ [req] }
  | guarded (guard : ReplayGuard) : Moves setting permits c i (c.setGuard i guard)
  | stored (io : SaveIo) (op : Store.Op)
      (h : permits (c.sidecar i).store op
        ((c.sidecar i).store.exec setting.crypto.toPrimitives io op).1) :
      Moves setting permits c i
        (c.setStore i ((c.sidecar i).store.exec setting.crypto.toPrimitives io op).1)

variable {setting : Setting ι} {permits : Store → Store.Op → Store → Prop}
  {c c' : Cluster ι} {i : ι}

theorem moves_of_answers {q : RepCall} {a : RepAnswer q} (h : answers setting permits c i q a c') :
    Moves setting permits c i c' := by
  have hstill : c' = c → Moves setting permits c i c' := fun heq => heq ▸ .still
  cases q with
  | discoverProviders | nextU32 => exact hstill h
  | randomB64 => exact hstill h.2
  | signReplicate | signSyncRequest =>
      obtain ⟨-, rfl⟩ := h
      exact .signed _
  | verifySyncResponse => exact hstill h.2.1
  | service q =>
      cases q with
      | node q =>
          cases q with
          | storeSnapshot | now => exact hstill h.2
          | bumpIndexVersion =>
              obtain ⟨io, hpermits, -, rfl⟩ := h
              exact .stored io .bumpIndexVersion hpermits
          | _ => exact hstill h
      | runtime => exact hstill h.2
      | changeStore op =>
          obtain ⟨io, hpermits, -, rfl⟩ := h
          exact .stored io op hpermits
      | broadcast update =>
          obtain rfl := h
          exact .queued update
      | verifyManagement req now =>
          cases a with
          | error e => exact hstill h
          | ok u =>
              obtain rfl := h
              exact .approved req
      | verifyReplicate | verifySyncRequest =>
          obtain ⟨-, rfl, -⟩ := h
          exact .guarded _
      | signSyncResponse =>
          obtain ⟨-, hc⟩ := h
          cases a with
          | error e => exact hstill hc
          | ok mac =>
              obtain rfl := hc
              exact .signed _
      | _ => exact hstill h

theorem Moves.store (h : Moves setting permits c i c') (j : ι) :
    (c'.sidecar j).store = (c.sidecar j).store ∨
      ∃ io op, let t := ((c.sidecar j).store.exec setting.crypto.toPrimitives io op).1
        permits (c.sidecar j).store op t ∧ (c'.sidecar j).store = t := by
  cases h with
  | guarded guard => exact .inl (store_setGuard c i j guard)
  | stored io op hpermits =>
      rw [store_setStore]
      split
      · rename_i hj
        subst hj
        exact .inr ⟨io, op, hpermits, rfl⟩
      · exact .inl rfl
  | _ => exact .inl rfl

theorem Moves.mem_approved (h : Moves setting permits c i c') :
    ∀ req ∈ c.approved, req ∈ c'.approved := by
  cases h with
  | approved req => exact fun _ => List.mem_append_left _
  | _ => exact fun _ => id

end Moves

/-! ## One answer -/

/-- The property `Φ` of entries survives every answer, and what management requests write has it. -/
structure Flow {ι : Type} [DecidableEq ι] (setting : Setting ι)
    (permits : Store → Store.Op → Store → Prop) (J : Cluster ι → Prop)
    (Φ : Cluster ι → String → Entry → Prop) : Prop where
  plain : setting.crypto.toPrimitives.PlainPeerIds
  signing : setting.crypto.toCrypto.Signing
  keeps : ∀ c i q a c', J c → answers setting permits c i q a c' → J c'
  mono : ∀ c i q a c', J c → answers setting permits c i q a c' →
    ∀ name e, Φ c name e → Φ c' name e
  writes : ∀ c i io op req, Intact setting Φ c J → req ∈ c.approved → Requested req op →
    let t := ((c.sidecar i).store.exec setting.crypto.toPrimitives io op).1
    permits (c.sidecar i).store op t → ∀ name e, t.Holds name e →
      Store.Writes setting.crypto.toPrimitives (c.sidecar i).store op name e →
        Φ (c.setStore i t) name e

section Entries

variable {ι : Type} {setting : Setting ι} {J : Cluster ι → Prop}
  {Φ : Cluster ι → String → Entry → Prop} {c c' : Cluster ι} {i : ι} {past : List RepEvent}

theorem fits_of_writes {op : Store.Op} {name : String} {e : Entry} {s : Store}
    {P : String → Entry → Prop}
    (hs : GoodSnapshot setting P s.snapshot) (hop : op.received = none)
    (h : Store.Writes setting.crypto.toPrimitives s op name e) :
    Fits setting.crypto.toPrimitives name e := by
  have hsucc : ∀ v, succ64 v < 2 ^ 64 := fun v => Nat.mod_lt _ (by norm_num)
  cases h with
  | created _ hname hpeers =>
      exact ⟨hname, by simp [Entry.version], fun p hp => hpeers p (mem_collectPeers.mp hp)⟩
  | deleted _ hlive =>
      exact ⟨(hs.entries _ _ (.live hlive)).fits.name, hsucc _, fun p hp => by simp at hp⟩
  | edited _ hlive hmembers =>
      have hold := (hs.entries _ _ (.live hlive)).fits
      exact ⟨hold.name, hsucc _, fun p hp => (hmembers p hp).elim (hold.members p) And.right⟩
  | received hreceived => simp [hop] at hreceived

/-- A management request or another sidecar is behind every change. -/
theorem warranted_cases {op : Store.Op} (hpast : ∀ e ∈ past, Credible setting Φ c e)
    (h : Warranted setting i past op) :
    (∃ req ∈ c.approved, Requested req op ∧ op.received = none) ∨
      ∃ us, op.received = some us := by
  cases h with
  | managed req now hverified hreq =>
      refine .inl ⟨req, hpast _ hverified rfl, hreq, ?_⟩
      cases hreq <;> rfl
  | replicated value msg now hparse hverified => exact .inr ⟨_, rfl⟩
  | synced nonce resp hnonce hverified => exact .inr ⟨_, rfl⟩

theorem goodUpdate_of_announced (hpast : ∀ e ∈ past, Credible setting Φ c e) {u : Update}
    (h : Announced past u) : GoodUpdate setting (Φ c) u := by
  cases h with
  | @changed op service reply snap hevent hop hkept =>
      obtain ⟨hgood, hreported⟩ := hpast _ hevent reply snap rfl
      obtain ⟨e, hheld, rfl, hdelete⟩ := hreported service hop
      refine ⟨hgood.indexVersion, ?_⟩
      cases hheld with
      | tombstone htomb => exact absurd (hdelete.mpr ⟨_, rfl⟩) hkept
      | @live state hlive =>
          have hentry := hgood.entries _ _ (.live hlive)
          simpa [Update.entry, membersOf, hlive, replyVersion, Entry.version] using hentry
  | @deleted service reply snap hevent =>
      obtain ⟨hgood, hreported⟩ := hpast _ hevent reply snap rfl
      obtain ⟨e, hheld, rfl, hdelete⟩ := hreported service rfl
      obtain ⟨version, rfl⟩ := hdelete.mp rfl
      exact ⟨hgood.indexVersion, hgood.entries _ _ hheld⟩

theorem proper_of_allowed {q : RepCall} (hpast : ∀ e ∈ past, Credible setting Φ c e)
    (h : Allowed setting i past c q) : Proper setting i past c q :=
  h.resolve_left fun hruntime => Bool.noConfusion (hpast _ hruntime)

theorem intact_of_extended (hI : Intact setting Φ c J) (hbase : J c')
    (hgrows : Grows Φ c c') (hstores : ∀ j, (c'.sidecar j).store = (c.sidecar j).store)
    (hqueued : ∀ item ∈ c'.queued, item ∈ c.queued ∨ GoodUpdate setting (Φ c) item.2)
    (hsigned : ∀ item ∈ c'.signed, item ∈ c.signed ∨ GoodSigned setting (Φ c) item) :
    Intact setting Φ c' J :=
  hI.step hbase hgrows.property (fun j => .inl (hstores j))
    (fun item hitem => (hqueued item hitem).imp_right (·.mono hgrows.property))
    (fun item hitem => (hsigned item hitem).imp_right (·.mono hgrows.property))

theorem mem_or_of_mem_concat {α : Type} {P : α → Prop} {xs : List α} {x : α} (hx : P x) :
    ∀ y ∈ xs ++ [x], y ∈ xs ∨ P y := by
  intro y hy
  obtain hold | hnew := List.mem_append.mp hy
  · exact .inl hold
  · exact .inr (List.mem_singleton.mp hnew ▸ hx)

theorem intact_sign (hI : Intact setting Φ c J) {item : Signed} (hbase : J (c.sign item))
    (hgrows : Grows Φ c (c.sign item)) (hitem : GoodSigned setting (Φ c) item) :
    Intact setting Φ (c.sign item) J :=
  intact_of_extended hI hbase hgrows (fun _ => rfl) (fun _ => .inl) (mem_or_of_mem_concat hitem)

/-! ### Messages with a MAC -/

theorem update_of_hasMac (hI : Intact setting Φ c J) {msg : ReplicateMsg}
    (h : c.HasMac setting.crypto (replicateInput msg)) :
    ∃ msg', (msg'.ts < 2 ^ 64 ∧ GoodUpdate setting (Φ c) msg'.update) ∧
      replicateInput msg' = replicateInput msg := by
  obtain ⟨msg', hsigned, hinput⟩ := h.replicate
  exact ⟨msg', hI.signed _ hsigned, hinput⟩

theorem nonce_of_hasMac (hI : Intact setting Φ c J) {network nonce : String} {ts : Nat}
    (h : c.HasMac setting.crypto (syncReqInput network nonce ts)) : 0 ∉ utf8Bytes nonce := by
  obtain ⟨network', nonce', ts', hsigned, hinput⟩ := h.syncRequest
  obtain ⟨rfl, hnonce⟩ := hI.signed _ hsigned
  rw [nonce_of_syncReqInput setting.network_plain hnonce hinput.symm]
  exact hnonce

theorem snapshot_of_hasMac (hsigning : setting.crypto.toCrypto.Signing)
    (hI : Intact setting Φ c J) {nonce : String} (hnonce : 0 ∉ utf8Bytes nonce)
    {snapshot : StoreSnapshot} {ts : Nat} {input : Bytes}
    (hinput : syncRespInput setting.crypto setting.network nonce snapshot ts = .ok input)
    (h : c.HasMac setting.crypto input) : GoodSnapshot setting (Φ c) snapshot := by
  obtain ⟨network', nonce', snapshot', ts', hsigned, hinput'⟩ := h.syncResponse hinput
  obtain ⟨rfl, hnonce', hgood⟩ := hI.signed _ hsigned
  rw [snapshot_of_syncRespInput hsigning hnonce' hnonce hinput' hinput]
  exact hgood

theorem goodSnapshot_bumpIndexVersion {P : String → Entry → Prop} {s : Store}
    (h : GoodSnapshot setting P s.snapshot) (io : SaveIo) :
    GoodSnapshot setting P (s.bumpIndexVersion io).1.snapshot := by
  rw [Store.bumpIndexVersion, Store.snapshot_save]
  refine ⟨Nat.mod_lt _ (by norm_num), fun name e he => h.entries name e ?_⟩
  cases he with
  | live hlive => exact .live hlive
  | tombstone htomb => exact .tombstone htomb

end Entries

section Answers

variable {ι : Type} [DecidableEq ι] {setting : Setting ι}
  {permits : Store → Store.Op → Store → Prop} {J : Cluster ι → Prop}
  {Φ : Cluster ι → String → Entry → Prop} {c c' : Cluster ι} {i : ι} {past : List RepEvent}

theorem good_of_warranted (hflow : Flow setting permits J Φ) {op : Store.Op}
    (hpast : ∀ e ∈ past, Credible setting Φ c e) (h : Warranted setting i past op)
    {us : List Update} (hop : op.received = some us) :
    ∀ u ∈ us, u.Valid setting.crypto.toPrimitives →
      u.indexVersion < 2 ^ 64 ∧ Good setting (Φ c) u.service u.entry := by
  cases h with
  | managed req now hverified hreq => cases hreq <;> cases hop
  | replicated value msg now hparse hverified =>
      obtain ⟨msg', ⟨hts, hgood⟩, hinput⟩ := hpast _ hverified rfl
      obtain rfl := Option.some.inj hop
      intro u hu hvalid
      obtain rfl := List.mem_singleton.mp hu
      have hrange : msg.InRange := setting.in_range i value msg hparse
      have hrange' : msg'.InRange := ⟨hgood.version, hgood.indexVersion, hts⟩
      have hagree := agree_of_replicateInput hflow.plain hrange' hrange hgood.valid hvalid hinput
      have hservice : msg'.update.service = msg.update.service := hagree.service
      rw [← entry_of_agree hagree, ← hservice]
      exact ⟨hrange.indexVersion, hgood.entry⟩
  | synced nonce resp hnonce hverified =>
      have hgood : GoodSnapshot setting (Φ c) resp.snapshot :=
        hpast _ hverified rfl rfl (hpast _ hnonce)
      obtain rfl := Option.some.inj hop
      intro u hu _
      rw [Store.indexVersion_of_mem_updates hu]
      exact ⟨hgood.indexVersion, hgood.entries _ _ (holds_of_mem_updates hu)⟩

/-! ### Store operations -/

theorem goodSnapshot_exec (hflow : Flow setting permits J Φ) (hI : Intact setting Φ c J)
    (hpast : ∀ e ∈ past, Credible setting Φ c e) {op : Store.Op} {io : SaveIo} {t : Store}
    (hw : Warranted setting i past op)
    (ht : t = ((c.sidecar i).store.exec setting.crypto.toPrimitives io op).1)
    (hpermits : permits (c.sidecar i).store op t)
    (hmono : ∀ name e, Φ c name e → Φ (c.setStore i t) name e) :
    GoodSnapshot setting (Φ (c.setStore i t)) t.snapshot := by
  subst ht
  have hs := hI.stores i
  constructor
  · exact Store.indexVersion_exec_lt hs.indexVersion fun us hop u hu hvalid =>
      (good_of_warranted hflow hpast hw hop u hu hvalid).1
  · intro name e he
    obtain hold | hnew := Store.holds_exec he
    · exact (hs.entries name e hold).mono hmono
    · obtain ⟨req, hreq, hrequested, hop⟩ | ⟨us, hop⟩ := warranted_cases hpast hw
      · exact ⟨fits_of_writes hs hop hnew,
          hflow.writes c i io op req hI hreq hrequested hpermits name e he hnew⟩
      · cases hnew with
        | received hreceived hu hvalid hname =>
            obtain rfl := Option.some.inj (hop.symm.trans hreceived)
            subst hname
            exact (good_of_warranted hflow hpast hw hop _ hu hvalid).2.mono hmono
        | created hcreate => subst hcreate; cases hop
        | deleted hdelete => subst hdelete; cases hop
        | edited hedited => cases op <;> simp [Store.Op.received, Store.Op.edited] at hop hedited

/-! ### All questions -/

theorem intact_setGuard (hI : Intact setting Φ c J) {guard : ReplayGuard}
    (hbase : J (c.setGuard i guard)) (hgrows : Grows Φ c (c.setGuard i guard)) :
    Intact setting Φ (c.setGuard i guard) J :=
  intact_of_extended hI hbase hgrows (fun j => store_setGuard c i j guard) (fun _ => .inl)
    fun _ => .inl

theorem intact_setStore (hI : Intact setting Φ c J) {t : Store} (hbase : J (c.setStore i t))
    (hgrows : Grows Φ c (c.setStore i t))
    (hgood : GoodSnapshot setting (Φ (c.setStore i t)) t.snapshot) :
    Intact setting Φ (c.setStore i t) J := by
  refine hI.step hbase hgrows.property (fun j => ?_) (fun _ => .inl) (fun _ => .inl)
  rw [store_setStore]
  split
  · exact .inr hgood
  · exact .inl rfl

theorem answer_keeps (hflow : Flow setting permits J Φ) (hI : Intact setting Φ c J)
    (hpast : ∀ e ∈ past, Credible setting Φ c e) {q : RepCall} {a : RepAnswer q}
    (hallowed : Allowed setting i past c q) (h : answers setting permits c i q a c') :
    Intact setting Φ c' J ∧ Grows Φ c c' ∧ Credible setting Φ c' ⟨q, a⟩ := by
  have hproper := proper_of_allowed hpast hallowed
  have hbase := hflow.keeps c i q a c' hI.base h
  have hmono := hflow.mono c i q a c' hI.base h
  -- an answer that moves nothing
  have hstill : c' = c → Intact setting Φ c' J ∧ Grows Φ c c' := by
    rintro rfl
    exact ⟨hI, grows_of (fun _ _ => id) rfl rfl⟩
  cases q with
  | discoverProviders service => exact ⟨(hstill h).1, (hstill h).2, trivial⟩
  | nextU32 => exact ⟨(hstill h).1, (hstill h).2, trivial⟩
  | randomB64 len => exact ⟨(hstill h.2).1, (hstill h.2).2, h.1⟩
  | signReplicate msg =>
      obtain ⟨-, rfl⟩ := h
      have hgrows := grows_of hmono rfl rfl
      exact ⟨intact_sign hI hbase hgrows ⟨hpast _ hproper.2, hI.queued _ hproper.1⟩,
        hgrows, trivial⟩
  | signSyncRequest network nonce ts =>
      obtain ⟨-, rfl⟩ := h
      have hgrows := grows_of hmono rfl rfl
      exact ⟨intact_sign hI hbase hgrows ⟨hproper.1, hpast _ hproper.2⟩, hgrows, trivial⟩
  | verifySyncResponse network nonce resp =>
      obtain ⟨-, rfl, hmac⟩ := h
      refine ⟨hI, grows_of (fun _ _ => id) rfl rfl, ?_⟩
      intro hresult hnetwork hnonce
      obtain ⟨input, hinput, hhas⟩ := hmac hresult
      exact snapshot_of_hasMac hflow.signing hI hnonce (hnetwork ▸ hinput) hhas
  | service q =>
      cases q with
      | node q =>
          cases q with
          | storeSnapshot =>
              obtain ⟨rfl, rfl⟩ := h
              exact ⟨hI, grows_of (fun _ _ => id) rfl rfl, hI.stores i⟩
          | now => exact ⟨(hstill h.2).1, (hstill h.2).2, h.1⟩
          | bumpIndexVersion =>
              obtain ⟨io, -, -, rfl⟩ := h
              have hgrows := grows_of hmono rfl rfl
              have hgood := goodSnapshot_bumpIndexVersion ((hI.stores i).mono hmono) io
              exact ⟨intact_setStore hI hbase hgrows hgood, hgrows, trivial⟩
          | _ => exact ⟨(hstill h).1, (hstill h).2, trivial⟩
      | runtime => exact ⟨(hstill h.2).1, (hstill h.2).2, h.1⟩
      | changeStore op =>
          obtain ⟨io, hpermits, rfl, rfl⟩ := h
          have hgrows := grows_of hmono rfl rfl
          have hgood := goodSnapshot_exec hflow hI hpast hproper rfl hpermits hmono
          refine ⟨intact_setStore hI hbase hgrows hgood, hgrows, fun reply snap hresult => ?_⟩
          obtain ⟨reply', hreply, heq⟩ := map_eq_ok.mp hresult
          obtain ⟨rfl, rfl⟩ := Prod.mk.inj heq
          exact ⟨hgood, Store.reported_of_exec (Prod.ext rfl hreply)⟩
      | broadcast update =>
          obtain rfl := h
          have hgrows : Grows Φ c { c with queued := c.queued ++ [(i, update)] } :=
            ⟨fun _ => List.mem_append_left _, fun _ => id, hmono⟩
          exact ⟨intact_of_extended hI hbase hgrows (fun _ => rfl)
            (mem_or_of_mem_concat (goodUpdate_of_announced hpast hproper)) (fun _ => .inl),
            hgrows, trivial⟩
      | verifyManagement req now =>
          cases a with
          | error e => exact ⟨(hstill h).1, (hstill h).2, fun hresult => by cases hresult⟩
          | ok u =>
              obtain rfl := h
              have hgrows : Grows Φ c { c with approved := c.approved ++ [req] } :=
                ⟨fun _ => id, fun _ => List.mem_append_left _, hmono⟩
              exact ⟨intact_of_extended hI hbase hgrows (fun _ => rfl) (fun _ => .inl)
                (fun _ => .inl), hgrows, fun _ => List.mem_append_right _ List.mem_cons_self⟩
      | verifyReplicate msg now =>
          obtain ⟨-, rfl, hmac⟩ := h
          have hgrows := grows_of hmono rfl rfl
          have hafter := intact_setGuard hI hbase hgrows
          exact ⟨hafter, hgrows, fun hresult => update_of_hasMac hafter (hmac hresult)⟩
      | verifySyncRequest req now =>
          obtain ⟨-, rfl, hmac⟩ := h
          have hgrows := grows_of hmono rfl rfl
          exact ⟨intact_setGuard hI hbase hgrows, hgrows,
            fun hresult => nonce_of_hasMac hI (hmac hresult)⟩
      | signSyncResponse network nonce snapshot ts =>
          obtain ⟨-, hc⟩ := h
          cases a with
          | error e => exact ⟨(hstill hc).1, (hstill hc).2, trivial⟩
          | ok mac =>
              obtain rfl := hc
              have hgrows := grows_of hmono rfl rfl
              obtain ⟨hnetwork, ⟨req, now, hverified, rfl⟩, hread⟩ := hproper
              exact ⟨intact_sign hI hbase hgrows ⟨hnetwork, hpast _ hverified rfl, hpast _ hread⟩,
                hgrows, trivial⟩
      | _ => exact ⟨(hstill h).1, (hstill h).2, trivial⟩

theorem Flow.disciplined (hflow : Flow setting permits J Φ) :
    Pool.Disciplined (rules setting permits) (Intact setting Φ · J) (Grows Φ)
      (fun c i past q => Allowed setting i past c q) (fun c _ e => Credible setting Φ c e) where
  starts _ _ _ _ h := guards_of_starts h
  answers _ _ _ _ _ _ hI hpast hallowed h := answer_keeps hflow hI hpast hallowed h
  guard_mono _ _ _ _ _ hgrows h := h.mono hgrows
  event_mono _ _ _ _ hgrows h := h.mono hgrows

end Answers

/-! ## Whole runs -/

structure Startable (prim : Primitives) (s : Store) : Prop where
  admissible : s.Admissible prim
  within : s.Within u64Max

theorem startable_of_sound {prim : Primitives} {s : Store} (hs : s.Sound prim) :
    Startable prim s where
  admissible := hs.admissible
  within := ⟨hs.bounded.indexVersion.le, fun name state h => (hs.bounded.services name state h).le,
    fun name version h => (hs.bounded.tombstones name version h).le⟩

section Start

variable {ι : Type} {setting : Setting ι} {Φ : Cluster ι → String → Entry → Prop}
  {J : Cluster ι → Prop} {store : ι → Store}

theorem goodSnapshot_of_startable {P : String → Entry → Prop} {s : Store}
    (hs : Startable setting.crypto.toPrimitives s) (h : ∀ name e, s.Holds name e → P name e) :
    GoodSnapshot setting P s.snapshot := by
  have hmax : u64Max < 2 ^ 64 := by decide
  refine ⟨hs.within.indexVersion.trans_lt hmax, fun name e he => ⟨?_, h name e he⟩⟩
  cases he with
  | live hlive =>
      exact ⟨hs.admissible.service_name _ _ hlive,
        (hs.within.services _ _ hlive).trans_lt hmax, hs.admissible.member _ _ hlive⟩
  | tombstone htomb =>
      exact ⟨hs.admissible.tombstone_name _ _ htomb,
        (hs.within.tombstones _ _ htomb).trans_lt hmax, fun p hp => by simp at hp⟩

theorem intact_fresh (hbase : J (.fresh store))
    (hstart : ∀ i, Startable setting.crypto.toPrimitives (store i))
    (h : ∀ i name e, (store i).Holds name e → Φ (.fresh store) name e) :
    Intact setting Φ (.fresh store) J where
  base := hbase
  stores i := goodSnapshot_of_startable (hstart i) (h i)
  queued _ hitem := absurd hitem List.not_mem_nil
  signed _ hitem := absurd hitem List.not_mem_nil

abbrev Upheld (setting : Setting ι) (J : Cluster ι → Prop) (Φ : Cluster ι → String → Entry → Prop)
    (w : ClusterPool ι) : Prop :=
  Pool.Governed (Intact setting Φ · J) (fun c i past q => Allowed setting i past c q)
    (fun c _ e => Credible setting Φ c e) w

theorem Flow.upheld [DecidableEq ι] {permits : Store → Store.Op → Store → Prop}
    (hflow : Flow setting permits J Φ) (hbase : J (.fresh store))
    (hstart : ∀ i, Startable setting.crypto.toPrimitives (store i))
    (hentries : ∀ i name e, (store i).Holds name e → Φ (.fresh store) name e)
    {w : ClusterPool ι} (hrun : Pool.Run (rules setting permits) (start store) w) :
    Upheld setting J Φ w := by
  refine Pool.Governed.run hflow.disciplined ?_ hrun
  exact Pool.governed_of_idle (intact_fresh hbase hstart hentries)

/-- The property as it is now can be kept for what follows. -/
theorem Upheld.freeze {w : ClusterPool ι} (h : Upheld setting J Φ w) :
    Upheld setting J (fun _ => Φ w.shared) w where
  shared := ⟨h.shared.base, h.shared.stores, h.shared.queued, h.shared.signed⟩
  tasks task htask := ⟨(h.tasks task htask).guards, (h.tasks task htask).events⟩

end Start

end NexusAuth.Replicate
