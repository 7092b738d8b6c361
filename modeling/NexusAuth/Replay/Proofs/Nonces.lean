import Mathlib.Data.List.DropRight
import NexusAuth.Replay.Model
import NexusAuth.Service.Calls

/-!
# Nonces are used once

A guard holds the nonces that it accepted last.  What a verifier adds is the order of its
checks: the guard is asked after all others, so that a message without a valid MAC or
signature, or from another time, cannot push a nonce out.
-/

namespace NexusAuth

open Std (ExtTreeSet)
open NexusAuth.Authority NexusAuth.Lib.OrderedMap NexusAuth.Lib.Results NexusAuth.Lib.Words
open NexusAuth.Lib.Interaction NexusAuth.Raft

/-! ## The guard -/

namespace ReplayGuard

structure Sound (guard : ReplayGuard) : Prop where
  nodup : guard.order.Nodup
  mem_seen : ∀ nonce, nonce ∈ guard.seen ↔ nonce ∈ guard.order
  bounded : guard.order.length ≤ maxSeenNonces

structure Remembers (guard : ReplayGuard) (accepted : List String) : Prop extends Sound guard where
  order : guard.order = accepted.rtake maxSeenNonces

theorem default_remembers : default.Remembers [] where
  nodup := List.nodup_nil
  mem_seen nonce := by simp [default]
  bounded := Nat.zero_le _
  order := (List.rtake_nil _).symm

/-- The loop keeps the youngest nonces and takes the others out of the set. -/
theorem evict_spec {seen : BTreeSet String} {order : List String} (hnodup : order.Nodup)
    (hseen : ∀ nonce, nonce ∈ seen ↔ nonce ∈ order) :
    (evict seen order).Sound ∧ (evict seen order).order = order.rtake maxSeenNonces := by
  induction order generalizing seen with
  | nil => exact ⟨⟨hnodup, hseen, Nat.zero_le _⟩, (List.rtake_nil _).symm⟩
  | cons old rest ih =>
      obtain ⟨hold, hrest⟩ := List.nodup_cons.mp hnodup
      rw [evict]
      split
      · rename_i hlong
        have herase : ∀ nonce, nonce ∈ seen.erase old ↔ nonce ∈ rest := by
          intro nonce
          rw [ExtTreeSet.mem_erase, hseen, List.mem_cons, Ne, compare_eq_iff_eq]
          constructor
          · rintro ⟨hne, rfl | hmem⟩
            · exact (hne rfl).elim
            · exact hmem
          · exact fun hmem => ⟨fun heq => hold (heq ▸ hmem), .inr hmem⟩
        obtain ⟨hsound, horder⟩ := ih hrest herase
        refine ⟨hsound, horder.trans ?_⟩
        rw [List.length_cons] at hlong
        rw [List.rtake, List.rtake, List.length_cons, Nat.succ_sub (by omega), List.drop_succ_cons]
      · rename_i hshort
        refine ⟨⟨hnodup, hseen, Nat.le_of_not_gt hshort⟩, ?_⟩
        rw [List.rtake, Nat.sub_eq_zero_of_le (Nat.le_of_not_gt hshort), List.drop_zero]

theorem rtake_rtake_concat (accepted : List String) (nonce : String) (n : Nat) :
    (accepted.rtake n ++ [nonce]).rtake n = (accepted ++ [nonce]).rtake n := by
  cases n with
  | zero => simp
  | succ n =>
      rw [List.rtake_concat_succ, List.rtake_concat_succ]
      congr 1
      simp only [List.rtake, List.length_drop, List.drop_drop]
      congr 1
      omega

variable {guard : ReplayGuard} {accepted : List String} {nonce : String}

theorem Sound.checkAndInsert_isOk (h : guard.Sound) :
    (guard.checkAndInsert nonce).1.isOk = false ↔ nonce = "" ∨ nonce ∈ guard.order := by
  rw [checkAndInsert]
  split
  · rename_i hempty
    simp [String.isEmpty_iff.mp hempty, Except.isOk, Except.toBool]
  · rename_i hempty
    have hne : nonce ≠ "" := fun heq => hempty (String.isEmpty_iff.mpr heq)
    split
    · rename_i hseen
      rw [ExtTreeSet.contains_iff_mem, h.mem_seen] at hseen
      simp [hseen, Except.isOk, Except.toBool]
    · rename_i hseen
      rw [ExtTreeSet.contains_iff_mem, h.mem_seen] at hseen
      simp [hseen, hne, Except.isOk, Except.toBool]

theorem Remembers.checkAndInsert (h : guard.Remembers accepted) :
    (guard.checkAndInsert nonce).2.Remembers
      (accepted ++ if (guard.checkAndInsert nonce).1.isOk then [nonce] else []) := by
  rw [ReplayGuard.checkAndInsert]
  split
  · simpa [Except.isOk, Except.toBool] using h
  split
  · simpa [Except.isOk, Except.toBool] using h
  rename_i hseen
  rw [ExtTreeSet.contains_iff_mem, h.mem_seen] at hseen
  have hnodup : (guard.order ++ [nonce]).Nodup := by
    rw [List.nodup_append]
    refine ⟨h.nodup, List.nodup_singleton nonce, fun a ha b hb heq => hseen ?_⟩
    rw [← List.mem_singleton.mp hb, ← heq]
    exact ha
  have hmem : ∀ x, x ∈ guard.seen.insert nonce ↔ x ∈ guard.order ++ [nonce] := by
    intro x
    rw [ExtTreeSet.mem_insert, h.mem_seen, compare_eq_iff_eq, List.mem_append, List.mem_singleton,
      or_comm, eq_comm]
  obtain ⟨hsound, horder⟩ := evict_spec hnodup hmem
  refine ⟨hsound, horder.trans ?_⟩
  rw [h.order, rtake_rtake_concat]
  rfl

end ReplayGuard

/-! ## Verifiers -/

/-- A verifier that keeps a guard, and how its checks relate to the question to it. -/
structure GuardedVerifier (Call ε α : Type) where
  verify : ReplayGuard → Call → Except ε α × ReplayGuard
  nonce : Call → String
  /-- The call gets as far as the guard. -/
  reaches : Call → Bool
  /-- The MAC or signature and the time of the message are right. -/
  Authentic : Call → Prop
  /-- Every check other than those of the nonce passes. -/
  Passes : Call → Prop
  reaches_guard : ∀ guard call, reaches call = true →
    (verify guard call).2 = (guard.checkAndInsert (nonce call)).2
  stops_before : ∀ guard call, reaches call = false → (verify guard call).2 = guard
  authentic_of_reaches : ∀ call, reaches call = true → Authentic call
  passes_isOk : ∀ guard call, Passes call →
    (verify guard call).1.isOk = (guard.checkAndInsert (nonce call)).1.isOk

namespace GuardedVerifier

variable {Call ε α : Type} (v : GuardedVerifier Call ε α)

def step (state : ReplayGuard × List String) (call : Call) : ReplayGuard × List String :=
  ((v.verify state.1 call).2, state.2 ++
    if v.reaches call && (state.1.checkAndInsert (v.nonce call)).1.isOk then [v.nonce call] else [])

def run (calls : List Call) : ReplayGuard × List String :=
  calls.foldl v.step (.default, [])

theorem step_remembers {state : ReplayGuard × List String} (h : state.1.Remembers state.2)
    (call : Call) : (v.step state call).1.Remembers (v.step state call).2 := by
  cases hreaches : v.reaches call with
  | false =>
      simp only [step, hreaches, v.stops_before _ _ hreaches, Bool.false_and]
      simpa using h
  | true =>
      simp only [step, hreaches, v.reaches_guard _ _ hreaches, Bool.true_and]
      exact h.checkAndInsert

theorem run_remembers (calls : List Call) : (v.run calls).1.Remembers (v.run calls).2 := by
  have hfold : ∀ state : ReplayGuard × List String, state.1.Remembers state.2 →
      (calls.foldl v.step state).1.Remembers (calls.foldl v.step state).2 := by
    induction calls with
    | nil => exact fun state h => h
    | cons call calls ih => exact fun state h => ih (v.step state call) (v.step_remembers h call)
  exact hfold _ ReplayGuard.default_remembers

/-- What single-use nonces mean for one more call after any sequence of calls. -/
structure SingleUse (calls : List Call) (call : Call) : Prop where
  sound : (v.run calls).1.Sound
  refused : v.Passes call → ((v.verify (v.run calls).1 call).1.isOk = false ↔
    v.nonce call = "" ∨ v.nonce call ∈ (v.run calls).2.rtake maxSeenNonces)
  unchanged : ¬ v.Authentic call → (v.verify (v.run calls).1 call).2 = (v.run calls).1

theorem singleUse (calls : List Call) (call : Call) : v.SingleUse calls call where
  sound := (v.run_remembers calls).toSound
  refused hpasses := by
    rw [v.passes_isOk _ _ hpasses, (v.run_remembers calls).toSound.checkAndInsert_isOk,
      (v.run_remembers calls).order]
  unchanged hauth := by
    refine v.stops_before _ _ (Bool.eq_false_iff.mpr fun hreaches => hauth ?_)
    exact v.authentic_of_reaches call hreaches

end GuardedVerifier

/-! ## The four verifiers -/

section AfterChecks

variable {ε α : Type} {toError : ReplayError → ε} {guard : ReplayGuard} {nonce : String}
  {checks : Except ε α}

theorem ReplayGuard.afterChecks_guard (h : checks.isOk = true) :
    (guard.afterChecks toError nonce checks).2 = (guard.checkAndInsert nonce).2 := by
  obtain ⟨a, rfl⟩ := isOk_eq_true.mp h
  rw [afterChecks]
  split
  · rename_i hcheck
    rw [hcheck]
  · rename_i hcheck
    rw [hcheck]

theorem ReplayGuard.afterChecks_isOk (h : checks.isOk = true) :
    (guard.afterChecks toError nonce checks).1.isOk = (guard.checkAndInsert nonce).1.isOk := by
  obtain ⟨a, rfl⟩ := isOk_eq_true.mp h
  rw [afterChecks]
  split
  · rename_i hcheck
    rw [hcheck]
    rfl
  · rename_i hcheck
    rw [hcheck]
    rfl

theorem ReplayGuard.afterChecks_stops (h : checks.isOk = false) :
    guard.afterChecks toError nonce checks = (checks, guard) := by
  cases checks with
  | error e => rfl
  | ok a => cases h

end AfterChecks

namespace AdminVerifier

variable (crypto : Crypto)

structure Authentic (verifier : AdminVerifier) (call : AdminRequestV2 × Nat) : Prop where
  signature : ∃ key role bytes sig, verifier.keys[call.1.kid]? = some (key, role) ∧
    call.1.signingBytes crypto = .ok bytes ∧ crypto.unbase64Url call.1.sig = some sig ∧
    crypto.edVerify key bytes sig = true
  fresh : absDiff call.2 call.1.ts ≤ adminMaxTsSkewSecs

/-- All that `verify` requires, apart from the nonce being there and new. -/
structure Passes (verifier : AdminVerifier) (call : AdminRequestV2 × Nat) : Prop
    extends Authentic crypto verifier call where
  version : call.1.v = adminRequestVersion
  kid : trimIsEmpty call.1.kid = false
  requestId : trimIsEmpty call.1.requestId = false
  requestIdLen : call.1.requestId.utf8ByteSize ≤ adminMaxRequestIdLen
  nonceLen : call.1.nonce.utf8ByteSize ≤ adminMaxNonceLen
  hash : ∃ hash, call.1.requestHash crypto = .ok hash

variable {verifier : AdminVerifier} {call : AdminRequestV2 × Nat}

theorem authenticate_isOk :
    (verifier.authenticate crypto call.1 call.2).isOk = true ↔
      call.1.v = adminRequestVersion ∧ trimIsEmpty call.1.kid = false ∧
      trimIsEmpty call.1.requestId = false ∧
      call.1.requestId.utf8ByteSize ≤ adminMaxRequestIdLen ∧ call.1.nonce.isEmpty = false ∧
      call.1.nonce.utf8ByteSize ≤ adminMaxNonceLen ∧ verifier.Authentic crypto call := by
  simp only [authenticate, isOk_eq_true, bind_eq_ok, okOr_eq_ok, ensure_eq_ok, decide_eq_true_eq,
    Bool.not_eq_true', pure_eq_ok, exists_const, exists_and_left, Prod.exists]
  constructor
  · rintro ⟨hv, hkid, hid, hidLen, hnonce, hnonceLen, _, _, key, role, hkey, bytes, hbytes, sig,
      hsig, hverify, hfresh, _⟩
    exact ⟨hv, hkid, hid, hidLen, hnonce, hnonceLen,
      ⟨key, role, bytes, sig, hkey, hbytes, hsig, hverify⟩, hfresh⟩
  · rintro ⟨hv, hkid, hid, hidLen, hnonce, hnonceLen,
      ⟨key, role, bytes, sig, hkey, hbytes, hsig, hverify⟩, hfresh⟩
    exact ⟨hv, hkid, hid, hidLen, hnonce, hnonceLen, role, bytes, key, role, hkey, bytes, hbytes,
      sig, hsig, hverify, hfresh, rfl⟩

theorem verify_guard (guard : ReplayGuard) :
    (verifier.verify crypto guard call.1 call.2).2 =
      (guard.afterChecks replayError call.1.nonce
        (verifier.authenticate crypto call.1 call.2)).2 := by
  rw [verify]
  split
  · rename_i hchecks
    rw [hchecks]
  · rename_i hchecks
    rw [hchecks]

theorem Passes.verify_isOk (h : verifier.Passes crypto call) (guard : ReplayGuard) :
    (verifier.verify crypto guard call.1 call.2).1.isOk =
      (guard.checkAndInsert call.1.nonce).1.isOk := by
  obtain ⟨hash, hhash⟩ := h.hash
  have hverify : (verifier.verify crypto guard call.1 call.2).1.isOk =
      (guard.afterChecks replayError call.1.nonce
        (verifier.authenticate crypto call.1 call.2)).1.isOk := by
    rw [verify]
    split
    · rename_i hchecks
      rw [hchecks]
      rfl
    · rename_i hchecks
      rw [hchecks, hhash]
      rfl
  rw [hverify]
  cases hempty : call.1.nonce.isEmpty with
  | false =>
      refine ReplayGuard.afterChecks_isOk ((authenticate_isOk crypto).mpr ?_)
      exact ⟨h.version, h.kid, h.requestId, h.requestIdLen, hempty, h.nonceLen, h.toAuthentic⟩
  | true =>
      -- the guard would have refused the empty nonce as well
      have hstops : (verifier.authenticate crypto call.1 call.2).isOk = false := by
        rw [Bool.eq_false_iff, Ne, authenticate_isOk]
        exact fun hall => Bool.false_ne_true (hall.2.2.2.2.1.symm.trans hempty)
      rw [ReplayGuard.afterChecks_stops hstops, hstops, ReplayGuard.checkAndInsert, if_pos hempty]
      rfl

def guarded (verifier : AdminVerifier) :
    GuardedVerifier (AdminRequestV2 × Nat) AdminV2Error VerifiedAdmin where
  verify guard call := verifier.verify crypto guard call.1 call.2
  nonce call := call.1.nonce
  reaches call := (verifier.authenticate crypto call.1 call.2).isOk
  Authentic := verifier.Authentic crypto
  Passes := verifier.Passes crypto
  reaches_guard guard _ h :=
    (verify_guard crypto guard).trans (ReplayGuard.afterChecks_guard h)
  stops_before guard _ h :=
    (verify_guard crypto guard).trans (congrArg Prod.snd (ReplayGuard.afterChecks_stops h))
  authentic_of_reaches _ h := ((authenticate_isOk crypto).mp h).2.2.2.2.2.2
  passes_isOk guard _ h := h.verify_isOk crypto guard

end AdminVerifier

variable (crypto : MacCrypto)

def MacMatches (key input : Bytes) (mac : String) : Prop :=
  crypto.unbase64Url mac = some (crypto.hmac key input)

namespace AdminAuth

/-- The MAC and the time of a management request are right; nothing else is checked. -/
structure Authentic (auth : AdminAuth) (call : ManagementRequest × Nat) : Prop where
  mac : ∃ bytes, crypto.macJson (macInput call.1) = .ok bytes ∧
    MacMatches crypto auth.macKey bytes call.1.mac ∧ (crypto.hmac auth.macKey bytes).length = macLen
  fresh : absDiff call.2 call.1.ts ≤ maxTsSkewSecs

theorem authenticate_isOk {auth : AdminAuth} {call : ManagementRequest × Nat} :
    (auth.authenticate crypto call.1 call.2).isOk = true ↔ auth.Authentic crypto call := by
  simp only [authenticate, isOk_eq_true, bind_eq_ok, okOr_eq_ok, ensure_eq_ok, mapError_eq_ok,
    decide_eq_true_eq, exists_const]
  constructor
  · rintro ⟨provided, hmac, hlength, bytes, hbytes, rfl, hfresh⟩
    exact ⟨⟨bytes, hbytes, hmac, hlength⟩, hfresh⟩
  · rintro ⟨⟨bytes, hbytes, hmac, hlength⟩, hfresh⟩
    exact ⟨_, hmac, hlength, bytes, hbytes, rfl, hfresh⟩

def guarded (auth : AdminAuth) : GuardedVerifier (ManagementRequest × Nat) AdminError Unit where
  verify guard call := auth.verify crypto guard call.1 call.2
  nonce call := call.1.nonce
  reaches call := (auth.authenticate crypto call.1 call.2).isOk
  Authentic := auth.Authentic crypto
  Passes := auth.Authentic crypto
  reaches_guard _ _ h := ReplayGuard.afterChecks_guard h
  stops_before _ _ h := congrArg Prod.snd (ReplayGuard.afterChecks_stops h)
  authentic_of_reaches _ := (authenticate_isOk crypto).mp
  passes_isOk _ _ h := ReplayGuard.afterChecks_isOk ((authenticate_isOk crypto).mpr h)

end AdminAuth

/-- The verifications of replication messages; a response is checked against the nonce of the
request that it answers. -/
inductive RepCall
  | replicate (msg : ReplicateMsg) (now : Nat)
  | syncRequest (req : SyncRequest) (now : Nat)
  | syncResponse (network nonce : String) (resp : SyncResponse)

namespace RepAuth

structure Fresh (auth : RepAuth) (input : Bytes) (mac : String) (ts now : Nat) : Prop where
  mac : MacMatches crypto auth.key input mac ∧ (crypto.hmac auth.key input).length = macLen
  fresh : absDiff now ts ≤ maxTsSkewSecs

theorem checks_isOk {auth : RepAuth} {input : Bytes} {mac op kind : String} {ts now : Nat} :
    (do ensure RepError.badMac (op = kind)
        auth.authenticate crypto input mac ts now : Except RepError Unit).isOk = true ↔
      op = kind ∧ auth.Fresh crypto input mac ts now := by
  simp only [authenticate, verifyMac, isOk_eq_true, bind_eq_ok, okOr_eq_ok, ensure_eq_ok,
    decide_eq_true_eq, exists_const]
  constructor
  · rintro ⟨hop, ⟨provided, hmac, hlength, rfl⟩, hfresh⟩
    exact ⟨hop, ⟨hmac, hlength⟩, hfresh⟩
  · rintro ⟨hop, ⟨hmac, hlength⟩, hfresh⟩
    exact ⟨hop, ⟨_, hmac, hlength, rfl⟩, hfresh⟩

/-- A response has a MAC and no time limit. -/
def Authentic (auth : RepAuth) : RepCall → Prop
  | .replicate msg now => auth.Fresh crypto (replicateInput msg) msg.mac msg.ts now
  | .syncRequest req now =>
      auth.Fresh crypto (syncReqInput req.network req.nonce req.ts) req.mac req.ts now
  | .syncResponse network nonce resp => ∃ input,
      syncRespInput crypto network nonce resp.snapshot resp.ts = .ok input ∧
      MacMatches crypto auth.key input resp.mac

/-- A request passes every check but those of its nonce; a response is no request. -/
def Passes (auth : RepAuth) : RepCall → Prop
  | .replicate msg now => msg.op = opReplicate ∧ auth.Authentic crypto (.replicate msg now)
  | .syncRequest req now => req.op = opSyncRequest ∧ auth.Authentic crypto (.syncRequest req now)
  | .syncResponse _ _ _ => False

def guarded (auth : RepAuth) : GuardedVerifier RepCall RepError Unit where
  verify guard
    | .replicate msg now => auth.verifyReplicate crypto guard msg now
    | .syncRequest req now => auth.verifySyncRequest crypto guard req now
    | .syncResponse network nonce resp => (auth.verifySyncResponse crypto network nonce resp, guard)
  nonce
    | .replicate msg _ => msg.nonce
    | .syncRequest req _ => req.nonce
    | .syncResponse _ _ resp => resp.nonce
  reaches
    | .replicate msg now => (do
        ensure RepError.badMac (msg.op = opReplicate)
        auth.authenticate crypto (replicateInput msg) msg.mac msg.ts now).isOk
    | .syncRequest req now => (do
        ensure RepError.badMac (req.op = opSyncRequest)
        auth.authenticate crypto (syncReqInput req.network req.nonce req.ts)
          req.mac req.ts now).isOk
    | .syncResponse _ _ _ => false
  Authentic := auth.Authentic crypto
  Passes := auth.Passes crypto
  reaches_guard guard call h := by
    cases call with
    | replicate msg now => exact ReplayGuard.afterChecks_guard h
    | syncRequest req now => exact ReplayGuard.afterChecks_guard h
    | syncResponse network nonce resp => cases h
  stops_before guard call h := by
    cases call with
    | replicate msg now => exact congrArg Prod.snd (ReplayGuard.afterChecks_stops h)
    | syncRequest req now => exact congrArg Prod.snd (ReplayGuard.afterChecks_stops h)
    | syncResponse network nonce resp => rfl
  authentic_of_reaches call h := by
    cases call with
    | replicate msg now => exact ((checks_isOk crypto).mp h).2
    | syncRequest req now => exact ((checks_isOk crypto).mp h).2
    | syncResponse network nonce resp => cases h
  passes_isOk guard call h := by
    cases call with
    | replicate msg now => exact ReplayGuard.afterChecks_isOk ((checks_isOk crypto).mpr h)
    | syncRequest req now => exact ReplayGuard.afterChecks_isOk ((checks_isOk crypto).mpr h)
    | syncResponse network nonce resp => cases h

end RepAuth

namespace PasswordJoin

structure Call where
  password : String
  network : String
  req : PasswordJoinRequest
  now : Nat

structure Authentic (call : Call) : Prop where
  mac : ∃ key, joinMacKey crypto call.password call.network = .ok key ∧
    MacMatches crypto key (requestMacInput call.network call.req.nonce call.req.ts) call.req.mac
  fresh : absDiff call.now call.req.ts ≤ maxTsSkewSecs

structure Passes (call : Call) : Prop extends Authentic crypto call where
  kind : call.req.op = opJoinRequest ∧ call.req.network = call.network

theorem authenticate_isOk {call : Call} :
    (authenticate crypto call.password call.network call.req call.now).isOk = true ↔
      Passes crypto call := by
  simp only [authenticate, b64Decode, isOk_eq_true, bind_eq_ok, okOr_eq_ok, ensure_eq_ok,
    decide_eq_true_eq, exists_const]
  constructor
  · rintro ⟨hkind, key, hkey, provided, hmac, rfl, hfresh⟩
    exact ⟨⟨⟨key, hkey, hmac⟩, hfresh⟩, hkind⟩
  · rintro ⟨⟨⟨key, hkey, hmac⟩, hfresh⟩, hkind⟩
    exact ⟨hkind, key, hkey, _, hmac, rfl, hfresh⟩

def guarded : GuardedVerifier Call PasswordJoinError Unit where
  verify guard call := verifyRequest crypto guard call.password call.network call.req call.now
  nonce call := call.req.nonce
  reaches call := (authenticate crypto call.password call.network call.req call.now).isOk
  Authentic := Authentic crypto
  Passes := Passes crypto
  reaches_guard _ _ h := ReplayGuard.afterChecks_guard h
  stops_before _ _ h := congrArg Prod.snd (ReplayGuard.afterChecks_stops h)
  authentic_of_reaches _ h := ((authenticate_isOk crypto).mp h).toAuthentic
  passes_isOk _ _ h := ReplayGuard.afterChecks_isOk ((authenticate_isOk crypto).mpr h)

end PasswordJoin

/-- Each of the four verifiers, after any sequence of calls and for any further call. -/
theorem nonces_single_use :
    (∀ (auth : AdminAuth) calls call, (auth.guarded crypto).SingleUse calls call) ∧
    (∀ (verifier : AdminVerifier) calls call,
      (verifier.guarded crypto.toCrypto).SingleUse calls call) ∧
    (∀ (auth : RepAuth) calls call, (auth.guarded crypto).SingleUse calls call) ∧
    ∀ calls call, (PasswordJoin.guarded crypto).SingleUse calls call :=
  ⟨fun _ => GuardedVerifier.singleUse _, fun _ => GuardedVerifier.singleUse _,
    fun _ => GuardedVerifier.singleUse _, GuardedVerifier.singleUse _⟩

end NexusAuth
