import NexusAuth.Joining.Model

/-!
# What an attempt to join leaves on disk

An attempt that starts without files writes the authority key and then the state.  When it
succeeds both are there, and the next start reads them back.  When it fails before the key
is written there is nothing, and the next start waits to join again.

Between the two writes the state can still be refused, because it is for another network or
cannot be written.  The key stays, and the next start takes it for a node that has joined.
-/

namespace NexusAuth

open NexusAuth.Authority NexusAuth.Lib NexusAuth.Lib.Interaction NexusAuth.Lib.OrderedMap
open NexusAuth.Lib.Results

def Disk.empty : Disk := ⟨none, none⟩

def Disk.put (disk : Disk) : Target → Disk
  | .authorityKey seed => { disk with authorityKey := some seed }
  | .state snapshot => { disk with state := some snapshot }

def Disk.after (disk : Disk) : (call : JoinCall) → JoinAnswer call → Disk
  | .file .rename target, .ok () => disk.put target
  | _, _ => disk

namespace PasswordJoin

def diskAnswers (possible : (call : JoinCall) → JoinAnswer call → Prop) (disk : Disk)
    (call : JoinCall) (answer : JoinAnswer call) (disk' : Disk) : Prop :=
  possible call answer ∧ disk' = disk.after call answer

/-- A response that a peer may send opens to this seed and this state. -/
def Received (possible : (call : JoinCall) → JoinAnswer call → Prop) (crypto : MacCrypto)
    (wire : JoinWire) (config : JoinConfig) (seed : Bytes) (state : StoreSnapshot) : Prop :=
  ∃ peer payload bytes nonce resp, possible (.serviceRequestTo peer payload) (.ok bytes) ∧
    wire.decodeResponse bytes = .ok resp ∧
    openResponse crypto wire config.managementPassword config.network nonce resp = .ok (seed, state)

/-! ## Responses -/

section Responses

variable {crypto : MacCrypto} {wire : JoinWire} {password network joinerNonce : String}
  {seed : Bytes} {state : StoreSnapshot} {resp : PasswordJoinResponse}

theorem openResponse_makeResponse (hcrypto : crypto.Lawful) {responderNonce : String}
    {aeadNonce : Bytes} (hnonce : aeadNonce.length = 12) (hseed : seed.length = seedLen)
    (hsecret : ∀ plaintext, crypto.cbor (joinSecret seed state) = .ok plaintext →
      wire.decodeSecret plaintext = some (seed, state))
    (h : makeResponse crypto password network responderNonce aeadNonce joinerNonce seed state
      = .ok resp) :
    openResponse crypto wire password network joinerNonce resp = .ok (seed, state) := by
  simp only [makeResponse, bind_eq_ok, okOr_eq_ok, mapError_eq_ok, pure_eq_ok] at h
  obtain ⟨key, hkey, plaintext, hplaintext, ciphertext, hciphertext, macKey, hmacKey, rfl⟩ := h
  have hdecrypt : crypto.aeadDecrypt key aeadNonce ciphertext = some plaintext :=
    hcrypto.aeadDecrypt_aeadEncrypt _ _ _ _ hciphertext
  simp only [openResponse, b64Decode, bind_eq_ok, okOr_eq_ok, ensure_eq_ok, pure_eq_ok,
    decide_eq_true_eq, hcrypto.unbase64Url_base64Url]
  exact ⟨(), trivial, aeadNonce, rfl, (), hnonce, ciphertext, rfl, macKey, hmacKey, _, rfl, (), rfl,
    key, hkey, plaintext, hdecrypt, (seed, state), hsecret _ hplaintext, (), hseed, rfl⟩

theorem decoded_of_openResponse
    (h : openResponse crypto wire password network joinerNonce resp = .ok (seed, state)) :
    (∃ plaintext, wire.decodeSecret plaintext = some (seed, state)) ∧ seed.length = seedLen := by
  simp only [openResponse, bind_eq_ok, okOr_eq_ok, ensure_eq_ok, pure_eq_ok, decide_eq_true_eq,
    Prod.exists] at h
  obtain ⟨_, -, _, -, _, -, _, -, _, -, _, -, _, -, _, -, plaintext, -, _, _, hsecret, _, hlength,
    hpair⟩ := h
  simp only [Prod.mk.injEq] at hpair
  obtain ⟨rfl, rfl⟩ := hpair
  exact ⟨⟨plaintext, hsecret⟩, hlength⟩

end Responses

/-! ## Writing -/

section Writing

variable {possible : (call : JoinCall) → JoinAnswer call → Prop} {wire : JoinWire}
  {disk disk' : Disk} {target : Target}

theorem executes_fileOp {op : FileOp} {result : Except String Unit}
    (h : Executes (diskAnswers possible) (fileOp op target).run disk disk' result) :
    possible (.file op target) result ∧ disk' = disk.after (.file op target) result := by
  rw [fileOp, executes_attempt] at h
  obtain ⟨r, h, rfl⟩ := h
  have hsame : r.mapError id = r := by cases r with
    | error e => rfl
    | ok u => rfl
  rw [hsame]
  exact executes_request.mp h

theorem executes_fileOp_bind {op : FileOp} (hop : op ≠ .rename)
    {next : Unit → ExceptT String JoinM Unit} {result : Except String Unit}
    (h : Executes (diskAnswers possible) (fileOp op target >>= next).run disk disk' result) :
    (∃ e, possible (.file op target) (.error e) ∧ result = .error e ∧ disk' = disk) ∨
      Executes (diskAnswers possible) (next ()).run disk disk' result := by
  have hafter : ∀ r : Except String Unit, disk.after (.file op target) r = disk := by
    intro r
    cases op with
    | rename => exact absurd rfl hop
    | createDirAll => rfl
    | write => rfl
    | setPermissions => rfl
  rw [executes_bindExcept] at h
  obtain ⟨e, h, rfl⟩ | ⟨mid, _, hstep, h⟩ := h
  · obtain ⟨hpossible, rfl⟩ := executes_fileOp h
    exact .inl ⟨e, hpossible, rfl, hafter _⟩
  · obtain ⟨-, rfl⟩ := executes_fileOp hstep
    rw [hafter] at h
    exact .inr h

theorem executes_atomicWrite {result : Except String Unit}
    (h : Executes (diskAnswers possible) (atomicWrite target).run disk disk' result) :
    (∃ op e, possible (.file op target) (.error e) ∧ result = .error e ∧ disk' = disk) ∨
      (result = .ok () ∧ disk' = disk.put target) := by
  rw [atomicWrite] at h
  obtain ⟨e, hfailed⟩ | h := executes_fileOp_bind (by decide) h
  · exact .inl ⟨_, e, hfailed⟩
  obtain ⟨e, hfailed⟩ | h := executes_fileOp_bind (by decide) h
  · exact .inl ⟨_, e, hfailed⟩
  obtain ⟨e, hfailed⟩ | h := executes_fileOp_bind (by decide) h
  · exact .inl ⟨_, e, hfailed⟩
  obtain ⟨hpossible, rfl⟩ := executes_fileOp h
  cases result with
  | error e => exact .inl ⟨_, e, hpossible, rfl, rfl⟩
  | ok u => exact .inr ⟨rfl, rfl⟩

structure Savable (possible : (call : JoinCall) → JoinAnswer call → Prop) (wire : JoinWire)
    (network : String) (state : StoreSnapshot) : Prop where
  network : state.network = network
  toml : wire.tomlError state = none
  written : ∀ op e, ¬possible (.file op (.state state)) (.error e)

theorem executes_fromSnapshot {network : String} {state : StoreSnapshot}
    {result : Except StoreError Store}
    (h : Executes (diskAnswers possible) (fromSnapshot wire network state).run disk disk' result) :
    (¬Savable possible wire network state ∧ (∃ e, result = .error e) ∧ disk' = disk) ∨
      (state.network = network ∧ result = .ok { state with file := some state } ∧
        disk' = disk.put (.state state)) := by
  rw [fromSnapshot, executes_fallible_bind] at h
  obtain ⟨e, hcheck, rfl, rfl⟩ | ⟨_, hcheck, h⟩ := h
  · refine .inl ⟨fun hsavable => ?_, ⟨e, rfl⟩, rfl⟩
    simp [ensure, hsavable.network] at hcheck
  rw [executes_fallible_bind] at h
  obtain ⟨e, htoml, rfl, rfl⟩ | ⟨_, -, h⟩ := h
  · refine .inl ⟨fun hsavable => ?_, ⟨e, rfl⟩, rfl⟩
    simp [hsavable.toml] at htoml
  rw [executes_attempt_bind] at h
  obtain ⟨e, hwrite, rfl⟩ | ⟨mid, _, hwrite, rfl, rfl⟩ := h
  · obtain ⟨op, e', hpossible, -, rfl⟩ | ⟨hok, -⟩ := executes_atomicWrite hwrite
    · exact .inl ⟨fun hsavable => hsavable.written op e' hpossible, ⟨_, rfl⟩, rfl⟩
    · cases hok
  · obtain ⟨op, e', -, herror, -⟩ | ⟨-, rfl⟩ := executes_atomicWrite hwrite
    · cases herror
    · exact .inr ⟨by simpa using hcheck, rfl, rfl⟩

end Writing

/-! ## One attempt -/

section Attempt

variable {possible : (call : JoinCall) → JoinAnswer call → Prop} {crypto : MacCrypto}
  {wire : JoinWire} {config : JoinConfig} {disk disk' : Disk}

inductive Ended (possible : (call : JoinCall) → JoinAnswer call → Prop) (crypto : MacCrypto)
    (wire : JoinWire) (config : JoinConfig) :
    Except PasswordJoinError (Signer × Store) → Disk → Prop
  | joined {seed : Bytes} {state : StoreSnapshot}
      (hreceived : Received possible crypto wire config seed state)
      (hname : isValidNetworkName config.network = true)
      (hnetwork : state.network = config.network) :
      Ended possible crypto wire config
        (.ok (⟨seed, config.network⟩, { state with file := some state })) ⟨some seed, some state⟩
  | refused {e : PasswordJoinError} : Ended possible crypto wire config (.error e) .empty
  /-- The key is there and the state is not. -/
  | torn {e : PasswordJoinError} {seed : Bytes} {state : StoreSnapshot}
      (hreceived : Received possible crypto wire config seed state)
      (hunsaved : ¬Savable possible wire config.network state) :
      Ended possible crypto wire config (.error e) ⟨some seed, none⟩

theorem executes_persist {seed : Bytes} {state : StoreSnapshot}
    {result : Except PasswordJoinError (Signer × Store)}
    (hreceived : Received possible crypto wire config seed state)
    (hname : isValidNetworkName config.network = true)
    (h : Executes (diskAnswers possible) (persist wire ⟨seed, config.network⟩ state).run .empty
      disk' result) : Ended possible crypto wire config result disk' := by
  rw [persist, executes_attempt_bind] at h
  obtain ⟨e, hkey, rfl⟩ | ⟨mid, _, hkey, h⟩ := h
  · obtain ⟨op, e', -, -, rfl⟩ | ⟨hok, -⟩ := executes_atomicWrite hkey
    · exact .refused
    · cases hok
  obtain ⟨op, e', -, herror, -⟩ | ⟨-, rfl⟩ := executes_atomicWrite hkey
  · cases herror
  -- The key is on disk from here on.
  rw [executes_attempt_bind] at h
  obtain ⟨e, hstate, rfl⟩ | ⟨mid, store, hstate, rfl, rfl⟩ := h
  · obtain ⟨hunsaved, -, rfl⟩ | ⟨-, hok, -⟩ := executes_fromSnapshot hstate
    · exact .torn hreceived hunsaved
    · cases hok
  · obtain ⟨-, ⟨e, herror⟩, -⟩ | ⟨hnetwork, hok, rfl⟩ := executes_fromSnapshot hstate
    · cases herror
    · cases hok
      exact .joined hreceived hname hnetwork

def Quiet : JoinCall → Prop
  | .file _ _ => False
  | _ => True

theorem executes_quiet {α : Type} {p : JoinM α} {value : α} (hp : Asks Quiet p)
    (h : Executes (diskAnswers possible) p disk disk' value) : disk' = disk := by
  apply h.eq_of_asks hp
  rintro s call answer s' hcall ⟨-, rfl⟩
  cases call with
  | file op target => exact hcall.elim
  | whoami => rfl
  | discoverProviders => rfl
  | random => rfl
  | now => rfl
  | serviceRequestTo peer payload => rfl
  | queryKey key => rfl

theorem asks_verifyAgainstDht {authority : Signer} :
    Asks Quiet (verifyAgainstDht crypto wire authority) := by
  rw [verifyAgainstDht]
  refine ⟨trivial, fun answer => ?_⟩
  obtain e | value := answer
  · trivial
  · cases value with
    | none => trivial
    | some value => trivial

theorem asks_fetch {peer : String} : Asks Quiet (fetch crypto wire config peer) := by
  rw [fetch, asks_request_bind]
  refine ⟨trivial, fun nonce => ?_⟩
  rw [asks_request_bind]
  refine ⟨trivial, fun ts => ?_⟩
  split
  · trivial
  split
  · trivial
  rw [asks_request_bind]
  refine ⟨trivial, fun answer => ?_⟩
  obtain e | bytes := answer
  · trivial
  · dsimp only
    split
    · trivial
    · trivial

theorem executes_fetch {peer : String} {seed : Bytes} {state : StoreSnapshot}
    (h : Executes (diskAnswers possible) (fetch crypto wire config peer) disk disk'
      (.ok (.ok (seed, state)))) : Received possible crypto wire config seed state := by
  rw [fetch, executes_request_bind] at h
  obtain ⟨nonce, _, -, h⟩ := h
  rw [executes_request_bind] at h
  obtain ⟨ts, _, -, h⟩ := h
  split at h
  · exact absurd h.2 (by simp)
  split at h
  · exact absurd h.2 (by simp)
  rw [executes_request_bind] at h
  obtain ⟨answer, _, ⟨hpossible, -⟩, h⟩ := h
  obtain e | bytes := answer
  · exact absurd h.2 (by simp)
  dsimp only at h
  split at h
  · exact absurd h.2 (by simp)
  · rename_i resp hresp
    exact ⟨peer, _, bytes, nonce, resp, hpossible, hresp, by simpa using h.2.symm⟩

theorem fromSeed_eq_ok {seed : Bytes} {network : String} {authority : Signer} :
    Signer.fromSeed seed network = .ok authority ↔
      isValidNetworkName network = true ∧ authority = ⟨seed, network⟩ := by
  rw [Signer.fromSeed]
  cases isValidNetworkName network with
  | false => simp
  | true => simp [eq_comm]

theorem executes_tryPeers {lastError : Option PasswordJoinError} {peers : List String}
    {result : Except PasswordJoinError (Signer × Store)}
    (h : Executes (diskAnswers possible) (tryPeers crypto wire config lastError peers) .empty disk'
      result) : Ended possible crypto wire config result disk' := by
  induction peers generalizing lastError with
  | nil =>
      obtain ⟨rfl, rfl⟩ := h
      exact .refused
  | cons peer rest ih =>
      rw [tryPeers, executes_bind] at h
      obtain ⟨mid, fetched, hfetch, h⟩ := h
      obtain rfl := executes_quiet asks_fetch hfetch
      match fetched, hfetch, h with
      | .error e, _, h =>
          obtain ⟨rfl, rfl⟩ := h
          exact .refused
      | .ok (.error e), _, h => exact ih h
      | .ok (.ok (seed, state)), hfetch, h =>
          have hreceived := executes_fetch hfetch
          dsimp only at h
          split at h
          · obtain ⟨rfl, rfl⟩ := h
            exact .refused
          · rename_i authority hauthority
            rw [executes_bind] at h
            obtain ⟨mid, verdict, hdht, h⟩ := h
            obtain rfl := executes_quiet asks_verifyAgainstDht hdht
            cases verdict with
            | error e => exact ih h
            | ok u =>
                obtain ⟨hname, rfl⟩ := fromSeed_eq_ok.mp hauthority
                exact executes_persist hreceived hname h

theorem executes_joinAttempt {result : Except PasswordJoinError (Signer × Store)}
    (h : Executes (diskAnswers possible) (attempt crypto wire config) .empty disk' result) :
    Ended possible crypto wire config result disk' := by
  rw [attempt, executes_request_bind] at h
  obtain ⟨me, _, ⟨-, rfl⟩, h⟩ := h
  rw [executes_request_bind] at h
  obtain ⟨peers, _, ⟨-, rfl⟩, h⟩ := h
  dsimp only at h
  split at h
  · obtain ⟨rfl, rfl⟩ := h
    exact .refused
  · exact executes_tryPeers h

end Attempt

/-! ## The next start -/

section Restart

variable {prim : Primitives} {config : StartConfig} {io : StartIo}

theorem buildInitial_joined {seed : Bytes} {state : StoreSnapshot}
    (hname : isValidNetworkName config.network = true) (hlength : seed.length = seedLen)
    (hnetwork : state.network = config.network) :
    buildInitial prim config io ⟨some seed, some state⟩ =
        .ready (some ⟨seed, config.network⟩) { state with file := some state } ∨
      ((io.keyRead.isSome ∨ io.stateRead.isSome) ∧
        ∃ title, buildInitial prim config io ⟨some seed, some state⟩ = .exits title) := by
  cases hkey : io.keyRead with
  | some e => exact .inr ⟨.inl rfl, "加载权威密钥失败", by simp [buildInitial, Signer.load, hkey]⟩
  | none =>
      have hload : Signer.load io seed config.network = some ⟨seed, config.network⟩ := by
        simp [Signer.load, hkey, hlength, fromSeed_eq_ok.mpr ⟨hname, rfl⟩, Except.toOption]
      cases hstate : io.stateRead with
      | some e =>
          refine .inr ⟨.inr rfl, "加载成员状态失败", ?_⟩
          simp [buildInitial, hload, readyWith, Disk.readState, hstate, Store.loadOrCreate]
      | none =>
          refine .inl ?_
          obtain ⟨network, indexVersion, services, tombstones⟩ := state
          obtain rfl : network = config.network := hnetwork
          simp [buildInitial, hload, readyWith, Disk.readState, hstate, Store.loadOrCreate]

theorem buildInitial_empty (hmode : config.joinMode ≠ "init")
    (hcluster : config.clusterEnabled = false) : buildInitial prim config io .empty = .waits := by
  simp [buildInitial, Disk.empty, hmode, hcluster]

end Restart

/-! ## All or nothing -/

/-- When every state that can be received can be saved, an attempt that succeeds leaves the
received key and exactly the received state, and the next start takes up both.  One that
fails leaves nothing, and the next start waits to join again. -/
theorem join_all_or_nothing {possible : (call : JoinCall) → JoinAnswer call → Prop}
    {crypto : MacCrypto} {wire : JoinWire} {config : StartConfig}
    (hsavable : ∀ seed state, Received possible crypto wire config.toJoinConfig seed state →
      Savable possible wire config.network state)
    {disk : Disk} {result : Except PasswordJoinError (Signer × Store)}
    (hrun : Executes (diskAnswers possible) (attempt crypto wire config.toJoinConfig) .empty disk
      result) :
    (∀ authority store, result = .ok (authority, store) →
      Received possible crypto wire config.toJoinConfig authority.seed store.snapshot ∧
      disk = ⟨some authority.seed, some store.snapshot⟩ ∧
      ∀ io, buildInitial crypto.toPrimitives config io disk = .ready (some authority) store ∨
        ((io.keyRead.isSome ∨ io.stateRead.isSome) ∧
          ∃ title, buildInitial crypto.toPrimitives config io disk = .exits title)) ∧
    (∀ e, result = .error e → disk = .empty ∧
      ∀ io, config.joinMode ≠ "init" → config.clusterEnabled = false →
        buildInitial crypto.toPrimitives config io disk = .waits) := by
  constructor
  · rintro authority store rfl
    cases executes_joinAttempt hrun with
    | joined hreceived hname hnetwork =>
        obtain ⟨peer, payload, bytes, nonce, resp, -, -, hopen⟩ := id hreceived
        have hlength := (decoded_of_openResponse hopen).2
        exact ⟨hreceived, rfl, fun io => buildInitial_joined hname hlength hnetwork⟩
  · rintro e rfl
    cases executes_joinAttempt hrun with
    | refused => exact ⟨rfl, fun io hmode hcluster => buildInitial_empty hmode hcluster⟩
    | torn hreceived hunsaved => exact absurd (hsavable _ _ hreceived) hunsaved

/-! ### Two runs

A node asks the one other sidecar, whose response holds a state with one service.  In the
second run the state file cannot be written. -/

def joinedSeed : Bytes := List.replicate seedLen 7

def networkState : StoreSnapshot where
  network := "net"
  indexVersion := 3
  services := (∅ : BTreeMap String ServiceState).insert "cmd" ⟨2, collectPeers [peerA]⟩
  tombstones := ∅

def joinReply : Except PasswordJoinError PasswordJoinResponse :=
  makeResponse sampleMacCrypto "password" "net" "responder" (List.replicate 12 1) "nonce" joinedSeed
    networkState

def joinWire : JoinWire where
  encodeRequest _ := .ok []
  decodeResponse _ := joinReply.mapError PasswordJoinError.text
  decodeSecret _ := some (joinedSeed, networkState)
  tomlError _ := none
  coseVerifies _ _ _ := false

def joinStart : StartConfig where
  network := "net"
  managementPassword := "password"
  joinMode := "require"
  clusterEnabled := false
  initialMembers := ∅

def surroundings (writable : Bool) : (call : JoinCall) → JoinAnswer call
  | .whoami => .ok "me"
  | .discoverProviders => .ok ["peer", "me"]
  | .random => "nonce"
  | .now => 0
  | .serviceRequestTo _ _ => .ok []
  | .queryKey _ => .ok none
  | .file .write (.state _) => if writable then .ok () else .error "disk full"
  | .file _ _ => .ok ()

def met (writable : Bool) (call : JoinCall) (answer : JoinAnswer call) : Prop :=
  answer = surroundings writable call

theorem open_joinReply : ∃ resp, joinReply = .ok resp ∧
    openResponse sampleMacCrypto joinWire "password" "net" "nonce" resp =
      .ok (joinedSeed, networkState) := by
  refine ⟨_, rfl, ?_⟩
  have hlawful : sampleMacCrypto.Lawful := sampleCrypto_lawful
  exact openResponse_makeResponse hlawful rfl rfl (fun _ _ => rfl) rfl

def respond (writable : Bool) (disk : Disk) (call : JoinCall) : JoinAnswer call × Disk :=
  (surroundings writable call, disk.after call (surroundings writable call))

theorem fetch_met (writable : Bool) :
    perform (respond writable)
      (fetch sampleMacCrypto joinWire joinStart.toJoinConfig "peer") .empty =
      (.empty, .ok (.ok (joinedSeed, networkState))) := by
  obtain ⟨resp, hresp, hopen⟩ := open_joinReply
  have hdecode : joinWire.decodeResponse [] = .ok resp := by
    simp only [joinWire, hresp, Except.mapError]
  obtain ⟨req, hreq⟩ : ∃ req, makeRequest sampleMacCrypto "password" "net" "nonce" 0 = .ok req :=
    ⟨_, rfl⟩
  have hencode : joinWire.encodeRequest req = .ok [] := rfl
  rw [fetch, perform_request_bind, perform_request_bind]
  simp only [respond, surroundings, joinStart, hreq, hencode]
  rw [perform_request_bind]
  simp only [respond, surroundings, hdecode, hopen]
  rfl

theorem attempt_met (writable : Bool) :
    perform (respond writable) (attempt sampleMacCrypto joinWire joinStart.toJoinConfig) .empty =
      if writable then
        (⟨some joinedSeed, some networkState⟩,
          .ok (⟨joinedSeed, "net"⟩, { networkState with file := some networkState }))
      else (⟨some joinedSeed, none⟩, .error (.persist "io error: disk full")) := by
  have hcandidates : candidates (some "me") ["peer", "me"] = ["peer"] := by decide +kernel
  have hauthority : Signer.fromSeed joinedSeed "net" = .ok ⟨joinedSeed, "net"⟩ := by decide +kernel
  rw [attempt, perform_request_bind, perform_request_bind]
  simp only [respond, surroundings, Disk.after, Except.toOption, Option.getD_some, hcandidates,
    List.isEmpty_cons]
  rw [if_neg (by decide), tryPeers, perform_bind, fetch_met]
  simp only [joinStart, hauthority, perform_bind]
  cases writable with
  | false => rfl
  | true => rfl

theorem executes_met (writable : Bool) :
    Executes (diskAnswers (met writable)) (attempt sampleMacCrypto joinWire joinStart.toJoinConfig)
      .empty
      (perform (respond writable)
        (attempt sampleMacCrypto joinWire joinStart.toJoinConfig) .empty).1
      (perform (respond writable) (attempt sampleMacCrypto joinWire joinStart.toJoinConfig)
        .empty).2 :=
  executes_perform (fun _ _ => ⟨rfl, rfl⟩) _ _

def healthyIo : StartIo := ⟨none, none, fun _ => none, none, []⟩

theorem join_all_or_nothing_writable :
    buildInitial sampleMacCrypto.toPrimitives joinStart healthyIo
        ⟨some joinedSeed, some networkState⟩ =
      .ready (some ⟨joinedSeed, "net"⟩) { networkState with file := some networkState } := by
  have hrun := executes_met true
  rw [attempt_met] at hrun
  have hsavable : ∀ seed state,
      Received (met true) sampleMacCrypto joinWire joinStart.toJoinConfig seed state →
      Savable (met true) joinWire joinStart.network state := by
    rintro seed state ⟨_, _, _, _, _, -, -, hopen⟩
    obtain ⟨⟨plaintext, hsecret⟩, -⟩ := decoded_of_openResponse hopen
    obtain ⟨rfl, rfl⟩ : joinedSeed = seed ∧ networkState = state := by
      simpa only [joinWire, Option.some.injEq, Prod.mk.injEq] using hsecret
    refine ⟨rfl, rfl, fun op e => ?_⟩
    cases op with
    | createDirAll => simp [met, surroundings]
    | write => simp [met, surroundings]
    | setPermissions => simp [met, surroundings]
    | rename => simp [met, surroundings]
  obtain ⟨-, -, hready⟩ := (join_all_or_nothing hsavable hrun).1 _ _ rfl
  obtain h | ⟨hunread, -⟩ := hready healthyIo
  · exact h
  · exact absurd hunread (by decide)

/-- The state cannot be written, the attempt fails, and the next start signs with the key of
the network for a store without its services. -/
theorem unwritable_state_keeps_key :
    Executes (diskAnswers (met false))
      (attempt sampleMacCrypto joinWire joinStart.toJoinConfig) .empty
        ⟨some joinedSeed, none⟩ (.error (.persist "io error: disk full")) ∧
      buildInitial sampleMacCrypto.toPrimitives joinStart healthyIo ⟨some joinedSeed, none⟩ =
        .ready (some ⟨joinedSeed, "net"⟩) ⟨⟨"net", 1, ∅, ∅⟩, some ⟨"net", 1, ∅, ∅⟩⟩ ∧
      "cmd" ∈ networkState.services := by
  have hrun := executes_met false
  rw [attempt_met] at hrun
  refine ⟨hrun, ?_, by decide +kernel⟩
  decide +kernel

end PasswordJoin

end NexusAuth
