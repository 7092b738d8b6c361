import NexusAuth.Raft.Rpc

/-!
# Which request a reply answers

A reply is signed over its sender, its receiver and what it says, and over nothing of
the request.  So the network can hand a call any answer that the target ever gave to
the caller, and these are also the only ones it can hand over.
-/

namespace NexusAuth.Raft

open NexusAuth.Lib NexusAuth.Lib.Network NexusAuth.Lib.OrderedMap

/-! ## Accepted replies -/

section Accepting

variable {crypto : Crypto} {verifier : RpcVerifier} {target : NodeId} {reply : RaftRpcReply}
  {bytes : Bytes}

theorem verifies_eq_true {key : Bytes} (hbody : crypto.unbase64Url reply.body = some bytes) :
    reply.verifies crypto key = true ↔
      ∃ sig, crypto.unbase64Url reply.signature = some sig ∧
        crypto.edVerify key (responseInput reply.clusterId reply.sender reply.receiver reply.ok
          bytes reply.error) sig = true := by
  rw [RaftRpcReply.verifies, hbody]
  cases crypto.unbase64Url reply.signature <;> simp

theorem verifyReply_eq_ok :
    verifier.verifyReply crypto target reply = .ok bytes ↔
      reply.op = raftRpcOp ∧ reply.clusterId = verifier.clusterId ∧ reply.sender = target ∧
        reply.receiver = verifier.localId ∧ reply.ok = true ∧
        crypto.unbase64Url reply.body = some bytes ∧
        ∃ key, verifier.keys[target]? = some key ∧ reply.verifies crypto key = true := by
  rw [RpcVerifier.verifyReply]
  by_cases hop : reply.op = raftRpcOp
  swap; · simp [hop]
  by_cases hcluster : reply.clusterId = verifier.clusterId
  swap; · simp [hop, hcluster]
  by_cases hsender : reply.sender = target
  swap; · simp [hop, hcluster, hsender]
  by_cases hreceiver : reply.receiver = verifier.localId
  swap; · simp [hop, hcluster, hsender, hreceiver]
  rw [if_neg (not_not.mpr hop), if_neg (not_not.mpr hcluster), if_neg (not_not.mpr hsender),
    if_neg (not_not.mpr hreceiver)]
  cases hkey : verifier.keys[target]? with
  | none => simp
  | some key =>
      cases hbody : crypto.unbase64Url reply.body with
      | none => simp
      | some body =>
          simp only [verifies_eq_true hbody]
          cases hsig : crypto.unbase64Url reply.signature with
          | none => simp
          | some sig =>
              cases hok : reply.ok <;> simp [hop, hcluster, hsender, hreceiver]
              all_goals split <;> simp_all

theorem receiveReply_eq_ok {node : RpcNode} :
    node.receiveReply crypto target reply = .ok bytes ↔
      node.verifier.verifyReply crypto target reply = .ok bytes := by
  rw [RpcNode.receiveReply]
  cases node.verifier.verifyReply crypto target reply <;> simp [Except.mapError]

end Accepting

/-! ## Every reply on the wire is one of the recorded answers -/

variable {setting : RpcSetting}

namespace RpcSetting

def replyFor (setting : RpcSetting) (entry : NodeId × RpcHandled) : RaftRpcReply :=
  (setting.node entry.1 ⟨∅, by simp⟩).signedReply setting.crypto entry.2.sender entry.2.outcome

end RpcSetting

theorem reply_of_handleRpc {node : NodeId} {table : KeyTable setting}
    {raft : RaftRpcBody → Except String RaftResponse} {envelope : RaftRpcEnvelope}
    {handled : RpcHandled} {reply : RaftRpcReply}
    (h : (setting.node node table).handleRpc setting.crypto setting.codec raft envelope =
      .ok (handled, reply)) : reply = setting.replyFor (node, handled) := by
  rw [RpcNode.handleRpc] at h
  split at h
  · cases h
  · split at h
    · cases h
    · cases h
      rw [RpcSetting.replyFor]
      cases encodeOutcome setting.codec _ <;> rfl

/-- The replies on the wire belong one by one to the handled requests. -/
def RpcWorld.Recorded (setting : RpcSetting) (w : RpcWorld) : Prop :=
  w.replies = w.handled.map setting.replyFor

theorem recorded_step {w : RpcWorld} (h : w.Recorded setting) (event : RpcEvent setting) :
    (w.step setting event).Recorded setting := by
  cases event with
  | send call table =>
      rw [RpcWorld.step]
      split <;> exact h
  | handle node table answer delivery =>
      rw [RpcWorld.step]
      split
      · exact h
      · split
        · exact h
        · rename_i hhandled
          rw [RpcWorld.Recorded, List.map_append, List.map_singleton, ← reply_of_handleRpc hhandled,
            ← h]
  | finish index table delivery =>
      rw [RpcWorld.step]
      split <;> exact h

theorem recorded_start : RpcWorld.start.Recorded setting := rfl

theorem recorded_after (events : List (RpcEvent setting)) (k : Nat) :
    (RpcWorld.after setting events k).Recorded setting :=
  Runs.invariant recorded_start (fun _ _ h => recorded_step h _) k

/-! ## What a call can be handed -/

theorem answer_of_receiveReply (hlaw : setting.crypto.Lawful) {caller target : NodeId}
    {table : KeyTable setting} {entry : NodeId × RpcHandled} {bytes : Bytes}
    (h : (setting.node caller table).receiveReply setting.crypto target (setting.replyFor entry) =
      .ok bytes) :
    entry = (target, ⟨caller, entry.2.body, .ok bytes⟩) := by
  obtain ⟨node, sender, body, outcome⟩ := entry
  obtain ⟨-, -, hsender, hreceiver, hok, hbody, -⟩ :=
    verifyReply_eq_ok.mp (receiveReply_eq_ok.mp h)
  cases outcome with
  | error e => cases hok
  | ok answer =>
      have hnode : node = target := hsender
      have hcaller : sender = caller := hreceiver
      have hanswer : some answer = some bytes :=
        (hlaw.unbase64Url_base64Url answer).symm.trans hbody
      rw [hnode, hcaller, Option.some.inj hanswer]

theorem receiveReply_of_answer (hlaw : setting.crypto.Lawful) {caller target : NodeId}
    {table : KeyTable setting} (hmember : (table.keys[target]?).isSome) {body : RaftRpcBody}
    {bytes : Bytes} :
    (setting.node caller table).receiveReply setting.crypto target
      (setting.replyFor (target, ⟨caller, body, .ok bytes⟩)) = .ok bytes := by
  obtain ⟨key, hkey⟩ := Option.isSome_iff_exists.mp hmember
  have hbody : setting.crypto.unbase64Url
      (setting.replyFor (target, ⟨caller, body, .ok bytes⟩)).body = some bytes :=
    hlaw.unbase64Url_base64Url bytes
  have hsigned : (setting.replyFor (target, ⟨caller, body, .ok bytes⟩)).verifies setting.crypto
      key = true := by
    rw [verifies_eq_true hbody, table.honest target key hkey]
    exact ⟨_, hlaw.unbase64Url_base64Url _, hlaw.edVerify_edSign _ _⟩
  rw [receiveReply_eq_ok, verifyReply_eq_ok]
  exact ⟨rfl, rfl, rfl, rfl, rfl, hbody, key, hkey, hsigned⟩

theorem signedReply_of_receiveReply {caller target : NodeId} {table : KeyTable setting}
    {reply : RaftRpcReply} {bytes : Bytes}
    (h : (setting.node caller table).receiveReply setting.crypto target reply = .ok bytes) :
    setting.signedReply reply = true := by
  obtain ⟨-, -, hsender, -, -, -, key, hkey, hverifies⟩ :=
    verifyReply_eq_ok.mp (receiveReply_eq_ok.mp h)
  rw [RpcSetting.signedReply, hsender, ← table.honest target key hkey]
  exact hverifies

theorem answered_of_returned (hlaw : setting.crypto.Lawful) {w : RpcWorld}
    (hw : w.Recorded setting) {event : RpcEvent setting} {call : RpcCall} {bytes : Bytes}
    (h : w.returned setting event = some (call, .ok bytes)) :
    ∃ body, w.Answered call.target call.caller body bytes := by
  cases event with
  | send call table => cases h
  | handle node table answer delivery => cases h
  | finish index table delivery =>
      rw [RpcWorld.returned] at h
      split at h
      · rename_i waiting reply hwaiting hreply
        obtain ⟨rfl, hreceive⟩ := Prod.mk.inj (Option.some.inj h)
        have hsent : reply ∈ w.replies := by
          rcases Delivery.message_cases hreply with hsent | hforged
          · exact hsent
          · rw [signedReply_of_receiveReply hreceive] at hforged
            cases hforged
        rw [hw, List.mem_map] at hsent
        obtain ⟨entry, hentry, rfl⟩ := hsent
        rw [answer_of_receiveReply hlaw hreceive] at hentry
        exact ⟨_, hentry⟩
      · cases h

theorem returned_of_answered (hlaw : setting.crypto.Lawful) {w : RpcWorld}
    (hw : w.Recorded setting) {index : Nat} {call : RpcCall} (hcall : w.calls[index]? = some call)
    {table : KeyTable setting} (hmember : (table.keys[call.target]?).isSome) {body : RaftRpcBody}
    {bytes : Bytes} (hanswer : w.Answered call.target call.caller body bytes) :
    ∃ delivery, w.returned setting (.finish index table delivery) = some (call, .ok bytes) := by
  have hsent : setting.replyFor (call.target, ⟨call.caller, body, .ok bytes⟩) ∈ w.replies := by
    rw [hw]
    exact List.mem_map_of_mem hanswer
  obtain ⟨delivery, hdelivery⟩ := exists_delivery setting.signedReply hsent
  refine ⟨delivery, ?_⟩
  rw [RpcWorld.returned, hcall, hdelivery]
  exact congrArg (fun result => some (call, result)) (receiveReply_of_answer hlaw hmember)

/-! ## Replies and requests -/

/-- The network cannot make a call return anything but answers to its own request if and
only if the target has given the caller no other answers. -/
theorem returns_only_answers_iff (hlaw : setting.crypto.Lawful) (events : List (RpcEvent setting))
    (k index : Nat) (call : RpcCall)
    (hcall : (RpcWorld.after setting events k).calls[index]? = some call)
    (table : KeyTable setting) (hmember : (table.keys[call.target]?).isSome) :
    (∀ delivery bytes, (RpcWorld.after setting events k).returned setting
        (.finish index table delivery) = some (call, .ok bytes) →
      (RpcWorld.after setting events k).Answered call.target call.caller call.body bytes) ↔
    ∀ body bytes, (RpcWorld.after setting events k).Answered call.target call.caller body bytes →
      (RpcWorld.after setting events k).Answered call.target call.caller call.body bytes := by
  constructor
  · intro h body bytes hanswer
    obtain ⟨delivery, hdelivery⟩ :=
      returned_of_answered hlaw (recorded_after events k) hcall hmember hanswer
    exact h delivery bytes hdelivery
  · intro h delivery bytes hreturned
    obtain ⟨body, hanswer⟩ := answered_of_returned hlaw (recorded_after events k) hreturned
    exact h body bytes hanswer

/-- A call returns an answer to its own request in every run in which the target has
given the caller no answer that it did not also give to this request. -/
theorem accepted_reply_answers_request (hlaw : setting.crypto.Lawful)
    (events : List (RpcEvent setting)) (k : Nat) (hk : k < events.length) (call : RpcCall)
    (bytes : Bytes)
    (hreturned : (RpcWorld.after setting events k).returned setting events[k] =
      some (call, .ok bytes))
    (honly : ∀ body other,
      (RpcWorld.after setting events k).Answered call.target call.caller body other →
      (RpcWorld.after setting events k).Answered call.target call.caller call.body other) :
    (RpcWorld.after setting events k).Answered call.target call.caller call.body bytes := by
  obtain ⟨body, hanswer⟩ := answered_of_returned hlaw (recorded_after events k) hreturned
  exact honly body bytes hanswer

/-! ### A replayed success

Node 1 replicates to node 2 twice.  The second request is lost, and the network
answers it with the success that node 2 gave to the first one. -/

namespace ReplayedSuccess

def vote : Vote := ⟨⟨1, 1⟩, true⟩

def heartbeat : RaftRpcBody := .appendEntries vote none [] none

def replicate : RaftRpcBody := .appendEntries vote none [⟨⟨⟨1, 1⟩, 1⟩, .blank⟩] none

def codec : RpcCodec where
  encodeBody body :=
    if body = heartbeat then .ok [0] else if body = replicate then .ok [1] else .error "unsupported"
  decodeBody bytes :=
    if bytes = [0] then .ok heartbeat else if bytes = [1] then .ok replicate else .error "unknown"
  encodeResponse response := if response = .appendSuccess then .ok [0] else .error "unsupported"

theorem codec_lossless : codec.Lossless := by
  intro body bytes h
  simp only [codec] at h ⊢
  split at h
  · rename_i hbody
    cases h
    rw [hbody]
    rfl
  · split at h
    · rename_i hbody
      cases h
      rw [hbody]
      rfl
    · cases h

def twoNodes : RpcSetting := ⟨sampleCrypto, codec, "cluster", fun node => [UInt8.ofNat node]⟩

def table : KeyTable twoNodes where
  keys := ((∅ : BTreeMap NodeId Bytes).insert 1 [1]).insert 2 [2]
  honest := by
    have hempty : ∀ node key, (∅ : BTreeMap NodeId Bytes)[node]? = some key →
        key = [UInt8.ofNat node] := by simp
    have hone : ∀ node key, ((∅ : BTreeMap NodeId Bytes).insert 1 [1])[node]? = some key →
        key = [UInt8.ofNat node] := fun _ _ => forall_insert hempty rfl
    exact fun _ _ => forall_insert hone rfl

def events : List (RpcEvent twoNodes) :=
  [.send ⟨1, 2, heartbeat⟩ table, .handle 2 table (.ok .appendSuccess) (.replayed 0),
    .finish 0 table (.replayed 0), .send ⟨1, 2, replicate⟩ table, .finish 0 table (.replayed 0)]

/-- Node 2 also handles the second request, and gives it the same answer. -/
def answeredTwice : List (RpcEvent twoNodes) :=
  [.send ⟨1, 2, heartbeat⟩ table, .handle 2 table (.ok .appendSuccess) (.replayed 0),
    .finish 0 table (.replayed 0), .send ⟨1, 2, replicate⟩ table,
    .handle 2 table (.ok .appendSuccess) (.replayed 1), .finish 0 table (.replayed 0)]

end ReplayedSuccess

open ReplayedSuccess in
theorem send_accepts_earlier_reply :
    twoNodes.crypto.Lawful ∧ twoNodes.codec.Lossless ∧
      (RpcWorld.after twoNodes events 4).returned twoNodes
        (.finish 0 table (.replayed 0)) = some (⟨1, 2, replicate⟩, .ok [0]) ∧
      ∀ bytes, ¬ (RpcWorld.after twoNodes events 4).Answered 2 1 replicate
        bytes := by
  have hhandled : (RpcWorld.after twoNodes events 4).handled =
      [(2, ⟨1, heartbeat, .ok [0]⟩)] := by decide +kernel
  refine ⟨sampleCrypto_lawful, codec_lossless, by decide +kernel, fun bytes h => ?_⟩
  rw [RpcWorld.Answered, hhandled, List.mem_singleton] at h
  have hbody : replicate = heartbeat := congrArg (fun entry => entry.2.body) h
  exact absurd hbody (by decide +kernel)

open ReplayedSuccess in
/-- The second call is handed the reply to the first one, which says what node 2 has also
answered to the second. -/
theorem accepted_reply_answers_request_replicate :
    (RpcWorld.after twoNodes answeredTwice 5).Answered 2 1 replicate [0] := by
  have hhandled : (RpcWorld.after twoNodes answeredTwice 5).handled =
      [(2, ⟨1, heartbeat, .ok [0]⟩), (2, ⟨1, replicate, .ok [0]⟩)] := by decide +kernel
  refine accepted_reply_answers_request sampleCrypto_lawful answeredTwice 5 (by decide)
    ⟨1, 2, replicate⟩ [0] (by decide +kernel) fun body other h => ?_
  rw [RpcWorld.Answered, hhandled] at h ⊢
  have hother : other = [0] := by
    simp only [List.mem_cons, Prod.mk.injEq, RpcHandled.mk.injEq, Except.ok.injEq,
      List.not_mem_nil, or_false] at h
    obtain h | h := h <;> exact h.2.2.2
  simp [hother]

end NexusAuth.Raft
