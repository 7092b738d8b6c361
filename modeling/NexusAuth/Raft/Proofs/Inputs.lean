import NexusAuth.Raft.Rpc

/-!
# What the signature of an RPC fixes

Requests and replies are signed over their fields, joined with zero bytes.  The two node ids
and the flag of a reply have fixed widths, and the body of a request takes the rest, so that a
request can be read back.  A reply ends with a body and an error text of any length and a zero
byte between them, which both may contain: bytes can be moved from one to the other under the
signature.  It can be read back exactly when the error has no zero byte and what follows a zero
byte in the body is never text.
-/

namespace NexusAuth

def Crypto.SignsOne (crypto : Crypto) : Prop :=
  ∀ seed message message',
    crypto.edVerify (crypto.edPublic seed) message' (crypto.edSign seed message) = true →
      message' = message

end NexusAuth

namespace NexusAuth.Raft

open NexusAuth.Authority NexusAuth.Lib.Framing NexusAuth.Lib.OrderedMap

/-! ## Zero bytes of a text -/

theorem utf8Bytes_eq_flatMap (text : String) :
    utf8Bytes text = text.toList.flatMap String.utf8EncodeChar := by
  rw [utf8Bytes, String.toUTF8_eq_toByteArray, ← String.utf8Encode_toList, List.utf8Encode]
  simp

theorem nul_of_mem_utf8EncodeChar {c : Char} (h : 0 ∈ String.utf8EncodeChar c) : c = '\x00' := by
  have hne : ∀ n, 0 < n → n < 256 → (0 : UInt8) ≠ UInt8.ofNat n := by
    intro n hpos hlt heq
    have hzero : 0 = n % 256 := by simpa using congrArg UInt8.toNat heq
    omega
  suffices hzero : c.val.toNat = 0 from Char.ext (UInt32.toNat_inj.mp hzero)
  by_contra hpos
  simp only [String.utf8EncodeChar] at h
  split at h
  · rw [List.mem_singleton] at h
    exact hne _ (by omega) (by omega) h
  -- every byte of a longer code has its highest bit set
  have hlong : ∃ n, 128 ≤ n ∧ n < 256 ∧ (0 : UInt8) = UInt8.ofNat n := by
    split at h
    · simp only [List.mem_cons, List.not_mem_nil, or_false] at h
      obtain h | h := h <;> exact ⟨_, by omega, by omega, h⟩
    split at h
    · simp only [List.mem_cons, List.not_mem_nil, or_false] at h
      obtain h | h | h := h <;> exact ⟨_, by omega, by omega, h⟩
    · simp only [List.mem_cons, List.not_mem_nil, or_false] at h
      obtain h | h | h | h := h <;> exact ⟨_, by omega, by omega, h⟩
  obtain ⟨n, hlow, hhigh, hzero⟩ := hlong
  exact hne n (by omega) hhigh hzero

theorem utf8Bytes_split {text : String} {front back : Bytes}
    (h : utf8Bytes text = front ++ 0 :: back) :
    ∃ left right, text = left ++ "\x00" ++ right ∧ utf8Bytes left = front ∧
      utf8Bytes right = back := by
  rw [utf8Bytes_eq_flatMap] at h
  obtain ⟨left, right, htext, hfront, hback⟩ := flatMap_eq_append_cons (by decide +kernel)
    (fun _ => nul_of_mem_utf8EncodeChar) h
  refine ⟨String.ofList left, String.ofList right, ?_, ?_, ?_⟩
  · rw [← String.toList_inj, htext]
    simp
  · rw [utf8Bytes_eq_flatMap, String.toList_ofList, hfront]
  · rw [utf8Bytes_eq_flatMap, String.toList_ofList, hback]

/-! ## Requests and replies -/

structure RequestContent where
  sender : NodeId
  receiver : NodeId
  body : Bytes
deriving DecidableEq

structure ReplyContent where
  sender : NodeId
  receiver : NodeId
  ok : Bool
  body : Bytes
  error : String
deriving DecidableEq

namespace RequestContent

def input (clusterId : String) (req : RequestContent) : Bytes :=
  requestInput clusterId req.sender req.receiver req.body

def InRange (req : RequestContent) : Prop := req.sender < 2 ^ 64 ∧ req.receiver < 2 ^ 64

theorem input_eq (clusterId : String) (req : RequestContent) :
    req.input clusterId = utf8Bytes "nexusauth/raft/rpc" ++ 0 :: (utf8Bytes clusterId ++ 0 ::
      (beBytes req.sender ++ 0 :: (beBytes req.receiver ++ 0 :: req.body))) := by
  simp only [input, requestInput, List.append_assoc, List.cons_append, List.nil_append]

theorem input_inj {clusterId : String} {req req' : RequestContent} (hrange : req.InRange)
    (hrange' : req'.InRange) (h : req.input clusterId = req'.input clusterId) : req = req' := by
  rw [input_eq, input_eq, List.append_right_inj, List.cons.injEq, List.append_right_inj,
    List.cons.injEq] at h
  obtain ⟨hsender, h⟩ := beBytes_append_inj hrange.1 hrange'.1 h.2.2
  obtain ⟨hreceiver, h⟩ := beBytes_append_inj hrange.2 hrange'.2 (List.cons.inj h).2
  obtain ⟨sender, receiver, body⟩ := req
  obtain ⟨sender', receiver', body'⟩ := req'
  obtain rfl : sender = sender' := hsender
  obtain rfl : receiver = receiver' := hreceiver
  obtain rfl : body = body' := (List.cons.inj h).2
  rfl

end RequestContent

namespace ReplyContent

def input (clusterId : String) (reply : ReplyContent) : Bytes :=
  responseInput clusterId reply.sender reply.receiver reply.ok reply.body reply.error

def InRange (reply : ReplyContent) : Prop := reply.sender < 2 ^ 64 ∧ reply.receiver < 2 ^ 64

/-- The error has no zero byte, and no zero byte of the body is followed by a text that takes
the rest of the body. -/
structure OneReading (reply : ReplyContent) : Prop where
  error : 0 ∉ utf8Bytes reply.error
  body : ∀ front text, reply.body ≠ front ++ 0 :: utf8Bytes text

/-- The part of a signed reply that has no fixed width. -/
def tail (reply : ReplyContent) : Bytes := reply.body ++ 0 :: utf8Bytes reply.error

theorem input_eq (clusterId : String) (reply : ReplyContent) :
    reply.input clusterId = utf8Bytes "nexusauth/raft/resp" ++ 0 :: (utf8Bytes clusterId ++ 0 ::
      (beBytes reply.sender ++ 0 :: (beBytes reply.receiver ++ 0 ::
        (if reply.ok then 1 else 0) :: 0 :: reply.tail))) := by
  simp only [input, responseInput, tail, List.append_assoc, List.cons_append, List.nil_append]

theorem head_of_input {clusterId : String} {reply reply' : ReplyContent} (hrange : reply.InRange)
    (hrange' : reply'.InRange) (h : reply.input clusterId = reply'.input clusterId) :
    reply.sender = reply'.sender ∧ reply.receiver = reply'.receiver ∧ reply.ok = reply'.ok ∧
      reply.tail = reply'.tail := by
  rw [input_eq, input_eq, List.append_right_inj, List.cons.injEq, List.append_right_inj,
    List.cons.injEq] at h
  obtain ⟨hsender, h⟩ := beBytes_append_inj hrange.1 hrange'.1 h.2.2
  obtain ⟨hreceiver, h⟩ := beBytes_append_inj hrange.2 hrange'.2 (List.cons.inj h).2
  simp only [List.cons.injEq, true_and] at h
  exact ⟨hsender, hreceiver, boolByte_inj h.1, h.2⟩

theorem tail_inj {reply reply' : ReplyContent} (h : reply.OneReading)
    (htail : reply'.tail = reply.tail) :
    reply'.body = reply.body ∧ reply'.error = reply.error := by
  rw [tail, tail, List.append_eq_append_iff] at htail
  obtain ⟨more, hbody, hrest⟩ | ⟨more, hbody, hrest⟩ := htail
  · cases more with
    | nil => exact ⟨by simpa using hbody.symm, utf8Bytes_inj (List.cons.inj hrest).2⟩
    | cons first more =>
        -- the other error begins inside the body
        obtain ⟨rfl, hsplit⟩ := List.cons.inj hrest
        obtain ⟨left, right, -, rfl, -⟩ := utf8Bytes_split hsplit
        exact absurd hbody (h.body _ _)
  · cases more with
    | nil => exact ⟨by simpa using hbody, utf8Bytes_inj (List.cons.inj hrest).2.symm⟩
    | cons first more =>
        have hsplit := (List.cons.inj hrest).2
        exact absurd (by simp [hsplit]) h.error

theorem input_inj {clusterId : String} {reply reply' : ReplyContent} (hrange : reply.InRange)
    (hrange' : reply'.InRange) (hone : reply.OneReading)
    (h : reply'.input clusterId = reply.input clusterId) : reply' = reply := by
  obtain ⟨hsender, hreceiver, hok, htail⟩ := head_of_input hrange' hrange h
  obtain ⟨hbody, herror⟩ := tail_inj hone htail
  obtain ⟨sender, receiver, ok, body, error⟩ := reply
  obtain ⟨sender', receiver', ok', body', error'⟩ := reply'
  obtain rfl : sender' = sender := hsender
  obtain rfl : receiver' = receiver := hreceiver
  obtain rfl : ok' = ok := hok
  obtain rfl : body' = body := hbody
  obtain rfl : error' = error := herror
  rfl

/-- Text after a zero byte in the body can be moved to the front of the error. -/
theorem input_move (clusterId : String) (reply : ReplyContent) (text : String) :
    { reply with body := reply.body ++ 0 :: utf8Bytes text }.input clusterId =
      { reply with error := text ++ "\x00" ++ reply.error }.input clusterId := by
  have hzero : utf8Bytes "\x00" = [0] := by decide +kernel
  simp only [input, responseInput, utf8Bytes_append, hzero, List.append_assoc, List.cons_append,
    List.nil_append]

theorem exists_other_reading (clusterId : String) {reply : ReplyContent}
    (h : ¬reply.OneReading) :
    ∃ reply' : ReplyContent, reply'.sender = reply.sender ∧ reply'.receiver = reply.receiver ∧
      reply'.input clusterId = reply.input clusterId ∧ reply' ≠ reply := by
  obtain ⟨sender, receiver, ok, body, error⟩ := reply
  by_cases hzero : 0 ∈ utf8Bytes error
  · -- what precedes a zero byte of the error can be read as body
    obtain ⟨front, back, hsplit⟩ := List.append_of_mem hzero
    obtain ⟨left, right, rfl, -, -⟩ := utf8Bytes_split hsplit
    refine ⟨⟨sender, receiver, ok, body ++ 0 :: utf8Bytes left, right⟩, rfl, rfl,
      input_move clusterId ⟨sender, receiver, ok, body, right⟩ left, fun heq => ?_⟩
    have hbody := congrArg List.length (congrArg ReplyContent.body heq)
    simp at hbody
  · obtain ⟨front, text, rfl⟩ : ∃ front text, body = front ++ 0 :: utf8Bytes text := by
      by_contra hnone
      exact h ⟨hzero, fun front text hbody => hnone ⟨front, text, hbody⟩⟩
    refine ⟨⟨sender, receiver, ok, front, text ++ "\x00" ++ error⟩, rfl, rfl,
      (input_move clusterId ⟨sender, receiver, ok, front, error⟩ text).symm, fun heq => ?_⟩
    have hbody := congrArg List.length (congrArg ReplyContent.body heq)
    simp at hbody

theorem input_unique_iff {clusterId : String} {reply : ReplyContent} (hrange : reply.InRange) :
    (∀ reply' : ReplyContent, reply'.InRange →
      reply'.input clusterId = reply.input clusterId → reply' = reply) ↔ reply.OneReading := by
  constructor
  · intro hunique
    by_contra hmore
    obtain ⟨reply', hsender, hreceiver, hinput, hne⟩ := exists_other_reading clusterId hmore
    exact hne (hunique reply' ⟨hsender ▸ hrange.1, hreceiver ▸ hrange.2⟩ hinput)
  · exact fun hone reply' hrange' hinput => input_inj hrange hrange' hone hinput

def signed (crypto : Crypto) (identity : Bytes) (clusterId : String) (reply : ReplyContent) :
    RaftRpcReply :=
  encodeReply crypto identity clusterId reply.sender reply.receiver reply.ok reply.body reply.error

/-- The fields that a received reply shows, if `body` is what its body decodes to. -/
def ofReply (reply : RaftRpcReply) (body : Bytes) : ReplyContent :=
  ⟨reply.sender, reply.receiver, reply.ok, body, reply.error⟩

end ReplyContent

theorem requestInput_ne_responseInput (clusterId clusterId' : String) (req : RequestContent)
    (reply : ReplyContent) : req.input clusterId ≠ reply.input clusterId' := by
  rw [RequestContent.input_eq, ReplyContent.input_eq]
  exact append_sep_ne (by decide +kernel) (by decide +kernel) (by decide +kernel)

/-! ## Received replies -/

section Received

variable {crypto : Crypto} {verifier : RpcVerifier} {target : NodeId} {received : RaftRpcReply}

/-- `verify_reply` finds the signature valid: it returns the body, or the error that the reply
reports. -/
def RpcVerifier.Passes (crypto : Crypto) (verifier : RpcVerifier) (target : NodeId)
    (received : RaftRpcReply) : Prop :=
  (∃ body, verifier.verifyReply crypto target received = .ok body) ∨
    received.op = raftRpcOp ∧ ∃ e, verifier.verifyReply crypto target received = .error (.decode e)

theorem verifies_of_passes (h : verifier.Passes crypto target received) :
    received.clusterId = verifier.clusterId ∧ received.receiver = verifier.localId ∧
      ∃ key, verifier.keys[target]? = some key ∧ received.verifies crypto key = true := by
  rw [RpcVerifier.Passes, RpcVerifier.verifyReply] at h
  split at h
  · simp_all
  split at h
  · simp at h
  rename_i hcluster
  split at h
  · simp at h
  split at h
  · simp at h
  rename_i hreceiver
  refine ⟨not_not.mp hcluster, not_not.mp hreceiver, ?_⟩
  split at h
  · simp at h
  · simp at h
  · simp at h
  · rename_i key body sig hkey hbody hsig
    refine ⟨key, hkey, ?_⟩
    rw [RaftRpcReply.verifies, hbody, hsig]
    split at h
    · assumption
    · simp at h

variable {identity : Bytes} {reply : ReplyContent}

theorem input_of_passes (hlaw : crypto.Lawful) (hsigns : crypto.SignsOne)
    (hkey : verifier.keys[target]? = some (crypto.edPublic identity))
    (hsignature : received.signature =
      (reply.signed crypto identity verifier.clusterId).signature)
    (h : verifier.Passes crypto target received) :
    received.receiver = verifier.localId ∧ ∃ body, crypto.unbase64Url received.body = some body ∧
      (ReplyContent.ofReply received body).input verifier.clusterId =
        reply.input verifier.clusterId := by
  obtain ⟨hcluster, hreceiver, key, hlookup, hverifies⟩ := verifies_of_passes h
  obtain rfl := Option.some.inj (hlookup.symm.trans hkey)
  rw [RaftRpcReply.verifies, hsignature] at hverifies
  cases hbody : crypto.unbase64Url received.body with
  | none =>
      rw [hbody] at hverifies
      cases hverifies
  | some body =>
      simp only [hbody, ReplyContent.signed, encodeReply, signB64, hlaw.unbase64Url_base64Url,
        hcluster] at hverifies
      exact ⟨hreceiver, body, rfl, hsigns _ _ _ hverifies⟩

theorem passes_signed (hlaw : crypto.Lawful)
    (hkey : verifier.keys[reply.sender]? = some (crypto.edPublic identity))
    (hreceiver : reply.receiver = verifier.localId) :
    verifier.Passes crypto reply.sender (reply.signed crypto identity verifier.clusterId) := by
  rw [RpcVerifier.Passes, RpcVerifier.verifyReply]
  simp only [ReplyContent.signed, encodeReply, signB64, hlaw.unbase64Url_base64Url, hkey,
    hlaw.edVerify_edSign, hreceiver, ne_eq, not_true_eq_false, if_false, if_true]
  cases reply.ok with
  | true => exact .inl ⟨_, rfl⟩
  | false => exact .inr ⟨trivial, _, rfl⟩

theorem passes_unique_iff (hlaw : crypto.Lawful) (hsigns : crypto.SignsOne)
    (hkey : verifier.keys[reply.sender]? = some (crypto.edPublic identity))
    (hrange : reply.InRange) :
    (∀ received : RaftRpcReply, received.sender < 2 ^ 64 ∧ received.receiver < 2 ^ 64 →
        received.signature = (reply.signed crypto identity verifier.clusterId).signature →
        verifier.Passes crypto reply.sender received →
        ∃ body, crypto.unbase64Url received.body = some body ∧
          ReplyContent.ofReply received body = reply) ↔
      (verifier.localId = reply.receiver → reply.OneReading) := by
  constructor
  · intro hunique hreceiver
    by_contra hmore
    obtain ⟨reply', hsender', hreceiver', hinput, hne⟩ :=
      ReplyContent.exists_other_reading verifier.clusterId hmore
    have hpasses : verifier.Passes crypto reply'.sender _ :=
      passes_signed hlaw (hsender' ▸ hkey) (hreceiver'.trans hreceiver.symm)
    rw [hsender'] at hpasses
    have hsignature : (reply'.signed crypto identity verifier.clusterId).signature =
        (reply.signed crypto identity verifier.clusterId).signature :=
      congrArg (signB64 crypto identity) hinput
    have hrange' : reply'.InRange := ⟨hsender' ▸ hrange.1, hreceiver' ▸ hrange.2⟩
    obtain ⟨body, hbody, hsame⟩ :=
      hunique (reply'.signed crypto identity verifier.clusterId) hrange' hsignature hpasses
    have hdecoded : some reply'.body = some body :=
      (hlaw.unbase64Url_base64Url reply'.body).symm.trans hbody
    obtain rfl := Option.some.inj hdecoded
    exact hne hsame
  · intro hone received hids hsignature hpasses
    obtain ⟨hreceiver, body, hbody, hinput⟩ := input_of_passes hlaw hsigns hkey hsignature hpasses
    have hids : (ReplyContent.ofReply received body).InRange := hids
    have hsame : received.receiver = reply.receiver :=
      (ReplyContent.head_of_input hids hrange hinput).2.1
    have hone := hone (hreceiver.symm.trans hsame)
    exact ⟨body, hbody, ReplyContent.input_inj hrange hids hone hinput⟩

end Received

/-- The signed bytes of a reply are those of no other one exactly when it has one reading; the
signed bytes of a request always determine it; a request and a reply have no bytes in common;
and no changed reply passes with the signature of a reply, at the node that this one is for,
exactly when the signed reply has one reading. -/
theorem signed_rpcs_have_one_reading (clusterId : String) :
    (∀ reply : ReplyContent, reply.InRange →
      ((∀ reply' : ReplyContent, reply'.InRange →
        reply'.input clusterId = reply.input clusterId → reply' = reply) ↔ reply.OneReading)) ∧
    (∀ req req' : RequestContent, req.InRange → req'.InRange →
      req.input clusterId = req'.input clusterId → req = req') ∧
    (∀ (req : RequestContent) (reply : ReplyContent),
      req.input clusterId ≠ reply.input clusterId) ∧
    ∀ (crypto : Crypto) (identity : Bytes) (verifier : RpcVerifier) (reply : ReplyContent),
      crypto.Lawful → crypto.SignsOne → verifier.clusterId = clusterId →
      verifier.keys[reply.sender]? = some (crypto.edPublic identity) → reply.InRange →
      ((∀ received : RaftRpcReply, received.sender < 2 ^ 64 ∧ received.receiver < 2 ^ 64 →
          received.signature = (reply.signed crypto identity clusterId).signature →
          verifier.Passes crypto reply.sender received →
          ∃ body, crypto.unbase64Url received.body = some body ∧
            ReplyContent.ofReply received body = reply) ↔
        (verifier.localId = reply.receiver → reply.OneReading)) := by
  refine ⟨fun reply hrange => ReplyContent.input_unique_iff hrange,
    fun req req' hrange hrange' h => RequestContent.input_inj hrange hrange' h,
    requestInput_ne_responseInput clusterId clusterId, ?_⟩
  rintro crypto identity verifier reply hlaw hsigns rfl hkey hrange
  exact passes_unique_iff hlaw hsigns hkey hrange

theorem sampleCrypto_signsOne : sampleCrypto.SignsOne := by
  intro seed message message' h
  have hsame : seed ++ message = seed ++ message' := beq_iff_eq.mp h
  exact (List.append_cancel_left hsame).symm

def oneKeyVerifier : RpcVerifier := ⟨"c", 2, (∅ : BTreeMap NodeId Bytes).insert 1 [7]⟩

/-- An answer with a zero byte that no text follows. -/
def binaryAnswer : ReplyContent := ⟨1, 2, true, [1, 0, 255], ""⟩

theorem binaryAnswer_oneReading : binaryAnswer.OneReading := by
  refine ⟨List.not_mem_nil, fun front text hbody => ?_⟩
  have htext : utf8Bytes text = [255] := by
    rcases front with _ | ⟨first, _ | ⟨second, _ | ⟨third, front⟩⟩⟩
    · simp [binaryAnswer] at hbody
    · simpa [binaryAnswer, eq_comm] using (List.cons.inj hbody).2
    · simp [binaryAnswer] at hbody
    · simp [binaryAnswer] at hbody
  have hvalid := text.isValidUTF8
  have hbytes : text.toByteArray = ⟨#[255]⟩ :=
    ByteArray.ext (Array.toList_inj.mp htext)
  rw [hbytes] at hvalid
  exact absurd hvalid (by decide +kernel)

theorem binaryAnswer_inRange : binaryAnswer.InRange := by
  constructor <;> norm_num [binaryAnswer]

/-- The answer as it was sent is read as it was sent. -/
theorem signed_rpcs_have_one_reading_unchanged :
    let received := binaryAnswer.signed sampleCrypto [7] "c"
    ∃ body, sampleCrypto.unbase64Url received.body = some body ∧
      ReplyContent.ofReply received body = binaryAnswer := by
  intro received
  have hpasses : oneKeyVerifier.verifyReply sampleCrypto 1 received = .ok [1, 0, 255] := by
    decide +kernel
  have hunique := ((signed_rpcs_have_one_reading "c").2.2.2 sampleCrypto [7] oneKeyVerifier
    binaryAnswer sampleCrypto_lawful sampleCrypto_signsOne rfl (by decide +kernel)
    binaryAnswer_inRange).mpr fun _ => binaryAnswer_oneReading
  exact hunique received binaryAnswer_inRange rfl (.inl ⟨_, hpasses⟩)

def answerOfOne : ReplyContent := ⟨1, 2, true, [1, 0, 65], ""⟩

theorem answerOfOne_inRange : answerOfOne.InRange := by
  constructor <;> norm_num [answerOfOne]

/-- Two different replies with the same signed bytes, and the second one passes with the
signature of the first. -/
theorem bytes_move_from_body_to_error :
    let moved : ReplyContent := ⟨1, 2, true, [1], "A\x00"⟩
    let received := { answerOfOne.signed sampleCrypto [7] "c" with
      body := sampleCrypto.base64Url moved.body, error := moved.error }
    answerOfOne.InRange ∧ moved.InRange ∧ answerOfOne ≠ moved ∧
      answerOfOne.input "c" = moved.input "c" ∧
      oneKeyVerifier.verifyReply sampleCrypto 1 received = .ok [1] := by
  intro moved received
  refine ⟨answerOfOne_inRange, answerOfOne_inRange, by decide +kernel, ?_, by decide +kernel⟩
  exact ReplyContent.input_move "c" ⟨1, 2, true, [1], ""⟩ "A"

end NexusAuth.Raft
