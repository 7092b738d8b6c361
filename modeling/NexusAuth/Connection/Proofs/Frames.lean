import NexusAuth.Connection.Frames

/-!
# Streams of frames

The length in front of a frame says how much belongs to it, so that a stream of frames is read
back message by message, whatever the sizes of the reads are.
-/

namespace NexusAuth.Connection

open NexusAuth.Lib.Results NexusAuth.Lib.Streams

variable {codec : MessageCodec} {msg : Message} {frame body rest : Bytes}
  {source left : Source String UInt8}

/-! ## The length -/

@[simp] theorem length_be32 (n : Nat) : (be32 n).length = 4 := by
  rw [be32, List.length_map, List.length_range]

theorem fromBe_be32 {n : Nat} (h : n < 2 ^ 32) : fromBe (be32 n) = n := by
  have hbytes : be32 n = [UInt8.ofNat (n / 16777216), UInt8.ofNat (n / 65536),
      UInt8.ofNat (n / 256), UInt8.ofNat (n / 1)] := rfl
  rw [hbytes]
  simp only [fromBe, List.foldl_cons, List.foldl_nil, UInt8.toNat_ofNat']
  omega

theorem fromBe_of_le_maxFrame {n : Nat} (h : n ≤ maxFrame) : fromBe (be32 n) = n := by
  have hmax : maxFrame = 16777216 := rfl
  apply fromBe_be32
  omega

theorem be32_fromBe {bytes : Bytes} (h : bytes.length = 4) : be32 (fromBe bytes) = bytes := by
  match bytes, h with
  | [a, b, c, d], _ =>
      have ha := a.toNat_lt
      have hb := b.toNat_lt
      have hc := c.toNat_lt
      have hd := d.toNat_lt
      have hvalue : fromBe [a, b, c, d] =
          ((a.toNat * 256 + b.toNat) * 256 + c.toNat) * 256 + d.toNat := by
        simp [fromBe]
      have hdigits : ∀ n, be32 n = [UInt8.ofNat (n / 16777216), UInt8.ofNat (n / 65536),
          UInt8.ofNat (n / 256), UInt8.ofNat (n / 1)] := fun _ => rfl
      rw [hdigits, hvalue]
      simp only [List.cons.injEq, and_true, ← UInt8.toNat_inj, UInt8.toNat_ofNat']
      omega

/-! ## One frame -/

theorem encodeFrame_eq_ok (h : encodeFrame codec msg = .ok frame) :
    ∃ body, codec.encode msg = .ok body ∧ frame = be32 body.length ++ body ∧
      body.length ≤ maxFrame := by
  obtain ⟨body, hbody, h⟩ := bind_eq_ok.mp h
  obtain ⟨_, hlength, h⟩ := bind_eq_ok.mp h
  exact ⟨body, mapError_eq_ok.mp hbody, (pure_eq_ok.mp h).symm,
    of_decide_eq_true (ensure_eq_ok.mp hlength)⟩

theorem decodeFrame_of_le (hlength : body.length ≤ maxFrame) :
    decodeFrame codec body = (codec.decode body).mapError .decode := by
  rw [decodeFrame, ensure, if_pos (decide_eq_true hlength)]
  rfl

theorem readBytes_append (h : delivered source = body ++ rest) :
    ∃ left, readBytes body.length source = (.ok body, left) ∧ delivered left = rest := by
  obtain ⟨left, hread, hleft⟩ := readExact_append "early eof" h rfl
  exact ⟨left, by rw [readBytes, hread]; rfl, hleft⟩

theorem readBytes_short {n : Nat} (h : (delivered source).length < n) :
    ∃ e left, readBytes n source = (.error e, left) := by
  obtain ⟨e, left, hread⟩ := readExact_short "early eof" h
  exact ⟨.io e, left, by rw [readBytes, hread]; rfl⟩

theorem delivered_of_readBytes {n : Nat} (h : readBytes n source = (.ok body, left)) :
    body.length = n ∧ delivered source = body ++ delivered left := by
  obtain ⟨hbody, hleft⟩ := Prod.mk.inj h
  exact delivered_of_readExact (Prod.ext (mapError_eq_ok.mp hbody) hleft)

theorem readFrame_append (codec : MessageCodec) (hlength : body.length ≤ maxFrame)
    (h : delivered source = be32 body.length ++ body ++ rest) :
    ∃ left, readFrame codec source = ((codec.decode body).mapError .decode, left) ∧
      delivered left = rest := by
  rw [List.append_assoc] at h
  obtain ⟨middle, hlen, hmiddle⟩ := readBytes_append h
  obtain ⟨left, hbody, hleft⟩ := readBytes_append hmiddle
  rw [length_be32] at hlen
  refine ⟨left, ?_, hleft⟩
  simp only [readFrame, hlen, fromBe_of_le_maxFrame hlength, if_neg (Nat.not_lt.mpr hlength),
    hbody, decodeFrame_of_le hlength]

theorem readFrame_of_encodeFrame (hcodec : codec.Lossless)
    (h : encodeFrame codec msg = .ok frame) (hsource : delivered source = frame ++ rest) :
    ∃ left, readFrame codec source = (.ok msg, left) ∧ delivered left = rest := by
  obtain ⟨body, hbody, rfl, hlength⟩ := encodeFrame_eq_ok h
  obtain ⟨left, hread, hleft⟩ := readFrame_append codec hlength hsource
  rw [hcodec msg body hbody] at hread
  exact ⟨left, hread, hleft⟩

/-- A message that was read had a body of at most `MAX_FRAME` bytes, and no more than its frame
was taken off the stream. -/
theorem readFrame_eq_ok (h : readFrame codec source = (.ok msg, left)) :
    ∃ body, delivered source = be32 body.length ++ body ++ delivered left ∧
      body.length ≤ maxFrame ∧ codec.decode body = .ok msg := by
  unfold readFrame at h
  split at h
  · cases h
  · rename_i lenBuf middle hlen
    obtain ⟨hfour, hsource⟩ := delivered_of_readBytes hlen
    simp only at h
    split at h
    · cases h
    · rename_i hle
      split at h
      · cases h
      · rename_i body left' hbody
        obtain ⟨hlength, hmiddle⟩ := delivered_of_readBytes hbody
        obtain ⟨hdecode, rfl⟩ := Prod.mk.inj h
        have hmax : body.length ≤ maxFrame := by omega
        rw [decodeFrame_of_le hmax] at hdecode
        refine ⟨body, ?_, hmax, mapError_eq_ok.mp hdecode⟩
        rw [hsource, hmiddle, hlength, be32_fromBe hfour, List.append_assoc]

theorem readFrame_of_prefix (h : encodeFrame codec msg = .ok frame)
    (hpart : delivered source <+: frame) (hne : delivered source ≠ frame) :
    ∃ e left, readFrame codec source = (.error e, left) := by
  obtain ⟨body, -, rfl, hlength⟩ := encodeFrame_eq_ok h
  obtain ⟨missing, hmissing⟩ := hpart
  by_cases hshort : (delivered source).length < 4
  · obtain ⟨e, left, hread⟩ := readBytes_short hshort
    exact ⟨e, left, by rw [readFrame, hread]⟩
  · have hhead : be32 body.length <+: delivered source := by
      apply List.prefix_of_prefix_length_le ⟨body, rfl⟩ ⟨missing, hmissing⟩
      rw [length_be32]
      omega
    obtain ⟨start, hstart⟩ := hhead
    rw [← hstart, List.append_assoc, List.append_cancel_left_eq] at hmissing
    obtain ⟨middle, hlen, hmiddle⟩ := readBytes_append hstart.symm
    have hstop : (delivered middle).length < body.length := by
      rw [hmiddle, ← hmissing, List.length_append]
      have hnonempty : missing ≠ [] := by
        rintro rfl
        rw [List.append_nil] at hmissing
        exact hne (by rw [← hstart, hmissing])
      have hpos := List.length_pos_iff.mpr hnonempty
      omega
    obtain ⟨e, left, hread⟩ := readBytes_short hstop
    rw [length_be32] at hlen
    refine ⟨e, left, ?_⟩
    simp only [readFrame, hlen, fromBe_of_le_maxFrame hlength, if_neg (Nat.not_lt.mpr hlength),
      hread]

/-! ## Many frames -/

abbrev Framed (codec : MessageCodec) : List Message → List Bytes → Prop :=
  List.Forall₂ fun msg frame => encodeFrame codec msg = .ok frame

theorem readFrames_of_framed (hcodec : codec.Lossless) {msgs : List Message}
    {frames : List Bytes} (h : Framed codec msgs frames)
    (hsource : delivered source = frames.flatten ++ rest) {n : Nat} (hn : n ≤ msgs.length) :
    ∃ left, readFrames codec n source = ((msgs.take n).map .ok, left) ∧
      delivered left = (frames.drop n).flatten ++ rest := by
  induction h generalizing source n with
  | nil =>
      obtain rfl : n = 0 := Nat.le_zero.mp hn
      exact ⟨source, rfl, hsource⟩
  | cons hframe _ ih =>
      cases n with
      | zero => exact ⟨source, rfl, hsource⟩
      | succ n =>
          rw [List.flatten_cons, List.append_assoc] at hsource
          obtain ⟨middle, hfirst, hmiddle⟩ := readFrame_of_encodeFrame hcodec hframe hsource
          obtain ⟨left, hothers, hleft⟩ := ih hmiddle (Nat.le_of_succ_le_succ hn)
          exact ⟨left, by simp only [readFrames, hfirst, hothers]; rfl, hleft⟩

/-- A stream of frames gives back its messages, one frame for each call and however the bytes
come in; no body is longer than `MAX_FRAME`, and a part of a frame is not a message. -/
theorem frames_round_trip (codec : MessageCodec) (hcodec : codec.Lossless) :
    (∀ msgs frames, Framed codec msgs frames →
      ∀ source rest, delivered source = frames.flatten ++ rest → ∀ n ≤ msgs.length,
        ∃ left, readFrames codec n source = ((msgs.take n).map .ok, left) ∧
          delivered left = (frames.drop n).flatten ++ rest) ∧
    (∀ msg frame, encodeFrame codec msg = .ok frame →
      ∃ body, codec.encode msg = .ok body ∧ frame = be32 body.length ++ body ∧
        body.length ≤ maxFrame) ∧
    (∀ source msg left, readFrame codec source = (.ok msg, left) →
      ∃ body, delivered source = be32 body.length ++ body ++ delivered left ∧
        body.length ≤ maxFrame ∧ codec.decode body = .ok msg) ∧
    ∀ msg frame source, encodeFrame codec msg = .ok frame → delivered source <+: frame →
      delivered source ≠ frame → ∃ e left, readFrame codec source = (.error e, left) := by
  refine ⟨?_, ?_, ?_, ?_⟩
  · intro msgs frames h source rest hsource n hn
    exact readFrames_of_framed hcodec h hsource hn
  · intro msg frame h
    exact encodeFrame_eq_ok h
  · intro source msg left h
    exact readFrame_eq_ok h
  · intro msg frame source h hpart hne
    exact readFrame_of_prefix h hpart hne

def sampleCodec : MessageCodec where
  encode
    | .hello version => .ok (be32 version.toNat)
    | _ => .error "not a hello"
  decode body :=
    if body.length = 4 then .ok (.hello (UInt32.ofNat (fromBe body))) else .error "not a hello"

theorem sampleCodec_lossless : sampleCodec.Lossless := by
  intro msg body h
  cases msg with
  | hello version =>
      cases h
      have hvalue : fromBe (be32 version.toNat) = version.toNat := fromBe_be32 version.toNat_lt
      simp [sampleCodec, hvalue]
  | _ => cases h

/-- Two hellos whose bytes come in as three, one and twelve. -/
theorem two_hellos_round_trip :
    Framed sampleCodec [.hello 2, .hello 7] [[0, 0, 0, 4, 0, 0, 0, 2], [0, 0, 0, 4, 0, 0, 0, 7]] ∧
    ∃ left, readFrames sampleCodec 2 [.ok [0, 0, 0], .ok [4],
        .ok [0, 0, 0, 2, 0, 0, 0, 4, 0, 0, 0, 7]] = ([.ok (.hello 2), .ok (.hello 7)], left) ∧
      delivered left = [] := by
  have hframed : Framed sampleCodec [.hello 2, .hello 7]
      [[0, 0, 0, 4, 0, 0, 0, 2], [0, 0, 0, 4, 0, 0, 0, 7]] :=
    .cons (by decide) (.cons (by decide) .nil)
  exact ⟨hframed, (frames_round_trip sampleCodec sampleCodec_lossless).1 _ _ hframed _ []
    (by decide) 2 (by decide)⟩

end NexusAuth.Connection
