import NexusAuth.Service.Audit
import NexusAuth.Service.Dispatch

/-!
# What an audit entry says

The fields of an audit entry stand in one text, between spaces, and most of them are taken from
the request as they are.  A field with a space in it can look like the fields after it, and under
journald the amount of white space is lost.  Without white space in the fields, both renderings
give them back.  An entry is one line under journald only.
-/

namespace NexusAuth.Service

open NexusAuth.Authority NexusAuth.Lib.Framing NexusAuth.Lib.Interaction NexusAuth.Raft

/-! ## Words of the line -/

def Word (s : String) : Prop := ∀ c ∈ s.toList, isWhitespace c = false

instance (s : String) : Decidable (Word s) :=
  decidable_of_iff (s.toList.all fun c => !isWhitespace c) (by simp [Word])

def OneLine (s : String) : Prop := '\n' ∉ s.toList

instance (s : String) : Decidable (OneLine s) := inferInstanceAs (Decidable ('\n' ∉ s.toList))

theorem Word.append {s s' : String} (h : Word s) (h' : Word s') : Word (s ++ s') := by
  intro c hc
  rw [String.toList_append, List.mem_append] at hc
  obtain hc | hc := hc
  · exact h c hc
  · exact h' c hc

theorem isWhitespace_space : isWhitespace ' ' = true := by decide +kernel

theorem isWhitespace_newline : isWhitespace '\n' = true := by decide +kernel

theorem isWhitespace_of_isDigit {c : Char} (h : c.isDigit = true) : isWhitespace c = false := by
  have hbounds : 48 ≤ c.toNat ∧ c.toNat ≤ 57 := by
    simpa [Char.isDigit, UInt32.le_iff_toNat_le] using h
  simp only [isWhitespace, Bool.or_eq_false_iff, Bool.and_eq_false_iff, decide_eq_false_iff_not,
    beq_eq_false_iff_ne]
  omega

theorem word_toString (n : Nat) : Word (toString n) := by
  intro c hc
  rw [Nat.toString_eq_repr, Nat.toList_repr] at hc
  exact isWhitespace_of_isDigit (Nat.isDigit_of_mem_toDigits (by omega) (by omega) hc)

theorem word_orDash (n : Option Nat) : Word (orDash (n.map toString)) := by
  cases n with
  | none =>
      change Word "-"
      decide +kernel
  | some n => exact word_toString n

theorem toString_ne_dash (n : Nat) : toString n ≠ "-" := by
  intro h
  have hdash : '-' ∈ (toString n).toList := by
    rw [h]
    decide
  rw [Nat.toString_eq_repr, Nat.toList_repr] at hdash
  exact absurd (Nat.isDigit_of_mem_toDigits (by omega) (by omega) hdash) (by decide)

theorem orDash_inj {n m : Option Nat} (h : orDash (n.map toString) = orDash (m.map toString)) :
    n = m := by
  cases n with
  | none =>
      cases m with
      | none => rfl
      | some m => exact absurd h.symm (toString_ne_dash m)
  | some n =>
      cases m with
      | none => exact absurd h (toString_ne_dash n)
      | some m => exact congrArg some (Nat.repr_inj.mp h)

/-! ## The fields before the peers -/

/-- The fields that a request chooses have no white space. -/
structure Plain (audit : AdminAudit) : Prop where
  kid : Word audit.kid
  requestId : Word audit.requestId
  op : Word audit.op
  service : Word audit.service
  result : Word audit.result

def auditFields (audit : AdminAudit) : List (List Char) :=
  ((auditWords audit).take 10).map String.toList

def auditPeers (audit : AdminAudit) : List (List Char) :=
  ((auditWords audit).drop 10).map String.toList

variable {a b : AdminAudit} {level level' : LogLevel} {time time' : LocalTime} {mode : LogMode}

theorem length_auditFields (a : AdminAudit) : (auditFields a).length = 10 := by
  simp [auditFields, auditWords]

theorem toList_auditLine (a : AdminAudit) :
    (auditLine a).toList = [' '].intercalate (auditFields a ++ auditPeers a) := by
  rw [auditLine, String.toList_intercalate, auditFields, auditPeers, ← List.map_append,
    List.take_append_drop]
  rfl

theorem word_field {name value : String} (hname : Word name ∧ name.toList ≠ [])
    (hvalue : Word value) :
    (∀ c ∈ (name ++ value).toList, isWhitespace c = false) ∧ (name ++ value).toList ≠ [] := by
  refine ⟨hname.1.append hvalue, ?_⟩
  rw [String.toList_append]
  exact List.append_ne_nil_of_left_ne_nil hname.2 _

theorem Plain.word_of_mem (h : Plain a) :
    ∀ field ∈ auditFields a, (∀ c ∈ field, isWhitespace c = false) ∧ field ≠ [] := by
  have hepoch := word_orDash a.policyEpoch
  have hindex := word_orDash a.raftIndex
  simp only [auditFields, auditWords, List.take_succ_cons, List.take_zero, List.map_cons,
    List.map_nil, List.forall_mem_cons, List.not_mem_nil, IsEmpty.forall_iff,
    implies_true, and_true]
  refine ⟨⟨?_, ?_⟩, ⟨?_, ?_⟩, word_field ?_ h.kid, word_field ?_ h.requestId, word_field ?_ h.op,
    word_field ?_ h.service, word_field ?_ h.result, word_field ?_ hepoch, word_field ?_ hepoch,
    word_field ?_ hindex⟩
  · change Word "event=admin_op"
    decide +kernel
  · decide +kernel
  · change Word "mode=raft"
    decide +kernel
  all_goals decide +kernel

theorem auditPeers_ne_nil (a : AdminAudit) : auditPeers a ≠ [] := by
  simp [auditPeers, auditWords]

theorem words_auditPeers_ne_nil (a : AdminAudit) :
    words isWhitespace ([' '].intercalate (auditPeers a)) ≠ [] := by
  have hstart : ∃ rest, [' '].intercalate (auditPeers a) = 'l' :: rest := by
    simp only [auditPeers, auditWords, List.drop_succ_cons, List.drop_zero, List.map_cons,
      String.toList_append, List.map_nil, List.intercalate_cons_cons]
    exact ⟨_, rfl⟩
  obtain ⟨rest, hrest⟩ := hstart
  rw [hrest]
  apply words_cons_ne_nil
  decide +kernel

theorem toList_collapsed (h : Plain a) :
    (" ".intercalate (splitWhitespace (auditLine a))).toList =
      [' '].intercalate (auditFields a ++
        words isWhitespace ([' '].intercalate (auditPeers a))) := by
  rw [String.toList_intercalate, splitWhitespace, toList_auditLine,
    words_intercalate_append isWhitespace_space h.word_of_mem (auditPeers_ne_nil a), List.map_map]
  simp [Function.comp_def]

theorem isEmpty_eq_false {s : String} {more : List (List Char)}
    (h : s.toList = [' '].intercalate (auditFields a ++ more)) : s.isEmpty = false := by
  have hevent : IsItem ' ' "event=admin_op".toList := ⟨by decide, by decide⟩
  apply Bool.eq_false_iff.mpr
  intro hempty
  rw [String.isEmpty_iff.mp hempty] at h
  exact intercalate_ne_nil hevent h.symm

theorem auditFields_inj (ha : Plain a) (hb : Plain b) {more more' : List (List Char)}
    (hmore : more ≠ []) (hmore' : more' ≠ [])
    (h : [' '].intercalate (auditFields a ++ more) = [' '].intercalate (auditFields b ++ more')) :
    auditFields a = auditFields b := by
  have hfields {audit : AdminAudit} (hplain : Plain audit) :
      ∀ field ∈ auditFields audit, ' ' ∉ field := by
    intro field hfield hmem
    have hword := (hplain.word_of_mem field hfield).1 _ hmem
    rw [isWhitespace_space] at hword
    cases hword
  have hlength := (length_auditFields a).trans (length_auditFields b).symm
  exact intercalate_append_inj hlength (hfields ha) (hfields hb) hmore hmore' h

/-- Two entries agree on everything but the peers. -/
structure Agree (a b : AdminAudit) : Prop where
  kid : a.kid = b.kid
  requestId : a.requestId = b.requestId
  op : a.op = b.op
  service : a.service = b.service
  result : a.result = b.result
  policyEpoch : a.policyEpoch = b.policyEpoch
  raftIndex : a.raftIndex = b.raftIndex

theorem agree_of_auditFields (h : auditFields a = auditFields b) : Agree a b := by
  simp only [auditFields, auditWords, List.take_succ_cons, List.take_zero, List.map_cons,
    List.map_nil, List.cons.injEq, String.toList_append, List.append_cancel_left_eq,
    String.toList_inj, true_and, and_true] at h
  obtain ⟨hkid, hrequestId, hop, hservice, hresult, hepoch, -, hindex⟩ := h
  exact ⟨hkid, hrequestId, hop, hservice, hresult, orDash_inj hepoch, orDash_inj hindex⟩

/-! ## Under journald -/

def journaldHead (level : LogLevel) : String :=
  "<" ++ toString level.syslogPriority ++ ">" ++ level.asStr ++ " " ++ "admin_op"

theorem auditText_journald (time : LocalTime) (level : LogLevel) (a : AdminAudit) :
    auditText .journald time level a = journaldHead level ++
      if (" ".intercalate (splitWhitespace (auditLine a))).isEmpty then ""
      else ": " ++ " ".intercalate (splitWhitespace (auditLine a)) := by
  change renderJournald _ = _
  unfold renderJournald journaldHead
  by_cases hempty : (" ".intercalate (splitWhitespace (auditLine a))).isEmpty
  · simp only [hempty, if_true, String.append_empty, String.append_assoc]
  · simp only [hempty, Bool.false_eq_true, if_false, String.append_assoc]

theorem length_journaldHead (level : LogLevel) : (journaldHead level).toList.length = 15 := by
  cases level with
  | preset => decide +kernel
  | warning => decide +kernel

theorem oneLine_journaldHead (level : LogLevel) : OneLine (journaldHead level) := by
  cases level with
  | preset => decide +kernel
  | warning => decide +kernel

theorem oneLine_collapsed (s : String) : OneLine (" ".intercalate (splitWhitespace s)) := by
  intro hmem
  rw [String.toList_intercalate] at hmem
  obtain hspace | ⟨_, hmap, hbreak⟩ := mem_intercalate hmem
  · exact absurd hspace (by decide)
  · obtain ⟨_, hsplit, rfl⟩ := List.mem_map.mp hmap
    obtain ⟨word, hword, rfl⟩ := List.mem_map.mp hsplit
    rw [String.toList_ofList] at hbreak
    have hwhite := not_sep_of_mem_words hword _ hbreak
    rw [isWhitespace_newline] at hwhite
    cases hwhite

theorem OneLine.append {s s' : String} (h : OneLine s) (h' : OneLine s') : OneLine (s ++ s') := by
  intro hmem
  rw [String.toList_append, List.mem_append] at hmem
  obtain hmem | hmem := hmem
  · exact h hmem
  · exact h' hmem

theorem oneLine_journald (time : LocalTime) (level : LogLevel) (a : AdminAudit) :
    OneLine (auditText .journald time level a) := by
  rw [auditText_journald]
  apply (oneLine_journaldHead level).append
  split
  · decide
  · apply OneLine.append
    · decide
    · exact oneLine_collapsed _

theorem auditFields_of_journald (ha : Plain a) (hb : Plain b)
    (h : auditText .journald time level a = auditText .journald time' level' b) :
    auditFields a = auditFields b := by
  have hcontent {audit : AdminAudit} (hplain : Plain audit) :
      (" ".intercalate (splitWhitespace (auditLine audit))).isEmpty = false :=
    isEmpty_eq_false (toList_collapsed hplain)
  rw [auditText_journald, auditText_journald, hcontent ha, hcontent hb] at h
  have hlists := congrArg String.toList h
  simp only [Bool.false_eq_true, if_false, String.toList_append] at hlists
  have htails := List.append_inj_right hlists
    ((length_journaldHead level).trans (length_journaldHead level').symm)
  rw [List.append_cancel_left_eq, toList_collapsed ha, toList_collapsed hb] at htails
  exact auditFields_inj ha hb (words_auditPeers_ne_nil a) (words_auditPeers_ne_nil b) htails

/-! ## In the log file -/

/-- An entry of the log file has two lines of its own before the audit line. -/
theorem auditText_file (time : LocalTime) (level : LogLevel) (a : AdminAudit) :
    (auditText .file time level a).toList = (level.asStr ++ " " ++ time.text).toList ++
      '\n' :: ("    admin_op\n    ".toList ++ (auditLine a).toList) := by
  have hline : (auditLine a).isEmpty = false := isEmpty_eq_false (toList_auditLine a)
  have htopic : "\n    ".toList ++ ("admin_op".toList ++ "\n    ".toList) =
      '\n' :: "    admin_op\n    ".toList := by decide +kernel
  simp only [auditText, logText, formatEntry, hline, String.toList_append, List.append_assoc]
  rw [← List.cons_append, ← htopic]
  simp only [List.append_assoc]

theorem oneLine_fileHead (level : LogLevel) (time : LocalTime) :
    OneLine (level.asStr ++ " " ++ time.text) := by
  refine OneLine.append ?_ time.oneLine
  cases level with
  | preset => decide
  | warning => decide

theorem auditFields_of_file (ha : Plain a) (hb : Plain b)
    (h : auditText .file time level a = auditText .file time' level' b) :
    auditFields a = auditFields b := by
  have hlists := congrArg String.toList h
  rw [auditText_file, auditText_file] at hlists
  have htails := (append_sep_inj (oneLine_fileHead level time) (oneLine_fileHead level' time')
    hlists).2
  rw [List.append_cancel_left_eq, toList_auditLine, toList_auditLine] at htails
  exact auditFields_inj ha hb (auditPeers_ne_nil a) (auditPeers_ne_nil b) htails

theorem not_oneLine_file (time : LocalTime) (level : LogLevel) (a : AdminAudit) :
    ¬OneLine (auditText .file time level a) := by
  intro h
  apply h
  rw [auditText_file]
  simp

theorem oneLine_iff (mode : LogMode) (time : LocalTime) (level : LogLevel) (a : AdminAudit) :
    OneLine (auditText mode time level a) ↔ mode = .journald := by
  cases mode with
  | journald => exact iff_of_true (oneLine_journald time level a) rfl
  | file => exact iff_of_false (not_oneLine_file time level a) (by simp)

/-! ## Which requests are told apart -/

theorem agree_of_text (ha : Plain a) (hb : Plain b)
    (h : auditText mode time level a = auditText mode time' level' b) : Agree a b := by
  apply agree_of_auditFields
  cases mode with
  | journald => exact auditFields_of_journald ha hb h
  | file => exact auditFields_of_file ha hb h

/-- The request's own fields are made of allowed characters, and the result is a code. -/
structure Drawn (allowed : Char → Prop) (audit : AdminAudit) : Prop where
  kid : ∀ c ∈ audit.kid.toList, allowed c
  requestId : ∀ c ∈ audit.requestId.toList, allowed c
  op : ∀ c ∈ audit.op.toList, allowed c
  service : ∀ c ∈ audit.service.toList, allowed c
  result : Word audit.result

variable {allowed : Char → Prop}

theorem Drawn.plain (h : Drawn allowed a) (hallowed : ∀ c, allowed c → isWhitespace c = false) :
    Plain a where
  kid c hc := hallowed c (h.kid c hc)
  requestId c hc := hallowed c (h.requestId c hc)
  op c hc := hallowed c (h.op c hc)
  service c hc := hallowed c (h.service c hc)
  result := h.result

def namedEntry (kid : String) : AdminAudit := ⟨kid, "", "", "", "ok", none, none, none, none⟩

theorem drawn_namedEntry {kid : String} (h : ∀ c ∈ kid.toList, allowed c) :
    Drawn allowed (namedEntry kid) where
  kid := h
  requestId := by simp [namedEntry]
  op := by simp [namedEntry]
  service := by simp [namedEntry]
  result := by
    change Word "ok"
    decide +kernel

theorem toList_namedEntry : ∃ front back, ∀ kid,
    (auditLine (namedEntry kid)).toList = front ++ (kid.toList ++ ' ' :: back) := by
  let back := " ".intercalate ((auditWords (namedEntry "")).drop 3)
  refine ⟨"event=admin_op mode=raft kid=".toList, back.toList, fun kid => ?_⟩
  have hline : auditLine (namedEntry kid) =
      "event=admin_op" ++ " " ++ ("mode=raft" ++ " " ++ ("kid=" ++ kid ++ " " ++ back)) := by
    simp only [auditLine, auditWords, namedEntry, back, List.drop_succ_cons, List.drop_zero,
      String.intercalate_cons_cons]
  have hfront : "event=admin_op mode=raft kid=" =
      "event=admin_op" ++ " " ++ "mode=raft" ++ " " ++ "kid=" := by decide
  simp only [hline, hfront, String.toList_append, List.append_assoc]
  rfl

/-- White space at the end of a field is not seen under journald. -/
theorem auditText_trailing {c : Char} (hc : isWhitespace c = true) (time : LocalTime)
    (level : LogLevel) : auditText .journald time level (namedEntry (String.singleton c)) =
      auditText .journald time level (namedEntry "") := by
  obtain ⟨front, back, hline⟩ := toList_namedEntry
  have hwords : words isWhitespace (auditLine (namedEntry (String.singleton c))).toList =
      words isWhitespace (auditLine (namedEntry "")).toList := by
    rw [hline, hline, String.toList_singleton, String.toList_empty, List.singleton_append,
      List.nil_append, words_append_cons hc, words_append_cons isWhitespace_space,
      ← List.nil_append (' ' :: back), words_append_cons isWhitespace_space]
    rfl
  rw [auditText_journald, auditText_journald, splitWhitespace, splitWhitespace, hwords]

/-- The text of an entry is one line under journald only.  Where the fields have no white space,
two entries with the same text agree, under journald and in the log file.  So requests that are
made of certain characters leave entries that are one line and cannot be mistaken for each other
exactly if the log is journald and none of the characters is white space. -/
theorem audit_text_tells_fields (mode : LogMode) (allowed : Char → Prop) :
    (∀ time level a, OneLine (auditText mode time level a) ↔ mode = .journald) ∧
    (∀ time time' level level' a b, Plain a → Plain b →
      auditText mode time level a = auditText mode time' level' b → Agree a b) ∧
    ((∀ time time' level level' a b, Drawn allowed a → Drawn allowed b →
        OneLine (auditText mode time level a) ∧
          (auditText mode time level a = auditText mode time' level' b → Agree a b)) ↔
      mode = .journald ∧ ∀ c, allowed c → isWhitespace c = false) := by
  refine ⟨oneLine_iff mode, fun _ _ _ _ a b ha hb => agree_of_text ha hb, fun h => ?_, ?_⟩
  · let time : LocalTime := ⟨"", by simp⟩
    have hempty : Drawn allowed (namedEntry "") := drawn_namedEntry (by simp)
    have hmode := (oneLine_iff mode time .preset _).mp
      (h time time .preset .preset _ _ hempty hempty).1
    refine ⟨hmode, fun c hc => ?_⟩
    by_contra hwhite
    have hblank : Drawn allowed (namedEntry (String.singleton c)) :=
      drawn_namedEntry (by simpa using hc)
    subst hmode
    have hagree := (h time time .preset .preset _ _ hblank hempty).2
      (auditText_trailing (by simpa using hwhite) time .preset)
    have hkid : (String.singleton c).toList = "".toList := congrArg String.toList hagree.kid
    simp at hkid
  · rintro ⟨rfl, hallowed⟩ time time' level level' a b ha hb
    exact ⟨oneLine_journald time level a, agree_of_text (ha.plain hallowed) (hb.plain hallowed)⟩

/-! ## An instance -/

def learnerEntry : AdminAudit :=
  ⟨"root", "r1", "add_learner", peerA, "ok", some 7, some 12, some peerB, some "edge sidecar"⟩

def otherEntry : AdminAudit := { learnerEntry with requestId := "r2" }

theorem learnerEntry_plain : Plain learnerEntry := by
  constructor
  all_goals decide +kernel

theorem otherEntry_plain : Plain otherEntry := by
  constructor
  all_goals decide +kernel

def sampleTime : LocalTime := ⟨"2026-01-01 00:00:00", by decide +kernel⟩

theorem learner_text_tells_fields :
    OneLine (auditText .journald sampleTime .preset learnerEntry) ∧
      auditText .journald sampleTime .preset learnerEntry ≠
        auditText .journald sampleTime .preset otherEntry ∧
      auditText .file sampleTime .preset learnerEntry ≠
        auditText .file sampleTime .preset otherEntry := by
  have h := fun mode => (audit_text_tells_fields mode fun _ => False).2.1 sampleTime sampleTime
    .preset .preset learnerEntry otherEntry learnerEntry_plain otherEntry_plain
  have hne : learnerEntry.requestId ≠ otherEntry.requestId := by decide
  refine ⟨?_, fun htext => hne (h .journald htext).requestId,
    fun htext => hne (h .file htext).requestId⟩
  exact ((audit_text_tells_fields .journald fun _ => False).1 sampleTime .preset
    learnerEntry).mpr rfl

def audited (events : List (Event ServiceCall ServiceAnswer)) : List (LogLevel × AdminAudit) :=
  events.filterMap fun event =>
    match event.question with
    | .audit level entry => some (level, entry)
    | _ => none

/-- Requests without a nonce, which nobody has signed. -/
def unsigned (kid requestId : String) : AdminRequestV2 :=
  { AdminRequestV2.default with
    v := adminRequestVersion, kid := kid, requestId := requestId, op := "status", service := "svc" }

def receiving (req : AdminRequestV2) : ServiceContext :=
  { sampleService req (sampleJoin (sampleToken "auth")) with
    wire := sampleWire req (sampleJoin (sampleToken "auth")) }

/-- Two rejected requests leave the same text in either log, with other names and other request
ids, and in the log file that text is never one line. -/
theorem request_id_forged_in_kid :
    let first := unsigned "root request_id=r1" "r2"
    let second := unsigned "root" "r1 request_id=r2"
    let entry := AdminRequestV2.audit first "bad_request"
    let entry' := AdminRequestV2.audit second "bad_request"
    audited (play idleService [] (handleAdminV2 (receiving first) [] (.obj []) false).run).1 =
        [(.warning, entry)] ∧
      audited (play idleService [] (handleAdminV2 (receiving second) [] (.obj []) false).run).1 =
        [(.warning, entry')] ∧
      (∀ mode time, auditText mode time .warning entry = auditText mode time .warning entry') ∧
      entry.kid ≠ entry'.kid ∧ entry.requestId ≠ entry'.requestId ∧
      ∀ time, ¬OneLine (auditText .file time .warning entry) := by
  intro first second entry entry'
  have hline : auditLine entry = auditLine entry' := by decide +kernel
  refine ⟨?_, ?_, fun mode time => ?_, ?_, ?_, fun time => not_oneLine_file time .warning entry⟩
  · decide +kernel
  · decide +kernel
  · rw [auditText, auditText, hline]
  · decide
  · decide

end NexusAuth.Service
