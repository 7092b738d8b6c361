import NexusAuth.Raft.Membership
import NexusAuth.Raft.Proofs.Operations

/-!
# Interleaved membership operations

Two operations that overlap can both return Ok although the second overwrites the
voters that the first one made.  When the calls with an effect do not overlap, the final
membership is the one after the successful calls in the order in which they returned:
along such a run, whatever the call in progress still does completes a run of its
operation alone from the membership that the finished calls made (`Tracks`).

No kind of call is exempt: an addition changes no voters, but its uncommitted change makes
openraft refuse the second change of a removal.
-/

namespace NexusAuth.Raft

open NexusAuth.Lib NexusAuth.Lib.Interaction NexusAuth.Lib.OrderedMap
open Std (ExtTreeMap ExtTreeSet)

variable {self : NodeId} {start m m' : Members} {w w' : LeaderWorld}

/-! ## Steps of the world -/

inductive LeaderStep (w : LeaderWorld) : LeaderWorld → Prop
  | stay : LeaderStep w w
  | start (op : MemberOp) :
      LeaderStep w { w with calls := w.calls ++ [⟨op, op.program w.self⟩] }
  | answered (i : Nat) (call : MemberCall) (q : RuntimeCall)
      (next : RuntimeAnswer q → RuntimeM (Except String Unit)) (answer : RuntimeAnswer q)
      (hwaits : ¬w.waits i) (hcall : w.calls[i]? = some call) (hrest : call.rest = .ask q next)
      (hans : w.pending = none → leaderAnswers w.self w.effective q answer w.effective) :
      LeaderStep w (w.resume i call (next answer))
  | accepted (i : Nat) (call : MemberCall) (change : Change)
      (next : RuntimeAnswer (.change change) → RuntimeM (Except String Unit)) (members : Members)
      (hcall : w.calls[i]? = some call) (hrest : call.rest = .ask (.change change) next)
      (hpending : w.pending = none) (haccept : w.committed.accept change = some members) :
      LeaderStep w { w.resume i call (next (.ok ())) with pending := some ⟨i, members⟩ }
  | commit (change : PendingChange) (hpending : w.pending = some change) :
      LeaderStep w { w with committed := change.members, pending := none }

theorem effective_of_pending_none (h : w.pending = none) : w.effective = w.committed := by
  rw [LeaderWorld.effective, h]

theorem leaderStep_stepCall {i : Nat} {call : MemberCall} {outside : Outside} {q : RuntimeCall}
    {next : RuntimeAnswer q → RuntimeM (Except String Unit)} (hwaits : ¬w.waits i)
    (hcall : w.calls[i]? = some call) (hrest : call.rest = .ask q next) :
    LeaderStep w (w.stepCall i call outside q next) := by
  cases q with
  | change change =>
      simp only [LeaderWorld.stepCall]
      cases hsubmit : w.submit change with
      | some members =>
          cases hpending : w.pending with
          | some pending => simp [LeaderWorld.submit, hpending] at hsubmit
          | none =>
              rw [LeaderWorld.submit, hpending] at hsubmit
              exact .accepted i call change next members hcall hrest hpending hsubmit
      | none =>
          refine .answered i call _ next _ hwaits hcall hrest fun hpending => ?_
          rw [LeaderWorld.submit, hpending] at hsubmit
          rw [effective_of_pending_none hpending]
          exact ⟨hsubmit, rfl⟩
  | metrics => exact .answered i call _ next _ hwaits hcall hrest fun _ => ⟨rfl, rfl, rfl, rfl⟩
  | elected candidate => exact .answered i call _ next _ hwaits hcall hrest fun _ => ⟨rfl, rfl⟩
  | _ => exact .answered i call _ next _ hwaits hcall hrest fun _ => rfl

theorem leaderStep_step (w : LeaderWorld) (event : MemberEvent) : LeaderStep w (w.step event) := by
  cases event with
  | start op => exact .start op
  | step i outside =>
      simp only [LeaderWorld.step]
      split
      · exact .stay
      · rename_i hwaits
        cases hcall : w.calls[i]? with
        | none => exact .stay
        | some call =>
            cases hrest : call.rest with
            | done result =>
                simp only [hrest]
                exact .stay
            | ask q next =>
                simp only [hrest]
                exact leaderStep_stepCall hwaits hcall hrest
  | commit =>
      simp only [LeaderWorld.step]
      cases hpending : w.pending with
      | none => exact .stay
      | some change => exact .commit change hpending

/-! ## Calls that have returned -/

theorem returned_eq_some {i : Nat} {result : Except String Unit} :
    w.returned i = some result ↔
      ¬w.waits i ∧ ∃ op, w.calls[i]? = some ⟨op, .done result⟩ := by
  rw [LeaderWorld.returned]
  split
  · simp [*]
  · rename_i hwaits
    split
    · rename_i op result' hcall
      simp [hwaits, hcall]
    · rename_i hcall
      refine iff_of_false (by simp) ?_
      rintro ⟨_, op, h⟩
      exact hcall op result h

theorem returned_congr {i : Nat} (hwaits : w'.waits i ↔ w.waits i)
    (hcall : w'.calls[i]? = w.calls[i]?) : w'.returned i = w.returned i := by
  apply Option.ext
  intro result
  rw [returned_eq_some, returned_eq_some, hwaits, hcall]

theorem inProgress_iff {i : Nat} :
    w.InProgress i ↔ (∃ call, w.calls[i]? = some call) ∧ w.returned i = none := by
  apply and_congr_left'
  constructor
  · exact fun h => ⟨_, List.getElem?_eq_getElem h⟩
  · rintro ⟨call, h⟩
    exact (List.getElem?_eq_some_iff.mp h).1

theorem inProgress_congr {i : Nat} (hwaits : w'.waits i ↔ w.waits i)
    (hcall : w'.calls[i]? = w.calls[i]?) : w'.InProgress i ↔ w.InProgress i := by
  rw [inProgress_iff, inProgress_iff, returned_congr hwaits hcall, hcall]

theorem inProgress_of_ask {i : Nat} {call : MemberCall} {q : RuntimeCall}
    {next : RuntimeAnswer q → RuntimeM (Except String Unit)} (hcall : w.calls[i]? = some call)
    (hrest : call.rest = .ask q next) : w.InProgress i := by
  refine inProgress_iff.mpr ⟨⟨call, hcall⟩, ?_⟩
  rw [Option.eq_none_iff_forall_ne_some]
  intro result hresult
  obtain ⟨_, op, hdone⟩ := returned_eq_some.mp hresult
  obtain rfl := Option.some.inj (hcall.symm.trans hdone)
  cases hrest

theorem returned_none_of_waits {i : Nat} (h : w.waits i) : w.returned i = none := by
  rw [LeaderWorld.returned, if_pos h]

/-! ## Operations alone -/

theorem program_error {op : MemberOp} {result : Except String Unit}
    (h : Executes (leaderAnswers self) (op.program self) m m' result) (herr : result.isOk = false) :
    m' = m := by
  have hsub := fun m q a m' (ha : leaderAnswers self m q a m') => faultyAnswers_of_leaderAnswers ha
  cases op with
  | addLearnerNode id node =>
      obtain ⟨mid, info, hadd, rfl, rfl⟩ := executes_bind.mp h
      obtain ⟨hok, _⟩ | ⟨_, rfl⟩ := executes_addLearnerNode (hadd.mono hsub)
      · cases info with
        | ok info => cases herr
        | error e => cases hok
      · rfl
  | promoteVoter id =>
      obtain ⟨rfl, _⟩ | ⟨_, rfl⟩ := executes_promoteVoter (h.mono hsub)
      · cases herr
      · rfl
  | demoteVoter id =>
      obtain ⟨rfl, _⟩ | ⟨_, rfl⟩ := executes_demoteVoter (h.mono hsub)
      · cases herr
      · rfl
  | removeMember id =>
      obtain ⟨rfl, _⟩ | ⟨_, rfl⟩ := executes_removeMember_leader h
      · cases herr
      · rfl

theorem program_asks (self : NodeId) (op : MemberOp) :
    ∃ q next, op.program self = .ask q next := by
  cases op <;> exact ⟨_, _, rfl⟩

theorem Serial.snoc {ops : List MemberOp} {op : MemberOp} (h : Serial self start ops m)
    (hop : Executes (leaderAnswers self) (op.program self) m m' (.ok ())) :
    Serial self start (ops ++ [op]) m' := by
  induction h with
  | nil m => exact .cons hop (.nil _)
  | cons hfirst _ ih => exact .cons hfirst (ih hop)

theorem ops_append (w : LeaderWorld) (a b : List Nat) : w.ops (a ++ b) = w.ops a ++ w.ops b :=
  List.filterMap_append

theorem ops_congr {calls : List Nat}
    (h : ∀ i ∈ calls, w'.calls[i]?.map MemberCall.op = w.calls[i]?.map MemberCall.op) :
    w'.ops calls = w.ops calls :=
  List.filterMap_congr h

theorem ops_of_step {i : Nat} {call call' : MemberCall} (hcall : w.calls[i]? = some call)
    (hcall' : w'.calls[i]? = some call') (hop : call'.op = call.op)
    (hother : ∀ j, j ≠ i → w'.calls[j]? = w.calls[j]?) (calls : List Nat) :
    w'.ops calls = w.ops calls := by
  apply ops_congr
  intro j _
  by_cases hj : j = i
  · rw [hj, hcall, hcall', Option.map_some, Option.map_some, hop]
  · rw [hother j hj]

/-! ## Calls that do not overlap -/

/-- The calls with an effect are in `E`, and at most one of these is in progress. -/
structure Isolated (E : Nat → Prop) (w : LeaderWorld) : Prop where
  waits : ∀ i, w.waits i → E i
  returned : ∀ i, w.returned i = some (.ok ()) → E i
  alone : ∀ i j, E i → E j → w.InProgress i → w.InProgress j → i = j

/-- The calls `done` have returned Ok and would, alone and in this order, make `m`.  That
is the membership between the calls of `E`; while one is in progress, the rest of it
completes a run of its operation from `m`. -/
structure Tracks (node : NodeId) (start : Members) (E : Nat → Prop) (w : LeaderWorld)
    (done : List Nat) (m : Members) : Prop where
  self_eq : w.self = node
  nodup : done.Nodup
  mem_done : ∀ i, i ∈ done ↔ w.returned i = some (.ok ())
  serial : Serial node start (w.ops done) m
  owner : ∀ i, w.waits i → w.InProgress i
  idle : (∀ i, E i → ¬w.InProgress i) → w.effective = m
  running : ∀ i call, E i → w.InProgress i → w.calls[i]? = some call → ∀ m' result,
    Executes (leaderAnswers node) call.rest w.effective m' result →
      Executes (leaderAnswers node) (call.op.program node) m m' result

variable {E : Nat → Prop} {done : List Nat}

theorem waits_of_pending {change : PendingChange} (h : w.pending = some change) :
    w.waits change.owner := by
  rw [LeaderWorld.waits, h, Option.map_some]

theorem not_waits_of_pending_none (h : w.pending = none) (i : Nat) : ¬w.waits i := by
  simp [LeaderWorld.waits, h]

theorem Tracks.not_mem_done (h : Tracks self start E w done m) {i : Nat}
    (hprogress : w.InProgress i) : i ∉ done := by
  intro hmem
  have hreturned := (h.mem_done i).mp hmem
  simp [hprogress.2] at hreturned

theorem Tracks.mem_done_of_step (h : Tracks self start E w done m) {i : Nat} (hi : i ∉ done)
    (hfailed : w'.returned i ≠ some (.ok ()))
    (hother : ∀ j, j ≠ i → w'.returned j = w.returned j) (j : Nat) :
    j ∈ done ↔ w'.returned j = some (.ok ()) := by
  by_cases hj : j = i
  · exact hj ▸ iff_of_false hi hfailed
  · rw [h.mem_done, hother j hj]

/-- While a call of `E` is in progress that does not wait, no change is pending. -/
theorem Tracks.pending_eq_none (h : Tracks self start E w done m) (hw : Isolated E w) {i : Nat}
    (hE : E i) (hprogress : w.InProgress i) (hwaits : ¬w.waits i) : w.pending = none := by
  rw [Option.eq_none_iff_forall_ne_some]
  intro change hpending
  have howner := waits_of_pending hpending
  have heq : change.owner = i :=
    hw.alone _ _ (hw.waits _ howner) hE (h.owner _ howner) hprogress
  exact hwaits (heq ▸ howner)

/-- The call `i` of `E` has taken a step that leaves no change pending: it goes on, or it
returns and is the next one in the order. -/
theorem Tracks.settle (h : Tracks self start E w done m) (hw : Isolated E w) (hw' : Isolated E w')
    {i : Nat} {call call' : MemberCall} (hE : E i) (hprogress : w.InProgress i)
    (hcall : w.calls[i]? = some call) (hcall' : w'.calls[i]? = some call')
    (hop : call'.op = call.op) (hself : w'.self = w.self) (hpending : w'.pending = none)
    (hother : ∀ j, j ≠ i → w'.returned j = w.returned j ∧ w'.calls[j]? = w.calls[j]?)
    (hrun : ∀ m' result, Executes (leaderAnswers self) call'.rest w'.effective m' result →
      Executes (leaderAnswers self) (call.op.program self) m m' result) :
    ∃ done' m', Tracks self start E w' done' m' := by
  have hops := ops_of_step hcall hcall' hop fun j hj => (hother j hj).2
  have hnotdone := h.not_mem_done hprogress
  have howner : ∀ j, w'.waits j → w'.InProgress j :=
    fun j hj => absurd hj (not_waits_of_pending_none hpending j)
  have hmem (hfailed : w'.returned i ≠ some (.ok ())) :=
    h.mem_done_of_step hnotdone hfailed fun j hj => (hother j hj).1
  cases hreturned : w'.returned i with
  | none =>
      have hprogress' : w'.InProgress i := inProgress_iff.mpr ⟨⟨call', hcall'⟩, hreturned⟩
      refine ⟨done, m, hself.trans h.self_eq, h.nodup, hmem (by simp [hreturned]),
        (hops done).symm ▸ h.serial, howner, fun hidle => absurd hprogress' (hidle i hE), ?_⟩
      intro j callj hEj hprogressj hcallj
      obtain rfl := hw'.alone j i hEj hE hprogressj hprogress'
      obtain rfl := Option.some.inj (hcall'.symm.trans hcallj)
      rw [hop]
      exact hrun
  | some result =>
      have hidle : ∀ j, E j → ¬w'.InProgress j := by
        intro j hEj hprogressj
        have hj : j ≠ i := by
          rintro rfl
          simp [hprogressj.2] at hreturned
        have hprogressj' : w.InProgress j := by
          obtain ⟨hret, hcalls⟩ := hother j hj
          rw [inProgress_iff, hret, hcalls] at hprogressj
          exact inProgress_iff.mpr hprogressj
        exact hj (hw.alone j i hEj hE hprogressj' hprogress)
      have hdone : call'.rest = .done result := by
        obtain ⟨_, op, hcalls⟩ := returned_eq_some.mp hreturned
        obtain rfl := Option.some.inj (hcall'.symm.trans hcalls)
        rfl
      have hexec := hrun w'.effective result (hdone ▸ ⟨rfl, rfl⟩)
      cases result with
      | error e =>
          have hsame : w'.effective = m := program_error hexec rfl
          exact ⟨done, m, hself.trans h.self_eq, h.nodup, hmem (by simp [hreturned]),
            (hops done).symm ▸ h.serial, howner, fun _ => hsame,
            fun j _ hEj hprogressj => absurd hprogressj (hidle j hEj)⟩
      | ok value =>
          refine ⟨done ++ [i], w'.effective, hself.trans h.self_eq, ?_, ?_, ?_, howner,
            fun _ => rfl, fun j _ hEj hprogressj => absurd hprogressj (hidle j hEj)⟩
          · exact List.nodup_append.mpr ⟨h.nodup, List.nodup_singleton i, by
              rintro a ha b hb rfl
              exact hnotdone (List.mem_singleton.mp hb ▸ ha)⟩
          · intro j
            by_cases hj : j = i
            · subst hj
              simp [hreturned]
            · rw [List.mem_append, List.mem_singleton, h.mem_done, (hother j hj).1]
              simp [hj]
          · have hlast : w'.ops [i] = [call.op] := by simp [LeaderWorld.ops, hcall', hop]
            rw [ops_append, hops done, hlast]
            exact h.serial.snoc hexec

/-! ## One step -/

theorem resume_calls_ne (w : LeaderWorld) {i j : Nat} (call : MemberCall)
    (rest : RuntimeM (Except String Unit)) (h : j ≠ i) :
    (w.resume i call rest).calls[j]? = w.calls[j]? :=
  List.getElem?_set_ne h.symm

theorem resume_calls_self {i : Nat} {call : MemberCall} (hcall : w.calls[i]? = some call)
    (rest : RuntimeM (Except String Unit)) :
    (w.resume i call rest).calls[i]? = some { call with rest := rest } :=
  List.getElem?_set_self (List.getElem?_eq_some_iff.mp hcall).1

theorem append_calls_ne (calls : List MemberCall) (call : MemberCall) {j : Nat}
    (h : j ≠ calls.length) : (calls ++ [call])[j]? = calls[j]? := by
  rw [List.getElem?_append]
  split
  · rfl
  · rw [List.getElem?_eq_none (by omega : calls.length ≤ j),
      List.getElem?_eq_none (by simp only [List.length_singleton]; omega)]

theorem Tracks.started (h : Tracks self start E w done m) (op : MemberOp)
    (hw' : Isolated E { w with calls := w.calls ++ [⟨op, op.program w.self⟩] }) :
    Tracks self start E { w with calls := w.calls ++ [⟨op, op.program w.self⟩] } done m := by
  obtain ⟨q, next, hasks⟩ := program_asks w.self op
  set n := w.calls.length with hn
  set v : LeaderWorld := { w with calls := w.calls ++ [⟨op, op.program w.self⟩] }
  have hnew : v.calls[n]? = some ⟨op, op.program w.self⟩ := List.getElem?_concat_length
  have hprogress : v.InProgress n := inProgress_of_ask hnew hasks
  have hcalls : ∀ j, j ≠ n → v.calls[j]? = w.calls[j]? :=
    fun j hj => append_calls_ne w.calls _ hj
  have hsame : ∀ j, j ≠ n → (v.InProgress j ↔ w.InProgress j) :=
    fun j hj => inProgress_congr Iff.rfl (hcalls j hj)
  have hold : ∀ j, w.InProgress j → j ≠ n := fun j hj => (hn ▸ hj.1).ne
  have hdone : n ∉ done := by
    intro hmem
    obtain ⟨_, op', hop'⟩ := returned_eq_some.mp ((h.mem_done _).mp hmem)
    exact absurd (List.getElem?_eq_some_iff.mp hop').1 (lt_irrefl _)
  refine ⟨h.self_eq, h.nodup, ?_, ?_, ?_, ?_, ?_⟩
  · exact h.mem_done_of_step hdone (by simp [hprogress.2])
      fun j hj => returned_congr Iff.rfl (hcalls j hj)
  · have hops : v.ops done = w.ops done :=
      ops_congr fun j hj => by rw [hcalls j fun heq => hdone (heq ▸ hj)]
    exact hops ▸ h.serial
  · intro j hj
    have hj' := h.owner j hj
    exact (hsame j (hold j hj')).mpr hj'
  · intro hidle
    exact h.idle fun j hEj hj => hidle j hEj ((hsame j (hold j hj)).mpr hj)
  · intro j call hEj hj hcall m' result
    by_cases hjn : j = n
    · -- no other call of `E` is in progress, so the new one starts from `m`
      subst hjn
      have hidle : w.effective = m := h.idle fun i hEi hi =>
        hold i hi (hw'.alone i n hEi hEj ((hsame i (hold i hi)).mpr hi) hj)
      obtain rfl := Option.some.inj (hnew.symm.trans hcall)
      have heff : v.effective = m := hidle
      rw [heff, h.self_eq]
      exact id
    · rw [hcalls j hjn] at hcall
      exact h.running j call hEj ((hsame j hjn).mp hj) hcall m' result

theorem Tracks.answered_other (h : Tracks self start E w done m) {i : Nat} {call : MemberCall}
    {q : RuntimeCall} {next : RuntimeAnswer q → RuntimeM (Except String Unit)}
    {rest : RuntimeM (Except String Unit)} (hE : ¬E i) (hcall : w.calls[i]? = some call)
    (hrest : call.rest = .ask q next) (hw' : Isolated E (w.resume i call rest)) :
    Tracks self start E (w.resume i call rest) done m := by
  have hcalls : ∀ j, j ≠ i → (w.resume i call rest).calls[j]? = w.calls[j]? :=
    fun j hj => resume_calls_ne w call rest hj
  have hsame : ∀ j, E j → ((w.resume i call rest).InProgress j ↔ w.InProgress j) := by
    intro j hEj
    have hj : j ≠ i := fun heq => hE (heq ▸ hEj)
    exact inProgress_congr Iff.rfl (hcalls j hj)
  refine ⟨h.self_eq, h.nodup, ?_, ?_, ?_, ?_, ?_⟩
  · exact h.mem_done_of_step (h.not_mem_done (inProgress_of_ask hcall hrest))
      (fun hok => hE (hw'.returned i hok)) fun j hj => returned_congr Iff.rfl (hcalls j hj)
  · have hops := ops_of_step hcall (resume_calls_self hcall rest) rfl hcalls done
    exact hops ▸ h.serial
  · intro j hj
    exact (hsame j (hw'.waits j hj)).mpr (h.owner j hj)
  · exact fun hidle => h.idle fun j hEj hj => hidle j hEj ((hsame j hEj).mpr hj)
  · intro j callj hEj hj hcallj
    have hji : j ≠ i := fun heq => hE (heq ▸ hEj)
    rw [hcalls j hji] at hcallj
    exact h.running j callj hEj ((hsame j hEj).mp hj) hcallj

theorem Tracks.accepted (h : Tracks self start E w done m) {i : Nat} {call : MemberCall}
    {change : Change} {next : RuntimeAnswer (.change change) → RuntimeM (Except String Unit)}
    {members : Members} (hcall : w.calls[i]? = some call)
    (hrest : call.rest = .ask (.change change) next) (hpending : w.pending = none)
    (haccept : w.committed.accept change = some members)
    (hw' : Isolated E { w.resume i call (next (.ok ())) with pending := some ⟨i, members⟩ }) :
    Tracks self start E { w.resume i call (next (.ok ())) with pending := some ⟨i, members⟩ } done
      m := by
  set v : LeaderWorld := { w.resume i call (next (.ok ())) with pending := some ⟨i, members⟩ }
  have hcall' : v.calls[i]? = some { call with rest := next (.ok ()) } :=
    resume_calls_self hcall _
  have hcalls : ∀ j, j ≠ i → v.calls[j]? = w.calls[j]? :=
    fun j hj => resume_calls_ne w call _ hj
  have hwaits : v.waits i := rfl
  have hwaits' : ∀ j, v.waits j → j = i := fun j hj => (Option.some.inj hj).symm
  have hprogress : v.InProgress i :=
    inProgress_iff.mpr ⟨⟨_, hcall'⟩, returned_none_of_waits hwaits⟩
  have hE : E i := hw'.waits i hwaits
  refine ⟨h.self_eq, h.nodup, ?_, ?_, ?_, ?_, ?_⟩
  · apply h.mem_done_of_step (h.not_mem_done (inProgress_of_ask hcall hrest))
    · simp [hprogress.2]
    · intro j hj
      have hwaits : v.waits j ↔ w.waits j :=
        iff_of_false (fun hv => hj (hwaits' j hv)) (not_waits_of_pending_none hpending j)
      exact returned_congr hwaits (hcalls j hj)
  · have hops := ops_of_step hcall hcall' rfl hcalls done
    exact hops ▸ h.serial
  · intro j hj
    exact hwaits' j hj ▸ hprogress
  · exact fun hidle => absurd hprogress (hidle i hE)
  · intro j callj hEj hj hcallj m' result hexec
    obtain rfl := hw'.alone j i hEj hE hj hprogress
    obtain rfl := Option.some.inj (hcall'.symm.trans hcallj)
    apply h.running j call hE (inProgress_of_ask hcall hrest) hcall
    rw [hrest, effective_of_pending_none hpending]
    exact ⟨.ok (), members, haccept, hexec⟩

theorem Tracks.commit (h : Tracks self start E w done m) (hw : Isolated E w)
    {change : PendingChange} (hpending : w.pending = some change)
    (hw' : Isolated E { w with committed := change.members, pending := none }) :
    ∃ done' m', Tracks self start E { w with committed := change.members, pending := none } done'
      m' := by
  have hwaits := waits_of_pending hpending
  have hprogress := h.owner _ hwaits
  obtain ⟨⟨call, hcall⟩, _⟩ := inProgress_iff.mp hprogress
  have heff : w.effective = change.members := by rw [LeaderWorld.effective, hpending]
  refine h.settle hw hw' (hw.waits _ hwaits) hprogress hcall hcall rfl rfl rfl ?_ ?_
  · intro j hj
    have hnot : ¬w.waits j := by
      rw [LeaderWorld.waits, hpending, Option.map_some, Option.some.injEq]
      exact fun heq => hj heq.symm
    exact ⟨returned_congr (iff_of_false (by simp [LeaderWorld.waits]) hnot) rfl, rfl⟩
  · have hrun := h.running _ call (hw.waits _ hwaits) hprogress hcall
    rw [heff] at hrun
    exact hrun

theorem Tracks.answered (h : Tracks self start E w done m) (hw : Isolated E w) {i : Nat}
    {call : MemberCall} {q : RuntimeCall} {next : RuntimeAnswer q → RuntimeM (Except String Unit)}
    {answer : RuntimeAnswer q} (hwaits : ¬w.waits i) (hcall : w.calls[i]? = some call)
    (hrest : call.rest = .ask q next)
    (hans : w.pending = none → leaderAnswers w.self w.effective q answer w.effective)
    (hw' : Isolated E (w.resume i call (next answer))) :
    ∃ done' m', Tracks self start E (w.resume i call (next answer)) done' m' := by
  by_cases hE : E i
  · have hprogress := inProgress_of_ask hcall hrest
    have hpending := h.pending_eq_none hw hE hprogress hwaits
    refine h.settle hw hw' hE hprogress hcall (resume_calls_self hcall _) rfl rfl hpending ?_ ?_
    · intro j hj
      have hcalls := resume_calls_ne w call (next answer) hj
      exact ⟨returned_congr Iff.rfl hcalls, hcalls⟩
    · intro m' result hexec
      apply h.running i call hE hprogress hcall
      rw [hrest]
      exact ⟨answer, w.effective, h.self_eq ▸ hans hpending, hexec⟩
  · exact ⟨done, m, h.answered_other hE hcall hrest hw'⟩

theorem Tracks.step (h : Tracks self start E w done m) (hw : Isolated E w) (hw' : Isolated E w')
    (hstep : LeaderStep w w') : ∃ done' m', Tracks self start E w' done' m' := by
  cases hstep with
  | stay => exact ⟨done, m, h⟩
  | start op => exact ⟨done, m, h.started op hw'⟩
  | answered i call q next answer hwaits hcall hrest hans =>
      exact h.answered hw hwaits hcall hrest hans hw'
  | accepted i call change next members hcall hrest hpending haccept =>
      exact ⟨done, m, h.accepted hcall hrest hpending haccept hw'⟩
  | commit change hpending => exact h.commit hw hpending hw'

/-! ## Whole runs -/

theorem tracks_init (self : NodeId) (start : Members) (E : Nat → Prop) :
    Tracks self start E (.init self start) [] start where
  self_eq := rfl
  nodup := List.nodup_nil
  mem_done i := by simp [LeaderWorld.returned, LeaderWorld.init]
  serial := .nil start
  owner i h := by cases h
  idle _ := rfl
  running i call _ _ hcall := by simp [LeaderWorld.init] at hcall

variable {events : List MemberEvent}

theorem isolated_effective
    (h : ∀ k i j, Effective self start events i → Effective self start events j →
      (LeaderWorld.after self start events k).InProgress i →
      (LeaderWorld.after self start events k).InProgress j → i = j) (k : Nat) :
    Isolated (Effective self start events) (LeaderWorld.after self start events k) where
  waits _ hi := ⟨k, .inr hi⟩
  returned _ hi := ⟨k, .inl hi⟩
  alone := h k

theorem tracks_after (hiso : ∀ k, Isolated E (LeaderWorld.after self start events k)) (k : Nat) :
    ∃ done m, Tracks self start E (LeaderWorld.after self start events k) done m := by
  refine Runs.invariant (P := fun w => ∃ done m, Tracks self start E w done m)
    ⟨[], start, tracks_init self start E⟩ ?_ k
  rintro k hk ⟨done, m, h⟩
  have hnext := hiso (k + 1)
  rw [LeaderWorld.after, Runs.stateAt_succ hk] at hnext
  exact h.step (hiso k) hnext (leaderStep_step _ _)

theorem Tracks.ops_perm (h : Tracks self start E w done m) : (w.ops done).Perm w.succeeded := by
  apply List.Perm.filterMap
  rw [List.perm_ext_iff_of_nodup h.nodup (List.nodup_range.filter _)]
  intro i
  rw [h.mem_done, List.mem_filter, List.mem_range]
  constructor
  · intro hok
    obtain ⟨_, op, hcall⟩ := returned_eq_some.mp hok
    exact ⟨(List.getElem?_eq_some_iff.mp hcall).1, by simp [hok, Except.isOk, Except.toBool]⟩
  · rintro ⟨_, hany⟩
    cases hret : w.returned i with
    | none => simp [hret] at hany
    | some result =>
        cases result with
        | ok value => rfl
        | error e => simp [hret, Except.isOk, Except.toBool] at hany

/-- When no two calls that have an effect overlap, the final voters and learners are those
after the successful calls, one after another in some order. -/
theorem member_ops_serializable (self : NodeId) (start : Members) (events : List MemberEvent)
    (hfinished : ∀ i, ¬(LeaderWorld.after self start events events.length).InProgress i)
    (hisolated : ∀ k i j, Effective self start events i → Effective self start events j →
      (LeaderWorld.after self start events k).InProgress i →
      (LeaderWorld.after self start events k).InProgress j → i = j) :
    Serializable self start (LeaderWorld.after self start events events.length).committed
      (LeaderWorld.after self start events events.length).succeeded := by
  obtain ⟨done, m, h⟩ := tracks_after (isolated_effective hisolated) events.length
  have hpending : (LeaderWorld.after self start events events.length).pending = none := by
    rw [Option.eq_none_iff_forall_ne_some]
    intro change hchange
    exact hfinished _ (h.owner _ (waits_of_pending hchange))
  have hfinal : (LeaderWorld.after self start events events.length).committed = m := by
    rw [← effective_of_pending_none hpending]
    exact h.idle fun i _ => hfinished i
  exact ⟨_, m, h.ops_perm, h.serial, by rw [hfinal], by rw [hfinal]⟩

/-! ## Two promotions -/

def oneVoter : Members where
  voters := {1}
  nodes := .ofList [(1, ⟨"p1", "k1", "x1"⟩), (2, ⟨"p2", "k2", "x2"⟩),
    (3, ⟨"p3", "k3", "x3"⟩)] compare
  voters_known id h := by
    obtain rfl : 1 = id := by simpa using h
    decide

def quiet : Outside := ⟨1, "refused", .ok ()⟩

/-- The steps of a promotion that reads its view, adds the node and waits for it. -/
def beforeSwitch (call : Nat) : List MemberEvent :=
  [.step call quiet, .step call quiet, .commit, .step call quiet]

def switch (call : Nat) : List MemberEvent :=
  [.step call quiet, .commit, .step call quiet, .step call quiet]

def overlappingPromotions : List MemberEvent :=
  [.start (.promoteVoter 2), .start (.promoteVoter 3)] ++ beforeSwitch 0 ++ beforeSwitch 1 ++
    switch 0 ++ switch 1

def promotionsInTurn : List MemberEvent :=
  [.start (.promoteVoter 2)] ++ beforeSwitch 0 ++ switch 0 ++
    [.start (.promoteVoter 3)] ++ beforeSwitch 1 ++ switch 1

theorem promotionsInTurn_alone (k i j : Nat)
    (hi : (LeaderWorld.after 1 oneVoter promotionsInTurn k).InProgress i)
    (hj : (LeaderWorld.after 1 oneVoter promotionsInTurn k).InProgress j) : i = j := by
  have hrun : ∀ k < 19, (LeaderWorld.after 1 oneVoter promotionsInTurn k).calls.length ≤ 2 ∧
      ∀ i < 2, ∀ j < 2, (LeaderWorld.after 1 oneVoter promotionsInTurn k).InProgress i →
        (LeaderWorld.after 1 oneVoter promotionsInTurn k).InProgress j → i = j := by
    decide +kernel
  by_cases hk : k < 19
  · obtain ⟨hlen, halone⟩ := hrun k hk
    exact halone i (hi.1.trans_le hlen) j (hj.1.trans_le hlen) hi hj
  · have hend : LeaderWorld.after 1 oneVoter promotionsInTurn k =
        LeaderWorld.after 1 oneVoter promotionsInTurn 18 :=
      Runs.stateAt_eq_of_length_le (show 18 ≤ k by omega)
    rw [hend] at hi hj
    obtain ⟨hlen, halone⟩ := hrun 18 (by decide)
    exact halone i (hi.1.trans_le hlen) j (hj.1.trans_le hlen) hi hj

theorem promotionsInTurn_finished (i : Nat) :
    ¬(LeaderWorld.after 1 oneVoter promotionsInTurn 18).InProgress i := by
  have hrun : (LeaderWorld.after 1 oneVoter promotionsInTurn 18).calls.length ≤ 2 ∧
      ∀ i < 2, ¬(LeaderWorld.after 1 oneVoter promotionsInTurn 18).InProgress i := by
    decide +kernel
  exact fun hi => hrun.2 i (hi.1.trans_le hrun.1) hi

/-- Promotions made in turn are in some order, and both nodes become voters. -/
theorem promotionsInTurn_serializable :
    Serializable 1 oneVoter (LeaderWorld.after 1 oneVoter promotionsInTurn 18).committed
        (LeaderWorld.after 1 oneVoter promotionsInTurn 18).succeeded ∧
      (LeaderWorld.after 1 oneVoter promotionsInTurn 18).committed.voters.toList = [1, 2, 3] :=
  ⟨member_ops_serializable 1 oneVoter promotionsInTurn promotionsInTurn_finished
    fun k i j _ _ hi hj => promotionsInTurn_alone k i j hi hj, by decide +kernel⟩

/-- Promotions one after another only add voters, all of them. -/
theorem serial_promotions {ops : List MemberOp} (h : Serial self start ops m)
    (hops : ∀ op ∈ ops, ∃ id, op = .promoteVoter id) :
    (∀ id ∈ start.voters, id ∈ m.voters) ∧ ∀ id, .promoteVoter id ∈ ops → id ∈ m.voters := by
  induction h with
  | nil m => exact ⟨fun id h => h, fun id h => absurd h List.not_mem_nil⟩
  | cons hfirst _ ih =>
      obtain ⟨id, rfl⟩ := hops _ List.mem_cons_self
      obtain ⟨hold, hnew⟩ := ih fun op hop => hops op (List.mem_cons_of_mem _ hop)
      have hexec := hfirst.mono fun _ _ _ _ => faultyAnswers_of_leaderAnswers
      obtain ⟨_, hpromoted⟩ | ⟨hfail, _⟩ := executes_promoteVoter hexec
      swap
      · cases hfail
      refine ⟨fun voter hv => hold voter ?_, fun voter hv => ?_⟩
      · rw [hpromoted.voters]
        exact ExtTreeSet.mem_insert.mpr (.inr hv)
      · obtain heq | htail := List.mem_cons.mp hv
        · obtain rfl := MemberOp.promoteVoter.inj heq
          apply hold
          rw [hpromoted.voters]
          exact ExtTreeSet.mem_insert_self
        · exact hnew voter htail

/-- Two promotions that overlap both return Ok, and the second one takes the vote of the
first node away again. -/
theorem overlapping_promotions_overwrite :
    (∀ i < 2, (LeaderWorld.after 1 oneVoter overlappingPromotions 18).returned i = some (.ok ())) ∧
      (LeaderWorld.after 1 oneVoter overlappingPromotions 18).succeeded =
        [.promoteVoter 2, .promoteVoter 3] ∧
      (LeaderWorld.after 1 oneVoter overlappingPromotions 18).committed.voters.toList = [1, 3] ∧
      ¬Serializable 1 oneVoter (LeaderWorld.after 1 oneVoter overlappingPromotions 18).committed
        (LeaderWorld.after 1 oneVoter overlappingPromotions 18).succeeded := by
  have hops : (LeaderWorld.after 1 oneVoter overlappingPromotions 18).succeeded =
      [.promoteVoter 2, .promoteVoter 3] := by decide +kernel
  refine ⟨by decide +kernel, hops, by decide +kernel, ?_⟩
  rintro ⟨order, result, hperm, hserial, hvoters, _⟩
  rw [hops] at hperm
  have honly : ∀ op ∈ order, ∃ id, op = MemberOp.promoteVoter id := by
    intro op hop
    have hmem := hperm.mem_iff.mp hop
    simp only [List.mem_cons, List.not_mem_nil, or_false] at hmem
    exact hmem.elim (fun h => ⟨2, h⟩) fun h => ⟨3, h⟩
  have hmem : 2 ∈ result.voters :=
    (serial_promotions hserial honly).2 2 (hperm.mem_iff.mpr List.mem_cons_self)
  rw [← hvoters] at hmem
  exact absurd hmem (by decide +kernel)

/-! ## An addition during a removal -/

theorem serial_additions {ops : List MemberOp} (h : Serial self start ops m)
    (hops : ∀ op ∈ ops, ∃ id node, op = .addLearnerNode id node) : m.voters = start.voters := by
  induction h with
  | nil m => rfl
  | cons hfirst _ ih =>
      obtain ⟨id, node, rfl⟩ := hops _ List.mem_cons_self
      rw [ih fun op hop => hops op (List.mem_cons_of_mem _ hop)]
      obtain ⟨mid, info, hadd, rfl, _⟩ := executes_bind.mp hfirst
      have hexec := hadd.mono fun _ _ _ _ => faultyAnswers_of_leaderAnswers
      obtain ⟨_, hadded⟩ | ⟨_, rfl⟩ := executes_addLearnerNode hexec
      · exact hadded.voters
      · rfl

def twoVoters : Members where
  voters := {1, 2}
  nodes := .ofList [(1, ⟨"p1", "k1", "x1"⟩), (2, ⟨"p2", "k2", "x2"⟩)] compare
  voters_known id h := by
    obtain rfl | rfl : 1 = id ∨ 2 = id := by simpa using h
    all_goals decide

def additionDuringRemoval : List MemberEvent :=
  [.start (.removeMember 2), .start (.addLearnerNode 3 ⟨"p3", "k3", "x3"⟩),
    -- the removal demotes the voter and finds it among the nodes
    .step 0 quiet, .step 0 quiet, .commit, .step 0 quiet,
    -- and has its second change refused, because the addition is not committed
    .step 1 quiet, .step 1 quiet, .step 0 quiet,
    .commit, .step 1 quiet, .step 1 quiet]

/-- An `add_learner_node` call submits no set of voters, but not even such a call may
overlap: a removal next to it fails half way and has taken the vote of its node. -/
theorem addition_breaks_removal :
    (LeaderWorld.after 1 twoVoters additionDuringRemoval 12).returned 0 =
        some (.error "refused") ∧
      (LeaderWorld.after 1 twoVoters additionDuringRemoval 12).committed.voters.toList = [1] ∧
      ¬Serializable 1 twoVoters (LeaderWorld.after 1 twoVoters additionDuringRemoval 12).committed
        (LeaderWorld.after 1 twoVoters additionDuringRemoval 12).succeeded := by
  have hops : (LeaderWorld.after 1 twoVoters additionDuringRemoval 12).succeeded =
      [.addLearnerNode 3 ⟨"p3", "k3", "x3"⟩] := by decide +kernel
  refine ⟨by decide +kernel, by decide +kernel, ?_⟩
  rintro ⟨order, result, hperm, hserial, hvoters, _⟩
  rw [hops] at hperm
  have honly : ∀ op ∈ order, ∃ id node, op = MemberOp.addLearnerNode id node :=
    fun op hop => ⟨_, _, List.mem_singleton.mp (hperm.mem_iff.mp hop)⟩
  rw [serial_additions hserial honly] at hvoters
  have hmem : 2 ∈ twoVoters.voters := by decide
  rw [← hvoters] at hmem
  exact absurd hmem (by decide +kernel)

end NexusAuth.Raft
