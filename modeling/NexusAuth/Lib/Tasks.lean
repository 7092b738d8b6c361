import NexusAuth.Lib.Interaction

/-!
# Interleaved programs

A pool is a shared state with the programs that run over it, each on behalf of an owner.
A step starts a program or answers the next question of one of them, so between two
questions of a program there can be any number of steps of others.

`Guards` says of a program alone which questions it may ask after which answers.
`Pool.invariant` makes an invariant of every run out of that: a question that is asked
where it may be asked keeps the shared state in order, and what is known of earlier
answers survives the steps of others.
-/

namespace NexusAuth.Lib.Tasks

open NexusAuth.Lib.Interaction

/-- A program that is under way, with what it has asked so far. -/
structure Task (ι Q : Type) (A : Q → Type) where
  owner : ι
  past : List (Event Q A)
  rest : Prog Q A Unit

def Task.ended {ι Q : Type} {A : Q → Type} (task : Task ι Q A) : Bool :=
  match task.rest with
  | .done _ => true
  | .ask _ _ => false

structure Pool (ι σ Q : Type) (A : Q → Type) where
  shared : σ
  tasks : List (Task ι Q A)

structure Rules (ι σ Q : Type) (A : Q → Type) where
  starts : σ → ι → Prog Q A Unit → Prop
  answers : σ → ι → (q : Q) → A q → σ → Prop

variable {ι σ Q : Type} {A : Q → Type} {α : Type}

/-- A program whose value nobody waits for. -/
def detached (p : Prog Q A α) : Prog Q A Unit := p >>= fun _ => .done ()

namespace Pool

def spawn (w : Pool ι σ Q A) (i : ι) (p : Prog Q A Unit) : Pool ι σ Q A :=
  { w with tasks := w.tasks ++ [⟨i, [], p⟩] }

def resume (w : Pool ι σ Q A) (k : Nat) (task : Task ι Q A) (e : Event Q A) (rest : Prog Q A Unit)
    (s : σ) : Pool ι σ Q A :=
  ⟨s, w.tasks.set k ⟨task.owner, task.past ++ [e], rest⟩⟩

def Answers (rules : Rules ι σ Q A) (w : Pool ι σ Q A) (i : ι) (q : Q) (a : A q)
    (w' : Pool ι σ Q A) : Prop :=
  ∃ k task next s, w.tasks[k]? = some task ∧ task.owner = i ∧ task.rest = .ask q next ∧
    rules.answers w.shared i q a s ∧ w' = w.resume k task ⟨q, a⟩ (next a) s

inductive Step (rules : Rules ι σ Q A) (w : Pool ι σ Q A) : Pool ι σ Q A → Prop
  | started {i : ι} {p : Prog Q A Unit} (h : rules.starts w.shared i p) : Step rules w (w.spawn i p)
  | answered {i : ι} {q : Q} {a : A q} {w' : Pool ι σ Q A} (h : Answers rules w i q a w') :
      Step rules w w'

abbrev Run (rules : Rules ι σ Q A) : Pool ι σ Q A → Pool ι σ Q A → Prop :=
  Relation.ReflTransGen (Step rules)

variable {rules : Rules ι σ Q A} {w w' : Pool ι σ Q A}

/-! ## Runs -/

theorem owners_of_answers {i : ι} {q : Q} {a : A q} (h : Answers rules w i q a w') :
    w'.tasks.map Task.owner = w.tasks.map Task.owner := by
  obtain ⟨k, task, next, s, htask, rfl, -, -, rfl⟩ := h
  obtain ⟨hlt, rfl⟩ := List.getElem?_eq_some_iff.mp htask
  simp only [resume, List.map_set]
  rw [← List.map_set, List.set_getElem_self]

theorem run_mono {rules' : Rules ι σ Q A}
    (hstarts : ∀ s i p, rules.starts s i p → rules'.starts s i p)
    (hanswers : ∀ s i q a s', rules.answers s i q a s' → rules'.answers s i q a s')
    (h : Run rules w w') : Run rules' w w' := by
  refine Relation.ReflTransGen.mono (fun w w' hstep => ?_) _ _ h
  cases hstep with
  | started hstart => exact .started (hstarts _ _ _ hstart)
  | answered hans =>
      obtain ⟨k, task, next, s, htask, howner, hrest, hq, hw'⟩ := hans
      exact .answered ⟨k, task, next, s, htask, howner, hrest, hanswers _ _ _ _ _ hq, hw'⟩

/-- What holds of the shared state in every pool of a run can be asked for at every answer. -/
theorem run_within {K : σ → Prop} (hK : ∀ w', Run rules w w' → K w'.shared) (h : Run rules w w') :
    Run ⟨rules.starts, fun s i q a s' => K s ∧ rules.answers s i q a s'⟩ w w' := by
  induction h with
  | refl => exact .refl
  | tail hrun hstep ih =>
      refine .tail ih ?_
      cases hstep with
      | started hstart => exact .started hstart
      | answered hanswers =>
          obtain ⟨k, task, next, s, htask, howner, hrest, hq, hw'⟩ := hanswers
          exact .answered ⟨k, task, next, s, htask, howner, hrest, ⟨hK _ hrun, hq⟩, hw'⟩

/-! ## Guarded tasks -/

structure Obeys (G : σ → ι → List (Event Q A) → Q → Prop) (E : σ → ι → Event Q A → Prop) (s : σ)
    (task : Task ι Q A) : Prop where
  guards : Guards (G s task.owner) task.past task.rest
  events : ∀ e ∈ task.past, E s task.owner e

structure Governed (I : σ → Prop) (G : σ → ι → List (Event Q A) → Q → Prop)
    (E : σ → ι → Event Q A → Prop) (w : Pool ι σ Q A) : Prop where
  shared : I w.shared
  tasks : ∀ task ∈ w.tasks, Obeys G E w.shared task

/-- What has to be shown of one start and one answer.  `R` is how far a step of one task can
move the shared state under another. -/
structure Disciplined (rules : Rules ι σ Q A) (I : σ → Prop) (R : σ → σ → Prop)
    (G : σ → ι → List (Event Q A) → Q → Prop) (E : σ → ι → Event Q A → Prop) : Prop where
  starts : ∀ s i p, I s → rules.starts s i p → Guards (G s i) [] p
  answers : ∀ s i past q a s', I s → (∀ e ∈ past, E s i e) → G s i past q →
    rules.answers s i q a s' → I s' ∧ R s s' ∧ E s' i ⟨q, a⟩
  guard_mono : ∀ s s' i past q, R s s' → G s i past q → G s' i past q
  event_mono : ∀ s s' i e, R s s' → E s i e → E s' i e

section Governed

variable {I : σ → Prop} {R : σ → σ → Prop} {G : σ → ι → List (Event Q A) → Q → Prop}
  {E : σ → ι → Event Q A → Prop}

theorem Obeys.mono (hrules : Disciplined rules I R G E) {s s' : σ} {task : Task ι Q A}
    (hR : R s s') (h : Obeys G E s task) : Obeys G E s' task where
  guards := h.guards.mono fun past q => hrules.guard_mono s s' task.owner past q hR
  events e he := hrules.event_mono s s' task.owner e hR (h.events e he)

theorem Governed.answer (hrules : Disciplined rules I R G E) (hw : Governed I G E w) {i : ι} {q : Q}
    {a : A q} (h : Answers rules w i q a w') :
    ∃ past, (∀ e ∈ past, E w.shared i e) ∧ G w.shared i past q ∧
      rules.answers w.shared i q a w'.shared ∧ R w.shared w'.shared ∧ Governed I G E w' := by
  obtain ⟨k, task, next, s, htask, rfl, hrest, hq, rfl⟩ := h
  have hobeys := hw.tasks task (List.mem_of_getElem? htask)
  have hguards := hobeys.guards
  rw [hrest] at hguards
  obtain ⟨hI, hR, hE⟩ := hrules.answers _ _ _ _ _ _ hw.shared hobeys.events hguards.1 hq
  refine ⟨task.past, hobeys.events, hguards.1, hq, hR, hI, fun other hother => ?_⟩
  obtain hold | rfl := List.mem_or_eq_of_mem_set hother
  · exact (hw.tasks other hold).mono hrules hR
  · constructor
    · exact (hguards.2 a).mono fun past q => hrules.guard_mono _ _ _ past q hR
    · intro e he
      obtain he | he := List.mem_append.mp he
      · exact hrules.event_mono _ _ _ e hR (hobeys.events e he)
      · exact List.mem_singleton.mp he ▸ hE

theorem Governed.step (hrules : Disciplined rules I R G E) (hw : Governed I G E w)
    (h : Step rules w w') : Governed I G E w' := by
  cases h with
  | @started i p hstart =>
      refine ⟨hw.shared, fun task htask => ?_⟩
      obtain hold | hnew := List.mem_append.mp htask
      · exact hw.tasks task hold
      · obtain rfl := List.mem_singleton.mp hnew
        exact ⟨hrules.starts _ _ _ hw.shared hstart, fun e he => absurd he List.not_mem_nil⟩
  | answered hans =>
      obtain ⟨past, -, -, -, -, hw'⟩ := hw.answer hrules hans
      exact hw'

theorem Governed.run (hrules : Disciplined rules I R G E) (hw : Governed I G E w)
    (h : Run rules w w') : Governed I G E w' := by
  induction h with
  | refl => exact hw
  | tail _ hstep ih => exact ih.step hrules hstep

theorem governed_of_idle {s : σ} (hs : I s) : Governed I G E (⟨s, []⟩ : Pool ι σ Q A) :=
  ⟨hs, fun _ htask => absurd htask List.not_mem_nil⟩

end Governed

/-! ## Runs that are written down -/

inductive Move (κ : Type)
  | start (k : κ)
  | answer (index : Nat)

section Scripts

variable {κ : Type} (program : κ → ι × Prog Q A Unit) (admits : σ → κ → Bool)
  (respond : ι → σ → (q : Q) → Option (A q × σ))

def move (w : Pool ι σ Q A) : Move κ → Option (Pool ι σ Q A)
  | .start k => if admits w.shared k then some (w.spawn (program k).1 (program k).2) else none
  | .answer index =>
      match w.tasks[index]? with
      | none => none
      | some task =>
          match task.rest with
          | .done _ => none
          | .ask q next =>
              match respond task.owner w.shared q with
              | none => none
              | some (a, s) => some (w.resume index task ⟨q, a⟩ (next a) s)

def script (w : Pool ι σ Q A) : List (Move κ) → Option (Pool ι σ Q A)
  | [] => some w
  | m :: ms =>
      match move program admits respond w m with
      | none => none
      | some w' => script w' ms

variable {program admits respond}

def lastEvent (w : Pool ι σ Q A) (index : Nat) : Option (ι × Event Q A) :=
  w.tasks[index]?.bind fun task => task.past.getLast?.map fun e => (task.owner, e)

theorem answers_of_move
    (hrespond : ∀ i s q a s', respond i s q = some (a, s') → rules.answers s i q a s') {index : Nat}
    (h : move program admits respond w (.answer index) = some w') :
    ∃ i e, w'.lastEvent index = some (i, e) ∧ Answers rules w i e.question e.answer w' := by
  simp only [move] at h
  split at h
  · cases h
  · rename_i task htask
    split at h
    · cases h
    · rename_i q next hrest
      split at h
      · cases h
      · rename_i a s hq
        obtain rfl := Option.some.inj h
        refine ⟨task.owner, ⟨q, a⟩, ?_, index, task, next, s, htask, rfl, hrest,
          hrespond _ _ _ _ _ hq, rfl⟩
        have hlt : index < w.tasks.length := (List.getElem?_eq_some_iff.mp htask).1
        simp [lastEvent, resume, List.getElem?_set_self hlt]

theorem step_of_move
    (hadmits : ∀ s k, admits s k = true → rules.starts s (program k).1 (program k).2)
    (hrespond : ∀ i s q a s', respond i s q = some (a, s') → rules.answers s i q a s') {m : Move κ}
    (h : move program admits respond w m = some w') : Step rules w w' := by
  cases m with
  | start k =>
      simp only [move] at h
      split at h
      · rename_i hadmit
        obtain rfl := Option.some.inj h
        exact .started (hadmits _ _ hadmit)
      · cases h
  | answer index =>
      obtain ⟨i, e, -, hanswers⟩ := answers_of_move hrespond h
      exact .answered hanswers

theorem move_of_script {ms : List (Move κ)}
    (h : script program admits respond w ms = some w') {t : Nat}
    {m : Move κ} (hm : ms[t]? = some m) :
    ∃ w₁ w₂, script program admits respond w (ms.take t) = some w₁ ∧
      move program admits respond w₁ m = some w₂ ∧
      script program admits respond w (ms.take (t + 1)) = some w₂ := by
  induction ms generalizing w t with
  | nil => cases hm
  | cons first ms ih =>
      rw [script] at h
      split at h
      · cases h
      · rename_i mid hmove
        cases t with
        | zero =>
            obtain rfl := Option.some.inj hm
            exact ⟨w, mid, rfl, hmove, by simp [script, hmove]⟩
        | succ t =>
            obtain ⟨w₁, w₂, hfirst, hstep, hsecond⟩ := ih h hm
            refine ⟨w₁, w₂, ?_, hstep, ?_⟩
            · simpa [script, hmove] using hfirst
            · simpa [script, hmove] using hsecond

theorem run_of_script
    (hadmits : ∀ s k, admits s k = true → rules.starts s (program k).1 (program k).2)
    (hrespond : ∀ i s q a s', respond i s q = some (a, s') → rules.answers s i q a s')
    {ms : List (Move κ)} (h : script program admits respond w ms = some w') : Run rules w w' := by
  induction ms generalizing w with
  | nil =>
      obtain rfl := Option.some.inj h
      exact .refl
  | cons m ms ih =>
      rw [script] at h
      split at h
      · cases h
      · rename_i mid hmove
        exact .head (step_of_move hadmits hrespond hmove) (ih h)

end Scripts

end Pool

theorem guards_detached {G : List (Event Q A) → Q → Prop} {past : List (Event Q A)}
    {p : Prog Q A α} (h : Guards G past p) : Guards G past (detached p) :=
  h.bind fun _ _ _ => trivial

end NexusAuth.Lib.Tasks
