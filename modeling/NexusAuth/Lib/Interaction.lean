import Mathlib

/-!
# Programs that ask their surroundings

A `Prog` is a finite tree of questions: it either is done with a value, or asks a
question and goes on with the answer.  Asynchronous code is such a program, with
one question for every point where it waits for something outside its control.

`play` runs a program against an oracle, which may look at everything that was
asked and answered before.  `Yields` is about the traces of a program under any
answers, `Executes` about its runs over a state that the questions read and change,
and `Asks` about the questions it can ask at all.  The last part is about programs
that can fail, in which an error ends the run.
-/

namespace NexusAuth.Lib.Interaction

/-- A program over the questions `Q`, where a question `q` is answered in `A q`. -/
inductive Prog (Q : Type) (A : Q → Type) (α : Type) : Type
  | done (value : α)
  | ask (question : Q) (next : A question → Prog Q A α)

structure Event (Q : Type) (A : Q → Type) where
  question : Q
  answer : A question

/-- What a question is answered with, given all events so far. -/
abbrev Oracle (Q : Type) (A : Q → Type) := List (Event Q A) → (q : Q) → A q

variable {Q : Type} {A : Q → Type} {α β ε ε' σ : Type}

namespace Prog

protected def bind : Prog Q A α → (α → Prog Q A β) → Prog Q A β
  | .done a, f => f a
  | .ask q next, f => .ask q fun answer => (next answer).bind f

instance instMonadProg : Monad (Prog Q A) where
  pure := .done
  bind := Prog.bind

@[simp] theorem pure_def (a : α) : (pure a : Prog Q A α) = .done a := rfl

@[simp] theorem done_bind (a : α) (f : α → Prog Q A β) : (.done a : Prog Q A α) >>= f = f a := rfl

@[simp] theorem ask_bind (q : Q) (next : A q → Prog Q A α) (f : α → Prog Q A β) :
    .ask q next >>= f = .ask q fun answer => next answer >>= f := rfl

instance instLawfulMonadProg : LawfulMonad (Prog Q A) := LawfulMonad.mk' _
  (fun p => by
    induction p with
    | done a => rfl
    | ask q next ih => exact congrArg (Prog.ask q) (funext ih))
  (fun _ _ => rfl)
  (fun p f g => by
    induction p with
    | done a => rfl
    | ask q next ih => exact congrArg (Prog.ask q) (funext ih))

end Prog

def request (q : Q) : Prog Q A (A q) := .ask q .done

def embed {Q' : Type} (f : Q' → Q) : Prog Q' (fun q => A (f q)) α → Prog Q A α
  | .done a => .done a
  | .ask q next => .ask (f q) fun answer => embed f (next answer)

/-! ## Runs -/

/-- All events after a run, the earlier ones first, and the value. -/
def play (env : Oracle Q A) : List (Event Q A) → Prog Q A α → List (Event Q A) × α
  | past, .done a => (past, a)
  | past, .ask q next => play env (past ++ [⟨q, env past q⟩]) (next (env past q))

variable {env : Oracle Q A} {past : List (Event Q A)}

theorem play_bind (p : Prog Q A α) (f : α → Prog Q A β) :
    play env past (p >>= f) = play env (play env past p).1 (f (play env past p).2) := by
  induction p generalizing past with
  | done a => rfl
  | ask q next ih => exact ih (env past q)

/-! ## Traces -/

/-- Asking and being answered `events`, the program can end with `value`. -/
def Yields : Prog Q A α → List (Event Q A) → α → Prop
  | .done a, events, value => events = [] ∧ value = a
  | .ask q next, events, value =>
      ∃ answer rest, events = ⟨q, answer⟩ :: rest ∧ Yields (next answer) rest value

@[simp] theorem yields_done {a value : α} {events : List (Event Q A)} :
    Yields (.done a) events value ↔ events = [] ∧ value = a := Iff.rfl

@[simp] theorem yields_ask {q : Q} {next : A q → Prog Q A α} {events : List (Event Q A)}
    {value : α} :
    Yields (.ask q next) events value ↔
      ∃ answer rest, events = ⟨q, answer⟩ :: rest ∧ Yields (next answer) rest value := Iff.rfl

@[simp] theorem yields_request_bind {q : Q} {next : A q → Prog Q A α}
    {events : List (Event Q A)} {value : α} :
    Yields (request q >>= next) events value ↔
      ∃ answer rest, events = ⟨q, answer⟩ :: rest ∧ Yields (next answer) rest value := Iff.rfl

theorem yields_bind {p : Prog Q A α} {f : α → Prog Q A β} {events : List (Event Q A)}
    {value : β} :
    Yields (p >>= f) events value ↔
      ∃ first second a, events = first ++ second ∧ Yields p first a ∧
        Yields (f a) second value := by
  induction p generalizing events with
  | done a =>
      constructor
      · exact fun h => ⟨[], events, a, rfl, ⟨rfl, rfl⟩, h⟩
      · rintro ⟨_, second, _, rfl, ⟨rfl, rfl⟩, h⟩
        exact h
  | ask q next ih =>
      constructor
      · rintro ⟨answer, rest, rfl, h⟩
        obtain ⟨first, second, a, rfl, hp, hf⟩ := (ih answer).mp h
        exact ⟨⟨q, answer⟩ :: first, second, a, rfl, ⟨answer, first, rfl, hp⟩, hf⟩
      · rintro ⟨_, second, a, rfl, ⟨answer, first, rfl, hp⟩, hf⟩
        exact ⟨answer, first ++ second, rfl, (ih answer).mpr ⟨first, second, a, rfl, hp, hf⟩⟩

def Answered (env : Oracle Q A) : List (Event Q A) → List (Event Q A) → Prop
  | _, [] => True
  | past, e :: events => e.answer = env past e.question ∧ Answered env (past ++ [e]) events

theorem answered_append {events events' : List (Event Q A)} :
    Answered env past (events ++ events') ↔
      Answered env past events ∧ Answered env (past ++ events) events' := by
  induction events generalizing past with
  | nil => simp [Answered]
  | cons e events ih =>
      simp only [List.cons_append, Answered, ih, List.append_assoc, List.nil_append, and_assoc]

theorem Answered.answer_eq {pre post : List (Event Q A)} {e : Event Q A}
    (h : Answered env past (pre ++ e :: post)) : e.answer = env (past ++ pre) e.question :=
  (answered_append.mp h).2.1

theorem play_yields (env : Oracle Q A) (past : List (Event Q A)) (p : Prog Q A α) :
    ∃ events, (play env past p).1 = past ++ events ∧ Yields p events (play env past p).2 ∧
      Answered env past events := by
  induction p generalizing past with
  | done a => exact ⟨[], (List.append_nil past).symm, ⟨rfl, rfl⟩, trivial⟩
  | ask q next ih =>
      obtain ⟨events, heq, hyields, hanswered⟩ := ih (env past q) (past ++ [⟨q, env past q⟩])
      exact ⟨⟨q, env past q⟩ :: events, heq.trans (List.append_assoc _ _ _),
        ⟨_, _, rfl, hyields⟩, rfl, hanswered⟩

/-- The run of a program from `past` comes to the point where it goes on as another one. -/
inductive Reaches (env : Oracle Q A) : List (Event Q A) → Prog Q A α → Prog Q A α → Prop
  | here (past : List (Event Q A)) (p : Prog Q A α) : Reaches env past p p
  | step {past : List (Event Q A)} {q : Q} {next : A q → Prog Q A α} {p' : Prog Q A α}
      (h : Reaches env (past ++ [⟨q, env past q⟩]) (next (env past q)) p') :
      Reaches env past (.ask q next) p'

theorem Reaches.bind {p : Prog Q A α} {f : α → Prog Q A β} {p' : Prog Q A β}
    (h : Reaches env (play env past p).1 (f (play env past p).2) p') :
    Reaches env past (p >>= f) p' := by
  induction p generalizing past with
  | done a => exact h
  | ask q next ih => exact .step (ih _ h)

theorem Reaches.question_mem {p : Prog Q A α} {q : Q} {next : A q → Prog Q A α}
    (h : Reaches env past p (.ask q next)) : ∃ answer, ⟨q, answer⟩ ∈ (play env past p).1 := by
  generalize hp : Prog.ask q next = p' at h
  induction h with
  | here past p =>
      subst hp
      obtain ⟨events, hevents, -⟩ :=
        play_yields env (past ++ [⟨q, env past q⟩]) (next (env past q))
      refine ⟨env past q, ?_⟩
      change _ ∈ (play env (past ++ [⟨q, env past q⟩]) (next (env past q))).1
      rw [hevents]
      simp
  | step _ ih => exact ih hp

/-! ## Runs over a state -/

/-- From `s` the program can end in `s'` with `value`, where `answers s q a s'` says that
`q` can be answered with `a` in `s` and that this leaves `s'`. -/
def Executes (answers : σ → (q : Q) → A q → σ → Prop) : Prog Q A α → σ → σ → α → Prop
  | .done a, s, s', value => s' = s ∧ value = a
  | .ask q next, s, s', value =>
      ∃ answer mid, answers s q answer mid ∧ Executes answers (next answer) mid s' value

variable {answers answers' : σ → (q : Q) → A q → σ → Prop} {s s' : σ}

@[simp] theorem executes_done {a value : α} :
    Executes answers (.done a) s s' value ↔ s' = s ∧ value = a := Iff.rfl

theorem executes_request {q : Q} {answer : A q} :
    Executes answers (request q) s s' answer ↔ answers s q answer s' := by
  constructor
  · rintro ⟨_, _, h, rfl, rfl⟩
    exact h
  · exact fun h => ⟨answer, s', h, rfl, rfl⟩

@[simp] theorem executes_request_bind {q : Q} {next : A q → Prog Q A α} {value : α} :
    Executes answers (request q >>= next) s s' value ↔
      ∃ answer mid, answers s q answer mid ∧ Executes answers (next answer) mid s' value := Iff.rfl

theorem executes_bind {p : Prog Q A α} {f : α → Prog Q A β} {value : β} :
    Executes answers (p >>= f) s s' value ↔
      ∃ mid a, Executes answers p s mid a ∧ Executes answers (f a) mid s' value := by
  induction p generalizing s with
  | done a =>
      constructor
      · exact fun h => ⟨s, a, ⟨rfl, rfl⟩, h⟩
      · rintro ⟨_, _, ⟨rfl, rfl⟩, h⟩
        exact h
  | ask q next ih =>
      constructor
      · rintro ⟨answer, mid, hans, h⟩
        obtain ⟨mid', a, hp, hf⟩ := (ih answer).mp h
        exact ⟨mid', a, ⟨answer, mid, hans, hp⟩, hf⟩
      · rintro ⟨mid', a, ⟨answer, mid, hans, hp⟩, hf⟩
        exact ⟨answer, mid, hans, (ih answer).mpr ⟨mid', a, hp, hf⟩⟩

theorem Executes.mono {p : Prog Q A α} {value : α} (h : Executes answers p s s' value)
    (hans : ∀ s q a s', answers s q a s' → answers' s q a s') : Executes answers' p s s' value := by
  induction p generalizing s with
  | done a => exact h
  | ask q next ih =>
      obtain ⟨answer, mid, hq, hnext⟩ := h
      exact ⟨answer, mid, hans _ _ _ _ hq, ih answer hnext⟩

/-- A run over one state is a run over every view of it that the answers respect. -/
theorem Executes.project {τ : Type} {view : σ → τ} {answers' : τ → (q : Q) → A q → τ → Prop}
    {p : Prog Q A α} {value : α} (h : Executes answers p s s' value)
    (hans : ∀ s q a s', answers s q a s' → answers' (view s) q a (view s')) :
    Executes answers' p (view s) (view s') value := by
  induction p generalizing s with
  | done a =>
      obtain ⟨rfl, rfl⟩ := h
      exact ⟨rfl, rfl⟩
  | ask q next ih =>
      obtain ⟨answer, mid, hq, hnext⟩ := h
      exact ⟨answer, view mid, hans _ _ _ _ hq, ih answer hnext⟩

theorem Executes.invariant {I : σ → Prop} {p : Prog Q A α} {value : α}
    (h : Executes answers p s s' value) (hI : ∀ s q a s', I s → answers s q a s' → I s')
    (hs : I s) : I s' := by
  induction p generalizing s with
  | done a =>
      obtain ⟨rfl, _⟩ := h
      exact hs
  | ask q next ih =>
      obtain ⟨answer, mid, hq, hnext⟩ := h
      exact ih answer hnext (hI _ _ _ _ hs hq)

def perform (respond : σ → (q : Q) → A q × σ) : Prog Q A α → σ → σ × α
  | .done a, s => (s, a)
  | .ask q next, s => perform respond (next (respond s q).1) (respond s q).2

theorem executes_perform {respond : σ → (q : Q) → A q × σ}
    (h : ∀ s q, answers s q (respond s q).1 (respond s q).2) (p : Prog Q A α) (s : σ) :
    Executes answers p s (perform respond p s).1 (perform respond p s).2 := by
  induction p generalizing s with
  | done a => exact ⟨rfl, rfl⟩
  | ask q next ih => exact ⟨_, _, h s q, ih _ _⟩

theorem perform_request_bind (respond : σ → (q : Q) → A q × σ) {q : Q} {f : A q → Prog Q A α}
    {s : σ} :
    perform respond (request q >>= f) s = perform respond (f (respond s q).1) (respond s q).2 := rfl

theorem perform_bind (respond : σ → (q : Q) → A q × σ) (p : Prog Q A α) (f : α → Prog Q A β)
    (s : σ) :
    perform respond (p >>= f) s =
      perform respond (f (perform respond p s).2) (perform respond p s).1 := by
  induction p generalizing s with
  | done a => rfl
  | ask q next ih => exact ih _ _

def Asks (P : Q → Prop) : Prog Q A α → Prop
  | .done _ => True
  | .ask q next => P q ∧ ∀ answer, Asks P (next answer)

@[simp] theorem asks_done {P : Q → Prop} {a : α} : Asks P (.done a : Prog Q A α) := trivial

@[simp] theorem asks_request_bind {P : Q → Prop} {q : Q} {next : A q → Prog Q A α} :
    Asks P (request q >>= next) ↔ P q ∧ ∀ answer, Asks P (next answer) := Iff.rfl

theorem Asks.bind {P : Q → Prop} {p : Prog Q A α} {f : α → Prog Q A β} (hp : Asks P p)
    (hf : ∀ a, Asks P (f a)) : Asks P (p >>= f) := by
  induction p with
  | done a => exact hf a
  | ask q next ih => exact ⟨hp.1, fun answer => ih answer (hp.2 answer)⟩

theorem Asks.mono {P P' : Q → Prop} {p : Prog Q A α} (hp : Asks P p) (h : ∀ q, P q → P' q) :
    Asks P' p := by
  induction p with
  | done a => trivial
  | ask q next ih => exact ⟨h q hp.1, fun answer => ih answer (hp.2 answer)⟩

theorem Asks.reaches {P : Q → Prop} {p p' : Prog Q A α} (h : Reaches env past p p')
    (hp : Asks P p) : Asks P p' := by
  induction h with
  | here => exact hp
  | step _ ih => exact ih (hp.2 _)

theorem Asks.question {P : Q → Prop} {p : Prog Q A α} {events : List (Event Q A)} {value : α}
    (hp : Asks P p) (h : Yields p events value) : ∀ e ∈ events, P e.question := by
  induction p generalizing events with
  | done a =>
      obtain ⟨rfl, _⟩ := h
      exact fun e he => absurd he List.not_mem_nil
  | ask q next ih =>
      obtain ⟨answer, rest, rfl, hrest⟩ := h
      intro e he
      obtain rfl | he := List.mem_cons.mp he
      · exact hp.1
      · exact ih answer (hp.2 answer) hrest e he

theorem Executes.eq_of_asks {P : Q → Prop} {p : Prog Q A α} {value : α}
    (h : Executes answers p s s' value) (hp : Asks P p)
    (hP : ∀ s q a s', P q → answers s q a s' → s' = s) : s' = s := by
  induction p generalizing s with
  | done a => exact h.1
  | ask q next ih =>
      obtain ⟨answer, mid, hq, hnext⟩ := h
      obtain rfl := hP _ _ _ _ hp.1 hq
      exact ih answer hnext (hp.2 answer)

/-! ## Questions that depend on the history -/

/-- Every question satisfies `G` together with the events before it. -/
def Guards (G : List (Event Q A) → Q → Prop) : List (Event Q A) → Prog Q A α → Prop
  | _, .done _ => True
  | past, .ask q next => G past q ∧ ∀ answer, Guards G (past ++ [⟨q, answer⟩]) (next answer)

section Guards

variable {G : List (Event Q A) → Q → Prop} {p : Prog Q A α}

theorem guards_request_bind {q : Q} {f : A q → Prog Q A α} :
    Guards G past (request q >>= f) ↔
      G past q ∧ ∀ answer, Guards G (past ++ [⟨q, answer⟩]) (f answer) := Iff.rfl

theorem Guards.bind {f : α → Prog Q A β} (hp : Guards G past p)
    (hf : ∀ events a, Yields p events a → Guards G (past ++ events) (f a)) :
    Guards G past (p >>= f) := by
  induction p generalizing past with
  | done a => simpa using hf [] a ⟨rfl, rfl⟩
  | ask q next ih =>
      refine ⟨hp.1, fun answer => ih answer (hp.2 answer) fun events a h => ?_⟩
      simpa using hf (⟨q, answer⟩ :: events) a ⟨answer, events, rfl, h⟩

theorem Guards.mono {G' : List (Event Q A) → Q → Prop} (hp : Guards G past p)
    (h : ∀ past q, G past q → G' past q) : Guards G' past p := by
  induction p generalizing past with
  | done a => trivial
  | ask q next ih => exact ⟨h _ _ hp.1, fun answer => ih answer (hp.2 answer)⟩

theorem Asks.guards {P : Q → Prop} (hp : Asks P p) (hG : ∀ past q, P q → G past q) :
    Guards G past p := by
  induction p generalizing past with
  | done a => trivial
  | ask q next ih => exact ⟨hG _ _ hp.1, fun answer => ih answer (hp.2 answer)⟩

theorem Guards.of_forall (hG : ∀ events q, G (past ++ events) q) : Guards G past p := by
  induction p generalizing past with
  | done a => trivial
  | ask q next ih =>
      refine ⟨by simpa using hG [] q, fun answer => ih answer fun events q' => ?_⟩
      simpa using hG (⟨q, answer⟩ :: events) q'

theorem Guards.question {pre post : List (Event Q A)} {e : Event Q A} {value : α}
    (hp : Guards G past p) (h : Yields p (pre ++ e :: post) value) :
    G (past ++ pre) e.question := by
  induction p generalizing past pre with
  | done a => exact absurd h.1 (by simp)
  | ask q next ih =>
      obtain ⟨answer, rest, heq, hrest⟩ := h
      cases pre with
      | nil =>
          obtain ⟨rfl, rfl⟩ := List.cons.inj heq
          simpa using hp.1
      | cons e' pre =>
          obtain ⟨rfl, rfl⟩ := List.cons.inj heq
          simpa using ih answer (hp.2 answer) hrest

end Guards

/-! ## Programs that can fail -/

def query (q : Q) : ExceptT ε (Prog Q A) (A q) := ExceptT.lift (request q)

def fallible (result : Except ε α) : ExceptT ε (Prog Q A) α := ExceptT.mk (.done result)

def attempt (f : ε' → ε) (p : Prog Q A (Except ε' α)) : ExceptT ε (Prog Q A) α :=
  ExceptT.mk (p >>= fun result => .done (result.mapError f))

section Fallible

variable {P : Q → Prop} {p : ExceptT ε (Prog Q A) α} {f : α → ExceptT ε (Prog Q A) β}
  {events : List (Event Q A)} {value : Except ε β} {r : Except ε α}

theorem run_bindExcept : (p >>= f).run = p.run >>= fun
    | .ok a => (f a).run
    | .error e => .done (.error e) := by
  rw [ExceptT.run_bind]
  congr 1
  funext result
  cases result <;> rfl

theorem yields_query_bind {q : Q} {f : A q → ExceptT ε (Prog Q A) β} :
    Yields (query q >>= f).run events value ↔
      ∃ answer rest, events = ⟨q, answer⟩ :: rest ∧ Yields (f answer).run rest value := Iff.rfl

theorem yields_fallible_bind :
    Yields (fallible r >>= f).run events value ↔
      (∃ e, r = .error e ∧ events = [] ∧ value = .error e) ∨
        ∃ a, r = .ok a ∧ Yields (f a).run events value := by
  cases r with
  | error e =>
      simp only [Except.error.injEq, exists_eq_left', reduceCtorEq, false_and,
        exists_false, or_false]
      exact Iff.rfl
  | ok a =>
      simp only [Except.ok.injEq, exists_eq_left', reduceCtorEq, false_and, exists_false, false_or]
      exact Iff.rfl

theorem Asks.bindExcept (hp : Asks P p.run) (hf : ∀ a, Asks P (f a).run) :
    Asks P (p >>= f).run := by
  rw [run_bindExcept]
  apply hp.bind
  intro result
  cases result with
  | error e => trivial
  | ok a => exact hf a

@[simp] theorem asks_query {q : Q} : Asks P (query q : ExceptT ε (Prog Q A) (A q)).run ↔ P q :=
  ⟨fun h => h.1, fun h => ⟨h, fun _ => trivial⟩⟩

@[simp] theorem asks_query_bind {q : Q} {f : A q → ExceptT ε (Prog Q A) β} :
    Asks P (query q >>= f).run ↔ P q ∧ ∀ answer, Asks P (f answer).run := Iff.rfl

@[simp] theorem asks_fallible : Asks P (fallible r : ExceptT ε (Prog Q A) α).run := trivial

@[simp] theorem asks_fallible_bind :
    Asks P (fallible r >>= f).run ↔ ∀ a, r = .ok a → Asks P (f a).run := by
  cases r with
  | error e => exact iff_of_true trivial fun a h => by cases h
  | ok a => exact ⟨fun h b hb => Except.ok.inj hb ▸ h, fun h => h a rfl⟩

@[simp] theorem asks_pureExcept {a : α} : Asks P (pure a : ExceptT ε (Prog Q A) α).run := trivial

theorem Asks.attempt {g : ε' → ε} {p : Prog Q A (Except ε' α)} (hp : Asks P p) :
    Asks P (attempt g p).run :=
  hp.bind fun _ => trivial

theorem asks_attempt_bind {g : ε' → ε} {p : Prog Q A (Except ε' α)} (hp : Asks P p)
    (hf : ∀ a, Asks P (f a).run) : Asks P (attempt g p >>= f).run :=
  hp.attempt.bindExcept hf

theorem Asks.lift {p : Prog Q A α} (hp : Asks P p) :
    Asks P (ExceptT.lift p : ExceptT ε (Prog Q A) α).run :=
  hp.bind fun _ => trivial

section Guards

variable {G : List (Event Q A) → Q → Prop}

theorem Guards.bindExcept (hp : Guards G past p.run)
    (hf : ∀ events a, Yields p.run events (.ok a) → Guards G (past ++ events) (f a).run) :
    Guards G past (p >>= f).run := by
  rw [run_bindExcept]
  refine hp.bind fun events result h => ?_
  cases result with
  | error e => trivial
  | ok a => exact hf events a h

theorem guards_query_bind {q : Q} {f : A q → ExceptT ε (Prog Q A) β} :
    Guards G past (query q >>= f).run ↔
      G past q ∧ ∀ answer, Guards G (past ++ [⟨q, answer⟩]) (f answer).run := Iff.rfl

theorem guards_fallible_bind :
    Guards G past (fallible r >>= f).run ↔ ∀ a, r = .ok a → Guards G past (f a).run := by
  cases r with
  | error e => exact iff_of_true trivial fun a h => by cases h
  | ok a => exact ⟨fun h b hb => Except.ok.inj hb ▸ h, fun h => h a rfl⟩

theorem yields_lift {p : Prog Q A α} {a : α} :
    Yields (ExceptT.lift p : ExceptT ε (Prog Q A) α).run events (.ok a) ↔ Yields p events a := by
  change Yields (p >>= fun a => .done (.ok a : Except ε α)) events (.ok a) ↔ _
  rw [yields_bind]
  constructor
  · rintro ⟨first, second, b, rfl, hp, rfl, hvalue⟩
    obtain rfl := Except.ok.inj hvalue
    simpa using hp
  · exact fun hp => ⟨events, [], a, by simp, hp, rfl, rfl⟩

theorem yields_attempt {g : ε' → ε} {p : Prog Q A (Except ε' α)} {a : α} :
    Yields (attempt g p).run events (.ok a) ↔ Yields p events (.ok a) := by
  change Yields (p >>= fun result => .done (result.mapError g)) events (.ok a) ↔ _
  rw [yields_bind]
  constructor
  · rintro ⟨first, second, result, rfl, hp, rfl, hvalue⟩
    cases result with
    | error e => cases hvalue
    | ok b =>
        obtain rfl := Except.ok.inj hvalue
        simpa using hp
  · exact fun hp => ⟨events, [], .ok a, by simp, hp, rfl, rfl⟩

end Guards

theorem play_lift {p : Prog Q A α} :
    play env past (ExceptT.lift p : ExceptT ε (Prog Q A) α).run =
      ((play env past p).1, .ok (play env past p).2) :=
  play_bind p _

theorem play_attempt {g : ε' → ε} {p : Prog Q A (Except ε' α)} :
    play env past (attempt g p).run = ((play env past p).1, (play env past p).2.mapError g) :=
  play_bind p _

theorem fallible_ok_bind {a : α} : fallible (.ok a) >>= f = f a := rfl

theorem play_query_bind {q : Q} {f : A q → ExceptT ε (Prog Q A) β} :
    play env past (query q >>= f).run =
      play env (past ++ [⟨q, env past q⟩]) (f (env past q)).run := rfl

theorem play_bindExcept :
    play env past (p >>= f).run =
      match (play env past p.run).2 with
      | .ok a => play env (play env past p.run).1 (f a).run
      | .error e => ((play env past p.run).1, .error e) := by
  rw [run_bindExcept, play_bind]
  cases (play env past p.run).2 <;> rfl

theorem play_bindExcept_of_ok {past' : List (Event Q A)} {a : α}
    (hp : play env past p.run = (past', .ok a)) :
    play env past (p >>= f).run = play env past' (f a).run := by
  rw [play_bindExcept, hp]

theorem relates_bindExcept
    {R : List (Event Q A) × Except ε β → List (Event Q A) × Except ε β → Prop}
    {f' : α → ExceptT ε (Prog Q A) β} (hrefl : ∀ out, R out out)
    (h : ∀ past' a, play env past p.run = (past', .ok a) →
      R (play env past' (f a).run) (play env past' (f' a).run)) :
    R (play env past (p >>= f).run) (play env past (p >>= f').run) := by
  rw [play_bindExcept, play_bindExcept]
  cases hplay : (play env past p.run).2 with
  | error e => exact hrefl _
  | ok a => exact h _ a (Prod.ext rfl hplay)

theorem Reaches.query_bind {q : Q} {f : A q → ExceptT ε (Prog Q A) β}
    {p' : Prog Q A (Except ε β)}
    (h : Reaches env (past ++ [⟨q, env past q⟩]) (f (env past q)).run p') :
    Reaches env past (query q >>= f).run p' := .step h

theorem Reaches.bindExcept {past' : List (Event Q A)} {a : α} {p' : Prog Q A (Except ε β)}
    (hp : play env past p.run = (past', .ok a)) (h : Reaches env past' (f a).run p') :
    Reaches env past (p >>= f).run p' := by
  rw [run_bindExcept]
  apply Reaches.bind
  rw [hp]
  exact h

theorem executes_bindExcept :
    Executes answers (p >>= f).run s s' value ↔
      (∃ e, Executes answers p.run s s' (.error e) ∧ value = .error e) ∨
        ∃ mid a, Executes answers p.run s mid (.ok a) ∧
          Executes answers (f a).run mid s' value := by
  rw [run_bindExcept, executes_bind]
  constructor
  · rintro ⟨mid, result, hp, hf⟩
    cases result with
    | error e =>
        obtain ⟨rfl, rfl⟩ := hf
        exact .inl ⟨e, hp, rfl⟩
    | ok a => exact .inr ⟨mid, a, hp, hf⟩
  · rintro (⟨e, hp, rfl⟩ | ⟨mid, a, hp, hf⟩)
    · exact ⟨s', .error e, hp, rfl, rfl⟩
    · exact ⟨mid, .ok a, hp, hf⟩

theorem executes_query_bind {q : Q} {f : A q → ExceptT ε (Prog Q A) β} :
    Executes answers (query q >>= f).run s s' value ↔
      ∃ answer mid, answers s q answer mid ∧ Executes answers (f answer).run mid s' value := Iff.rfl

theorem executes_fallible_bind :
    Executes answers (fallible r >>= f).run s s' value ↔
      (∃ e, r = .error e ∧ s' = s ∧ value = .error e) ∨
        ∃ a, r = .ok a ∧ Executes answers (f a).run s s' value := by
  cases r with
  | error e =>
      simp only [Except.error.injEq, exists_eq_left', reduceCtorEq, false_and,
        exists_false, or_false]
      exact Iff.rfl
  | ok a =>
      simp only [Except.ok.injEq, exists_eq_left', reduceCtorEq, false_and, exists_false, false_or]
      exact Iff.rfl

theorem executes_attempt {g : ε' → ε} {p : Prog Q A (Except ε' α)} {result : Except ε α} :
    Executes answers (attempt g p).run s s' result ↔
      ∃ r, Executes answers p s s' r ∧ result = r.mapError g := by
  change Executes answers (p >>= fun r => .done (r.mapError g)) s s' result ↔ _
  rw [executes_bind]
  constructor
  · rintro ⟨mid, r, hp, rfl, rfl⟩
    exact ⟨r, hp, rfl⟩
  · rintro ⟨r, hp, rfl⟩
    exact ⟨s', r, hp, rfl, rfl⟩

theorem executes_attempt_bind {g : ε' → ε} {p : Prog Q A (Except ε' α)} :
    Executes answers (attempt g p >>= f).run s s' value ↔
      (∃ e, Executes answers p s s' (.error e) ∧ value = .error (g e)) ∨
        ∃ mid a, Executes answers p s mid (.ok a) ∧
          Executes answers (f a).run mid s' value := by
  rw [executes_bindExcept]
  constructor
  · rintro (⟨e, hp, rfl⟩ | ⟨mid, a, hp, hf⟩)
    · obtain ⟨r, hr, herror⟩ := executes_attempt.mp hp
      cases r with
      | ok a => cases herror
      | error e' =>
          cases herror
          exact .inl ⟨e', hr, rfl⟩
    · obtain ⟨r, hr, hok⟩ := executes_attempt.mp hp
      cases r with
      | ok a' =>
          cases hok
          exact .inr ⟨mid, a, hr, hf⟩
      | error e' => cases hok
  · rintro (⟨e, hp, rfl⟩ | ⟨mid, a, hp, hf⟩)
    · exact .inl ⟨g e, executes_attempt.mpr ⟨_, hp, rfl⟩, rfl⟩
    · exact .inr ⟨mid, a, executes_attempt.mpr ⟨_, hp, rfl⟩, hf⟩

end Fallible

end NexusAuth.Lib.Interaction
