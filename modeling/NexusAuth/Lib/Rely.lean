import NexusAuth.Lib.Tasks

/-!
# Rely and guarantee

Programs that share a state with locks in it.  Every owner promises what its answers do to the
state (`may`), and relies on no more than the promises of the others: what a program knows at
one of its points has to be stable under their steps.

`Triple` proves a program from one such point to its end.  The rules follow the program, and
`Proved.run` puts the proofs of all programs of a pool together, for every interleaving.
-/

namespace NexusAuth.Lib.Rely

open NexusAuth.Lib.Interaction NexusAuth.Lib.Tasks

/-- How questions are answered, what always holds, and what a step of an owner may do. -/
structure Protocol (ι σ Q : Type) (A : Q → Type) where
  answers : σ → ι → (q : Q) → A q → σ → Prop
  inv : σ → Prop
  may : ι → σ → σ → Prop

variable {ι σ Q : Type} {A : Q → Type} {α β : Type}

namespace Protocol

variable (proto : Protocol ι σ Q A)

/-- No program is started later: one that comes late is one that has to wait. -/
def rules : Rules ι σ Q A := ⟨fun _ _ _ => False, proto.answers⟩

def Stable (i : ι) (P : σ → Prop) : Prop :=
  ∀ j s s', j ≠ i → proto.inv s → P s → proto.may j s s' → P s'

/-- From `P`, whatever the answers, the program keeps its promises and ends with `R`. -/
def Triple (i : ι) : (σ → Prop) → Prog Q A α → (α → σ → Prop) → Prop
  | P, .done a, R => ∀ s, proto.inv s → P s → R a s
  | P, .ask q next, R => ∀ a, ∃ P', proto.Stable i P' ∧
      (∀ s s', proto.inv s → P s → proto.answers s i q a s' →
        proto.inv s' ∧ proto.may i s s' ∧ P' s') ∧ Triple i P' (next a) R

end Protocol

variable {proto : Protocol ι σ Q A} {i : ι}

/-! ## Stable assertions -/

theorem stable_const {p : Prop} : proto.Stable i fun _ => p := fun _ _ _ _ _ h _ => h

theorem Protocol.Stable.and {P R : σ → Prop} (hP : proto.Stable i P) (hR : proto.Stable i R) :
    proto.Stable i fun s => P s ∧ R s :=
  fun j s s' hj hs h hmay => ⟨hP j s s' hj hs h.1 hmay, hR j s s' hj hs h.2 hmay⟩

theorem stable_imp {p : Prop} {P : σ → Prop} (hP : proto.Stable i P) :
    proto.Stable i fun s => p → P s :=
  fun j s s' hj hs h hmay hp => hP j s s' hj hs (h hp) hmay

/-! ## The rules -/

theorem triple_done {P : σ → Prop} {a : α} {R : α → σ → Prop} (h : ∀ s, proto.inv s → P s → R a s) :
    proto.Triple i P (.done a) R := h

theorem Protocol.Triple.mono {P P' : σ → Prop} {p : Prog Q A α} {R R' : α → σ → Prop}
    (h : proto.Triple i P p R) (hpre : ∀ s, proto.inv s → P' s → P s)
    (hpost : ∀ a s, proto.inv s → R a s → R' a s) : proto.Triple i P' p R' := by
  induction p generalizing P P' with
  | done a => exact fun s hs hP => hpost a s hs (h s hs (hpre s hs hP))
  | ask q next ih =>
      intro a
      obtain ⟨M, hM, hstep, hnext⟩ := h a
      exact ⟨M, hM, fun s s' hs hP => hstep s s' hs (hpre s hs hP), ih a hnext fun _ _ => id⟩

theorem triple_false {p : Prog Q A α} {R : α → σ → Prop} : proto.Triple i (fun _ => False) p R := by
  induction p with
  | done a => exact fun _ _ h => h.elim
  | ask q next ih => exact fun a => ⟨fun _ => False, stable_const, fun _ _ _ h => h.elim, ih a⟩

theorem triple_assume {P : σ → Prop} {p : Prog Q A α} {R : α → σ → Prop} {h : Prop}
    (hP : ∀ s, proto.inv s → P s → h) (hp : h → proto.Triple i P p R) : proto.Triple i P p R := by
  by_cases hh : h
  · exact hp hh
  · exact triple_false.mono (fun s hs hPs => hh (hP s hs hPs)) fun _ _ _ => id

theorem Protocol.Triple.bind {P : σ → Prop} {p : Prog Q A α} {f : α → Prog Q A β}
    {M : α → σ → Prop} {R : β → σ → Prop} (h : proto.Triple i P p M)
    (hf : ∀ a, proto.Triple i (M a) (f a) R) : proto.Triple i P (p >>= f) R := by
  induction p generalizing P with
  | done a => exact (hf a).mono h fun _ _ _ => id
  | ask q next ih =>
      intro a
      obtain ⟨P', hP', hstep, hnext⟩ := h a
      exact ⟨P', hP', hstep, ih a hnext⟩

theorem triple_request {P : σ → Prop} {q : Q} {R : A q → σ → Prop}
    (hstable : ∀ a, proto.Stable i (R a))
    (hstep : ∀ a s s', proto.inv s → P s → proto.answers s i q a s' →
      proto.inv s' ∧ proto.may i s s' ∧ R a s') : proto.Triple i P (request q) R :=
  fun a => ⟨R a, hstable a, hstep a, fun _ _ => id⟩

theorem triple_request_bind {P : σ → Prop} {q : Q} {f : A q → Prog Q A β} {R : β → σ → Prop}
    (M : A q → σ → Prop) (hstable : ∀ a, proto.Stable i (M a))
    (hstep : ∀ a s s', proto.inv s → P s → proto.answers s i q a s' →
      proto.inv s' ∧ proto.may i s s' ∧ M a s')
    (hnext : ∀ a, proto.Triple i (M a) (f a) R) : proto.Triple i P (request q >>= f) R :=
  (triple_request hstable hstep).bind hnext

theorem triple_kept_bind {P : σ → Prop} {q : Q} {f : A q → Prog Q A β} {R : β → σ → Prop}
    (hstable : proto.Stable i P)
    (hstep : ∀ a s s', proto.inv s → P s → proto.answers s i q a s' →
      proto.inv s' ∧ proto.may i s s' ∧ P s')
    (hnext : ∀ a, proto.Triple i P (f a) R) : proto.Triple i P (request q >>= f) R :=
  triple_request_bind (fun _ => P) (fun _ => hstable) hstep hnext

theorem triple_of_asks {P : σ → Prop} {p : Prog Q A α} {C : Q → Prop} (hstable : proto.Stable i P)
    (hstep : ∀ q a s s', C q → proto.inv s → P s → proto.answers s i q a s' →
      proto.inv s' ∧ proto.may i s s' ∧ P s') (h : Asks C p) :
    proto.Triple i P p fun _ => P := by
  induction p with
  | done a => exact fun _ _ => id
  | ask q next ih => exact fun a => ⟨P, hstable, fun s s' => hstep q a s s' h.1, ih a (h.2 a)⟩

/-! ## Programs that can fail -/

section Fallible

variable {ε ε' : Type} {P K : σ → Prop}

def Settled (M : α → σ → Prop) (K : σ → Prop) : Except ε α → σ → Prop
  | .ok a => M a
  | .error _ => K

theorem stable_settled {M : α → σ → Prop} (hM : ∀ a, proto.Stable i (M a)) (hK : proto.Stable i K)
    (r : Except ε α) : proto.Stable i (Settled M K r) := by
  cases r with
  | ok a => exact hM a
  | error e => exact hK

theorem triple_bindExcept {p : ExceptT ε (Prog Q A) α} {f : α → ExceptT ε (Prog Q A) β}
    {M : α → σ → Prop} (hp : proto.Triple i P p.run (Settled M K))
    (hf : ∀ a, proto.Triple i (M a) (f a).run fun _ => K) :
    proto.Triple i P (p >>= f).run fun _ => K := by
  rw [run_bindExcept]
  refine hp.bind fun result => ?_
  cases result with
  | error e => exact triple_done fun _ _ => id
  | ok a => exact hf a

theorem triple_fallible_bind {r : Except ε α} {f : α → ExceptT ε (Prog Q A) β}
    (hP : ∀ s, proto.inv s → P s → K s)
    (hf : ∀ a, r = .ok a → proto.Triple i P (f a).run fun _ => K) :
    proto.Triple i P (fallible r >>= f).run fun _ => K := by
  cases r with
  | error e => exact triple_done hP
  | ok a => exact hf a rfl

theorem triple_attempt_bind {g : ε' → ε} {p : Prog Q A (Except ε' α)}
    {f : α → ExceptT ε (Prog Q A) β} {M : α → σ → Prop} (hp : proto.Triple i P p (Settled M K))
    (hf : ∀ a, proto.Triple i (M a) (f a).run fun _ => K) :
    proto.Triple i P (attempt g p >>= f).run fun _ => K := by
  refine triple_bindExcept (hp.bind fun result => ?_) hf
  cases result <;> exact triple_done fun _ _ => id

end Fallible

/-! ## Programs over fewer questions -/

section Embed

variable {Q' : Type}

def Protocol.comap (proto : Protocol ι σ Q A) (f : Q' → Q) : Protocol ι σ Q' fun q => A (f q) where
  answers s i q a s' := proto.answers s i (f q) a s'
  inv := proto.inv
  may := proto.may

theorem triple_embed {f : Q' → Q} {P : σ → Prop} {p : Prog Q' (fun q => A (f q)) α}
    {R : α → σ → Prop} (h : (proto.comap f).Triple i P p R) : proto.Triple i P (embed f p) R := by
  induction p generalizing P with
  | done a => exact h
  | ask q next ih =>
      intro a
      obtain ⟨M, hM, hstep, hnext⟩ := h a
      exact ⟨M, hM, hstep, ih a hnext⟩

end Embed

/-! ## Pools -/

/-- What is known of a pool: every task is at some point of its proof. -/
structure Proved (proto : Protocol ι σ Q A) (post : ι → σ → Prop) (w : Pool ι σ Q A) : Prop where
  inv : proto.inv w.shared
  distinct : (w.tasks.map Task.owner).Nodup
  tasks : ∀ task ∈ w.tasks, ∃ P, proto.Stable task.owner P ∧ P w.shared ∧
    proto.Triple task.owner P task.rest fun _ => post task.owner

variable {post : ι → σ → Prop} {w w' : Pool ι σ Q A}

theorem owner_ne {tasks : List (Task ι Q A)} (h : (tasks.map Task.owner).Nodup) {j k : Nat}
    {task other : Task ι Q A} (hj : tasks[j]? = some task) (hk : tasks[k]? = some other)
    (hne : k ≠ j) : task.owner ≠ other.owner := by
  intro howner
  have hlt : j < (tasks.map Task.owner).length := by
    rw [List.length_map]
    exact (List.getElem?_eq_some_iff.mp hj).1
  have heq : (tasks.map Task.owner)[j]? = (tasks.map Task.owner)[k]? := by
    rw [List.getElem?_map, List.getElem?_map, hj, hk, Option.map_some, Option.map_some, howner]
  exact hne ((List.getElem?_inj hlt h).mp heq).symm

theorem Proved.step (hw : Proved proto post w) (h : Pool.Step proto.rules w w') :
    (∃ i, proto.may i w.shared w'.shared) ∧ Proved proto post w' := by
  cases h with
  | started hstart => exact hstart.elim
  | answered hanswers =>
      have howners := Pool.owners_of_answers hanswers
      obtain ⟨k, task, next, s, htask, rfl, hrest, hq, rfl⟩ := hanswers
      obtain ⟨P, -, hP, htriple⟩ := hw.tasks task (List.mem_of_getElem? htask)
      rw [hrest] at htriple
      obtain ⟨P', hstable', hstep, hnext⟩ := htriple _
      obtain ⟨hinv, hmay, hP'⟩ := hstep _ _ hw.inv hP hq
      refine ⟨⟨task.owner, hmay⟩, hinv, howners ▸ hw.distinct, fun other hother => ?_⟩
      · obtain ⟨m, hm⟩ := List.getElem?_of_mem hother
        by_cases hmk : m = k
        · subst hmk
          have hlt := (List.getElem?_eq_some_iff.mp htask).1
          obtain rfl := Option.some.inj ((List.getElem?_set_self hlt).symm.trans hm)
          exact ⟨P', hstable', hP', hnext⟩
        · have hold : w.tasks[m]? = some other := (List.getElem?_set_ne (Ne.symm hmk)).symm.trans hm
          obtain ⟨R, hstable, hR, hother⟩ := hw.tasks other (List.mem_of_getElem? hold)
          exact ⟨R, hstable, hstable _ _ _ (owner_ne hw.distinct htask hold hmk) hw.inv hR hmay,
            hother⟩

/-- The proofs of the programs hold together, however they are interleaved. -/
theorem Proved.run (hw : Proved proto post w) (h : Pool.Run proto.rules w w') :
    Proved proto post w' := by
  induction h with
  | refl => exact hw
  | tail _ hstep ih => exact (ih.step hstep).2

theorem Proved.keeps {P : σ → Prop} (hw : Proved proto post w) (h : Pool.Run proto.rules w w')
    (hkeep : ∀ i s s', proto.may i s s' → P s → P s') (hP : P w.shared) : P w'.shared := by
  induction h with
  | refl => exact hP
  | tail hrun hstep ih =>
      obtain ⟨⟨i, hmay⟩, -⟩ := (hw.run hrun).step hstep
      exact hkeep i _ _ hmay ih

theorem Proved.finished (hw : Proved proto post w) {task : Task ι Q A} (htask : task ∈ w.tasks)
    (hended : task.ended) : post task.owner w.shared := by
  obtain ⟨P, -, hP, htriple⟩ := hw.tasks task htask
  cases hrest : task.rest with
  | done u =>
      rw [hrest] at htriple
      exact htriple _ hw.inv hP
  | ask q next =>
      rw [Task.ended, hrest] at hended
      cases hended

theorem owners_of_run (h : Pool.Run proto.rules w w') :
    w'.tasks.map Task.owner = w.tasks.map Task.owner := by
  induction h with
  | refl => rfl
  | tail _ hstep ih =>
      cases hstep with
      | started hstart => exact hstart.elim
      | answered hanswers => exact (Pool.owners_of_answers hanswers).trans ih

/-! ## Guards -/

/-- Only a question that is asked where it may be asked is answered as it should be. -/
def Protocol.guarded (proto : Protocol ι σ Q A) (guard : σ → ι → Q → Prop) : Protocol ι σ Q A :=
  { proto with answers := fun s i q a s' => guard s i q → proto.answers s i q a s' }

variable {guard : σ → ι → Q → Prop}

theorem Protocol.run_guarded (h : Pool.Run proto.rules w w') :
    Pool.Run (proto.guarded guard).rules w w' := by
  refine Pool.run_mono ?_ ?_ h
  · exact fun _ _ _ hstart => hstart
  · exact fun _ _ _ _ _ hans _ => hans

/-- A program that is proved under guards asks where it may: otherwise the answer could have left
anything behind. -/
theorem Proved.allowed (hw : Proved (proto.guarded guard) post w) (hbad : ∃ s, ¬proto.inv s)
    {task : Task ι Q A} (htask : task ∈ w.tasks) {q : Q} {next : A q → Prog Q A Unit} (a : A q)
    (hrest : task.rest = .ask q next) : guard w.shared task.owner q := by
  obtain ⟨P, -, hP, htriple⟩ := hw.tasks task htask
  rw [hrest] at htriple
  obtain ⟨M, -, hstep, -⟩ := htriple a
  by_contra hguard
  obtain ⟨bad, hbad⟩ := hbad
  exact hbad (hstep w.shared bad hw.inv hP fun h => absurd h hguard).1

end NexusAuth.Lib.Rely
