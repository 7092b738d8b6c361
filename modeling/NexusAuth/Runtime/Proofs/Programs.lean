import NexusAuth.Runtime.Model

/-!
# The programs of a process

What the proofs about a process have in common: the questions of each program, and how a proof
goes through `ensure_ready` without looking at what is proved.
-/

namespace NexusAuth.Runtime

open NexusAuth.Connection NexusAuth.Lib.Interaction NexusAuth.Lib.Rely NexusAuth.Lib.Tasks

/-! ## What a question can change -/

inductive Part
  | ready
  | contexts
  | adminRaft
  | raft
  | joinLock
  | raftStartLock
  | publishLock
  | writers
  | runtimes
  | clients
  | readers
  | requests
deriving DecidableEq

def Part.Same (s s' : Process) : Part → Prop
  | .ready => s'.ready = s.ready
  | .contexts => s'.contexts = s.contexts
  | .adminRaft => s'.adminRaft = s.adminRaft
  | .raft => s'.raft = s.raft
  | .joinLock => s'.joinLock = s.joinLock
  | .raftStartLock => s'.raftStartLock = s.raftStartLock
  | .publishLock => s'.publishLock = s.publishLock
  | .writers => s'.writers = s.writers
  | .runtimes => s'.runtimes = s.runtimes
  | .clients => s'.clients = s.clients ∧ s'.nextId = s.nextId
  | .readers => s'.reading = s.reading ∧ s'.readDone = s.readDone
  | .requests => s'.requests = s.requests ∧ s'.spawned = s.spawned ∧ s'.running = s.running ∧
      s'.replies = s.replies ∧ s'.unwritten = s.unwritten

theorem Part.same_refl (s : Process) (part : Part) : part.Same s s := by
  cases part <;> simp [Part.Same]

/-- The one part that a question waits for or that an answer to it can change. -/
def Call.part : Call → Option Part
  | .lock .join | .unlock .join => some .joinLock
  | .lock .raftStart | .unlock .raftStart => some .raftStartLock
  | .lock .publish | .unlock .publish => some .publishLock
  | .lock (.writer _) | .unlock (.writer _) => some .writers
  | .spawnReadLoop _ | .beginReading _ | .endReading _ | .joinReadTask _ => some .readers
  | .buildContext _ _ => some .contexts
  | .setReady _ => some .ready
  | .startRaft => some .runtimes
  | .setAdminRaft _ _ => some .adminRaft
  | .setRaft _ _ => some .raft
  | .register | .unregister _ => some .clients
  | .spawnRequest _ | .takeJob | .writeFrame _ (.reply _) => some .requests
  | _ => none

theorem frame {s s' : Process} {i : Actor} {q : Call} {a : Answer q} (h : answers s i q a s')
    {part : Part} (hpart : q.part ≠ some part) : part.Same s s' := by
  have hsame : s' = s → part.Same s s' := fun heq => heq ▸ part.same_refl s
  cases q with
  | ctx | hasRaft | beginReading | joinReadTask => exact hsame h.2
  | lock l | unlock l =>
      obtain ⟨-, rfl⟩ := h
      cases l <;> cases part <;>
        first | exact absurd rfl hpart | simp [Part.Same, Process.setHolder]
  | startRaft =>
      cases a with
      | error e => exact hsame h
      | ok raft =>
          obtain ⟨-, rfl⟩ := h
          cases part <;> first | exact absurd rfl hpart | simp [Part.Same]
  | buildContext | register | takeJob =>
      obtain ⟨-, rfl⟩ := h
      cases part <;> first | exact absurd rfl hpart | simp [Part.Same]
  | setReady | setAdminRaft | setRaft | unregister | spawnRequest | spawnReadLoop | endReading =>
      obtain rfl := h
      cases part <;> first | exact absurd rfl hpart | simp [Part.Same]
  | writeFrame conn msg =>
      cases msg with
      | reply reply =>
          obtain rfl := h
          cases a <;> cases part <;>
            first | exact absurd rfl hpart | simp [Part.Same, Process.written]
      | _ => exact hsame h
  | _ => exact hsame h

def Spares (parts : List Part) (q : Call) : Prop := ∀ part ∈ parts, q.part ≠ some part

theorem Spares.frame {s s' : Process} {i : Actor} {q : Call} {a : Answer q} {parts : List Part}
    (hq : Spares parts q) (h : answers s i q a s') (part : Part) (hpart : part ∈ parts) :
    part.Same s s' :=
  Runtime.frame h (hq part hpart)

theorem spares_of_none {parts : List Part} {q : Call} (hq : q.part = none) : Spares parts q := by
  intro part _
  rw [hq]
  exact (Option.some_ne_none part).symm

theorem spares_of_some {parts : List Part} {q : Call} {written : Part} (hq : q.part = some written)
    (hwritten : written ∉ parts) : Spares parts q := by
  intro part hpart heq
  exact hwritten (Option.some.inj (hq.symm.trans heq) ▸ hpart)

theorem nonempty_answer (q : Call) : Nonempty (Answer q) := by
  cases q with
  | readFrame => exact ⟨.error (.io "")⟩
  | loadAuthority => exact ⟨.error .notFound⟩
  | loadStore => exact ⟨.error (.io "")⟩
  | attempt => exact ⟨.error .noCandidates⟩
  | handle => exact ⟨.ok []⟩
  | takeJob => exact ⟨⟨0, 0, "", [], none⟩⟩
  | writeFrame | writeControl | startRaft | tryJoin => exact ⟨.error ""⟩
  | ctx => exact ⟨none⟩
  | deadlinePassed | hasRaft | renews => exact ⟨true⟩
  | controlCalls | buildContext | register => exact ⟨(0 : Nat)⟩
  | errands | recipients => exact ⟨[]⟩
  | _ => exact ⟨()⟩

/-! ## Questions -/

section Calls

variable {C : Call → Prop} {conn : Nat}

/-- What a task asks to call others, in publishing rounds too if it `publishes`. -/
def Calling (publishes : Prop) : Call → Prop
  | .lock (.writer _) | .writeControl _ | .unlock (.writer _) | .awaitReply => True
  | .lock .publish | .unlock .publish | .renews | .propose | .recipients => publishes
  | _ => False

theorem asks_controlCall {publishes : Prop} (conn : Nat) :
    Asks (Calling publishes) (controlCall conn) := by
  refine ⟨trivial, fun _ => ⟨trivial, fun result => ⟨trivial, fun _ => ?_⟩⟩⟩
  cases result with
  | error e => trivial
  | ok _ => exact ⟨trivial, fun _ => trivial⟩

theorem asks_controlCalls {publishes : Prop} (conns : List Nat) :
    Asks (Calling publishes) (controlCalls conns) := by
  induction conns with
  | nil => trivial
  | cons conn conns ih => exact (asks_controlCall conn).bind fun _ => ih

theorem asks_publishOnce : Asks (Calling True) publishOnce := by
  have hcalls : ∀ conns : List Nat,
      Asks (Calling True) (do controlCalls conns; call (.unlock .publish)) := fun conns =>
    (asks_controlCalls conns).bind fun _ => ⟨trivial, fun _ => trivial⟩
  refine ⟨trivial, fun _ => ⟨trivial, fun renews => ?_⟩⟩
  cases renews with
  | true => exact ⟨trivial, fun _ => ⟨trivial, hcalls⟩⟩
  | false => exact ⟨trivial, hcalls⟩

theorem asks_errands (todo : List Errand) : Asks (Calling True) (errands todo) := by
  induction todo with
  | nil => trivial
  | cons first rest ih =>
      refine Asks.bind ?_ fun _ => ih
      cases first with
      | control conn => exact asks_controlCall conn
      | publish => exact asks_publishOnce

theorem asks_readLoop (hread : C (.readFrame conn)) (hctx : C .ctx)
    (hspawn : ∀ job, C (.spawnRequest job)) (hdeliver : ∀ reply, C (.deliver reply)) (n : Nat) :
    Asks C (readLoop conn n) := by
  induction n with
  | zero => trivial
  | succ n ih =>
      refine asks_request_bind.mpr ⟨hread, fun result => ?_⟩
      split
      · trivial
      · exact ⟨hctx, fun _ => ⟨hspawn _, fun _ => ih⟩⟩
      · exact ⟨hdeliver _, fun _ => ih⟩
      · exact ih

end Calls

section Questions

variable {parts : List Part}

theorem asks_writeMsg (hwriters : .writers ∉ parts) {conn : Nat} {msg : Message}
    (hmsg : Spares parts (.writeFrame conn msg)) : Asks (Spares parts) (writeMsg conn msg) :=
  ⟨spares_of_some rfl hwriters, fun _ => ⟨hmsg, fun _ => ⟨spares_of_some rfl hwriters, fun _ =>
    trivial⟩⟩⟩

theorem Calling.spares (hwriters : .writers ∉ parts) {publishes : Prop}
    (hpublishes : publishes → .publishLock ∉ parts) {q : Call} (hq : Calling publishes q) :
    Spares parts q := by
  cases q with
  | lock l | unlock l =>
      cases l with
      | publish => exact spares_of_some rfl (hpublishes hq)
      | writer conn => exact spares_of_some rfl hwriters
      | _ => exact hq.elim
  | writeControl | renews | propose | recipients | awaitReply => exact spares_of_none rfl
  | _ => exact hq.elim

theorem spares_controlCalls (hwriters : .writers ∉ parts) (conns : List Nat) :
    Asks (Spares parts) (controlCalls conns) :=
  (asks_controlCalls conns).mono fun _ => Calling.spares hwriters False.elim

theorem asks_calls (hwriters : .writers ∉ parts) (conn : Nat) {q : Call} (hq : Spares parts q) :
    Asks (Spares parts) (withCalls conn q) :=
  asks_request_bind.mpr ⟨spares_of_none rfl, fun n =>
    (spares_controlCalls hwriters (List.replicate n conn)).bind fun _ => ⟨hq, fun _ => trivial⟩⟩

theorem asks_handshake (hwriters : .writers ∉ parts) (conn : Nat) :
    Asks (Spares parts) (handshake conn) := by
  refine asks_request_bind.mpr ⟨spares_of_none rfl, fun result => ?_⟩
  split
  · split
    · exact asks_writeMsg hwriters (spares_of_none rfl)
    · trivial
  · trivial
  · trivial

theorem asks_activate (hcontexts : .contexts ∉ parts) (hready : .ready ∉ parts)
    (authority : Option Signer) (store : Store) :
    Asks (Spares parts) (activate authority store) :=
  ⟨spares_of_some rfl hcontexts, fun _ => ⟨spares_of_some rfl hready, fun _ => trivial⟩⟩

theorem asks_joinLoop (hcontexts : .contexts ∉ parts) (hready : .ready ∉ parts)
    (hwriters : .writers ∉ parts) (conn n : Nat) : Asks (Spares parts) (joinLoop conn n) := by
  induction n with
  | zero =>
      refine Asks.bind (asks_calls hwriters conn (spares_of_none rfl)) fun result => ?_
      split
      · exact (asks_activate hcontexts hready _ _).bind fun _ => trivial
      · trivial
  | succ n ih =>
      refine Asks.bind (asks_calls hwriters conn (spares_of_none rfl)) fun result => ?_
      split
      · exact (asks_activate hcontexts hready _ _).bind fun _ => trivial
      · refine asks_request_bind.mpr ⟨spares_of_none rfl, fun passed => ?_⟩
        split
        · trivial
        · exact ⟨spares_of_none rfl, fun _ => ih⟩

theorem asks_ensureReady (hlock : .joinLock ∉ parts) (hcontexts : .contexts ∉ parts)
    (hready : .ready ∉ parts) (hwriters : .writers ∉ parts) (config : RtConfig) (conn : Nat) :
    Asks (Spares parts) (ensureReady config conn) := by
  have hstore : ∀ authority, Asks (Spares parts) (readyWithStore authority) := by
    refine fun authority => asks_request_bind.mpr ⟨spares_of_none rfl, fun result => ?_⟩
    split
    · trivial
    · exact (asks_activate hcontexts hready _ _).bind fun _ => trivial
  refine asks_request_bind.mpr ⟨spares_of_none rfl, fun ctx => ?_⟩
  split
  · trivial
  refine asks_request_bind.mpr ⟨spares_of_some rfl hlock, fun _ => Asks.bind ?_ fun _ =>
    ⟨spares_of_some rfl hlock, fun _ => trivial⟩⟩
  refine asks_request_bind.mpr ⟨spares_of_none rfl, fun ctx => ?_⟩
  split
  · trivial
  split
  · refine asks_request_bind.mpr ⟨spares_of_none rfl, fun result => ?_⟩
    split
    · trivial
    · exact hstore none
    · exact hstore _
  · exact asks_joinLoop hcontexts hready hwriters conn _

theorem asks_raftLocked (hruntimes : .runtimes ∉ parts) (hadmin : .adminRaft ∉ parts)
    (hraft : .raft ∉ parts) (hwriters : .writers ∉ parts) (conn ctx : Nat) :
    Asks (Spares parts) (raftLocked conn ctx) := by
  refine asks_request_bind.mpr ⟨spares_of_none rfl, fun installed => ?_⟩
  split
  · trivial
  refine Asks.bind (asks_calls hwriters conn (spares_of_some rfl hruntimes)) fun result => ?_
  cases result with
  | error e => trivial
  | ok raft =>
      exact Asks.bind (asks_calls hwriters conn (spares_of_none rfl)) fun _ =>
        ⟨spares_of_some rfl hadmin, fun _ => ⟨spares_of_some rfl hraft, fun _ => trivial⟩⟩

theorem asks_ensureRaft (hlock : .raftStartLock ∉ parts) (hruntimes : .runtimes ∉ parts)
    (hadmin : .adminRaft ∉ parts) (hraft : .raft ∉ parts) (hwriters : .writers ∉ parts)
    (config : RtConfig) (conn : Nat) : Asks (Spares parts) (ensureRaft config conn) := by
  unfold ensureRaft
  split
  · trivial
  refine asks_request_bind.mpr ⟨spares_of_none rfl, fun ctx => ?_⟩
  cases ctx with
  | none => trivial
  | some ctx =>
      refine asks_request_bind.mpr ⟨spares_of_none rfl, fun installed => ?_⟩
      split
      · trivial
      refine asks_request_bind.mpr ⟨spares_of_some rfl hlock, fun _ => ?_⟩
      exact (asks_raftLocked hruntimes hadmin hraft hwriters conn ctx).bind fun _ =>
        ⟨spares_of_some rfl hlock, fun _ => trivial⟩

theorem asks_spawnReadLoop (hreaders : .readers ∉ parts) (conn : Nat) :
    Asks (Spares parts) (call (.spawnReadLoop conn)) :=
  ⟨spares_of_some rfl hreaders, fun _ => trivial⟩

theorem asks_readTask (hrequests : .requests ∉ parts) (hreaders : .readers ∉ parts) (conn n : Nat) :
    Asks (Spares parts) (readTask conn n) := by
  have hloop : Asks (Spares parts) (readLoop conn n) :=
    asks_readLoop (spares_of_none rfl) (spares_of_none rfl)
      (fun _ => spares_of_some rfl hrequests) (fun _ => spares_of_none rfl) n
  exact ⟨spares_of_some rfl hreaders, fun _ => hloop.bind fun _ =>
    ⟨spares_of_some rfl hreaders, fun _ => trivial⟩⟩

theorem asks_callerTask (hwriters : .writers ∉ parts) (hpublish : .publishLock ∉ parts) :
    Asks (Spares parts) callerTask :=
  asks_request_bind.mpr ⟨spares_of_none rfl, fun todo =>
    (asks_errands todo).mono fun _ => Calling.spares hwriters fun _ => hpublish⟩

theorem asks_requestTask (hrequests : .requests ∉ parts) (hwriters : .writers ∉ parts)
    (hpublish : .publishLock ∉ parts) : Asks (Spares parts) requestTask := by
  refine asks_request_bind.mpr ⟨spares_of_some rfl hrequests, fun job => Asks.bind ?_ fun _ =>
    (asks_writeMsg hwriters (spares_of_some rfl hrequests)).bind fun _ => trivial⟩
  unfold handled
  split
  · exact (asks_callerTask hwriters hpublish).bind fun _ => ⟨spares_of_none rfl, fun _ => trivial⟩
  · trivial

theorem asks_joinReadTask (hreaders : .readers ∉ parts) (conn : Nat) :
    Asks (Spares parts) (call (.joinReadTask conn)) :=
  ⟨spares_of_some rfl hreaders, fun _ => trivial⟩

/-- The rest of `handle_connection` once the process is ready. -/
def registration (conn : Nat) : RtM Unit := do
  let id ← call .register
  call (.joinReadTask conn)
  call (.unregister id)

theorem asks_registration (hclients : .clients ∉ parts) (hreaders : .readers ∉ parts) (conn : Nat) :
    Asks (Spares parts) (registration conn) :=
  ⟨spares_of_some rfl hclients, fun _ => ⟨spares_of_some rfl hreaders, fun _ =>
    ⟨spares_of_some rfl hclients, fun _ => trivial⟩⟩⟩

end Questions

/-! ## Becoming ready -/

/-- What `ensure_ready` asks on its own account before there is a context. -/
def Waits : Call → Prop
  | .deadlinePassed | .sleep | .loadAuthority | .loadStore => True
  | _ => False

theorem spares_of_waits {q : Call} (hq : Waits q) {parts : List Part} : Spares parts q :=
  spares_of_none (by cases q <;> first | rfl | exact hq.elim)

section Ready

variable {proto : Protocol Actor Process Call Answer} {i : Actor} {conn : Nat}
  {E : Process → Prop} {D : Nat → Process → Prop}

/-- From `E` before there is a context to `D` with it. -/
structure Activates (proto : Protocol Actor Process Call Answer) (i : Actor) (conn : Nat)
    (E : Process → Prop) (D : Nat → Process → Prop) : Prop where
  stable : proto.Stable i E
  attempts : proto.Triple i E (withCalls conn .attempt) fun _ => E
  waits : ∀ q, Waits q → ∀ a s s', proto.inv s → E s → proto.answers s i q a s' →
    proto.inv s' ∧ proto.may i s s' ∧ E s'
  activates : ∀ authority store, proto.Triple i E (activate authority store) D

def Outcome (E : Process → Prop) (D : Nat → Process → Prop) (ctx : Option Nat) (s : Process) :
    Prop :=
  ctx.elim (E s) fun c => D c s

theorem outcome_of_const {ctx : Option Nat} {s : Process} (h : E s) :
    Outcome E (fun _ => E) ctx s := by
  cases ctx <;> exact h

theorem stable_outcome (hE : proto.Stable i E) (hD : ∀ c, proto.Stable i (D c)) (ctx : Option Nat) :
    proto.Stable i (Outcome E D ctx) := by
  cases ctx with
  | none => exact hE
  | some c => exact hD c

theorem Activates.triple_some (h : Activates proto i conn E D) (authority : Option Signer)
    (store : Store) :
    proto.Triple i E (do return some (← activate authority store)) (Outcome E D) :=
  (h.activates authority store).bind fun _ => triple_done fun _ _ => id

theorem Activates.triple_none (_ : Activates proto i conn E D) :
    proto.Triple i E (return none) (Outcome E D) :=
  triple_done fun _ _ => id

theorem Activates.triple_joinLoop (h : Activates proto i conn E D) (n : Nat) :
    proto.Triple i E (joinLoop conn n) (Outcome E D) := by
  induction n with
  | zero =>
      refine h.attempts.bind fun result => ?_
      cases result with
      | ok found => exact h.triple_some _ _
      | error e => exact h.triple_none
  | succ n ih =>
      refine h.attempts.bind fun result => ?_
      cases result with
      | ok found => exact h.triple_some _ _
      | error e =>
          refine triple_kept_bind h.stable (h.waits .deadlinePassed trivial) fun passed => ?_
          cases passed with
          | true => exact h.triple_none
          | false => exact triple_kept_bind h.stable (h.waits .sleep trivial) fun _ => ih

theorem Activates.triple_readyWithStore (h : Activates proto i conn E D)
    (authority : Option Signer) :
    proto.Triple i E (readyWithStore authority) (Outcome E D) := by
  refine triple_kept_bind h.stable (h.waits .loadStore trivial) fun result => ?_
  cases result with
  | error e => exact h.triple_none
  | ok store => exact h.triple_some _ _

theorem Activates.triple_notReady (h : Activates proto i conn E D) (config : RtConfig) :
    proto.Triple i E
      (if config.clusterEnabled then readyForRaft else joinLoop conn (joinRetries config))
      (Outcome E D) := by
  split
  · refine triple_kept_bind h.stable (h.waits .loadAuthority trivial) fun result => ?_
    cases result with
    | ok authority => exact h.triple_readyWithStore (some authority)
    | error e =>
        cases e with
        | notFound => exact h.triple_readyWithStore none
        | failed e => exact h.triple_none
  · exact h.triple_joinLoop _

theorem Activates.triple_ensureReady (h : Activates proto i conn E D)
    (hD : ∀ c, proto.Stable i (D c))
    (hctx : ∀ a s s', proto.inv s → E s → proto.answers s i .ctx a s' →
      proto.inv s' ∧ proto.may i s s' ∧ Outcome E D a s')
    (hlock : ∀ a s s', proto.inv s → E s → proto.answers s i (.lock .join) a s' →
      proto.inv s' ∧ proto.may i s s' ∧ E s')
    (hunlock : ∀ ctx a s s', proto.inv s → Outcome E D ctx s →
      proto.answers s i (.unlock .join) a s' →
      proto.inv s' ∧ proto.may i s s' ∧ Outcome E D ctx s') (config : RtConfig) :
    proto.Triple i E (ensureReady config conn) (Outcome E D) := by
  have hstable := stable_outcome h.stable hD
  refine triple_request_bind (Outcome E D) hstable hctx fun ctx => ?_
  cases ctx with
  | some c => exact triple_done fun _ _ => id
  | none =>
      refine triple_kept_bind h.stable hlock fun _ => ?_
      refine Protocol.Triple.bind ?_ fun ctx =>
        triple_kept_bind (hstable ctx) (hunlock ctx) fun _ => triple_done fun _ _ => id
      refine triple_request_bind (Outcome E D) hstable hctx fun ctx => ?_
      cases ctx with
      | some c => exact triple_done fun _ _ => id
      | none => exact h.triple_notReady config

theorem triple_outcome {p : RtM (Option Nat)} (h : proto.Triple i E p fun _ => E) :
    proto.Triple i E p (Outcome E fun _ => E) :=
  h.mono (fun _ _ => id) fun _ _ _ => outcome_of_const

theorem triple_handleConnection {config : RtConfig} {E' F : Process → Prop}
    (hshake : proto.Triple i E (handshake conn) fun _ => E) (hfail : ∀ s, proto.inv s → E s → F s)
    (hspawn : proto.Triple i E (call (.spawnReadLoop conn)) fun _ => E')
    (hready : proto.Triple i E' (ensureReady config conn) (Outcome E' D))
    (hjoin : proto.Triple i E' (call (.joinReadTask conn)) fun _ => F)
    (hraft : ∀ c, proto.Triple i (D c) (ensureRaft config conn) fun _ => D c)
    (hregistration : ∀ c, proto.Triple i (D c) (registration conn) fun _ => F) :
    proto.Triple i E (handleConnection config conn) fun _ => F := by
  refine hshake.bind fun result => ?_
  cases result with
  | error e => exact triple_done hfail
  | ok _ =>
      refine hspawn.bind fun _ => hready.bind fun ctx => ?_
      cases ctx with
      | none => exact hjoin
      | some c => exact (hraft c).bind fun _ => hregistration c

end Ready

/-! ## All programs together -/

theorem owners_boot (config : RtConfig) (frames : Nat → Nat) (actors : List Actor)
    (ctx : Option (Option Signer × Store)) :
    (boot config frames actors ctx).tasks.map Task.owner = actors := by
  simp [boot, Function.comp_def]

theorem owners_of_boot {config : RtConfig} {frames : Nat → Nat} {actors : List Actor}
    {ctx : Option (Option Signer × Store)} {w : ProcessPool}
    (hrun : Pool.Run rules (boot config frames actors ctx) w) :
    w.tasks.map Task.owner = actors := by
  let proto : Protocol Actor Process Call Answer := ⟨answers, fun _ => True, fun _ _ _ => True⟩
  have hrun : Pool.Run proto.rules (boot config frames actors ctx) w := hrun
  exact (owners_of_run hrun).trans (owners_boot config frames actors ctx)

theorem proved_boot {proto : Protocol Actor Process Call Answer} {P : Actor → Process → Prop}
    {post : Actor → Process → Prop} {config : RtConfig} {frames : Nat → Nat} {actors : List Actor}
    {ctx : Option (Option Signer × Store)} (hactors : actors.Nodup)
    (hinv : proto.inv (.initial ctx)) (hstable : ∀ i, proto.Stable i (P i))
    (hP : ∀ i, P i (.initial ctx))
    (htriple : ∀ i ∈ actors, proto.Triple i (P i) (program config frames i) fun _ => post i) :
    Proved proto post (boot config frames actors ctx) where
  inv := hinv
  distinct := (owners_boot config frames actors ctx).symm ▸ hactors
  tasks task htask := by
    obtain ⟨i, hi, rfl⟩ := List.mem_map.mp htask
    exact ⟨P i, hstable i, hP i, htriple i hi⟩

end NexusAuth.Runtime
