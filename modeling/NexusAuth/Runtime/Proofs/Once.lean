import NexusAuth.Runtime.Proofs.Programs
import NexusAuth.Store.Proofs.Replication

/-!
# One context, one Raft runtime

However many connections come in at once and whatever fails on the way, a process builds at most
one context, so that there is one publishing loop and one synchronisation, and starts at most one
Raft runtime.  A context that is there stays.
-/

namespace NexusAuth.Runtime

open NexusAuth.Connection NexusAuth.Lib.Interaction NexusAuth.Lib.Once NexusAuth.Lib.Rely
open NexusAuth.Lib.Tasks

/-! ## The context -/

/-- The context of the process, which is made under `join_lock`. -/
def contextCell : Cell Actor Process Nat where
  value := Process.ready
  holder := Process.joinLock
  made s := s.contexts.length
  first c := c = 0

abbrev ContextFree (q : Call) : Prop := Spares [.ready, .contexts, .joinLock] q

section Context

variable {s s' : Process} {i : Actor}

theorem same_context {q : Call} (hq : ContextFree q) {a : Answer q} (h : answers s i q a s') :
    contextCell.Same s s' where
  value := hq.frame h .ready (by decide)
  holder := hq.frame h .joinLock (by decide)
  made := congrArg List.length (hq.frame h .contexts (by decide))

abbrev contextProtocol : Protocol Actor Process Call Answer := contextCell.protocol answers

theorem triple_activate (authority : Option Signer) (store : Store) :
    contextProtocol.Triple i (contextCell.Empty i 0) (activate authority store)
      fun _ => contextCell.Inside i := by
  refine triple_request_bind (fun c s => contextCell.Empty i 1 s ∧ c = 0)
    (fun _ => Cell.stable_empty.and stable_const) ?_ fun c => ?_
  · rintro c s s' - hempty ⟨rfl, rfl⟩
    have hmakes : contextCell.Makes s { s with contexts := s.contexts ++ [(authority, store)] } :=
      ⟨rfl, rfl, List.length_append⟩
    obtain ⟨hinv, hmay, hmade⟩ := hmakes.step hempty
    exact ⟨hinv, hmay, hmade, hempty.2.2⟩
  · refine triple_request_bind (fun _ => contextCell.Inside i) (fun _ => Cell.stable_inside) ?_
      fun _ => triple_done fun _ _ => id
    rintro - s s' - ⟨hempty, hc⟩ rfl
    exact Cell.Fills.step ⟨rfl, rfl, rfl⟩ hempty hc

theorem activates_context (conn : Nat) :
    Activates contextProtocol i conn (contextCell.Empty i 0) fun _ => contextCell.Inside i where
  stable := Cell.stable_empty
  attempts := Cell.triple_same Cell.kept_empty (fun _ _ _ _ hq => same_context hq)
    (asks_calls (by decide) conn (spares_of_none rfl))
  activates := triple_activate
  waits q hq a s s' hs hempty h := by
    have hsame : contextCell.Same s s' := same_context (spares_of_waits hq) h
    exact ⟨hsame.inv hs, hsame.may, hsame.empty hempty⟩

abbrev Reached (i : Actor) : Option Nat → Process → Prop :=
  Outcome (contextCell.Empty i 0) fun _ => contextCell.Inside i

theorem Reached.inside {ctx : Option Nat} (h : Reached i ctx s) : contextCell.Inside i s := by
  cases ctx with
  | none => exact Cell.Empty.inside h
  | some c => exact h

theorem triple_readyLocked (config : RtConfig) (conn : Nat) :
    contextProtocol.Triple i (contextCell.Inside i) (readyLocked config conn)
      fun _ => contextCell.Inside i := by
  refine triple_request_bind (Reached i)
    (stable_outcome Cell.stable_empty fun _ => Cell.stable_inside) ?_ fun ctx => ?_
  · rintro ctx s s' hs hinside ⟨rfl, rfl⟩
    refine ⟨hs, Cell.Same.may ⟨rfl, rfl, rfl⟩, ?_⟩
    cases hready : s'.ready with
    | none => exact ⟨hinside.1, hready, hinside.2 hready⟩
    | some c => exact hinside
  · cases ctx with
    | some c => exact triple_done fun _ _ => id
    | none =>
        exact ((activates_context conn).triple_notReady config).mono (fun _ _ => id)
          fun _ _ _ => Reached.inside

theorem triple_ensureReady (config : RtConfig) (conn : Nat) :
    contextProtocol.Triple i (contextCell.Away i) (ensureReady config conn)
      fun _ => contextCell.Away i := by
  refine Cell.triple_same_bind Cell.kept_away (fun _ _ _ => same_context (spares_of_none rfl))
    fun ctx => ?_
  cases ctx with
  | some c => exact triple_done fun _ _ => id
  | none =>
      refine triple_request_bind (fun _ => contextCell.Inside i) (fun _ => Cell.stable_inside) ?_
        fun _ => (triple_readyLocked config conn).bind fun ctx => ?_
      · rintro - s s' hs - ⟨hfree, rfl⟩
        exact Cell.Takes.step ⟨rfl, rfl, hfree, rfl⟩ hs
      refine triple_request_bind (fun _ => contextCell.Away i) (fun _ => Cell.stable_away) ?_
        fun _ => triple_done fun _ _ => id
      rintro - s s' hs hinside ⟨hheld, rfl⟩
      exact Cell.Gives.step ⟨rfl, rfl, hheld, rfl⟩ hs hinside

theorem triple_away {α : Type} {p : RtM α} (h : Asks ContextFree p) :
    contextProtocol.Triple i (contextCell.Away i) p fun _ => contextCell.Away i :=
  Cell.triple_same Cell.kept_away (fun _ _ _ _ hq => same_context hq) h

theorem triple_program (config : RtConfig) (frames : Nat → Nat) (i : Actor) :
    contextProtocol.Triple i (contextCell.Away i) (program config frames i)
      fun _ => contextCell.Away i := by
  cases i with
  | reader conn => exact triple_away (asks_readTask (by decide) (by decide) conn _)
  | worker n => exact triple_away (asks_requestTask (by decide) (by decide) (by decide))
  | caller n => exact triple_away (asks_callerTask (by decide) (by decide))
  | connection conn =>
      refine triple_handleConnection (triple_away (asks_handshake (by decide) conn))
        (fun _ _ => id) (triple_away (asks_spawnReadLoop (by decide) conn))
        (triple_outcome (triple_ensureReady config conn))
        (triple_away (asks_joinReadTask (by decide) conn)) (fun _ => triple_away ?_)
        fun _ => triple_away (asks_registration (by decide) (by decide) conn)
      exact asks_ensureRaft (by decide) (by decide) (by decide) (by decide) (by decide) config conn

end Context

theorem inv_initial (ctx : Option (Option Signer × Store)) : contextCell.Inv (.initial ctx) := by
  cases ctx with
  | none => exact ⟨Nat.zero_le _, by simp [contextCell, Process.initial], fun _ _ => rfl,
      by simp [contextCell, Process.initial]⟩
  | some ctx => exact ⟨le_rfl, fun _ => rfl, by simp [contextCell, Process.initial],
      by simp [contextCell, Process.initial]⟩

section Runs

variable {config : RtConfig} {frames : Nat → Nat} {actors : List Actor}
  {ctx : Option (Option Signer × Store)} {w w' : ProcessPool}

theorem context_proved (hactors : actors.Nodup)
    (hrun : Pool.Run rules (boot config frames actors ctx) w) :
    Proved contextProtocol (fun i => contextCell.Away i) w := by
  refine Proved.run (proved_boot hactors (inv_initial ctx) (fun _ => Cell.stable_away) ?_
    fun i _ => triple_program config frames i) hrun
  intro i h
  cases h

theorem ready_stays (hactors : actors.Nodup)
    (hrun : Pool.Run rules (boot config frames actors ctx) w) (hrun' : Pool.Run rules w w')
    {c : Nat} (hready : w.shared.ready = some c) : w'.shared.ready = some c :=
  (context_proved hactors hrun).keeps hrun' (fun _ _ _ hmay => hmay.value c) hready

end Runs

/-! ## The Raft runtime -/

/-- The Raft runtime of the first context, which is started under `raft_start_lock`. -/
def raftCell : Cell Actor Process Nat where
  value s := s.raft 0
  holder := Process.raftStartLock
  made := Process.runtimes
  first _ := True

abbrev RaftFree (q : Call) : Prop := Spares [.raft, .runtimes, .raftStartLock] q

def OneContext (s : Process) : Prop := ∀ c, s.ready = some c → c = 0

def answersWithOne (s : Process) (i : Actor) (q : Call) (a : Answer q) (s' : Process) : Prop :=
  OneContext s ∧ answers s i q a s'

abbrev raftProtocol : Protocol Actor Process Call Answer := raftCell.protocol answersWithOne

section Raft

variable {s s' : Process} {i : Actor}

theorem same_raft {q : Call} (hq : RaftFree q) {a : Answer q} (h : answersWithOne s i q a s') :
    raftCell.Same s s' where
  value := congrFun (hq.frame h.2 .raft (by decide)) 0
  holder := hq.frame h.2 .raftStartLock (by decide)
  made := hq.frame h.2 .runtimes (by decide)

theorem triple_raft_empty {α : Type} {p : RtM α} {n : Nat} (h : Asks RaftFree p) :
    raftProtocol.Triple i (raftCell.Empty i n) p fun _ => raftCell.Empty i n :=
  Cell.triple_same Cell.kept_empty (fun _ _ _ _ hq => same_raft hq) h

/-- Whether `startRaft` has succeeded shows in the number of runtimes. -/
abbrev Started (i : Actor) (result : Except String Nat) : Process → Prop :=
  raftCell.Empty i (if result.isOk then 1 else 0)

theorem triple_startRaft (conn : Nat) :
    raftProtocol.Triple i (raftCell.Empty i 0) (withCalls conn .startRaft) (Started i) := by
  refine (triple_raft_empty (p := call .controlCalls) ⟨spares_of_none rfl, fun _ => trivial⟩).bind
    fun n => ?_
  refine (triple_raft_empty (spares_controlCalls (by decide) _)).bind fun _ => ?_
  refine triple_request (fun _ => Cell.stable_empty) ?_
  rintro result s s' hs hempty ⟨-, h⟩
  cases result with
  | error e =>
      obtain rfl : s' = s := h
      exact ⟨hs, Cell.Same.may ⟨rfl, rfl, rfl⟩, hempty⟩
  | ok raft =>
      obtain ⟨-, rfl⟩ := h
      exact Cell.Makes.step ⟨rfl, rfl, rfl⟩ hempty

theorem triple_raftLocked (conn : Nat) :
    raftProtocol.Triple i (raftCell.Inside i) (raftLocked conn 0) fun _ => raftCell.Inside i := by
  refine triple_request_bind (fun installed s => raftCell.Inside i s ∧
    (installed = false → raftCell.Empty i 0 s))
    (fun _ => Cell.stable_inside.and (stable_imp Cell.stable_empty)) ?_ fun installed => ?_
  · rintro installed s s' hs hinside ⟨-, rfl, rfl⟩
    refine ⟨hs, Cell.Same.may ⟨rfl, rfl, rfl⟩, hinside, fun hnone => ?_⟩
    have hvalue : raftCell.value s' = none := by simpa [raftCell] using hnone
    exact ⟨hinside.1, hvalue, hinside.2 hvalue⟩
  · cases installed with
    | true => exact triple_done fun _ _ h => h.1
    | false =>
        refine ((triple_startRaft conn).bind fun result => ?_).mono (fun _ _ h => h.2 rfl)
          fun _ _ _ => id
        cases result with
        | error e => exact triple_done fun _ _ => Cell.Empty.inside
        | ok raft =>
            refine (triple_raft_empty (asks_calls (by decide) conn (spares_of_none rfl))).bind
              fun _ => ?_
            refine Cell.triple_same_bind Cell.kept_empty
              (fun _ _ _ => same_raft (spares_of_some rfl (by decide))) fun _ => ?_
            refine triple_request (fun _ => Cell.stable_inside) ?_
            rintro - s s' - hempty ⟨-, rfl⟩
            have hfills :
                raftCell.Fills raft s { s with raft := Function.update s.raft 0 (some raft) } :=
              ⟨by simp [raftCell], rfl, rfl⟩
            exact hfills.step hempty trivial

theorem triple_raft_away {α : Type} {p : RtM α} (h : Asks RaftFree p) :
    raftProtocol.Triple i (raftCell.Away i) p fun _ => raftCell.Away i :=
  Cell.triple_same Cell.kept_away (fun _ _ _ _ hq => same_raft hq) h

theorem triple_ensureRaft (config : RtConfig) (conn : Nat) :
    raftProtocol.Triple i (raftCell.Away i) (ensureRaft config conn) fun _ => raftCell.Away i := by
  unfold ensureRaft
  split
  · exact triple_done fun _ _ => id
  refine triple_request_bind (fun ctx s => raftCell.Away i s ∧ ∀ c, ctx = some c → c = 0)
    (fun _ => Cell.stable_away.and stable_const) ?_ fun ctx => ?_
  · rintro ctx s s' hs haway ⟨hone, rfl, rfl⟩
    exact ⟨hs, Cell.Same.may ⟨rfl, rfl, rfl⟩, haway, hone⟩
  cases ctx with
  | none => exact triple_done fun _ _ h => h.1
  | some ctx =>
      refine triple_assume (fun _ _ h => h.2 ctx rfl) fun hctx => ?_
      subst hctx
      refine Protocol.Triple.mono ?_ (fun _ _ h => h.1) fun _ _ _ => id
      refine Cell.triple_same_bind Cell.kept_away (fun _ _ _ => same_raft (spares_of_none rfl))
        fun installed => ?_
      cases installed with
      | true => exact triple_done fun _ _ => id
      | false =>
          refine triple_request_bind (fun _ => raftCell.Inside i) (fun _ => Cell.stable_inside) ?_
            fun _ => (triple_raftLocked conn).bind fun _ =>
              triple_request (fun _ => Cell.stable_away) ?_
          · rintro - s s' hs - ⟨-, hfree, rfl⟩
            exact Cell.Takes.step ⟨rfl, rfl, hfree, rfl⟩ hs
          · rintro - s s' hs hinside ⟨-, hheld, rfl⟩
            exact Cell.Gives.step ⟨rfl, rfl, hheld, rfl⟩ hs hinside

theorem triple_raft_program (config : RtConfig) (frames : Nat → Nat) (i : Actor) :
    raftProtocol.Triple i (raftCell.Away i) (program config frames i) fun _ => raftCell.Away i := by
  cases i with
  | reader conn => exact triple_raft_away (asks_readTask (by decide) (by decide) conn _)
  | worker n => exact triple_raft_away (asks_requestTask (by decide) (by decide) (by decide))
  | caller n => exact triple_raft_away (asks_callerTask (by decide) (by decide))
  | connection conn =>
      refine triple_handleConnection (triple_raft_away (asks_handshake (by decide) conn))
        (fun _ _ => id) (triple_raft_away (asks_spawnReadLoop (by decide) conn))
        (triple_outcome (triple_raft_away ?_))
        (triple_raft_away (asks_joinReadTask (by decide) conn))
        (fun _ => triple_ensureRaft config conn)
        fun _ => triple_raft_away (asks_registration (by decide) (by decide) conn)
      exact asks_ensureReady (by decide) (by decide) (by decide) (by decide) config conn

end Raft

section Runs

variable {config : RtConfig} {frames : Nat → Nat} {actors : List Actor}
  {ctx : Option (Option Signer × Store)} {w : ProcessPool}

theorem raft_proved (hactors : actors.Nodup)
    (hrun : Pool.Run rules (boot config frames actors ctx) w) :
    Proved raftProtocol (fun i => raftCell.Away i) w := by
  have hone : ∀ w', Pool.Run rules (boot config frames actors ctx) w' → OneContext w'.shared :=
    fun w' h => (context_proved hactors h).inv.first
  refine Proved.run (proved_boot hactors ?_ (fun _ => Cell.stable_away) ?_
    fun i _ => triple_raft_program config frames i) (Pool.run_within hone hrun)
  · exact ⟨Nat.zero_le _, by simp [raftCell, Process.initial], fun _ _ => rfl, fun _ _ => trivial⟩
  · intro i h
    cases h

/-- A process has at most one context and one Raft runtime, and a context that it has it keeps. -/
theorem process_is_made_once (config : RtConfig) (frames : Nat → Nat) (actors : List Actor)
    (hactors : actors.Nodup) (ctx : Option (Option Signer × Store))
    (hrun : Pool.Run rules (boot config frames actors ctx) w) :
    w.shared.contexts.length ≤ 1 ∧ w.shared.runtimes ≤ 1 ∧
      ∀ c, w.shared.ready = some c → w.shared.contexts.length = 1 ∧
        ∀ w', Pool.Run rules w w' → w'.shared.ready = some c := by
  have hcontext := (context_proved hactors hrun).inv
  refine ⟨hcontext.made_le, (raft_proved hactors hrun).inv.made_le, fun c hready => ⟨?_, ?_⟩⟩
  · exact hcontext.full (Option.isSome_iff_exists.mpr ⟨c, hready⟩)
  · exact fun w' hrun' => ready_stays hactors hrun hrun' hready

end Runs

def twoConnections : ProcessPool :=
  boot ⟨true, 60, 5⟩ (fun _ => 0) [.connection 0, .connection 1] none

/-- The first makes the context and the Raft runtime while the second waits for the locks. -/
def bothStart : List Nat :=
  List.replicate 6 0 ++ List.replicate 6 1 ++ List.replicate 7 0 ++ List.replicate 3 1 ++
    [0, 0, 1, 1] ++ List.replicate 18 0 ++ List.replicate 4 1

theorem process_is_made_once_by_two :
    ∃ w, Pool.Run rules twoConnections w ∧ w.shared.clients.length = 2 ∧
      w.shared.contexts.length = 1 ∧ w.shared.runtimes = 1 ∧ w.shared.ready = some 0 ∧
        ∀ w', Pool.Run rules w w' → w'.shared.ready = some 0 := by
  have hfinal : (replay Store.emptyStore twoConnections bothStart).map (fun w =>
      (w.shared.clients.length, w.shared.contexts.length, w.shared.runtimes, w.shared.ready)) =
      some (2, 1, 1, some 0) := by
    decide +kernel
  obtain ⟨w, hw, hshared⟩ := Option.map_eq_some_iff.mp hfinal
  obtain ⟨hclients, hrest⟩ := Prod.mk.inj hshared
  obtain ⟨hcontexts, hrest⟩ := Prod.mk.inj hrest
  obtain ⟨hruntimes, hready⟩ := Prod.mk.inj hrest
  have hrun := run_of_replay hw
  have honce := process_is_made_once _ _ _ (by decide) _ hrun
  exact ⟨w, hrun, hclients, hcontexts, hruntimes, hready, (honce.2.2 0 hready).2⟩

end NexusAuth.Runtime
