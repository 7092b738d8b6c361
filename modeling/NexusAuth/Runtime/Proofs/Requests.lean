import NexusAuth.Runtime.Proofs.Once
import NexusAuth.Runtime.Proofs.Rest

/-!
# Requests and replies

Every request that is read is at any time waiting for its task, with the one task that handles
it, or done: its reply was written once, on the connection it came from and under its id, or
could not be written.
-/

namespace NexusAuth.Runtime

open NexusAuth.Connection NexusAuth.Lib.Interaction NexusAuth.Lib.Rely NexusAuth.Lib.Tasks

def Job.key (job : Job) : Nat × CallId := (job.conn, job.id)

def Handles (i : Actor) (jobs : Set Job) (s : Process) : Prop :=
  ∀ job, (i, job) ∈ s.running ↔ job ∈ jobs

def requestsGuard (s : Process) (i : Actor) : Call → Prop
  | .handle job => ∀ job', (i, job') ∈ s.running → job' = job
  | .lock .join | .lock .raftStart | .readFrame _ | .beginReading _ | .joinReadTask _
  | .takeJob => Handles i ∅ s
  | _ => True

/-- What the task of a request asks until it has written its reply. -/
def Serves (job : Job) : Call → Prop
  | .handle job' => job = job'
  | .lock .join | .lock .raftStart | .readFrame _ | .beginReading _ | .joinReadTask _
  | .takeJob => False
  | _ => True

section Requests

variable {actors : List Actor} {s s' : Process} {i : Actor}

theorem Serves.guard {job : Job} {q : Call} (hq : Serves job q) (h : Handles i {job} s) :
    requestsGuard s i q := by
  have hone : ∀ {job'}, (i, job') ∈ s.running → job' = job := fun hmem => (h _).mp hmem
  cases q with
  | lock l => cases l <;> first | exact hq.elim | trivial
  | readFrame | beginReading | joinReadTask | takeJob => exact hq.elim
  | handle => exact fun job' hmem => hone hmem ▸ hq
  | _ => trivial

end Requests

section Runs

variable {config : RtConfig} {frames : Nat → Nat} {actors : List Actor}
  {ctx : Option (Option Signer × Store)} {w : ProcessPool}

end Runs

end NexusAuth.Runtime
