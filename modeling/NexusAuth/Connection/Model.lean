import NexusAuth.Crypto
import NexusAuth.Protocol

/-!
# The control channel

`call_with_timeout` and the replies in `read_loop`, from `connection.rs`: the calls of one
connection to the node and the table of those that wait for a reply.

A call is a future.  It is modelled by the await point it has come to; between two await points
it runs without interruption, and the lock of the table is never held across one, so that each
stretch is one event.  The future can be dropped at every await point; before it is registered
this has no effect.  What the node, the socket, the clock and the owners of the futures do is the
order of the events.
-/

namespace NexusAuth.Connection

open NexusAuth.Lib.OrderedMap

abbrev CallId := Nat

abbrev Outcome := Except SidecarError Bytes

structure Reply where
  id : CallId
  ok : Bool
  result : Option Bytes
  error : Option SidecarError
deriving DecidableEq

/-- What `read_loop` sends to the call that waits for the reply. -/
def Reply.outcome (reply : Reply) : Outcome :=
  if reply.ok then .ok (reply.result.getD [])
  else .error (reply.error.getD (.new "backend_error" "unknown error"))

/-! ## Calls -/

inductive Slot
  | empty
  | sent (outcome : Outcome)
  /-- The sender was dropped. -/
  | closed
deriving DecidableEq

/-- The await point that a call has come to, or its end. -/
inductive Phase
  /-- In `write_msg`; the call is registered. -/
  | writing
  /-- In `timeout(timeout_duration, rx)`. -/
  | waiting
  /-- At the lock of the table, after a failed write. -/
  | failing (error : String)
  /-- At the lock of the table, after the timeout. -/
  | expired
  | returned (outcome : Outcome)
  /-- The future was dropped. -/
  | dropped
deriving DecidableEq

structure Call where
  id : CallId
  phase : Phase
  slot : Slot
deriving DecidableEq

namespace Call

/-- Dropping the sender; a value that was sent stays in the channel. -/
def close (call : Call) : Call :=
  match call.slot with
  | .empty => { call with slot := .closed }
  | .sent _ | .closed => call

/-- `tx.send`; nobody reads the value if the call has ended. -/
def send (outcome : Outcome) (call : Call) : Call := { call with slot := .sent outcome }

def write (error : Option String) (call : Call) : Call :=
  match call.phase, error with
  | .writing, none => { call with phase := .waiting }
  | .writing, some e => { call with phase := .failing e }
  | _, _ => call

def receive (call : Call) : Option Outcome :=
  match call.slot with
  | .empty => none
  | .sent outcome => some outcome
  | .closed => some (.error (.new "node_gone" "response channel closed"))

/-- A poll of `timeout`, which asks the receiver before it asks the clock. -/
def poll (elapsed : Bool) (call : Call) : Call :=
  match call.phase with
  | .waiting =>
      match call.receive with
      | some outcome => { call with phase := .returned outcome }
      | none => if elapsed then { call with phase := .expired } else call
  | _ => call

def failure (call : Call) : Option SidecarError :=
  match call.phase with
  | .failing e => some (.new "io_error" e)
  | .expired => some (.new "timeout" "control command timed out")
  | _ => none

def drop (call : Call) : Call :=
  match call.phase with
  | .returned _ => call
  | _ => { call with phase := .dropped }

end Call

/-! ## The table -/

/-- All calls of a connection in the order in which they were registered, and the table.  A
sender is given by the number of its call. -/
structure Channel where
  calls : List Call
  pending : BTreeMap CallId Nat

inductive Event
  /-- A call is registered. -/
  | start (id : CallId)
  /-- `write_msg` of a call ends. -/
  | written (call : Nat) (error : Option String)
  /-- A call is polled before or after the end of its timeout. -/
  | polled (call : Nat) (elapsed : Bool)
  /-- A call that has failed or expired gets the lock of the table. -/
  | cleanup (call : Nat)
  /-- `read_loop` gets a reply. -/
  | reply (reply : Reply)
  /-- The owner of a call drops it. -/
  | drop (call : Nat)
deriving DecidableEq

namespace Channel

def empty : Channel := ⟨[], ∅⟩

def modify (ch : Channel) (n : Nat) (f : Call → Call) : Channel :=
  { ch with calls := ch.calls.modify n f }

def closeSender (ch : Channel) (id : CallId) : Channel :=
  match ch.pending[id]? with
  | none => ch
  | some n => ch.modify n Call.close

/-- `pending.insert`, which drops the sender that it replaces. -/
def register (ch : Channel) (id : CallId) : Channel where
  calls := (ch.closeSender id).calls ++ [⟨id, .writing, .empty⟩]
  pending := ch.pending.insert id ch.calls.length

def remove (ch : Channel) (id : CallId) : Channel :=
  { ch.closeSender id with pending := ch.pending.erase id }

def cleanup (ch : Channel) (n : Nat) : Channel :=
  match ch.calls[n]? with
  | none => ch
  | some call =>
      match call.failure with
      | none => ch
      | some e => (ch.remove call.id).modify n fun call =>
          { call with phase := .returned (.error e) }

/-- The branch of `read_loop` for a reply; an unknown id is only logged. -/
def deliver (ch : Channel) (reply : Reply) : Channel :=
  match ch.pending[reply.id]? with
  | none => ch
  | some n => { ch.modify n (.send reply.outcome) with pending := ch.pending.erase reply.id }

def step (ch : Channel) : Event → Channel
  | .start id => ch.register id
  | .written n error => ch.modify n (.write error)
  | .polled n elapsed => ch.modify n (.poll elapsed)
  | .cleanup n => ch.cleanup n
  | .reply reply => ch.deliver reply
  | .drop n => ch.modify n .drop

def after (events : List Event) : Channel := events.foldl step empty

end Channel

end NexusAuth.Connection
