import NexusAuth.Lib.Network
import NexusAuth.Lib.Runs
import NexusAuth.Raft.Seed

/-!
# A leader that instructs a node about the seed

An honest leader delivers the seed to an honest node and drops it there again, any
number of times, over a network that replays.  Instructions are numbered; a message
and an acknowledgement carry the number of the instruction they were made for, which
is not part of what goes over the wire.  Nobody else sends messages about seeds.

The target handles each message in a task of its own.  After its checks a handler
changes the file, then the memory, and then acknowledges; other handlers can take steps
in between.
-/

namespace NexusAuth.Raft

open NexusAuth.Authority NexusAuth.Lib NexusAuth.Lib.Network

structure SeedChannel where
  crypto : Crypto
  lawful : crypto.Lawful
  leader : SeedNode
  target : SeedNode
  /-- The target's entry in the membership. -/
  entry : RaftNode
  /-- The target is a member with its own exchange key. -/
  exchangeKey : crypto.unbase64 entry.x25519Key = some (crypto.xPublic target.x25519)
  /-- The authority seed, which the leader holds. -/
  seed : Bytes
  seed_length : seed.length = seedLen

inductive SeedMessage
  | delivery (envelope : SeedEnvelope)
  | drop (request : SeedDropRequest)

inductive SeedInstruction
  | deliver (random : SealRandom)
  | drop

def SeedMessage.sender : SeedMessage → NodeId
  | .delivery envelope => envelope.fromNode
  | .drop request => request.fromNode

def SeedInstruction.seed (channel : SeedChannel) : SeedInstruction → Option Bytes
  | .deliver _ => some channel.seed
  | .drop => none

def SeedInstruction.intended (channel : SeedChannel) (instruction : SeedInstruction) : SeedHolder :=
  ⟨instruction.seed channel, instruction.seed channel⟩

namespace SeedChannel

def prepare (channel : SeedChannel) : SeedInstruction → Except String SeedMessage
  | .deliver random =>
      (prepareDelivery channel.crypto channel.leader (some channel.seed) channel.target.nodeId
        (some channel.entry) random).map .delivery
  | .drop =>
      (prepareDrop channel.crypto channel.leader channel.target.nodeId (some channel.entry)).map
        .drop

/-- `accept_seed` and `accept_seed_drop`, without interruption. -/
def accept (channel : SeedChannel) (view : Option NodeId) (io : Option String)
    (holder : SeedHolder) : SeedMessage → Except String SeedHolder
  | .delivery envelope => acceptSeed channel.crypto channel.target view io holder envelope
  | .drop request => acceptSeedDrop channel.crypto channel.target view io holder request

/-- The checks of both, up to the change of the file: the seed to hold from now on. -/
def check (channel : SeedChannel) (view : Option NodeId) :
    SeedMessage → Except String (Option Bytes)
  | .delivery envelope =>
      match openSeed channel.crypto channel.target view envelope with
      | .error e => .error e.text
      | .ok seed =>
          if isValidNetworkName channel.target.network then .ok (some seed)
          else .error "invalid network or service name"
  | .drop request =>
      match verifyDropRequest channel.crypto channel.target view request with
      | .error e => .error e.text
      | .ok () => .ok none

def signedMessage (channel : SeedChannel) : SeedMessage → Bool
  | .delivery envelope =>
      (verifySigned channel.crypto channel.target.verifier envelope.fromNode
        (envelopeSigningBytes channel.crypto envelope) envelope.sig).isOk
  | .drop request =>
      (verifySigned channel.crypto channel.target.verifier request.fromNode
        (dropSigningBytes channel.crypto request) request.sig).isOk

def signedAck (channel : SeedChannel) (ack : SeedAck) : Bool :=
  (verifySigned channel.crypto channel.leader.verifier ack.sender
    (ackSigningBytes channel.crypto ack) ack.sig).isOk

end SeedChannel

def SeedHolder.changeFile (holder : SeedHolder) (seed : Option Bytes) (io : Option String) :
    Except SeedError SeedHolder :=
  match seed with
  | some seed => writeSeedFile holder seed io
  | none => removeSeedFile holder io

/-- A handler whose message has passed the checks. -/
structure SeedHandler where
  number : Nat
  sender : NodeId
  seed : Option Bytes
  /-- The file is changed, the memory is not. -/
  filed : Bool

structure SeedWorld where
  /-- The number of the leader's latest instruction. -/
  issued : Nat
  /-- Everything that was put on the wire. -/
  messages : List (Nat × SeedMessage)
  acks : List (Nat × SeedAck)
  /-- The instructions that wait for an acknowledgement. -/
  waiting : List Nat
  /-- The latest instruction has returned `Ok`. -/
  confirmed : Bool
  /-- The handlers at the target that have not ended. -/
  running : List SeedHandler
  /-- What the target holds. -/
  holder : SeedHolder

def SeedWorld.start (holder : SeedHolder) : SeedWorld := ⟨0, [], [], [], false, [], holder⟩

inductive SeedEvent
  | instruct (instruction : SeedInstruction)
  /-- The target checks a message, with its view of the leader. -/
  | receive (view : Option NodeId) (delivery : Delivery (Nat × SeedMessage))
  /-- A handler takes its next step, with the file system's answer. -/
  | advance (index : Nat) (io : Option String)
  /-- A waiting instruction gets an acknowledgement. -/
  | conclude (index : Nat) (delivery : Delivery (Nat × SeedAck))

def SeedEvent.isInstruction : SeedEvent → Bool
  | .instruct _ => true
  | _ => false

namespace SeedWorld

/-- A handler answers, unless its acknowledgement cannot be encoded. -/
def answer (channel : SeedChannel) (w : SeedWorld) (number : Nat) (sender : NodeId)
    (result : Except String SeedHolder) : SeedWorld :=
  let ack := acknowledge channel.crypto channel.target sender result
  { w with acks := w.acks ++ (ack.toOption.map fun ack => (number, ack)).toList }

def step (channel : SeedChannel) (w : SeedWorld) : SeedEvent → SeedWorld
  | .instruct instruction =>
      let number := w.issued + 1
      match channel.prepare instruction with
      | .error _ => { w with issued := number, confirmed := false }
      | .ok message =>
          { w with
            issued := number
            messages := w.messages ++ [(number, message)]
            waiting := w.waiting ++ [number]
            confirmed := false }
  | .receive view delivery =>
      match delivery.message (fun m => channel.signedMessage m.2) w.messages with
      | none => w
      | some (number, message) =>
          match channel.check view message with
          | .error e => w.answer channel number message.sender (.error e)
          | .ok seed =>
              { w with running := w.running ++ [⟨number, message.sender, seed, false⟩] }
  | .advance index io =>
      match w.running[index]? with
      | none => w
      | some handler =>
          let others := w.running.eraseIdx index
          if handler.filed then
            let holder := { w.holder with memory := handler.seed }
            { w with running := others, holder := holder }.answer channel handler.number
              handler.sender (.ok holder)
          else
            match w.holder.changeFile handler.seed io with
            | .error e =>
                { w with running := others }.answer channel handler.number handler.sender
                  (.error e.text)
            | .ok holder =>
                { w with
                  running := w.running.set index { handler with filed := true }
                  holder := holder }
  | .conclude index delivery =>
      match w.waiting[index]?, delivery.message (fun m => channel.signedAck m.2) w.acks with
      | some number, some (_, ack) =>
          let result := concludeInstruction channel.crypto channel.leader channel.target.nodeId ack
          { w with
            waiting := w.waiting.eraseIdx index
            confirmed := w.confirmed || (number == w.issued && result.isOk) }
      | _, _ => w

/-- The event hands nothing to the target, and nothing to the latest instruction, that was
made for an earlier instruction, and is no step of a handler of an earlier message. -/
def Current (channel : SeedChannel) (w : SeedWorld) : SeedEvent → Prop
  | .instruct _ => True
  | .receive _ delivery =>
      ∀ m ∈ w.messages, delivery.message (fun m => channel.signedMessage m.2) w.messages = some m →
        m.1 = w.issued
  | .advance index _ => ∀ handler, w.running[index]? = some handler → handler.number = w.issued
  | .conclude index delivery =>
      w.waiting[index]? = some w.issued → ∀ m ∈ w.acks,
        delivery.message (fun m => channel.signedAck m.2) w.acks = some m → m.1 = w.issued

def after (channel : SeedChannel) (holder : SeedHolder) (events : List SeedEvent) (k : Nat) :
    SeedWorld :=
  Runs.stateAt (step channel) (start holder) events k

end SeedWorld

end NexusAuth.Raft
