import NexusAuth.Connection.Model
import NexusAuth.Lib.Results
import NexusAuth.Lib.Streams

/-!
# Messages and frames

`protocol.rs`: the messages between the node and the sidecar, and the frames in which they go
over a stream.  A frame is the length of its body as a big-endian `u32` and the body, which is
the CBOR encoding of a message.
-/

namespace NexusAuth.Connection

open NexusAuth.Lib.Results NexusAuth.Lib.Streams

/-! ## Messages -/

inductive Message
  | hello (version : UInt32)
  /-- From the node: a service request that came in. -/
  | request (id : CallId) (service : String) (payload : Bytes)
  | reply (reply : Reply)
  | listServices (id : CallId)
  | discoverProviders (id : CallId) (service : String)
  | queryPublicIp (id : CallId)
  | whoami (id : CallId)
  | reconnectBootstrap (id : CallId)
  | reannounceServices (id : CallId)
  | reloadConfig (id : CallId)
  | relayStatus (id : CallId)
  | pqStatus (id : CallId)
  | authStatus (id : CallId)
  | queryKey (id : CallId) (key : String)
  | addKey (id : CallId) (key : String) (value : Option Bytes) (providing : Bool)
  | serviceRequest (id : CallId) (service : String) (payload : Bytes)
  | serviceRequestTo (id : CallId) (service peer : String) (payload : Bytes)
deriving DecidableEq

/-- The value of the field `t`. -/
def Message.kind : Message → String
  | .hello _ => "hello"
  | .request _ _ _ => "request"
  | .reply _ => "reply"
  | .listServices _ => "list_services"
  | .discoverProviders _ _ => "discover_providers"
  | .queryPublicIp _ => "query_public_ip"
  | .whoami _ => "whoami"
  | .reconnectBootstrap _ => "reconnect_bootstrap"
  | .reannounceServices _ => "reannounce_services"
  | .reloadConfig _ => "reload_config"
  | .relayStatus _ => "relay_status"
  | .pqStatus _ => "pq_status"
  | .authStatus _ => "auth_status"
  | .queryKey _ _ => "query_key"
  | .addKey _ _ _ _ => "add_key"
  | .serviceRequest _ _ _ => "service_request"
  | .serviceRequestTo _ _ _ _ => "service_request_to"

structure MessageCodec where
  /-- `ciborium::ser::into_writer`. -/
  encode : Message → Except String Bytes
  /-- `ciborium::de::from_reader`. -/
  decode : Bytes → Except String Message

def MessageCodec.Lossless (codec : MessageCodec) : Prop :=
  ∀ msg body, codec.encode msg = .ok body → codec.decode body = .ok msg

/-! ## Frames -/

def maxFrame : Nat := 16 <<< 20

inductive FrameError
  | io (error : String)
  | tooLarge (n : Nat)
  | encode (error : String)
  | decode (error : String)
deriving DecidableEq

def FrameError.text : FrameError → String
  | .io error => "io error: " ++ error
  | .tooLarge n => "frame too large: " ++ toString n ++ " bytes"
  | .encode error => "cbor encode error: " ++ error
  | .decode error => "cbor decode error: " ++ error

/-- `u32::to_be_bytes`. -/
def be32 (n : Nat) : Bytes :=
  (List.range 4).map fun i => UInt8.ofNat (n / 256 ^ (3 - i))

def fromBe (bytes : Bytes) : Nat := bytes.foldl (fun n byte => n * 256 + byte.toNat) 0

def encodeFrame (codec : MessageCodec) (msg : Message) : Except FrameError Bytes := do
  let body ← (codec.encode msg).mapError .encode
  ensure (.tooLarge body.length) (body.length ≤ maxFrame)
  return be32 body.length ++ body

def decodeFrame (codec : MessageCodec) (body : Bytes) : Except FrameError Message := do
  ensure (.tooLarge body.length) (body.length ≤ maxFrame)
  (codec.decode body).mapError .decode

/-- `AsyncReadExt::read_exact` of a buffer with `n` bytes. -/
def readBytes (n : Nat) (source : Source String UInt8) :
    Except FrameError Bytes × Source String UInt8 :=
  let read := readExact "early eof" n source
  (read.1.mapError .io, read.2)

def readFrame (codec : MessageCodec) (source : Source String UInt8) :
    Except FrameError Message × Source String UInt8 :=
  match readBytes 4 source with
  | (.error e, source) => (.error e, source)
  | (.ok lenBuf, source) =>
      let len := fromBe lenBuf
      if len > maxFrame then (.error (.tooLarge len), source)
      else
        match readBytes len source with
        | (.error e, source) => (.error e, source)
        | (.ok body, source) => (decodeFrame codec body, source)

def readFrames (codec : MessageCodec) :
    Nat → Source String UInt8 → List (Except FrameError Message) × Source String UInt8
  | 0, source => ([], source)
  | n + 1, source =>
      let first := readFrame codec source
      let others := readFrames codec n first.2
      (first.1 :: others.1, others.2)

end NexusAuth.Connection
