import NexusAuth.Lib.OrderedMap
import NexusAuth.Lib.Results

/-!
# The arguments of `nexusauthctl`

`parse_raw` of `ctl.rs`.  An option is `--key value` or `--key=value` and can
be repeated, a flag is `--key`, and the one argument without dashes is the command.
-/

namespace NexusAuth.Ctl

open NexusAuth.Lib.OrderedMap NexusAuth.Lib.Results

inductive CtlError
  | usage (message : String)
deriving DecidableEq

structure RawArgs where
  command : Option String
  values : BTreeMap String (List String)
  flags : List String

def booleanFlags : List String := ["json", "dry-run", "force", "help"]

def valueFlags : List String :=
  ["server", "config", "key", "kid", "request-id", "timeout-secs", "role", "out-dir", "service",
    "peer", "audience", "jti", "expires-at", "expires-in", "max-uses", "bind-peer", "peer-id",
    "identity-key", "x25519-key", "out"]

def isKnownFlag (key : String) : Bool := (valueFlags ++ booleanFlags).contains key

namespace RawArgs

def default : RawArgs := ⟨none, ∅, []⟩

variable (raw : RawArgs) (key : String)

def many : List String := raw.values[key]?.getD []

def flag : Bool := raw.flags.contains key

/-- `values.entry(key).or_default().push(value)`. -/
def push (value : String) : RawArgs :=
  { raw with values := raw.values.insert key (raw.many key ++ [value]) }

def setFlag : RawArgs :=
  { raw with flags := if raw.flag key then raw.flags else raw.flags ++ [key] }

end RawArgs

def stripDashes (arg : String) : Option String :=
  match arg.toList with
  | '-' :: '-' :: rest => some (String.ofList rest)
  | _ => none

/-- `split_once('=')`, with the whole text if there is no such character. -/
def splitOnce (rest : String) : String × Option String :=
  match rest.toList.dropWhile (· ≠ '=') with
  | [] => (rest, none)
  | _ :: value => (String.ofList (rest.toList.takeWhile (· ≠ '=')), some (String.ofList value))

/-- The loop of `parse_raw`. -/
def parseFrom (raw : RawArgs) : List String → Except CtlError RawArgs
  | [] => .ok raw
  | arg :: args =>
      match stripDashes arg with
      | none =>
          if raw.command.isNone then parseFrom { raw with command := some arg } args
          else .error (.usage ("多余的位置参数: " ++ arg))
      | some rest =>
          if rest.isEmpty then .error (.usage "空的 -- 参数")
          else
            let key := (splitOnce rest).1
            if !isKnownFlag key then .error (.usage ("未知参数 --" ++ key))
            else if booleanFlags.contains key then
              if (splitOnce rest).2.isSome then .error (.usage ("--" ++ key ++ " 不接受值"))
              else parseFrom (raw.setFlag key) args
            else
              match (splitOnce rest).2, args with
              | some value, args => parseFrom (raw.push key value) args
              | none, [] => .error (.usage ("--" ++ key ++ " 缺少值"))
              | none, value :: args =>
                  if (stripDashes value).isSome then .error (.usage ("--" ++ key ++ " 缺少值"))
                  else parseFrom (raw.push key value) args

def parseRaw (args : List String) : Except CtlError RawArgs := parseFrom .default args

end NexusAuth.Ctl
