import NexusAuth.Lib.Framing
import NexusAuth.Service.Calls

/-!
# The text of an audit entry

`audit_line` of `service.rs` and the renderings of `log.rs`.  Under journald an entry is printed
with its priority, and white space in it is collapsed.  Without journald the entry goes to the log
file as it is.  Audit entries are logged at two of the six levels.
-/

namespace NexusAuth.Service

open NexusAuth.Lib.Framing NexusAuth.Raft

def orDash (value : Option String) : String := value.getD "-"

/-- The words of `audit_line`, as they stand in its format string. -/
def auditWords (audit : AdminAudit) : List String :=
  let epoch := orDash (audit.policyEpoch.map toString)
  let index := orDash (audit.raftIndex.map toString)
  ["event=admin_op", "mode=raft", "kid=" ++ audit.kid, "request_id=" ++ audit.requestId,
    "op=" ++ audit.op, "service=" ++ audit.service, "result=" ++ audit.result, "epoch=" ++ epoch,
    "policy_epoch=" ++ epoch, "raft_index=" ++ index, "leader=" ++ orDash audit.leader,
    "edge_peer=" ++ orDash audit.edgePeer]

def auditLine (audit : AdminAudit) : String := " ".intercalate (auditWords audit)

/-! ## Rendering -/

inductive LogMode
  | journald
  | file

def LogLevel.asStr : LogLevel → String
  | .preset => "[-]"
  | .warning => "[*]"

def LogLevel.syslogPriority : LogLevel → Nat
  | .preset => 6
  | .warning => 4

structure LogStruct where
  level : LogLevel
  topic : String
  content : String

def splitWhitespace (s : String) : List String :=
  (words isWhitespace s.toList).map String.ofList

/-- `format_entry`, whose first argument is the level. -/
def formatEntry (level : String) (time : Option String) (topic content : String) : String :=
  match time, content.isEmpty with
  | some t, true => level ++ " " ++ t ++ "\n    " ++ topic
  | some t, false => level ++ " " ++ t ++ "\n    " ++ topic ++ "\n    " ++ content
  | none, true => level ++ " " ++ topic
  | none, false => level ++ " " ++ topic ++ "\n    " ++ content

def renderJournald (info : LogStruct) : String :=
  let content := " ".intercalate (splitWhitespace info.content)
  let body :=
    if content.isEmpty then info.level.asStr ++ " " ++ info.topic
    else info.level.asStr ++ " " ++ info.topic ++ ": " ++ content
  "<" ++ toString info.level.syslogPriority ++ ">" ++ body

structure LocalTime where
  text : String
  oneLine : '\n' ∉ text.toList

/-- What `log` prints under journald, or appends to the log file. -/
def logText (mode : LogMode) (time : LocalTime) (info : LogStruct) : String :=
  match mode with
  | .journald => renderJournald info
  | .file => formatEntry info.level.asStr (some time.text) info.topic info.content

/-- What `audit_admin` leaves in the log. -/
def auditText (mode : LogMode) (time : LocalTime) (level : LogLevel)
    (audit : AdminAudit) : String :=
  logText mode time ⟨level, "admin_op", auditLine audit⟩

end NexusAuth.Service
