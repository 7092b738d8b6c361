/-!
# What the sidecar protocol carries

The error of a request and the result of `add_key`, from `protocol.rs`.
-/

namespace NexusAuth

structure SidecarError where
  code : String
  message : String
  publishError : Option String
deriving DecidableEq

def SidecarError.new (code message : String) : SidecarError := ⟨code, message, none⟩

def SidecarError.withPublishError (e : SidecarError) (error : String) : SidecarError :=
  { e with publishError := some error }

structure AddKeyResult where
  success : Bool
  key : String
deriving DecidableEq

end NexusAuth
