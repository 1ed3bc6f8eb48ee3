import EdgeRuntime.Common.Error

/-!
Checks on caller-supplied names and schemas that every component shares.
-/
namespace EdgeRuntime

def maxChannelNameLen : Nat := 64

inductive Transport
  | posixShm
  | memfdFdPass
  deriving DecidableEq, Repr

structure ChannelOptions where
  name : String
  staleTimeoutMs : Int
  reconnectTimeoutMs : Int
  enablePayloadChecksum : Bool
  transport : Transport
  heartbeatIntervalNs : Int
  deriving DecidableEq, Repr

structure SchemaDescriptor where
  fingerprint : List Nat
  version : Nat
  deriving DecidableEq, Repr

def channelNameChar (c : Char) : Bool :=
  (c ≥ 'a' && c ≤ 'z') || (c ≥ 'A' && c ≤ 'Z') || (c ≥ '0' && c ≤ '9') ||
    c = '_' || c = '.' || c = '-'

def hasDoubleDot : List Char → Bool
  | '.' :: '.' :: _ => true
  | _ :: cs => hasDoubleDot cs
  | [] => false

def validateChannelName (name : String) : Bool :=
  let chars := name.toList
  1 ≤ chars.length && chars.length ≤ maxChannelNameLen &&
    chars.all channelNameChar && !hasDoubleDot chars

def schemaFingerprintSet (schema : SchemaDescriptor) : Bool :=
  schema.fingerprint.any (· ≠ 0)

def validateChannelOptionContract (options : ChannelOptions) (operation : String) :
    Except Error Unit :=
  if !options.enablePayloadChecksum then
    .error (makeError .invalidOptions operation "payload checksum is mandatory")
  else if options.staleTimeoutMs ≠ 100 then
    .error (makeError .invalidOptions operation "stale_timeout is deprecated; retain 100ms")
  else .ok ()

/-- The 32-bit hash that ties a journal to its channel name. -/
def channelNameHash (name : String) : Nat :=
  name.toUTF8.toList.foldl (fun hash byte => (hash ^^^ byte.toNat) * 16777619 % 2 ^ 32)
    2166136261

end EdgeRuntime
