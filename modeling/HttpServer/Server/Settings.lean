import HttpServer.Request.Reader
import HttpServer.Server.Duration

/-!
# Settings

The settings of a server can be read from a configuration of any format, given as a `ConfigValue`:
an object in which missing keys keep their defaults and unknown ones are ignored, or a list of the
values in the order of the fields, the last ones of which may be missing.
-/

namespace HttpServer

/-- A value of a configuration. -/
inductive ConfigValue
  | null
  | boolean (b : Bool)
  | integer (n : Int)
  | float (x : Float)
  | text (s : String)
  | list (values : List ConfigValue)
  | object (entries : List (String × ConfigValue))
  deriving Inhabited

/-- What can be tuned about a server. -/
structure Settings where
  /-- The size of the read buffer of a connection; at least one byte is used. -/
  readBufferSize : Nat := 4096
  /-- The size of the pieces in which readers and files are sent; at least one byte is used. -/
  writeBufferSize : Nat := 4096
  limits : HeaderLimits := {}
  /-- The time a single read may take, without bound if absent. -/
  readTimeout : Option Duration := some ⟨10 * 1000000000⟩
  /-- Application failures are sent to the client as the body of the answer. -/
  exposeFailures : Bool := false
  /-- What proxies say about host and client is believed. -/
  trustProxy : Bool := false
  deriving DecidableEq

namespace ConfigValue

/-- A size: an integer of at most 64 bits that is not negative. -/
def size? : ConfigValue → Option Nat
  | .integer (.ofNat n) => if n < wordBound then some n else none
  | _ => none

def boolean? : ConfigValue → Option Bool
  | .boolean b => some b
  | _ => none

/-- An integer in floating point. -/
def floatOfInt : Int → Float
  | .ofNat n => Float.ofScientific n false 0
  | .negSucc n => -(Float.ofScientific (n + 1) false 0)

/-- A deadline in seconds, or its absence. -/
def timeout? : ConfigValue → Option (Option Duration)
  | .null => some none
  | .integer n => (Duration.ofSeconds? (floatOfInt n)).map some
  | .float x => (Duration.ofSeconds? x).map some
  | _ => none

end ConfigValue

namespace Settings

/-- The keys of a configuration, in the order in which a list gives their values. -/
def keys : List String :=
  ["read_buffer_size", "write_buffer_size", "max_header_bytes", "max_header_fields", "read_timeout",
    "expose_exception", "trust_proxy"]

/-- Changes the setting under a key; unknown keys change nothing, values of another kind fail. -/
def assign? (s : Settings) (key : String) (value : ConfigValue) : Option Settings :=
  match key with
  | "read_buffer_size" => value.size?.map fun n => { s with readBufferSize := n }
  | "write_buffer_size" => value.size?.map fun n => { s with writeBufferSize := n }
  | "max_header_bytes" =>
    value.size?.map fun n => { s with limits := { s.limits with maxBytes := n } }
  | "max_header_fields" =>
    value.size?.map fun n => { s with limits := { s.limits with maxFields := n } }
  | "read_timeout" => value.timeout?.map fun timeout => { s with readTimeout := timeout }
  | "expose_exception" => value.boolean?.map fun b => { s with exposeFailures := b }
  | "trust_proxy" => value.boolean?.map fun b => { s with trustProxy := b }
  | _ => some s

/-- Changes the settings under several keys, one after the other. -/
def assignAll? (s : Settings) (entries : List (String × ConfigValue)) : Option Settings :=
  entries.foldlM (fun settings entry => settings.assign? entry.1 entry.2) s

/-- The settings that a configuration describes. -/
def ofValue? : ConfigValue → Option Settings
  | .object entries => assignAll? {} entries
  | .list values =>
    if values.length ≤ keys.length then assignAll? {} (keys.zip values) else none
  | _ => none

end Settings

end HttpServer
