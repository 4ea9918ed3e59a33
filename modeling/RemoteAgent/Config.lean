import RemoteAgent.Error
import RemoteAgent.Json.Parser
import RemoteAgent.Json.Printer

/-!
# Configuration

The settings of one connection. A file holds them as a JSON object with any of the fields, in any
order, or as an array that gives the first fields in the order of `Field.all`. What is missing has
its default, and what is unknown is skipped, whatever it is; but a field may not come twice.

A configuration is usable if frames can hold something and looking at the send lock lets time pass.
-/

namespace RemoteAgent

/-- The settings of a connection. Times are in milliseconds. -/
structure Config where
  /-- Where the controller is. -/
  url : String
  /-- How many characters fit into a frame. -/
  frameLimit : UInt64
  /-- How many attempts to connect again are allowed. -/
  reconnectLimit : UInt32
  /-- The pause before an attempt. -/
  reconnectDelay : UInt64
  /-- How long a send waits for the lock. -/
  lockTimeout : UInt64
  /-- The time between two looks at the lock. -/
  lockPoll : UInt64
  /-- How long a send waits for an acknowledgment. -/
  ackTimeout : UInt64
  /-- The time between two signs of life, if there are any. -/
  keepaliveInterval : Option UInt64
  /-- The depth of replies and callbacks that name none. -/
  defaultDepth : Int64
  /-- Whether to trace. -/
  debug : Bool
  deriving DecidableEq

namespace Config

/-- The settings of a connection that nothing was said about. -/
def default : Config where
  url := "tcp://127.0.0.1:8675"
  frameLimit := 500000
  reconnectLimit := 5
  reconnectDelay := 500
  lockTimeout := 10000
  lockPoll := 5
  ackTimeout := 30000
  keepaliveInterval := none
  defaultDepth := 0
  debug := false

/-! ## Fields -/

/-- The fields of a configuration. -/
inductive Field where
  | url
  | frameLimit
  | reconnectLimit
  | reconnectDelay
  | lockTimeout
  | lockPoll
  | ackTimeout
  | keepaliveInterval
  | defaultDepth
  | debug
  deriving DecidableEq

/-- The name of a field in a file. -/
def Field.name : Field → String
  | url => "url"
  | frameLimit => "frame_limit"
  | reconnectLimit => "reconnect_limit"
  | reconnectDelay => "reconnect_delay_ms"
  | lockTimeout => "lock_timeout_ms"
  | lockPoll => "lock_poll_ms"
  | ackTimeout => "ack_timeout_ms"
  | keepaliveInterval => "keepalive_interval_ms"
  | defaultDepth => "default_depth"
  | debug => "debug"

/-- All fields, in the order in which a file lists them. -/
def Field.all : List Field :=
  [url, frameLimit, reconnectLimit, reconnectDelay, lockTimeout, lockPoll, ackTimeout,
    keepaliveInterval, defaultDepth, debug]

/-- The field of a name. -/
def Field.ofName? (name : String) : Option Field := all.find? (·.name = name)

/-- The value of a field, as a file writes it. -/
def get (c : Config) : Field → Json
  | .url => .string c.url
  | .frameLimit => Json.ofNat c.frameLimit.toNat
  | .reconnectLimit => Json.ofNat c.reconnectLimit.toNat
  | .reconnectDelay => Json.ofNat c.reconnectDelay.toNat
  | .lockTimeout => Json.ofNat c.lockTimeout.toNat
  | .lockPoll => Json.ofNat c.lockPoll.toNat
  | .ackTimeout => Json.ofNat c.ackTimeout.toNat
  | .keepaliveInterval => Json.ofOption (c.keepaliveInterval.map fun n => Json.ofNat n.toNat)
  | .defaultDepth => Json.ofInt c.defaultDepth.toInt
  | .debug => .bool c.debug

/-! ## Reading values -/

open Json (Source)

/-- The text that a string writes. -/
def text? : Source → Option String
  | .string content => content
  | _ => none

/-- The flag that a literal writes. -/
def flag? : Source → Option Bool
  | .bool flag => some flag
  | _ => none

/-- The integer that a numeral writes. -/
def integer? : Source → Option Int
  | .number numeral => numeral.toInt?
  | _ => none

/-- An integer from zero up to before a bound. -/
def natural? (bound : Nat) (source : Source) : Option Nat :=
  match integer? source with
  | some n => if 0 ≤ n ∧ n < bound then some n.toNat else none
  | none => none

/-- An unsigned integer of 64 bits. -/
def uint64? (source : Source) : Option UInt64 :=
  (natural? 18446744073709551616 source).map UInt64.ofNat

/-- An unsigned integer of 32 bits. -/
def uint32? (source : Source) : Option UInt32 :=
  (natural? 4294967296 source).map UInt32.ofNat

/-- A signed integer of 64 bits. -/
def int64? (source : Source) : Option Int64 :=
  match integer? source with
  | some n =>
    if -9223372036854775808 ≤ n ∧ n < 9223372036854775808 then some (Int64.ofInt n) else none
  | none => none

/-- An unsigned integer of 64 bits, or null for none. -/
def optionalUInt64? : Source → Option (Option UInt64)
  | .null => some none
  | source => (uint64? source).map some

/-- The configuration with one field set as a file says. -/
def put? (c : Config) (field : Field) (source : Source) : Option Config :=
  match field with
  | .url => (text? source).map fun url => { c with url }
  | .frameLimit => (uint64? source).map fun frameLimit => { c with frameLimit }
  | .reconnectLimit => (uint32? source).map fun reconnectLimit => { c with reconnectLimit }
  | .reconnectDelay => (uint64? source).map fun reconnectDelay => { c with reconnectDelay }
  | .lockTimeout => (uint64? source).map fun lockTimeout => { c with lockTimeout }
  | .lockPoll => (uint64? source).map fun lockPoll => { c with lockPoll }
  | .ackTimeout => (uint64? source).map fun ackTimeout => { c with ackTimeout }
  | .keepaliveInterval =>
    (optionalUInt64? source).map fun keepaliveInterval => { c with keepaliveInterval }
  | .defaultDepth => (int64? source).map fun defaultDepth => { c with defaultDepth }
  | .debug => (flag? source).map fun debug => { c with debug }

/-! ## Reading files -/

/-- Sets the fields of an object, of which the ones in `seen` may not come again. An entry of
another name is skipped, whatever is below it. -/
def putFields? (c : Config) (seen : List Field) : List (Option String × Source) → Option Config
  | [] => some c
  | (none, _) :: _ => none
  | (some name, source) :: rest =>
    match Field.ofName? name with
    | none => putFields? c seen rest
    | some field =>
      if field ∈ seen then none
      else
        match c.put? field source with
        | some c => putFields? c (field :: seen) rest
        | none => none

/-- Sets some fields from the items of an array. -/
def putItems? (c : Config) : List Field → List Source → Option Config
  | _, [] => some c
  | [], _ :: _ => none
  | field :: fields, source :: rest =>
    match c.put? field source with
    | some c => putItems? c fields rest
    | none => none

/-- The configuration that a tree writes. -/
def ofSource? : Source → Option Config
  | .object fields => putFields? default [] fields
  | .array items => putItems? default Field.all items
  | _ => none

/-- The configuration that a text writes, usable or not. -/
def ofText? (text : String) : Option Config := (Source.ofText? text).bind ofSource?

/-- Refuses a configuration that nothing could be sent with. -/
def validate (c : Config) : Except ConfigError Unit :=
  if c.frameLimit = 0 then .error .zeroFrameLimit
  else if c.lockPoll = 0 then .error .zeroLockPoll
  else .ok ()

/-- The configuration of a file, given its content if it exists. -/
def load (path : String) (content : Option String) : Except ConfigError Config := do
  match content with
  | none => throw (.missingFile path)
  | some text =>
    match ofText? text with
    | none => throw (.malformedFile path)
    | some c =>
      c.validate
      return c

/-- The content of a file that holds the configuration. -/
def save (c : Config) : String :=
  (Json.object (Field.all.map fun field => (field.name, c.get field))).renderIndented

end Config

end RemoteAgent
