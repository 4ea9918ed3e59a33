import RemoteAgent.Config

/-!
# Options of the command line

Options change single settings of the configuration that a file gives, or of the default one.
-/

namespace RemoteAgent

/-- What a command line says. -/
structure Options where
  /-- Where the controller is. -/
  url : Option String
  /-- The file with the settings. -/
  config : Option String
  /-- How many characters fit into a frame. -/
  frameLimit : Option UInt64
  /-- How many attempts to connect again are allowed. -/
  reconnectLimit : Option UInt32
  /-- Whether to trace. -/
  debug : Bool
  deriving DecidableEq

namespace Options

/-- A command line without options. -/
def none : Options := ⟨.none, .none, .none, .none, false⟩

/-- A number of an option, below a bound. -/
def number? (option text : String) (bound : Nat) : Except String Nat :=
  match text.toNat? with
  | some n =>
    if n < bound then .ok n else .error ("number out of range for " ++ option ++ ": " ++ text)
  | .none => .error ("invalid number for " ++ option ++ ": " ++ text)

/-- Reads the words of a command line. -/
def parse (options : Options) : List String → Except String Options
  | [] => .ok options
  | "--debug" :: rest => parse { options with debug := true } rest
  | "--url" :: url :: rest => parse { options with url := some url } rest
  | "-c" :: path :: rest => parse { options with config := some path } rest
  | "--config" :: path :: rest => parse { options with config := some path } rest
  | "--frame-limit" :: limit :: rest =>
    match number? "--frame-limit" limit 18446744073709551616 with
    | .ok n => parse { options with frameLimit := some (UInt64.ofNat n) } rest
    | .error text => .error text
  | "--reconnect-limit" :: limit :: rest =>
    match number? "--reconnect-limit" limit 4294967296 with
    | .ok n => parse { options with reconnectLimit := some (UInt32.ofNat n) } rest
    | .error text => .error text
  | word :: _ => .error ("unexpected argument: " ++ word)

/-- The configuration with the options put over it. -/
def apply (options : Options) (c : Config) : Config where
  url := options.url.getD c.url
  frameLimit := options.frameLimit.getD c.frameLimit
  reconnectLimit := options.reconnectLimit.getD c.reconnectLimit
  reconnectDelay := c.reconnectDelay
  lockTimeout := c.lockTimeout
  lockPoll := c.lockPoll
  ackTimeout := c.ackTimeout
  keepaliveInterval := c.keepaliveInterval
  defaultDepth := c.defaultDepth
  debug := c.debug || options.debug

end Options

end RemoteAgent
