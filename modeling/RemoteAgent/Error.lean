import RemoteAgent.PropertyKey
import RemoteAgent.Text.Duration
import RemoteAgent.Text.Hex

/-!
# Faults

Every fault is a cause, and `message` is its one wording. `AgentError` joins the kinds of faults
where they meet: a message that fails, and a call on the connection.
-/

namespace RemoteAgent

/-- The wording of a fault in hexadecimal text. The byte is shown as the character of its number. -/
def HexError.message : HexError → String
  | .oddLength => "Odd number of digits"
  | .invalidDigit byte position =>
    "Invalid character " ++ Text.quotedSingle (Char.ofNat byte.toNat) ++ " at position " ++
      toString position

/-! ## Reading messages and commands -/

/-- What a tagged list was read as. -/
inductive Node where
  | message
  | command
  deriving DecidableEq

/-- The word for a node in diagnostics. -/
def Node.word : Node → String
  | message => "message"
  | command => "command"

/-- What is wrong with the operands of a tag. -/
inductive OperandFault where
  /-- There are too few. -/
  | missing (position : Nat)
  /-- One should be a string. -/
  | notText (position : Nat)
  /-- The operand should be an object. -/
  | notObject
  /-- The operand should be an array. -/
  | notList
  /-- The depth is no number. -/
  | notDepth
  deriving DecidableEq

/-- The wording of a fault in operands. -/
def OperandFault.message : OperandFault → String
  | missing position => "missing operand " ++ toString position
  | notText position => "operand " ++ toString position ++ " must be a string"
  | notObject => "expected an object of commands"
  | notList => "expected a list of commands"
  | notDepth => "depth must be a number"

/-- Why a JSON value is no message or command. -/
inductive ParseError where
  /-- It is no array. -/
  | notAnArray (node : Node) (found : String)
  /-- It is an empty array. -/
  | missingTag (node : Node)
  /-- No message or command has this tag. -/
  | unknownTag (node : Node) (tag : String)
  /-- The operands do not fit the tag. -/
  | malformed (tag : String) (fault : OperandFault)
  deriving DecidableEq

/-- The wording of a parse error. -/
def ParseError.message : ParseError → String
  | notAnArray node found => node.word ++ " json should be array: " ++ found
  | missingTag node => "empty " ++ node.word ++ " array has no indicator"
  | unknownTag node tag => "no " ++ node.word ++ " parser for indicator: " ++ tag
  | malformed tag fault => "malformed " ++ tag ++ " operands: " ++ fault.message

/-! ## Evaluation -/

/-- A place of a command whose value must be present. -/
inductive Position where
  | target
  | callable
  deriving DecidableEq

/-- The word for a position in diagnostics. -/
def Position.word : Position → String
  | target => "target"
  | callable => "callable"

/-- What could not be assigned into. -/
inductive Unassignable where
  /-- A value without properties to assign. -/
  | value (description : String)
  /-- An array, under a key that is no index. -/
  | arrayKey (key : PropertyKey)
  /-- An array, too far behind its end. -/
  | arrayGap (length index : Nat)
  /-- A host object that keeps its properties. -/
  | hostProperty (description : String) (key : PropertyKey)
  deriving DecidableEq

/-- The wording of what could not be assigned into. -/
def Unassignable.message : Unassignable → String
  | value description => description
  | arrayKey key => "array at key " ++ key.render
  | arrayGap length index => "array of length " ++ toString length ++ " at index " ++ toString index
  | hostProperty description key => description ++ " (property " ++ key.render ++ ")"

/-- Why a command has no value. -/
inductive EvalError where
  /-- No value is cached under the id. -/
  | missingReference (id : String)
  /-- A value that must be present is absent. -/
  | absent (position : Position) (found : String)
  /-- The value has no properties to read. -/
  | notIndexable (description : String)
  /-- The assignment is impossible. -/
  | notAssignable (target : Unassignable)
  /-- The value is no function. -/
  | notCallable (description : String)
  /-- The value names no property. -/
  | invalidKey (description : String)
  /-- A text is not the hexadecimal form of bytes. -/
  | hex (error : HexError)
  /-- The application behind the agent raised an error of its own. -/
  | host (text : String)
  deriving DecidableEq

/-- The wording of an evaluation error. -/
def EvalError.message : EvalError → String
  | missingReference id => "no such object found for id: " ++ id
  | absent position found => position.word ++ " evaluated to a falsy value: " ++ found
  | notIndexable description => "cannot index into " ++ description
  | notAssignable target => "cannot assign into " ++ target.message
  | notCallable description => description ++ " is not callable"
  | invalidKey description => "invalid property key: " ++ description
  | hex error => "hex decode failed: " ++ error.message
  | host text => text

/-! ## The connection -/

/-- Why a text could not be read, or a value not written. -/
inductive CodecError where
  /-- The text is no JSON; its start is kept. -/
  | decode (excerpt : String)
  /-- The value has no JSON form, for want of a text to use as a key. -/
  | keyNotText
  deriving DecidableEq

/-- The wording of a codec error. -/
def CodecError.message : CodecError → String
  | decode excerpt => "failed to parse JSON: " ++ excerpt
  | keyNotText => "failed to encode JSON: key must be a string"

/-- What can go wrong between the agent and the far end. -/
inductive TransportError where
  /-- The reconnect attempts are used up. -/
  | reconnectLimit (limit : Nat)
  /-- Another send held the lock for too long. -/
  | lockTimeout (limit : Duration)
  /-- A chunk was not acknowledged in time. -/
  | ackTimeout (limit : Duration)
  /-- A frame starts with no known indicator; its start is kept. -/
  | unknownIndicator (excerpt : String)
  /-- The connection has been halted. -/
  | halted
  /-- The channel is not open. -/
  | closed
  /-- The address cannot be understood. -/
  | invalidUrl (url : String)
  /-- The channel itself failed. -/
  | io (detail : String)
  deriving DecidableEq

/-- The wording of a transport error. -/
def TransportError.message : TransportError → String
  | reconnectLimit limit => "reconnect limit of " ++ toString limit ++ " attempts exceeded"
  | lockTimeout limit => "timed out after " ++ limit.render ++ " waiting for send lock"
  | ackTimeout limit => "timed out after " ++ limit.render ++ " waiting for acknowledgment"
  | unknownIndicator excerpt => "unknown frame indicator: " ++ excerpt
  | halted => "connection is halted"
  | closed => "transport is closed"
  | invalidUrl url => "invalid transport url: " ++ url
  | io detail => "IO error: " ++ detail

/-- A deferred value was used twice. -/
inductive DeferredError where
  | alreadyBound
  | alreadySettled
  deriving DecidableEq

/-- The wording of a second use. -/
def DeferredError.message : DeferredError → String
  | alreadyBound => "deferred value is already bound"
  | alreadySettled => "deferred value is already settled"

/-- Why a configuration, or a use of it, is refused. -/
inductive ConfigError where
  /-- The file does not exist. -/
  | missingFile (path : String)
  /-- The file holds no configuration. -/
  | malformedFile (path : String)
  /-- Frames would hold nothing. -/
  | zeroFrameLimit
  /-- Waiting for the send lock would not let time pass. -/
  | zeroLockPoll
  /-- The connection is driven already. -/
  | alreadyRunning
  deriving DecidableEq

/-- The wording of a configuration error. -/
def ConfigError.message : ConfigError → String
  | missingFile path => "failed to read " ++ path ++ ": No such file or directory (os error 2)"
  | malformedFile path => "failed to deserialize " ++ path
  | zeroFrameLimit => "frame_limit must be positive"
  | zeroLockPoll => "lock_poll_ms must be positive"
  | alreadyRunning => "pipeline is already running"

/-! ## All of them -/

/-- Any fault of the agent. -/
inductive AgentError where
  | parse (error : ParseError)
  | eval (error : EvalError)
  | codec (error : CodecError)
  | transport (error : TransportError)
  | deferred (error : DeferredError)
  | config (error : ConfigError)
  deriving DecidableEq

/-- The wording of a fault, with the area that it comes from. -/
def AgentError.message : AgentError → String
  | parse error => "parse error: " ++ error.message
  | eval error => "evaluation error: " ++ error.message
  | codec error => "codec error: " ++ error.message
  | transport error => "transport error: " ++ error.message
  | deferred error => "protocol error: " ++ error.message
  | config error => "configuration error: " ++ error.message

end RemoteAgent
