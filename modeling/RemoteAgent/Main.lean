import RemoteAgent.Console
import RemoteAgent.Options
import RemoteAgent.Transport.Lines
import RemoteAgent.Transport.Memory

/-!
# The program

Serves one controller over the standard streams, one frame a line. The first line written is the URL
of the connection with its reconnect id. What `log` writes goes to the error stream.
-/

namespace RemoteAgent.Program

open Console (Method ConsoleWorld Timer)

/-- The agent of the program. -/
abbrev Served := Service MemoryChannel Method Empty

/-- The state of the program between two lines. -/
structure State where
  /-- The agent. -/
  service : Served
  /-- The answers to come. -/
  timers : List Timer
  /-- How many frames were written. -/
  written : Nat
  /-- How many URLs were announced. -/
  announced : Nat

/-- Lets the application do something. -/
def inConsole {α : Type} (p : Served) (act : ConsoleWorld → α × ConsoleWorld) : α × Served :=
  let (result, agent) := p.agent.inSession act
  (result, { p with agent })

/-- Lets a line in. -/
def deliver (p : Served) (line : String) : Served :=
  let link := p.agent.link
  let transport := MemoryChannel.deliver (.frame line) link.transport
  { p with agent := { p.agent with link := { link with transport } } }

/-- Gives all answers that are due, and goes on until everyone waits. -/
def giveDue (state : State) (now : Nat) : State :=
  let (due, later) := state.timers.partition fun timer => decide (timer.due ≤ now)
  let service := due.foldl (fun p timer => (inConsole p (Console.fire timer)).2) state.service
  { state with service := Schedule.settle service, timers := later }

/-- Lets the agent go on up to a time. -/
def advance (state : State) (now : Nat) : State :=
  let passed := now - state.service.agent.link.timer
  giveDue { state with service := Schedule.advance passed state.service } now

/-- Writes what has come up, and takes note of new timers. -/
def write (start : Console.Start) (state : State) (now : Nat) : IO State := do
  let channel := state.service.agent.link.transport
  let stream ← IO.getStdout
  for url in channel.opened.toList.drop state.announced do
    stream.write (Lines.write url)
  for frame in channel.sent.toList.drop state.written do
    stream.write (Lines.write frame)
  stream.flush
  let (lines, service) := inConsole state.service (Console.takeLines start.lines)
  for line in lines do
    IO.eprintln line
  let (timers, service) := inConsole service (Console.takeTimers start.timers now)
  return ⟨service, state.timers ++ timers, channel.sent.size, channel.opened.size⟩

/-- Serves line after line. When no line is left, the answers to come are awaited. -/
partial def serve (start : Console.Start) (began : Nat) (state : State) : IO Unit := do
  let now := (← IO.monoMsNow) - began
  let state ← write start (advance state now) now
  let line ← (← IO.getStdin).getLine
  if line.isEmpty then
    match state.timers with
    | [] => return
    | timer :: _ =>
      IO.sleep (UInt32.ofNat (timer.due - now))
      serve start began state
  else
    let texts := (Lines.read line.toUTF8.toList).reduceOption
    let service := Schedule.settle (texts.foldl deliver state.service)
    serve start began { state with service }

/-- The content of a file, if it can be read. -/
def content? (path : String) : IO (Option String) := do
  try
    return some (← IO.FS.readFile path)
  catch _ => return none

/-- The settings that a command line asks for. -/
def configOf (options : Options) : IO (Except ConfigError Config) := do
  let loaded ← match options.config with
    | some path => do pure (Config.load path (← content? path))
    | none => pure (.ok Config.default)
  return do
    let config := options.apply (← loaded)
    config.validate
    return config

/-- An id that is as good as new. -/
def newId : IO String := do
  let words ← (List.range 4).mapM fun _ => IO.rand 0 4294967295
  return "-".intercalate (words.map fun n => String.ofList (Nat.toDigits 16 n))

/-- Runs an agent with some settings. -/
def run (config : Config) : IO Unit := do
  let start := Console.start
  let agent := Agent.new config MemoryChannel.new start.root start.world (← newId)
  let (_, service) := (Service.ofAgent agent).start .run
  serve start (← IO.monoMsNow) ⟨Schedule.settle service, [], 0, 0⟩

end RemoteAgent.Program

/-- Serves a controller as the command line says. -/
def main (args : List String) : IO UInt32 := do
  match RemoteAgent.Options.none.parse args with
  | .error text => do
    IO.eprintln text
    return 2
  | .ok options =>
    match ← RemoteAgent.Program.configOf options with
    | .error error => do
      IO.eprintln (RemoteAgent.AgentError.config error).message
      return 1
    | .ok config => do
      RemoteAgent.Program.run config
      return 0
