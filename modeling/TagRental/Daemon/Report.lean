import TagRental.Console.Dialogue
import TagRental.Daemon.ListenAddress
import TagRental.Daemon.Startup

/-!
# How the daemon ends

The daemon ends with an exit code and, if it failed, with a report on its error output: what it was
doing, and what was in the way.  Zero means that it was told to stop, one that it could not start or
go on, two that its command line was wrong.

`Daemon.unattended` is a whole run in which no gateway ever turns up: the device never opens, or
nobody connects.  Then nothing happens but the operator's dialogue, and the daemon is told to stop
at the end of it.
-/

namespace TagRental

/-- What was in the way when a configuration file was loaded. -/
def LoadFault.text : LoadFault → String
  | unreadable fault => fault.reason
  | unfit .notText => ConfigFile.notTextFault.reason
  | unfit .notDocument => "TOML parse error"
  | unfit (.unfit fault) => fault.text

/-- What was in the way, if it is more than the fault itself says. -/
def StartupFault.cause? : StartupFault → Option String
  | config _ fault => some fault.text
  | settings _ | noPort => none

namespace Daemon

/-- The end of a run. -/
structure Exit where
  code : Nat
  printed : Bytes
  report : String
  deriving Repr, DecidableEq

/-- The report of a failure, with what was in the way, indented. -/
def failureReport (summary : String) (cause? : Option String) : String :=
  "Error: " ++ summary ++ "\n" ++
    match cause? with
    | none => ""
    | some cause => "\nCaused by:\n    " ++ cause ++ "\n"

/-- What the daemon was doing when it could not listen. -/
def acceptSummary (address : String) : String := "failed to accept gateway on " ++ address

/-- A run that a failure ends before anything is printed. -/
def failed (summary : String) (cause? : Option String) : Exit :=
  ⟨1, [], failureReport summary cause?⟩

/-- The fault of the target's address, if it is one. -/
def targetFault? : LinkTarget → Option (String × ChannelFault)
  | .serial _ => none
  | .tcp address => (ListenAddress.fault? address).map fun f => (address, f)

/-- The operator's dialogue on an output that takes everything. -/
def dialogue (input : Bytes) : Console.Dialogue :=
  Console.Dialogue.run .unlimited .empty input .endOfInput

/-- A run in which no gateway turns up. -/
def unattended (read : ReadFile) (o : Options) (input : Bytes) : Exit :=
  match Startup.ofOptions read o with
  | .error fault => failed fault.text fault.cause?
  | .ok s =>
    match targetFault? s.target with
    | some (address, fault) => failed (acceptSummary address) (some fault.reason)
    | none => ⟨0, if s.console then (dialogue input).printed.bytes else [], ""⟩

end Daemon

end TagRental
