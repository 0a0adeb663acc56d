import TagRental.Config.File
import TagRental.Daemon.Options
import TagRental.Daemon.SerialLine

/-!
# Starting the daemon

Settings come from three sources: the usual values, the configuration file, and the command line,
each of which takes precedence over the one before.  They are judged after the merge, so a bad value
in the file does no harm if the command line replaces it, and what the command line spoils is
reported like anything else.

A missing port is reported last: it is no fault of the settings, only of using them.
-/

namespace TagRental

/-- The settings with those of the command line in their place. -/
def Options.applyTo (o : Options) (s : Settings) : Settings :=
  { transport := { s.transport with
      mode := o.mode.getD s.transport.mode
      port := o.port <|> s.transport.port
      baudRate := o.baud.getD s.transport.baudRate }
    rental :=
      { defaultDuration := o.defaultDuration.getD s.rental.defaultDuration
        sweepInterval := o.sweepInterval.getD s.rental.sweepInterval } }

/-- Where the gateway is: on a serial line, or connecting to an address. -/
inductive LinkTarget where
  | serial (line : SerialLine)
  | tcp (address : String)
  deriving Repr, DecidableEq

/-- What the daemon runs with. -/
structure Startup where
  target : LinkTarget
  service : ServiceSettings
  console : Bool
  deriving Repr, DecidableEq

/-- Why a configuration file could not be loaded. -/
inductive LoadFault where
  | unreadable (fault : ChannelFault)
  | unfit (fault : ConfigFile.Fault)

/-- Why the daemon does not start. -/
inductive StartupFault where
  | config (path : String) (fault : LoadFault)
  | settings (fault : Settings.Fault)
  | noPort

/-- The sentence that reports why the daemon does not start. -/
def StartupFault.text : StartupFault → String
  | config path _ => "failed to load config " ++ path
  | settings fault => fault.text
  | noPort => "no gateway port configured: pass --port or set transport.port"

/-- A configuration file that was read, or why it was not. -/
abbrev ReadFile := String → Except ChannelFault Bytes

namespace Startup

/-- The settings of the configuration file, or the usual ones where none is named. -/
def fileSettings (read : ReadFile) : Option String → Except StartupFault Settings
  | none => .ok .usual
  | some path =>
    match read path with
    | .error fault => .error (.config path (.unreadable fault))
    | .ok bytes => (ConfigFile.ofBytes bytes).mapError fun f => .config path (.unfit f)

/-- The target that settings with a port name. -/
def targetOf (s : TransportSettings) (port : String) : LinkTarget :=
  match s.mode with
  | .serial => .serial (.ofSettings port s)
  | .tcp => .tcp port

/-- What the daemon runs with under merged settings. -/
def ofSettings (s : Settings) (console : Bool) : Except StartupFault Startup :=
  match s.fault? with
  | some fault => .error (.settings fault)
  | none =>
    match s.transport.port with
    | none => .error .noPort
    | some port => .ok ⟨targetOf s.transport port, s.service, console⟩

/-- What the daemon runs with under a command line. -/
def ofOptions (read : ReadFile) (o : Options) : Except StartupFault Startup := do
  let s ← fileSettings read o.config
  ofSettings (o.applyTo s) (!o.noConsole)

end Startup

end TagRental
