import TagRental.Config.Settings
import TagRental.Rental.Notice
import TagRental.Text.Quoted

/-!
# The serial line

A serial device may be missing when the daemon starts --- not plugged in yet, or in use --- so it is
opened again and again, with a growing delay between the attempts, until it opens or the daemon is
told to stop.  The delay starts at `reopen`, doubles after every failure and stays at `maxReopen`,
which is never below the first.

What an attempt comes to is not known here: it is a function of the number of the attempt.
-/

namespace TagRental

/-- A serial device, the parameters of its line, and the delays between attempts to open it. -/
structure SerialLine where
  device : String
  baudRate : UInt32
  dataBits : DataBits
  parity : Parity
  stopBits : StopBits
  flowControl : FlowControl
  reopen : Duration
  maxReopen : Duration
  deriving Repr, DecidableEq

namespace SerialLine

/-- The line of a device with configured parameters. -/
def ofSettings (device : String) (s : TransportSettings) : SerialLine :=
  { device := device
    baudRate := s.baudRate
    dataBits := s.dataBits
    parity := s.parity
    stopBits := s.stopBits
    flowControl := s.flowControl
    reopen := .ofMillis 500
    maxReopen := .ofSeconds 5 }

/-- The line with other delays; the longest is at least the first. -/
def withReopenDelays (l : SerialLine) (first longest : Duration) : SerialLine :=
  { l with reopen := first, maxReopen := longest.atLeast first }

/-- The line as diagnostics show it. -/
def text (l : SerialLine) : String :=
  "SerialLink \x7b device: " ++ Text.quoted l.device ++
  ", baud_rate: " ++ toString l.baudRate ++
  ", data_bits: " ++ l.dataBits.name ++
  ", parity: " ++ l.parity.name ++
  ", stop_bits: " ++ l.stopBits.name ++
  ", flow_control: " ++ l.flowControl.name ++
  ", reconnect_backoff: " ++ l.reopen.text ++
  ", max_reconnect_backoff: " ++ l.maxReopen.text ++ " \x7d"

/-- The delay after so many failures in a row. -/
def delayAfter (l : SerialLine) : Nat → Duration
  | 0 => l.reopen
  | n + 1 => .nextDelay (l.delayAfter n) l.maxReopen

/-- Attempts to open the line: whether the last one succeeded, the time when they ended, and what
was logged. -/
structure Opening where
  opened : Bool
  millis : Nat
  notices : List Notice

/-- Why attempt number `n` fails; nothing means that it succeeds. -/
abbrev Attempts := Nat → Option String

/-- Attempts from number `n` on, at a time in milliseconds, until one succeeds or the daemon is told
to stop.  The last argument bounds the number of attempts. -/
def attemptFrom (l : SerialLine) (attempts : Attempts) (stop : Nat) (n now : Nat) : Nat → Opening
  | 0 => ⟨false, stop, []⟩
  | fuel + 1 =>
    if stop ≤ now then ⟨false, stop, []⟩
    else
      match attempts n with
      | none => ⟨true, now, []⟩
      | some reason =>
        let delay := l.delayAfter n
        let rest := l.attemptFrom attempts stop (n + 1) (now + delay.millis) fuel
        { rest with notices :=
            .openRetried l.device l.baudRate.toNat reason delay :: rest.notices }

/-- Opens the line; the daemon is told to stop at the given time. -/
def openUntil (l : SerialLine) (attempts : Attempts) (stop : Nat) : Opening :=
  l.attemptFrom attempts stop 0 0 stop

end SerialLine

end TagRental
