import TagRental.Service.Settings

/-!
# Settings of the daemon

What can be configured: the link to the gateway, with the line parameters of a serial port, and the
two times of the rental backend.  Every setting has a value where nothing is configured, and only
the port has none.

Settings are well formed by their types, with three exceptions: the two times and the baud rate must
not be zero.  `Settings.fault?` judges that, the times first, and is asked once all sources of
settings have been merged.
-/

namespace TagRental

/-- How the gateway is connected. -/
inductive LinkMode where
  | serial
  | tcp
  deriving Repr, DecidableEq

/-- The bits of a character on a serial line. -/
inductive DataBits where
  | five
  | six
  | seven
  | eight
  deriving Repr, DecidableEq

/-- The parity bit of a character on a serial line. -/
inductive Parity where
  | none
  | even
  | odd
  deriving Repr, DecidableEq

/-- The stop bits of a character on a serial line. -/
inductive StopBits where
  | one
  | two
  deriving Repr, DecidableEq

/-- The flow control of a serial line. -/
inductive FlowControl where
  | none
  | software
  | hardware
  deriving Repr, DecidableEq

/-- The name of a mode. -/
def LinkMode.name : LinkMode → String
  | serial => "Serial"
  | tcp => "Tcp"

/-- The name of a number of data bits. -/
def DataBits.name : DataBits → String
  | five => "Five"
  | six => "Six"
  | seven => "Seven"
  | eight => "Eight"

/-- The name of a parity. -/
def Parity.name : Parity → String
  | none => "None"
  | even => "Even"
  | odd => "Odd"

/-- The name of a number of stop bits. -/
def StopBits.name : StopBits → String
  | one => "One"
  | two => "Two"

/-- The name of a flow control. -/
def FlowControl.name : FlowControl → String
  | none => "None"
  | software => "Software"
  | hardware => "Hardware"

/-- The words that configure a mode. -/
def LinkMode.words : List (String × LinkMode) := [("serial", serial), ("tcp", tcp)]

/-- The words that configure a parity. -/
def Parity.words : List (String × Parity) := [("none", none), ("even", even), ("odd", odd)]

/-- The words that configure a flow control. -/
def FlowControl.words : List (String × FlowControl) :=
  [("none", none), ("software", software), ("hardware", hardware)]

/-- A number of bits that a serial line cannot have. -/
inductive BitsFault where
  | data (got : Nat)
  | stop (got : Nat)
  deriving Repr, DecidableEq

/-- The sentence that reports a number of bits. -/
def BitsFault.text : BitsFault → String
  | data got => s!"data_bits must be one of: 5, 6, 7, 8 (got {got})"
  | stop got => s!"stop_bits must be one of: 1, 2 (got {got})"

/-- So many data bits. -/
def DataBits.ofCount (n : Nat) : Except BitsFault DataBits :=
  if n = 5 then .ok five
  else if n = 6 then .ok six
  else if n = 7 then .ok seven
  else if n = 8 then .ok eight
  else .error (.data n)

/-- So many stop bits. -/
def StopBits.ofCount (n : Nat) : Except BitsFault StopBits :=
  if n = 1 then .ok one else if n = 2 then .ok two else .error (.stop n)

/-- The settings of the link.  The port is the device of a serial line, or the address to listen
on. -/
structure TransportSettings where
  mode : LinkMode
  port : Option String
  baudRate : UInt32
  dataBits : DataBits
  parity : Parity
  stopBits : StopBits
  flowControl : FlowControl
  deriving Repr, DecidableEq

/-- The settings of the rental backend, in seconds. -/
structure RentalSettings where
  defaultDuration : UInt64
  sweepInterval : UInt64
  deriving Repr, DecidableEq

/-- All settings. -/
structure Settings where
  transport : TransportSettings
  rental : RentalSettings
  deriving Repr, DecidableEq

/-- The link where nothing is configured. -/
def TransportSettings.usual : TransportSettings :=
  ⟨.serial, none, 115200, .eight, .none, .one, .none⟩

/-- The rental backend where nothing is configured. -/
def RentalSettings.usual : RentalSettings := ⟨Terms.usualDuration, 10⟩

namespace Settings

/-- The settings where nothing is configured. -/
def usual : Settings := ⟨.usual, .usual⟩

/-- What can be wrong with settings. -/
inductive Fault where
  | noDuration
  | noSweepInterval
  | noBaudRate
  deriving Repr, DecidableEq

/-- The sentence that reports a fault. -/
def Fault.text : Fault → String
  | noDuration => "rental.default_duration_secs must be greater than zero"
  | noSweepInterval => "rental.sweep_interval_secs must be greater than zero"
  | noBaudRate => "transport.baud_rate must be greater than zero"

/-- The first fault of the settings. -/
def fault? (s : Settings) : Option Fault :=
  if s.rental.defaultDuration = 0 then some .noDuration
  else if s.rental.sweepInterval = 0 then some .noSweepInterval
  else if s.transport.baudRate = 0 then some .noBaudRate
  else none

/-- The settings of the service. -/
def service (s : Settings) : ServiceSettings :=
  { defaultDuration := s.rental.defaultDuration
    sweepInterval := .ofSeconds s.rental.sweepInterval.toNat
    receive := .usual }

end Settings

end TagRental
