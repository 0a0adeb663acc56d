import TagRental.Config.Settings
import TagRental.Decimal.Whole

/-!
# The command line

The daemon takes options only, each at most once.  An option with a value takes it from behind an
equals sign or from the next word; a word that begins with a hyphen is never a value, except the
hyphen alone.

## When a value is judged

A value in a word of its own is held back: it is judged when the next known option turns up or the
line ends, and never if the line turns out to be wrong for another reason first.  So a word that
cannot stand where it stands is reported in preference to a bad value in front of it.  A value
behind an equals sign is judged at once.
-/

namespace TagRental

/-- What is wrong with a command line; asking for help counts, since nothing else is done then. -/
inductive UsageFault where
  | unknownArgument
  | invalidValue
  | badNumber
  | repeated
  | valueForFlag
  | help
  deriving Repr, DecidableEq

/-- The exit code of the daemon for a command line that is not carried out. -/
def UsageFault.exitCode : UsageFault → Nat
  | help => 0
  | _ => 2

/-- The options. -/
inductive OptionName where
  | port
  | mode
  | baud
  | config
  | sweepInterval
  | defaultDuration
  | noConsole
  | help
  deriving Repr, DecidableEq

/-- How options are spelt, without the two hyphens. -/
def OptionName.words : List (String × OptionName) :=
  [("port", port), ("mode", mode), ("baud", baud), ("config", config),
    ("sweep-interval-secs", sweepInterval), ("default-duration-secs", defaultDuration),
    ("no-console", noConsole), ("help", help)]

/-- The option with the given spelling. -/
def OptionName.ofWord? (w : String) : Option OptionName :=
  (words.find? fun e => e.1 == w).map Prod.snd

/-- Does the option take a value? -/
def OptionName.takesValue : OptionName → Bool
  | noConsole | help => false
  | _ => true

/-- The options that were given. -/
structure Options where
  port : Option String
  mode : Option LinkMode
  baud : Option UInt32
  config : Option String
  sweepInterval : Option UInt64
  defaultDuration : Option UInt64
  noConsole : Bool
  deriving Repr, DecidableEq

namespace Options

/-- No options. -/
def empty : Options := ⟨none, none, none, none, none, none, false⟩

/-! ## Numbers -/

/-- A baud rate.  Its sign does not matter if it is zero. -/
def baud? (v : String) : Option UInt32 :=
  (Decimal.signed? v.toList).bind fun n =>
    if 0 ≤ n ∧ n.toNat < UInt32.size then some (UInt32.ofNat n.toNat) else none

/-- A number of seconds. -/
def seconds? (v : String) : Option UInt64 :=
  (Decimal.unsigned? v.toList).bind fun n => if n < UInt64.size then some (UInt64.ofNat n) else none

/-! ## One option -/

/-- Takes in an option that must not have been given yet. -/
def once {α : Type} (given : Option α) (fault : UsageFault) (value? : Option α)
    (put : α → Options) : Except UsageFault Options :=
  match given, value? with
  | some _, _ => .error .repeated
  | none, none => .error fault
  | none, some a => .ok (put a)

/-- Takes in an option with its value. -/
def withValue (o : Options) (name : OptionName) (v : String) : Except UsageFault Options :=
  match name with
  | .port => once o.port .invalidValue (some v) fun a => { o with port := some a }
  | .mode =>
    once o.mode .invalidValue ((LinkMode.words.find? fun e => e.1 == v).map Prod.snd) fun a =>
      { o with mode := some a }
  | .baud => once o.baud .badNumber (baud? v) fun a => { o with baud := some a }
  | .config =>
    once o.config .invalidValue (if v.isEmpty then none else some v) fun a =>
      { o with config := some a }
  | .sweepInterval =>
    once o.sweepInterval .badNumber (seconds? v) fun a => { o with sweepInterval := some a }
  | .defaultDuration =>
    once o.defaultDuration .badNumber (seconds? v) fun a => { o with defaultDuration := some a }
  | .noConsole | .help => .error .valueForFlag

/-- Takes in an option without a value. -/
def withFlag (o : Options) : OptionName → Except UsageFault Options
  | .noConsole => if o.noConsole then .error .repeated else .ok { o with noConsole := true }
  | .help => .error .help
  | _ => .error .invalidValue

end Options

/-! ## The whole line -/

/-- A command line in progress: the options so far, the option whose value is due or held back, and
whether the words behind are no options any more. -/
structure CommandLine where
  options : Options
  pending : Option (OptionName × Option String)
  onlyWords : Bool
  deriving Repr, DecidableEq

namespace CommandLine

/-- Nothing read yet. -/
def start : CommandLine := ⟨.empty, none, false⟩

/-- Takes in the option that is held back. -/
def settle (l : CommandLine) : Except UsageFault Options :=
  match l.pending with
  | none => .ok l.options
  | some (_, none) => .error .invalidValue
  | some (name, some v) => l.options.withValue name v

/-- A known option, with the value behind its equals sign if it has one. -/
def option (l : CommandLine) (name : OptionName) (attached : Option String) :
    Except UsageFault CommandLine :=
  match name.takesValue, attached with
  | false, some _ => .error .valueForFlag
  | false, none => do
    let o ← (← l.settle).withFlag name
    return { l with options := o, pending := none }
  | true, some v => do
    let o ← (← l.settle).withValue name v
    return { l with options := o, pending := none }
  | true, none => do
    let o ← l.settle
    return { l with options := o, pending := some (name, none) }

/-- A word behind two hyphens: the spelling of an option, and what follows its equals sign. -/
def longWord (l : CommandLine) (cs : List Char) : Except UsageFault CommandLine :=
  let spelling := String.ofList (cs.takeWhile (· != '='))
  let attached := match cs.dropWhile (· != '=') with
    | [] => none
    | _ :: v => some (String.ofList v)
  match OptionName.ofWord? spelling with
  | none => .error .unknownArgument
  | some name => l.option name attached

/-- Takes one word. -/
def step (l : CommandLine) (w : String) : Except UsageFault CommandLine :=
  if l.onlyWords then .error .unknownArgument
  else
    match w.toList with
    | ['-', '-'] => .ok { l with onlyWords := true }
    | '-' :: '-' :: cs => l.longWord cs
    | '-' :: 'h' :: _ => l.option .help none
    | '-' :: _ :: _ => .error .unknownArgument
    | _ =>
      match l.pending with
      | some (name, none) => .ok { l with pending := some (name, some w) }
      | _ => .error .unknownArgument

end CommandLine

/-- Reads a command line, given as its words. -/
def Options.parse (words : List String) : Except UsageFault Options := do
  (← words.foldlM CommandLine.step .start).settle

end TagRental
