import TagRental.Decimal.Whole
import TagRental.Link.Fault

/-!
# The address to listen on

An address is a host and a port with a colon between them.  The host may hold colons of its own, so
the port is what follows the last one: a number of sixteen bits, perhaps with a plus sign in front
of it.  An address without any colon is none.
-/

namespace TagRental

/-- A host and a port of it. -/
structure ListenAddress where
  host : String
  port : Nat
  deriving Repr, DecidableEq

namespace ListenAddress

/-- The port that a text writes. -/
def port? (cs : List Char) : Option Nat := (Decimal.unsigned? cs).filter fun n => n < UInt16.size

/-- What stands in front of the last colon and what follows it, if there is one. -/
def atLastColon? (cs : List Char) : Option (List Char × List Char) :=
  match cs.reverse.dropWhile (· != ':') with
  | [] => none
  | _ :: host => some (host.reverse, (cs.reverse.takeWhile (· != ':')).reverse)

/-- The address that a text writes. -/
def ofText (address : String) : Except ChannelFault ListenAddress :=
  match atLastColon? address.toList with
  | none => .error ⟨.invalidInput, "invalid socket address"⟩
  | some (host, cs) =>
    match port? cs with
    | none => .error ⟨.invalidInput, "invalid port value"⟩
    | some port => .ok ⟨String.ofList host, port⟩

/-- What is wrong with an address. -/
def fault? (address : String) : Option ChannelFault :=
  match ofText address with
  | .error fault => some fault
  | .ok _ => none

end ListenAddress
end TagRental
