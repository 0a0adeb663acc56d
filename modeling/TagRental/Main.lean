import Std.Async
import Std.Sync
import TagRental.Daemon.Report
import TagRental.Service.Attendance

/-!
# The daemon

What a running daemon needs from the system: its command line, its files, the gateway's connection
or device, the operator's input, and the time.  What is done with all that is decided elsewhere;
here it is only fetched and handed on.

The link is attended to on a thread of its own, and `link` is the state that it shares with the
operator's dialogue on the main thread.  Both the operator and an interrupt stop the link by an
event like any other.

## What cannot be interrupted

A thread that reads from the operator or from a serial device comes back only when something has
arrived there.  An interrupt during the dialogue therefore takes effect after the line that is being
typed, and the daemon with a silent device ends when the device is unplugged or says something.

The parameters of a serial line have to be set on the device beforehand: opening a file leaves them
as they are.
-/

namespace TagRental
namespace Daemon

open Std.Async

/-! ## Failures of the system -/

/-- The number and the words of a failure. -/
def failureParts? : IO.Error → Option (UInt32 × String)
  | .noFileOrDirectory _ code words => some (code, words)
  | .interrupted _ code words => some (code, words)
  | .alreadyExists _ code words => some (code, words)
  | .invalidArgument _ code words => some (code, words)
  | .permissionDenied _ code words => some (code, words)
  | .resourceExhausted _ code words => some (code, words)
  | .inappropriateType _ code words => some (code, words)
  | .noSuchThing _ code words => some (code, words)
  | .otherError code words => some (code, words)
  | .resourceBusy code words => some (code, words)
  | .resourceVanished code words => some (code, words)
  | .unsupportedOperation code words => some (code, words)
  | .hardwareFault code words => some (code, words)
  | .unsatisfiedConstraints code words => some (code, words)
  | .illegalOperation code words => some (code, words)
  | .protocolError code words => some (code, words)
  | .timeExpired code words => some (code, words)
  | .unexpectedEof | .userError _ => none

/-- The number of a failure, whichever sign it comes with. -/
def failureNumber (code : UInt32) : Nat := code.toInt32.toInt.natAbs

/-- The kind of a failure. -/
def failureKind : IO.Error → ChannelFault.Kind
  | .noFileOrDirectory .. => .notFound
  | .resourceVanished .. => .brokenPipe
  | .invalidArgument .. => .invalidInput
  | _ => .other

/-- A failure of the system as a failure of a channel. -/
def channelFault (e : IO.Error) : ChannelFault :=
  ⟨failureKind e, match failureParts? e with
    | some (code, words) => words ++ " (os error " ++ toString (failureNumber code) ++ ")"
    | none => e.toString⟩

/-- Logs what an operator should know. -/
def log (notices : List Notice) : IO Unit := do
  for n in notices do IO.eprintln n.text

/-! ## Reading -/

/-- Reads byte after byte up to the end of a line, but no more than so many bytes if there is a
limit.  Nothing is read only at the end of the input. -/
partial def readLine (next : IO ByteArray) (limit? : Option Nat) (line : Bytes) : IO Bytes := do
  if limit?.any (· ≤ line.length) then return line.reverse
  match (← next).toList with
  | [] => return line.reverse
  | byte :: _ =>
    if byte = delimiter then return (byte :: line).reverse
    readLine next limit? (byte :: line)

/-- Reads the configuration file that a command line names. -/
def readConfig (o : Options) : IO ReadFile := do
  match o.config with
  | none => return fun _ => .ok []
  | some path =>
    let contents ← try
        let bytes ← IO.FS.withFile path .read fun file => file.readBinToEnd
        pure (.ok bytes.toList)
      catch e => pure (.error (channelFault e))
    return fun _ => contents

/-! ## Transports -/

/-- What a gateway is reached by. -/
structure Transport where
  read : Async Bytes
  deliver : Bytes → Async Unit

/-- A connection. -/
def Transport.ofConnection (c : TCP.Socket.Client) : Transport where
  read := do
    match ← c.recv? (UInt64.ofNat Loop.readSize) with
    | none => return []
    | some bytes => return bytes.toList
  deliver bytes := c.send ⟨bytes.toArray⟩

/-- A device, opened once for reading and once for writing. -/
def Transport.ofDevice (input output : IO.FS.Handle) : Transport where
  read := do
    let reading : AsyncTask Bytes ←
      IO.asTask (readLine (input.read 1) (some Loop.readSize) []) .dedicated
    await reading
  deliver bytes := do
    output.write ⟨bytes.toArray⟩
    output.flush

/-- The events of a link. -/
abbrev Events := Std.Channel LinkEvent

/-- Opens a serial device, again and again until it opens or an event says to stop. -/
partial def openDevice (l : SerialLine) (events : Events) (failures : Nat) :
    Async (Option Transport) := do
  try
    let input ← IO.FS.Handle.mk l.device .read
    let output ← IO.FS.Handle.mk l.device .append
    return some (.ofDevice input output)
  catch e =>
    let delay := l.delayAfter failures
    let reason := ((failureParts? e).map Prod.snd).getD e.toString
    log [.openRetried l.device l.baudRate.toNat reason delay]
    let isStopped ← Selectable.one #[
      .case events.recvSelector fun _ => pure true,
      .case (← Selector.sleep (.ofNat delay.millis)) fun _ => pure false]
    if isStopped then return none
    openDevice l events (failures + 1)

/-- The addresses of a host. -/
def addressesOf (host : String) : IO (Array Std.Net.IPAddr) := do
  let bare := String.ofList (host.toList.filter fun c => c != '[' && c != ']')
  match Std.Net.IPv4Addr.ofString host, Std.Net.IPv6Addr.ofString bare with
  | some a, _ => return #[.v4 a]
  | none, some a => return #[.v6 a]
  | none, none => Async.block (DNS.getAddrInfo host "")

/-- Listens at the first of some addresses at which this is possible. -/
def listenAtFirst (port : UInt16) : List Std.Net.IPAddr → IO TCP.Socket.Server
  | [] => throw (.userError "could not resolve to any address")
  | a :: others => do
    try
      let server ← TCP.Socket.Server.mk
      server.bind (match a with
        | .v4 a => .v4 ⟨a, port⟩
        | .v6 a => .v6 ⟨a, port⟩)
      server.listen 1024
      return server
    catch e => if others.isEmpty then throw e else listenAtFirst port others

/-- Listens at an address. -/
def listen (a : ListenAddress) : IO TCP.Socket.Server := do
  listenAtFirst (UInt16.ofNat a.port) (← addressesOf a.host).toList

/-- Waits for a gateway to connect, unless an event says to stop. -/
def awaitGateway (server : TCP.Socket.Server) (events : Events) : Async (Option Transport) := do
  let connection? ← Selectable.one #[
    .case server.acceptSelector fun c => pure (some c),
    .case events.recvSelector fun _ => pure none]
  match connection? with
  | none => return none
  | some c =>
    try c.noDelay catch e =>
      IO.eprintln ("tcp: failed to set nodelay err=" ++ (channelFault e).reason)
    return some (.ofConnection c)

/-! ## The link -/

/-- The seconds since the epoch. -/
def epochSeconds : IO UInt64 := do
  return UInt64.ofNat (← Std.Time.Timestamp.now).toSecondsSinceUnixEpoch.val.toNat

/-- Starts something of which an event tells the end. -/
def begin (events : Events) (activity : Async LinkEvent) : Async Unit :=
  discard <| async do
    await (← events.send (← activity))

/-- Reads once. -/
def arrival (t : Transport) : Async LinkEvent := do
  try
    match ← t.read with
    | [] => return .arrived .ended
    | bytes => return .arrived (.chunk bytes)
  catch e => return .arrived (.failed (channelFault e).reason)

/-- Delivers bytes. -/
def delivery (t : Transport) (bytes : Bytes) : Async LinkEvent := do
  try
    t.deliver bytes
    return .delivered
  catch e => return .refused (channelFault e)

/-- Attends to a link that was opened at the given moment, until there is nothing left to do. -/
partial def attend (link : Std.Mutex Attended) (events : Events) (t : Transport) (opened : Nat)
    (event : LinkEvent) : Async Unit := do
  let clock ← epochSeconds
  let millis := (← IO.monoMsNow) - opened
  let errands ← link.atomically (modifyGet fun a => (a.round millis clock event).swap)
  log errands.notices
  if errands.isOver then return
  if !errands.deliver.isEmpty then begin events (delivery t errands.deliver)
  if errands.read then begin events (arrival t)
  let next ← match errands.wake? with
    | none => await (← events.recv)
    | some wake =>
      Selectable.one #[
        .case events.recvSelector fun e => pure e,
        .case (← Selector.sleep (.ofNat (wake - millis))) fun _ => pure .timeUp]
  attend link events t opened next

/-- Waits for the gateway and attends to its link. -/
def serve (link : Std.Mutex Attended) (events : Events) (gateway : Async (Option Transport)) :
    Async Unit := do
  match ← gateway with
  | none => return
  | some t => attend link events t (← IO.monoMsNow) .opened

/-! ## The operator -/

/-- Holds the dialogue; returns whether the operator asked to stop. -/
partial def converse (link : Std.Mutex Attended) : IO Bool := do
  let input ← IO.getStdin
  let output ← IO.getStdout
  let typed ← readLine (input.read 1) none []
  if typed.isEmpty then return false
  let dialogue ← link.atomically (modifyGet fun a => (a.operate typed).swap)
  output.write ⟨dialogue.printed.bytes.toArray⟩
  output.flush
  match dialogue.ending with
  | .exit => return true
  | .failed fault =>
    IO.eprintln ("console: io error err=" ++ fault.reason)
    return false
  | .endOfInput | .cancelled | .waiting => converse link

/-! ## The whole run -/

/-- Serves a gateway until the daemon is told to stop. -/
def runWith (s : Startup) (kind : LinkKind) (events : Events)
    (gateway : Async (Option Transport)) : IO Unit := do
  let link ← Std.Mutex.new (Attended.start s.service kind)
  let interrupt ← (← Signal.Waiter.mk .sigint false).wait
  discard <| BaseIO.mapTask (fun _ => discard (events.send .stop)) interrupt
  let serving ← Async.toIO (serve link events gateway)
  if s.console then
    if ← converse link then discard (events.send .stop)
  Async.block (await serving)

/-- Starts the daemon. -/
def run (s : Startup) : IO UInt32 := do
  let events ← Std.Channel.new
  match s.target with
  | .serial line =>
    runWith s .persistent events (openDevice line events 0)
    return 0
  | .tcp address =>
    let failed (fault : ChannelFault) : IO UInt32 := do
      IO.eprint (failureReport (acceptSummary address) (some fault.reason))
      return 1
    match ListenAddress.ofText address with
    | .error fault => failed fault
    | .ok a =>
      match ← EIO.toBaseIO (listen a) with
      | .error e => failed (channelFault e)
      | .ok server =>
        runWith s .connection events (awaitGateway server events)
        return 0

/-- How the daemon is called. -/
def usage : String :=
  "Usage: tag-rental [--port <PORT>] [--mode <serial|tcp>] [--baud <BAUD>] [--config <FILE>]\n" ++
  "                  [--sweep-interval-secs <SECS>] [--default-duration-secs <SECS>]\n" ++
  "                  [--no-console]\n"

end Daemon
end TagRental

open TagRental in
/-- The daemon. -/
def main (args : List String) : IO UInt32 := do
  match Options.parse args with
  | .error fault =>
    if fault = .help then IO.print Daemon.usage else IO.eprint Daemon.usage
    return UInt32.ofNat fault.exitCode
  | .ok o =>
    match Startup.ofOptions (← Daemon.readConfig o) o with
    | .error fault =>
      IO.eprint (Daemon.failureReport fault.text fault.cause?)
      return 1
    | .ok s => Daemon.run s
