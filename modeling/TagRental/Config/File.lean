import TagRental.Config.Settings
import TagRental.Schema.Fitting
import TagRental.Text.Utf8
import TagRental.Toml.Document

/-!
# The configuration file

The file is a TOML document with two tables, one for the link and one for the rental backend.  What
it does not mention keeps its usual value.  Nothing else may stand in it: a misspelt name is a
fault, not a setting that has no effect.
-/

namespace TagRental
namespace ConfigFile

/-- The fields of the table of the link. -/
def transportFields : List (Schema.Field TransportSettings) :=
  [ .of "mode" (Schema.choice LinkMode.words) fun s v => { s with mode := v },
    .of "port" Schema.text fun s v => { s with port := some v },
    .of "baud_rate" (Schema.natural 32) fun s v => { s with baudRate := UInt32.ofNat v },
    .of "data_bits"
      (fun v => do
        let n ← Schema.natural 8 v
        (DataBits.ofCount n).mapError fun f => .refused f.text)
      fun s v => { s with dataBits := v },
    .of "parity" (Schema.choice Parity.words) fun s v => { s with parity := v },
    .of "stop_bits"
      (fun v => do
        let n ← Schema.natural 8 v
        (StopBits.ofCount n).mapError fun f => .refused f.text)
      fun s v => { s with stopBits := v },
    .of "flow_control" (Schema.choice FlowControl.words) fun s v => { s with flowControl := v } ]

/-- The fields of the table of the rental backend. -/
def rentalFields : List (Schema.Field RentalSettings) :=
  [ .of "default_duration_secs" (Schema.natural 64) fun s v =>
      { s with defaultDuration := UInt64.ofNat v },
    .of "sweep_interval_secs" (Schema.natural 64) fun s v =>
      { s with sweepInterval := UInt64.ofNat v } ]

/-- The fields of the document. -/
def fields : List (Schema.Field Settings) :=
  [ .of "transport" (Schema.fill "TransportConfig" transportFields .usual) fun s v =>
      { s with transport := v },
    .of "rental" (Schema.fill "RentalConfig" rentalFields .usual) fun s v =>
      { s with rental := v } ]

/-- Why a file gives no settings: it is no text, no document, or not one of settings. -/
inductive Fault where
  | notText
  | notDocument
  | unfit (fault : Schema.Fault)

/-- The settings that a document gives. -/
def ofDocument (entries : Toml.Entries) : Except Schema.Fault Settings :=
  Schema.fill "DaemonConfig" fields .usual (.table entries)

/-- The settings that a text gives. -/
def ofText (text : String) : Except Fault Settings :=
  match Toml.parse text with
  | none => .error .notDocument
  | some entries => (ofDocument entries).mapError .unfit

/-- The settings that the bytes of a file give. -/
def ofBytes (bytes : Bytes) : Except Fault Settings :=
  match Utf8.decode bytes with
  | .error _ => .error .notText
  | .ok text => ofText text

/-- The failure of reading a file that is no text. -/
def notTextFault : ChannelFault := ⟨.invalidData, "stream did not contain valid UTF-8"⟩

end ConfigFile
end TagRental
