import Mathlib.Tactic.SplitIfs
import TagRental.Daemon.Startup
import TagRental.Proofs.Schema.Filling

/-!
# Settings in layers

A source of settings is a layer: about each setting it says something or nothing.  One layer goes
over another (`Settings.Layer.onto`), and what no layer says anything about is as usual
(`Settings.Layer.settings`).

A command line is a layer as it stands.  A document becomes one by looking its settings up, each on
its own (`ConfigFile.layer`): where it stands in the document, and which value it has there.

That is not how a document is loaded.  The loader starts from the usual settings, goes through the
entries in their order and puts each into its place, so what it has for a setting could depend on
all the entries.  It does not, and the two agree, if the document loads and no key of it comes twice
(`ConfigFile.settings_of_document`).
-/

namespace TagRental

attribute [ext] TransportSettings RentalSettings Settings

/-! ## Layers -/

/-- What one source says about the settings; about any of them it may say nothing. -/
structure Settings.Layer where
  mode : Option LinkMode
  port : Option String
  baudRate : Option UInt32
  dataBits : Option DataBits
  parity : Option Parity
  stopBits : Option StopBits
  flowControl : Option FlowControl
  defaultDuration : Option UInt64
  sweepInterval : Option UInt64
  deriving Repr, DecidableEq

namespace Settings.Layer

/-- One layer over another: what the upper one says nothing about is taken from the lower one. -/
def onto (upper lower : Layer) : Layer where
  mode := upper.mode.or lower.mode
  port := upper.port.or lower.port
  baudRate := upper.baudRate.or lower.baudRate
  dataBits := upper.dataBits.or lower.dataBits
  parity := upper.parity.or lower.parity
  stopBits := upper.stopBits.or lower.stopBits
  flowControl := upper.flowControl.or lower.flowControl
  defaultDuration := upper.defaultDuration.or lower.defaultDuration
  sweepInterval := upper.sweepInterval.or lower.sweepInterval

/-- The settings of a layer over the usual ones. -/
def settings (l : Layer) : Settings where
  transport :=
    { mode := l.mode.getD Settings.usual.transport.mode
      port := l.port.or Settings.usual.transport.port
      baudRate := l.baudRate.getD Settings.usual.transport.baudRate
      dataBits := l.dataBits.getD Settings.usual.transport.dataBits
      parity := l.parity.getD Settings.usual.transport.parity
      stopBits := l.stopBits.getD Settings.usual.transport.stopBits
      flowControl := l.flowControl.getD Settings.usual.transport.flowControl }
  rental :=
    { defaultDuration := l.defaultDuration.getD Settings.usual.rental.defaultDuration
      sweepInterval := l.sweepInterval.getD Settings.usual.rental.sweepInterval }

end Settings.Layer

/-- What a command line says about the settings. -/
def Options.layer (o : Options) : Settings.Layer where
  mode := o.mode
  port := o.port
  baudRate := o.baud
  dataBits := none
  parity := none
  stopBits := none
  flowControl := none
  defaultDuration := o.defaultDuration
  sweepInterval := o.sweepInterval

/-- A command line goes over what is there. -/
theorem Options.applyTo_settings (o : Options) (l : Settings.Layer) :
    o.applyTo l.settings = (o.layer.onto l).settings := by
  simp only [applyTo, Settings.Layer.settings, layer, Settings.Layer.onto, Option.getD_or,
    Option.none_or, Option.or_assoc, Option.orElse_eq_orElse, Option.orElse_eq_or]

/-! ## Reading single values -/

namespace Toml.Value

/-- The text that a value is. -/
def text? : Value → Option String
  | .text s => some s
  | _ => none

/-- The number below a bound that a value is. -/
def below? (bound : Nat) : Value → Option (Fin bound)
  | .integer n => if h : 0 ≤ n ∧ n.toNat < bound then some ⟨n.toNat, h.2⟩ else none
  | _ => none

/-- The number of 32 bits that a value is. -/
def word32? (v : Value) : Option UInt32 := (v.below? UInt32.size).map .ofFin

/-- The number of 64 bits that a value is. -/
def word64? (v : Value) : Option UInt64 := (v.below? UInt64.size).map .ofFin

/-- What a value stands for that is a word, alone or as the only key of a table. -/
def wordIn? {α : Type} (words : List (String × α)) : Value → Option α
  | .text w => words.lookup w
  | .table [(w, _)] => words.lookup w
  | _ => none

/-- What a value stands for that is one of some numbers. -/
def countIn? {α : Type} (counts : List (Int × α)) : Value → Option α
  | .integer n => counts.lookup n
  | _ => none

end Toml.Value

/-- The numbers of data bits. -/
def DataBits.counts : List (Int × DataBits) := [(5, five), (6, six), (7, seven), (8, eight)]

/-- The numbers of stop bits. -/
def StopBits.counts : List (Int × StopBits) := [(1, one), (2, two)]

theorem DataBits.lookup_of_ofCount {n : Nat} {b : DataBits} (h : ofCount n = .ok b) :
    counts.lookup (n : Int) = some b := by
  unfold ofCount at h
  split_ifs at h with h5 h6 h7 h8 <;> cases h <;> subst n <;> rfl

theorem StopBits.lookup_of_ofCount {n : Nat} {b : StopBits} (h : ofCount n = .ok b) :
    counts.lookup (n : Int) = some b := by
  unfold ofCount at h
  split_ifs at h with h1 h2 <;> cases h <;> subst n <;> rfl

namespace Schema

variable {v : Toml.Value}

theorem text?_of_text {w : String} (h : text v = .ok w) : v.text? = some w := by
  cases v with
  | text s =>
    cases h
    rfl
  | _ => cases h

theorem eq_integer_of_natural {bits n : Nat} (h : natural bits v = .ok n) :
    v = .integer n ∧ n < Nat.pow 2 bits := by
  cases v with
  | integer m =>
    simp only [natural] at h
    split at h
    · next hm =>
      cases h
      exact ⟨by rw [Int.toNat_of_nonneg hm.1], hm.2⟩
    · cases h
  | _ => cases h

theorem below?_of_natural {bits n : Nat} (h : natural bits v = .ok n) :
    ∃ hn : n < Nat.pow 2 bits, v.below? (Nat.pow 2 bits) = some ⟨n, hn⟩ := by
  obtain ⟨rfl, hn⟩ := eq_integer_of_natural h
  exact ⟨hn, dif_pos ⟨Int.natCast_nonneg n, hn⟩⟩

theorem word32?_of_natural {n : Nat} (h : natural 32 v = .ok n) : v.word32? = some (.ofNat n) := by
  obtain ⟨hn, hv⟩ := below?_of_natural h
  exact (congrArg (Option.map UInt32.ofFin) hv).trans (congrArg some (UInt32.ofNatLT_eq_ofNat n))

theorem word64?_of_natural {n : Nat} (h : natural 64 v = .ok n) : v.word64? = some (.ofNat n) := by
  obtain ⟨hn, hv⟩ := below?_of_natural h
  exact (congrArg (Option.map UInt64.ofFin) hv).trans (congrArg some (UInt64.ofNatLT_eq_ofNat n))

theorem countIn?_of_natural {α : Type} {counts : List (Int × α)}
    {ofCount : Nat → Except BitsFault α}
    (hcounts : ∀ n a, ofCount n = .ok a → counts.lookup (n : Int) = some a) {bits : Nat} {a : α}
    (h : (natural bits v >>= fun n =>
      (ofCount n).mapError fun f : BitsFault => Fault.refused f.text) = .ok a) :
    v.countIn? counts = some a := by
  obtain ⟨n, hn, hcounted⟩ := exists_of_bind_eq_ok h
  obtain ⟨rfl, -⟩ := eq_integer_of_natural hn
  exact hcounts n a (eq_ok_of_mapError hcounted)

theorem lookup_of_word {α : Type} {words : List (String × α)} {w : String} {a : α}
    (h : word words w = .ok a) : words.lookup w = some a := by
  unfold word at h
  split at h
  · next k b hfind =>
    cases h
    obtain ⟨hk, before, behind, hsplit, hbefore⟩ := List.find?_eq_some_iff_append.mp hfind
    obtain rfl : k = w := by simpa using hk
    refine List.lookup_eq_some_iff.mpr ⟨before, behind, hsplit, fun e he => ?_⟩
    rw [bne_comm, bne, hbefore e he]
  · cases h

theorem wordIn?_of_choice {α : Type} {words : List (String × α)} {a : α}
    (h : choice words v = .ok a) : v.wordIn? words = some a := by
  unfold choice at h
  split at h
  · exact lookup_of_word h
  · cases h
  · obtain ⟨b, hb, h⟩ := exists_of_bind_eq_ok h
    obtain ⟨-, -, h⟩ := exists_of_bind_eq_ok h
    cases h
    exact lookup_of_word hb
  · cases h
  · cases h

end Schema

/-! ## A document as a layer -/

namespace ConfigFile

open Schema

/-- What a document gives to a field of one of its tables. -/
def said? (doc : Toml.Entries) (table : String) (names : List String) (name : String) :
    Option Toml.Value :=
  (doc.lookup table).bind (given? names name)

/-- What a document says about the settings. -/
def layer (doc : Toml.Entries) : Settings.Layer :=
  let transport := said? doc "transport" (transportFields.map Field.name)
  let rental := said? doc "rental" (rentalFields.map Field.name)
  { mode := (transport "mode").bind (Toml.Value.wordIn? LinkMode.words)
    port := (transport "port").bind Toml.Value.text?
    baudRate := (transport "baud_rate").bind Toml.Value.word32?
    dataBits := (transport "data_bits").bind (Toml.Value.countIn? DataBits.counts)
    parity := (transport "parity").bind (Toml.Value.wordIn? Parity.words)
    stopBits := (transport "stop_bits").bind (Toml.Value.countIn? StopBits.counts)
    flowControl := (transport "flow_control").bind (Toml.Value.wordIn? FlowControl.words)
    defaultDuration := (rental "default_duration_secs").bind Toml.Value.word64?
    sweepInterval := (rental "sweep_interval_secs").bind Toml.Value.word64? }

variable {doc : Toml.Entries} {s : Settings}

/-- The link, as a table or a list gives it. -/
theorem transport_of_fill {t : Toml.Value} (ht : t.Distinct) {s : TransportSettings}
    (h : fill "TransportConfig" transportFields .usual t = .ok s)
    (hdoc : doc.lookup "transport" = some t) :
    s = (layer doc).settings.transport := by
  have hnames : (transportFields.map Field.name).Nodup := by decide
  simp only [layer, said?, hdoc, Option.bind_some, Settings.Layer.settings]
  refine TransportSettings.ext ?_ ?_ ?_ ?_ ?_ ?_ ?_
  · exact value_of_fill hnames (i := 0) rfl TransportSettings.mode (by simp [transportFields]) ht h
      fun _ _ _ => wordIn?_of_choice
  · -- the structure may be without a port, so what is put there is a port and not its text
    have hport : s.port = _ :=
      value_of_fill hnames (i := 1) rfl TransportSettings.port (by simp [transportFields]) ht h
        fun _ _ _ hread => congrArg (Option.map some) (text?_of_text hread)
    rw [hport]
    cases given? (transportFields.map Field.name) "port" t with
    | none => rfl
    | some w =>
      show (w.text?.map some).getD none = w.text?.or none
      cases w.text? <;> rfl
  · exact value_of_fill hnames (i := 2) rfl TransportSettings.baudRate
      (by simp [transportFields]) ht h fun _ _ _ => word32?_of_natural
  · exact value_of_fill hnames (i := 3) rfl TransportSettings.dataBits
      (by simp [transportFields]) ht h
      fun _ _ _ => countIn?_of_natural fun _ _ => DataBits.lookup_of_ofCount
  · exact value_of_fill hnames (i := 4) rfl TransportSettings.parity
      (by simp [transportFields]) ht h fun _ _ _ => wordIn?_of_choice
  · exact value_of_fill hnames (i := 5) rfl TransportSettings.stopBits
      (by simp [transportFields]) ht h
      fun _ _ _ => countIn?_of_natural fun _ _ => StopBits.lookup_of_ofCount
  · exact value_of_fill hnames (i := 6) rfl TransportSettings.flowControl
      (by simp [transportFields]) ht h fun _ _ _ => wordIn?_of_choice

/-- The rental backend, as a table or a list gives it. -/
theorem rental_of_fill {t : Toml.Value} (ht : t.Distinct) {s : RentalSettings}
    (h : fill "RentalConfig" rentalFields .usual t = .ok s) (hdoc : doc.lookup "rental" = some t) :
    s = (layer doc).settings.rental := by
  have hnames : (rentalFields.map Field.name).Nodup := by decide
  simp only [layer, said?, hdoc, Option.bind_some, Settings.Layer.settings]
  refine RentalSettings.ext ?_ ?_
  · exact value_of_fill hnames (i := 0) rfl RentalSettings.defaultDuration
      (by simp [rentalFields]) ht h fun _ _ _ => word64?_of_natural
  · exact value_of_fill hnames (i := 1) rfl RentalSettings.sweepInterval
      (by simp [rentalFields]) ht h fun _ _ _ => word64?_of_natural

/-- **A document that loads** gives the settings of its layer. -/
theorem settings_of_document (hdoc : (Toml.Value.table doc).Distinct) (h : ofDocument doc = .ok s) :
    s = (layer doc).settings := by
  have hnames : (fields.map Field.name).Nodup := by decide
  refine Settings.ext ?_ ?_
  · obtain ⟨hnone, hsome⟩ :=
      part_of_fill hnames (i := 0) rfl Settings.transport (by simp [fields]) hdoc h
    cases ht : doc.lookup "transport" with
    | none =>
      rw [hnone ht]
      simp [layer, said?, ht, Settings.Layer.settings]
    | some t =>
      obtain ⟨s₀, b, hb, heq⟩ := hsome t ht
      exact heq.trans (transport_of_fill (hdoc.of_lookup ht) hb ht)
  · obtain ⟨hnone, hsome⟩ :=
      part_of_fill hnames (i := 1) rfl Settings.rental (by simp [fields]) hdoc h
    cases ht : doc.lookup "rental" with
    | none =>
      rw [hnone ht]
      simp [layer, said?, ht, Settings.Layer.settings]
    | some t =>
      obtain ⟨s₀, b, hb, heq⟩ := hsome t ht
      exact heq.trans (rental_of_fill (hdoc.of_lookup ht) hb ht)

end ConfigFile

end TagRental
