import TagRental.Proofs.Config.Layers
import TagRental.Proofs.Service.ReportedDurations
import TagRental.Proofs.Service.Rules
import TagRental.Proofs.Text.Utf8RoundTrip
import TagRental.Proofs.Toml.DistinctKeys

/-!
# What the daemon runs with

What a start comes to is a matter of the merged settings and of nothing else: those of the command
line over those of the document in force, over the usual ones (`Startup.ofOptions_by_layers`).

* If one of them is zero that must not be, the first such one is reported.
* Otherwise, if there is no port, that is reported.
* Otherwise the daemon runs with them.  Two of them are raised to a least value before they are
  used, since nothing else keeps zero away from the service.  Settings that were judged are never
  changed by that (`Settings.observes_service`), so every link goes by the very times that were
  configured.

A file with a bad value may be overridden, and a good one spoiled, by the command line.  Neither has
to be treated apart: the merge comes first, and the layers are no longer seen once it is made.
-/

namespace TagRental

/-! ## Settings that are judged -/

namespace Settings

/-- No setting is zero that must not be. -/
structure Valid (s : Settings) : Prop where
  duration : s.rental.defaultDuration ≠ 0
  sweepInterval : s.rental.sweepInterval ≠ 0
  baudRate : s.transport.baudRate ≠ 0

/-- A setting is zero that must not be, and none of those in front of it is. -/
inductive FirstFault (s : Settings) : Fault → Prop where
  | noDuration (duration : s.rental.defaultDuration = 0) : FirstFault s .noDuration
  | noSweepInterval (duration : s.rental.defaultDuration ≠ 0)
      (sweepInterval : s.rental.sweepInterval = 0) :
      FirstFault s .noSweepInterval
  | noBaudRate (duration : s.rental.defaultDuration ≠ 0)
      (sweepInterval : s.rental.sweepInterval ≠ 0) (baudRate : s.transport.baudRate = 0) :
      FirstFault s .noBaudRate

variable {s : Settings}

theorem fault?_eq_none_iff : s.fault? = none ↔ s.Valid := by
  unfold fault?
  split_ifs with hduration hsweep hbaud
  · exact ⟨fun h => (nomatch h), fun h => absurd hduration h.duration⟩
  · exact ⟨fun h => (nomatch h), fun h => absurd hsweep h.sweepInterval⟩
  · exact ⟨fun h => (nomatch h), fun h => absurd hbaud h.baudRate⟩
  · exact ⟨fun _ => ⟨hduration, hsweep, hbaud⟩, fun _ => rfl⟩

theorem fault?_eq_some_iff {fault : Fault} : s.fault? = some fault ↔ s.FirstFault fault := by
  constructor
  · intro h
    unfold fault? at h
    split_ifs at h with hduration hsweep hbaud <;> cases h
    · exact .noDuration hduration
    · exact .noSweepInterval hduration hsweep
    · exact .noBaudRate hduration hsweep hbaud
  · intro h
    cases h with
    | noDuration hduration => exact if_pos hduration
    | noSweepInterval hduration hsweep => exact (if_neg hduration).trans (if_pos hsweep)
    | noBaudRate hduration hsweep hbaud =>
      exact (if_neg hduration).trans ((if_neg hsweep).trans (if_pos hbaud))

/-- Settings with some fault are those with a zero. -/
theorem exists_firstFault_iff :
    (∃ fault, s.FirstFault fault) ↔
      s.rental.defaultDuration = 0 ∨ s.rental.sweepInterval = 0 ∨ s.transport.baudRate = 0 := by
  constructor
  · rintro ⟨fault, h⟩
    cases h with
    | noDuration hduration => exact Or.inl hduration
    | noSweepInterval _ hsweep => exact Or.inr (Or.inl hsweep)
    | noBaudRate _ _ hbaud => exact Or.inr (Or.inr hbaud)
  · intro hzero
    cases hfault : s.fault? with
    | some fault => exact ⟨fault, fault?_eq_some_iff.mp hfault⟩
    | none =>
      have hvalid := fault?_eq_none_iff.mp hfault
      rcases hzero with hduration | hsweep | hbaud
      · exact absurd hduration hvalid.duration
      · exact absurd hsweep hvalid.sweepInterval
      · exact absurd hbaud hvalid.baudRate

/-- A whole number of seconds is not raised, unless it is zero. -/
theorem interval_of_fault?_eq_none (h : s.fault? = none) :
    s.service.interval = .ofSeconds s.rental.sweepInterval.toNat := by
  have hne : s.rental.sweepInterval.toNat ≠ 0 := fun hzero =>
    (fault?_eq_none_iff.mp h).sweepInterval (UInt64.toNat_inj.mp hzero)
  refine if_neg ?_
  show ¬s.rental.sweepInterval.toNat * 1000000000 ≤ 1 * 1000000
  omega

/-- **Settings that were judged** are observed as they are. -/
theorem observes_service (h : s.fault? = none) :
    s.service.Observes s.rental.defaultDuration (.ofSeconds s.rental.sweepInterval.toNat) :=
  ServiceSettings.observes (terms_of_fault?_eq_none h) (interval_of_fault?_eq_none h)

end Settings

/-! ## Settings that are used -/

/-- The target is the one that settings name for a port: a line with all their parameters, or an
address. -/
def LinkTarget.Reaches (s : TransportSettings) (port : String) : LinkTarget → Prop
  | .serial line =>
    s.mode = .serial ∧ line = ⟨port, s.baudRate, s.dataBits, s.parity, s.stopBits, s.flowControl,
      .ofMillis 500, .ofSeconds 5⟩
  | .tcp address => s.mode = .tcp ∧ address = port

theorem LinkTarget.reaches_iff {s : TransportSettings} {port : String} {target : LinkTarget} :
    target.Reaches s port ↔ target = Startup.targetOf s port := by
  unfold Startup.targetOf
  cases target with
  | serial line =>
    cases hmode : s.mode <;> simp [Reaches, hmode, SerialLine.ofSettings]
  | tcp address =>
    cases hmode : s.mode <;> simp [Reaches, hmode]

namespace Startup

section Judging

variable {s : Settings} {console : Bool}

theorem ofSettings_eq_settings_iff {fault : Settings.Fault} :
    ofSettings s console = .error (.settings fault) ↔ s.FirstFault fault := by
  rw [← Settings.fault?_eq_some_iff, ofSettings]
  cases s.fault? with
  | some f => simp
  | none => cases s.transport.port <;> simp

theorem ofSettings_eq_noPort_iff :
    ofSettings s console = .error .noPort ↔ s.Valid ∧ s.transport.port = none := by
  rw [← Settings.fault?_eq_none_iff, ofSettings]
  cases s.fault? with
  | some f => simp
  | none => cases s.transport.port <;> simp

theorem ofSettings_eq_ok_iff {st : Startup} :
    ofSettings s console = .ok st ↔
      s.Valid ∧ ∃ port, s.transport.port = some port ∧ st.target.Reaches s.transport port ∧
        st.service = s.service ∧ st.console = console := by
  rw [← Settings.fault?_eq_none_iff, ofSettings]
  obtain ⟨target, service, shown⟩ := st
  cases s.fault? with
  | some f => simp
  | none =>
    cases s.transport.port with
    | none => simp
    | some port => simp [LinkTarget.reaches_iff, eq_comm]

end Judging

/-! ## The document in force -/

/-- The document that a configuration file holds, if one is named, and otherwise the empty one. -/
inductive InForce (read : ReadFile) : Option String → Toml.Entries → Prop where
  | unnamed : InForce read none []
  | named {path : String} {bytes : Bytes} {text : String} {doc : Toml.Entries}
      (hread : read path = .ok bytes) (htext : Utf8.decode bytes = .ok text)
      (hdoc : Toml.parse text = some doc) : InForce read (some path) doc

variable {read : ReadFile} {config : Option String} {doc : Toml.Entries} {s : Settings}

theorem InForce.distinct (h : InForce read config doc) : (Toml.Value.table doc).Distinct := by
  cases h with
  | unnamed => exact .table List.nodup_nil fun e he => absurd he List.not_mem_nil
  | named _ _ hdoc => exact Toml.distinct_of_parse hdoc

/-- At most one document is in force. -/
theorem InForce.unique {doc' : Toml.Entries} (h : InForce read config doc)
    (h' : InForce read config doc') :
    doc = doc' := by
  cases h with
  | unnamed =>
    cases h'
    rfl
  | named hread htext hdoc =>
    cases h' with
    | named hread' htext' hdoc' =>
      obtain rfl := Except.ok.inj (hread.symm.trans hread')
      obtain rfl := Except.ok.inj (htext.symm.trans htext')
      exact Option.some.inj (hdoc.symm.trans hdoc')

/-- Settings that load come from the document in force. -/
theorem exists_inForce_of_fileSettings (h : fileSettings read config = .ok s) :
    ∃ doc, InForce read config doc ∧ ConfigFile.ofDocument doc = .ok s := by
  cases config with
  | none =>
    cases h
    exact ⟨[], .unnamed, rfl⟩
  | some path =>
    cases hread : read path with
    | error fault => simp [fileSettings, hread] at h
    | ok bytes =>
      rw [fileSettings, hread] at h
      have hbytes : ConfigFile.ofBytes bytes = .ok s := Schema.eq_ok_of_mapError h
      unfold ConfigFile.ofBytes at hbytes
      split at hbytes
      · cases hbytes
      · next text htext =>
        unfold ConfigFile.ofText at hbytes
        split at hbytes
        · cases hbytes
        · next doc hdoc => exact ⟨doc, .named hread htext hdoc, Schema.eq_ok_of_mapError hbytes⟩

/-- **The settings of a file that loads** are those of the document in force, over the usual
ones. -/
theorem settings_of_fileSettings (h : fileSettings read config = .ok s) :
    ∃ doc, InForce read config doc ∧ s = (ConfigFile.layer doc).settings := by
  obtain ⟨doc, hforce, hdoc⟩ := exists_inForce_of_fileSettings h
  exact ⟨doc, hforce, ConfigFile.settings_of_document hforce.distinct hdoc⟩

/-! ## The whole start -/

/-- **What a start comes to** is judged on the merged settings alone.  Let the configuration file
load, or none be named. -/
theorem ofOptions_by_layers {o : Options} (hloads : ∃ s, fileSettings read o.config = .ok s) :
    ∃ doc, InForce read o.config doc ∧
      let e := (o.layer.onto (ConfigFile.layer doc)).settings
      ((∃ fault, ofOptions read o = .error (.settings fault)) ↔
        e.rental.defaultDuration = 0 ∨ e.rental.sweepInterval = 0 ∨ e.transport.baudRate = 0) ∧
      (∀ fault, ofOptions read o = .error (.settings fault) ↔ e.FirstFault fault) ∧
      (ofOptions read o = .error .noPort ↔ e.Valid ∧ e.transport.port = none) ∧
      (∀ st, ofOptions read o = .ok st ↔
        e.Valid ∧ ∃ port, e.transport.port = some port ∧ st.target.Reaches e.transport port ∧
          st.service = e.service ∧ st.console = !o.noConsole) ∧
      ∀ st, ofOptions read o = .ok st →
        st.service.Observes e.rental.defaultDuration (.ofSeconds e.rental.sweepInterval.toNat) := by
  obtain ⟨s, hs⟩ := hloads
  obtain ⟨doc, hforce, hlayer⟩ := settings_of_fileSettings hs
  refine ⟨doc, hforce, ?_⟩
  intro e
  -- the merge comes before everything that is judged, so only the merged settings are left
  have hstart : ofOptions read o = ofSettings e (!o.noConsole) := by
    rw [ofOptions, hs, hlayer]
    exact congrArg (ofSettings · _) (o.applyTo_settings _)
  rw [hstart]
  refine ⟨?_, fun _ => ofSettings_eq_settings_iff, ofSettings_eq_noPort_iff,
    fun _ => ofSettings_eq_ok_iff, ?_⟩
  · simp only [ofSettings_eq_settings_iff]
    exact Settings.exists_firstFault_iff
  · intro st hst
    obtain ⟨hvalid, -, -, -, hservice, -⟩ := ofSettings_eq_ok_iff.mp hst
    rw [hservice]
    exact Settings.observes_service (Settings.fault?_eq_none_iff.mpr hvalid)

/-- A file whose baud rate is refused, under a command line with another one: the daemon listens on
the address of the file, and goes by the interval of the file and by the usual duration. -/
theorem ofOptions_by_layers_overridden :
    let text := "[transport]\nmode = \"tcp\"\nport = \"gate:7\"\nbaud_rate = 0\n" ++
      "[rental]\nsweep_interval_secs = 5\n"
    let read : ReadFile := fun _ => .ok (Utf8.encode text)
    let o : Options := { Options.empty with config := some "rental.toml", baud := some 9600 }
    (∃ s, fileSettings read o.config = .ok s ∧ s.fault? = some .noBaudRate) ∧
      ∃ st, ofOptions read o = .ok st ∧ st.target = .tcp "gate:7" ∧
        st.service.Observes 3600 (.ofSeconds 5) := by
  intro text read o
  have htext : Utf8.decode (Utf8.encode text) = .ok text := Utf8.decode_encode text
  let s : Settings := ⟨⟨.tcp, some "gate:7", 0, .eight, .none, .one, .none⟩, ⟨3600, 5⟩⟩
  have hsettings : ConfigFile.ofText text = .ok s := by
    have h : (ConfigFile.ofText text).toOption = some s := by decide +kernel
    cases hread : ConfigFile.ofText text with
    | error fault =>
      rw [hread] at h
      cases h
    | ok s' =>
      rw [hread] at h
      exact congrArg Except.ok (Option.some.inj h)
  have hloads : fileSettings read o.config = .ok s := by
    show (ConfigFile.ofBytes (Utf8.encode text)).mapError _ = .ok s
    rw [ConfigFile.ofBytes, htext]
    exact congrArg (Except.mapError _) hsettings
  obtain ⟨doc, hforce, -, -, -, hstarts, hobserves⟩ := ofOptions_by_layers ⟨s, hloads⟩
  have hlayer : (Toml.parse text).map ConfigFile.layer =
      some ⟨some .tcp, some "gate:7", some 0, none, none, none, none, none, some 5⟩ := by
    decide +kernel
  obtain ⟨doc', hdoc', hlayer⟩ := Option.map_eq_some_iff.mp hlayer
  obtain rfl := hforce.unique (.named rfl htext hdoc')
  rw [hlayer] at hstarts hobserves
  have hstart := (hstarts ⟨.tcp "gate:7", ⟨3600, .ofSeconds 5, .usual⟩, true⟩).mpr
    ⟨⟨by decide, by decide, by decide⟩, "gate:7", rfl, ⟨rfl, rfl⟩, rfl, rfl⟩
  exact ⟨⟨s, hloads, rfl⟩, _, hstart, rfl, hobserves _ hstart⟩

end Startup
end TagRental
