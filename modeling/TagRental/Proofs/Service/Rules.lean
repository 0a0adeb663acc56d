import Mathlib.Data.List.Chain
import TagRental.Proofs.Gateway.TableReading
import TagRental.Proofs.Service.Course

/-!
# The rules of a link

The terms of the rentals and the time between two sweeps are set when a link is opened.  Nothing
that happens to it changes them afterwards: no step of a task, whatever arrives and whatever the
channel does, no operator and no cancellation (`rules_afterIncidents`).  So what was said then is
what every rental and every sweep goes by.

For a rental that means: if a frame asks for one and leaves its duration open, the record that it
gets has the default duration of the terms (`get?_step_of_leavesDurationOpen`).

A sweep has two times, the one when it was due and the one when it was made.  The first is due when
the monitor says.  When the next one is due follows from the two times of the last one and from
nothing else (`sweepsIn_spec`), since the monitor keeps the time of the next sweep from one sweep to
the next, while it waits and while it pushes (`of_sweep?_eq_none`).  It leaves only if the link is
cancelled (`IsPlanned.afterIncidents`), so no sweep is ever given up for another reason.

`ServiceSettings.Observes` is all of this about every link that is served with some settings, one
after another over the same table.
-/

namespace TagRental

/-! ## Requests without a duration -/

/-- A frame asks for a rental of an item and leaves its duration open: there is none, or one that is
no whole number, or that is zero or more than the firmware can hold. -/
def Message.LeavesDurationOpen (payload : Bytes) (t : Tag) : Prop :=
  ∃ members, Json.parse payload = .ok (.object (Members.ofList members)) ∧
    Whole members "cmd" 1 ∧ Names members t ∧
      ∀ n, Whole members "duration" n → n = 0 ∨ 4294967295 < n

theorem Message.LeavesDurationOpen.command? {payload : Bytes} {t : Tag}
    (h : LeavesDurationOpen payload t) :
    (Action.frame payload).command? = some (.rentalStart t none) := by
  obtain ⟨members, hparse, hcmd, hnames, hduration⟩ := h
  have hlasts : Lasts members none := by
    intro n
    refine ⟨fun hn => (nomatch hn), fun ⟨hn, hpos, hle⟩ => ?_⟩
    rcases hduration n hn with rfl | hlarge
    · exact absurd hpos (by decide)
    · exact absurd hle (UInt64.not_le.mpr hlarge)
  have hsaid : Says members (.rentalStart t none) := .rentalStart hcmd hnames hlasts
  let extra := (Members.ofList members).filter fun e => e.1 ∉ fields (.rentalStart t none)
  have hread : (decode payload).result = .ok ⟨.rentalStart t none, extra⟩ :=
    ((judged_decode hparse).ok _).mpr ⟨hsaid, rfl⟩
  exact Action.command?_frame_eq_some_iff.mpr ⟨_, hread, rfl⟩

namespace Service

/-- What can happen to a served link: an event, with the channel as it is at the time; the operator
types a line; somebody cancels the link. -/
inductive Incident where
  | event (c : Channel) (e : Event)
  | typed (line : String)
  | cancelled

/-- The link after an incident. -/
def undergo (s : Service) : Incident → Service
  | .event c e => s.happen c e
  | .typed line =>
    { s with backend := { s.backend with store := (Console.answer s.backend.store line).store } }
  | .cancelled => { s with writer := s.writer.cancel }

/-- The link after some incidents. -/
def afterIncidents (s : Service) (incidents : List Incident) : Service := incidents.foldl undergo s

variable {s : Service}

@[simp] theorem afterIncidents_nil : s.afterIncidents [] = s := rfl

@[simp] theorem afterIncidents_cons (i : Incident) (incidents : List Incident) :
    s.afterIncidents (i :: incidents) = (s.undergo i).afterIncidents incidents := rfl

/-! ## What is kept -/

/-- What was set when the link was opened. -/
def rules (s : Service) : Terms × Duration := (s.backend.terms, s.interval)

theorem rules_arrive (a : Arrival) : (s.arrive a).rules = s.rules := by
  unfold arrive
  split
  dsimp only
  split <;> rfl

theorem rules_pushNext (next : Nat) (pushes : List Response) :
    (s.pushNext next pushes).rules = s.rules := by
  cases pushes <;> rfl

theorem rules_receiverStep (c : Channel) : (s.receiverStep c).1.rules = s.rules := by
  unfold receiverStep
  split
  · rfl
  · unfold receiverLeaves
    split <;> rfl
  · unfold read
    split
    · split
      · exact rules_arrive _
      · rfl
    · exact rules_arrive _
  · rfl
  · unfold carryOut
    dsimp only
    split <;> rfl
  · unfold reply
    split <;> rfl
  · split <;> rfl

theorem rules_monitorStep (c : Channel) : (s.monitorStep c).1.rules = s.rules := by
  unfold monitorStep
  split
  · rfl
  · unfold monitorLeaves
    split <;> rfl
  · split
    · rfl
    · exact rules_pushNext _ _
  · rfl
  · unfold push
    split
    · rfl
    · exact rules_pushNext _ _
    · exact rules_pushNext _ _

/-- **An incident** changes neither the terms nor the time between two sweeps. -/
theorem rules_undergo (i : Incident) : (s.undergo i).rules = s.rules := by
  cases i with
  | event c e =>
    cases e with
    | step τ =>
      cases τ with
      | receiver => exact rules_receiverStep c
      | monitor => exact rules_monitorStep c
    | _ => rfl
  | _ => rfl

theorem rules_afterIncidents (incidents : List Incident) :
    (s.afterIncidents incidents).rules = s.rules := by
  induction incidents generalizing s with
  | nil => rw [afterIncidents_nil]
  | cons i incidents ih => rw [afterIncidents_cons, ih, rules_undergo]

/-! ## Rentals -/

/-- **A rental whose duration was left open** has the default duration. -/
theorem get?_step_of_leavesDurationOpen (c : Channel) (hopen : s.writer.cancelled = false)
    {frame : Bytes} {frames : List Bytes}
    (hreceiver : s.receiver = .handling (frame :: frames)) {t : Tag}
    (hframe : Message.LeavesDurationOpen frame t)
    (hin : ∀ r, s.backend.store.get? t = some r → r.status ≠ .rented) :
    (s.step c .receiver).1.backend.store.get? t =
      some ⟨.rented, s.backend.clock, s.backend.terms.defaultDuration, 0⟩ := by
  have haction : s.action? .receiver = some (.frame frame) := by rw [action?, hreceiver]
  have hevent : (Action.frame frame).eventFor s.backend.terms s.backend.clock t =
      .start s.backend.clock s.backend.terms.defaultDuration :=
    (Action.eventFor_of_command? hframe.command?).trans (Command.eventFor_rentalStart none)
  have hfree : (s.backend.store.get? t).any (fun r => r.status = .rented) = false := by
    rw [Option.any_eq_false]
    exact fun r hr => decide_eq_false (hin r hr)
  rw [store_step c hopen, nextStore, haction]
  show (s.backend.step .reliable (.frame frame)).backend.store.get? t = _
  rw [Backend.get?_step, hevent, ItemEvent.apply, hfree]
  rfl

/-! ## Sweeps -/

/-- A sweep: when it was due, and when it was made. -/
structure Sweep where
  due : Nat
  made : Nat
  deriving Repr, DecidableEq

/-- When the sweep after this one is due: a period after this one was due, or, if it came late, a
period after it was made. -/
def Sweep.next (period : Nat) (x : Sweep) : Nat :=
  (if x.made ≤ x.due + tolerance then x.due else x.made) + period

/-- One sweep is due when another one says. -/
def Sweep.Follows (period : Nat) (x y : Sweep) : Prop := y.due = x.next period

/-- The time for which the next sweep is planned. -/
def nextSweep? (s : Service) : Option Nat :=
  match s.monitor with
  | .waiting due => some due
  | .pushing next _ _ => some next
  | .left => none

/-- The sweep that the monitor makes if it is its turn. -/
def sweepNow? (s : Service) : Option Sweep :=
  match s.monitor, s.writer.cancelled with
  | .waiting due, false => if s.millis < due then none else some ⟨due, s.millis⟩
  | _, _ => none

/-- The sweep that is made at an incident. -/
def sweep? (s : Service) : Incident → Option Sweep
  | .event _ (.step .monitor) => s.sweepNow?
  | _ => none

/-- The sweeps that are made in the course of some incidents. -/
def sweepsIn (s : Service) : List Incident → List Sweep
  | [] => []
  | i :: incidents => (s.sweep? i).toList ++ (s.undergo i).sweepsIn incidents

theorem nextSweep?_pushNext (next : Nat) (pushes : List Response) :
    (s.pushNext next pushes).nextSweep? = some next := by
  cases pushes <;> rfl

/-- The monitor sweeps. -/
theorem monitorStep_of_sweepNow? (c : Channel) {x : Sweep} (h : s.sweepNow? = some x) :
    s.monitor = .waiting x.due ∧ x.due ≤ x.made ∧ x.made = s.millis ∧
      s.monitorStep c = (s.sweep x.due).goesOn := by
  unfold sweepNow? at h
  split at h
  · next due hmonitor hopen =>
    split at h
    · cases h
    · next hdue =>
      cases h
      refine ⟨hmonitor, Nat.le_of_not_lt hdue, rfl, ?_⟩
      simp only [monitorStep, hmonitor, hopen, if_neg hdue]
  · cases h

/-- The monitor waits, pushes or leaves. -/
theorem nextSweep?_monitorStep (c : Channel) (h : s.sweepNow? = none) :
    (s.monitorStep c).1.nextSweep? = s.nextSweep? ∨
      s.writer.cancelled = true ∧ (s.monitorStep c).1.nextSweep? = none := by
  unfold monitorStep
  split
  · exact Or.inl rfl
  · next hcancelled _ =>
    refine Or.inr ⟨hcancelled, ?_⟩
    unfold monitorLeaves
    split <;> rfl
  · next due hmonitor hopen =>
    split
    · exact Or.inl rfl
    · next hdue => simp [sweepNow?, hmonitor, hopen, hdue] at h
  · next next _ hmonitor _ =>
    left
    show some next = s.nextSweep?
    rw [nextSweep?, hmonitor]
  · next next send response pushes hmonitor _ =>
    left
    have hplanned : s.nextSweep? = some next := by rw [nextSweep?, hmonitor]
    unfold push
    split
    · rfl
    · exact (nextSweep?_pushNext next pushes).trans hplanned.symm
    · exact (nextSweep?_pushNext next pushes).trans hplanned.symm

/-- **A sweep** is made when it is planned or later; it marks what is overdue by the clock, and
plans the next one. -/
theorem of_sweep? {i : Incident} {x : Sweep} (h : s.sweep? i = some x) :
    s.nextSweep? = some x.due ∧ x.due ≤ x.made ∧
      (s.undergo i).backend.store = s.backend.store.expired s.backend.clock ∧
      (s.undergo i).nextSweep? = some (x.next s.interval.millis) := by
  unfold sweep? at h
  split at h
  · next c =>
    obtain ⟨hmonitor, hdue, hmade, hstep⟩ := monitorStep_of_sweepNow? c h
    have hundergo : s.undergo (.event c (.step .monitor)) = s.sweep x.due := congrArg Prod.fst hstep
    have hnext : s.nextDue x.due = x.next s.interval.millis := by
      unfold nextDue Sweep.next
      rw [hmade]
      split <;> rfl
    rw [hundergo]
    refine ⟨by rw [nextSweep?, hmonitor], hdue, ?_, ?_⟩
    · exact (pushNext_frame _ _ _).1
    · exact (nextSweep?_pushNext _ _).trans (congrArg some hnext)
  · cases h

/-- An incident at which no sweep is made leaves the plan alone, unless the monitor leaves a
cancelled link. -/
theorem of_sweep?_eq_none {i : Incident} (h : s.sweep? i = none) :
    (s.undergo i).nextSweep? = s.nextSweep? ∨
      s.writer.cancelled = true ∧ (s.undergo i).nextSweep? = none := by
  cases i with
  | event c e =>
    cases e with
    | step τ =>
      cases τ with
      | receiver =>
        left
        show (s.receiverStep c).1.nextSweep? = s.nextSweep?
        rw [nextSweep?, nextSweep?, monitor_receiverStep]
      | monitor => exact nextSweep?_monitorStep c h
    | _ => exact Or.inl rfl
  | _ => exact Or.inl rfl

/-- **The sweeps of a link.**  None comes before it is due, each is due when the one before says,
and the first when it was planned. -/
theorem sweepsIn_spec (incidents : List Incident) :
    (s.sweepsIn incidents).IsChain (Sweep.Follows s.interval.millis) ∧
      (∀ x ∈ (s.sweepsIn incidents).head?, s.nextSweep? = some x.due) ∧
      ∀ x ∈ s.sweepsIn incidents, x.due ≤ x.made := by
  induction incidents generalizing s with
  | nil => exact ⟨.nil, fun x hx => (nomatch hx), fun x hx => (nomatch hx)⟩
  | cons i incidents ih =>
    have hperiod : (s.undergo i).interval = s.interval := congrArg Prod.snd (rules_undergo i)
    obtain ⟨hchain, hfirst, hmade⟩ := ih (s := s.undergo i)
    rw [hperiod] at hchain
    cases hsweep : s.sweep? i with
    | none =>
      rw [sweepsIn, hsweep, Option.toList_none, List.nil_append]
      refine ⟨hchain, fun x hx => ?_, hmade⟩
      rcases of_sweep?_eq_none hsweep with hsame | ⟨-, hleft⟩
      · exact hsame ▸ hfirst x hx
      · -- a monitor that has left plans no sweep, so there is no first one
        cases hleft.symm.trans (hfirst x hx)
    | some y =>
      obtain ⟨hplanned, hdue, -, hnext⟩ := of_sweep? hsweep
      rw [sweepsIn, hsweep, Option.toList_some, List.singleton_append]
      refine ⟨hchain.cons fun x hx => ?_, ?_, List.forall_mem_cons.mpr ⟨hdue, hmade⟩⟩
      · exact Option.some.inj ((hfirst x hx).symm.trans hnext)
      · intro x hx
        cases hx
        exact hplanned

/-! ## The monitor stays -/

/-- A cancelled link stays so: its tasks only leave. -/
theorem cancelled_undergo (i : Incident) (h : s.writer.cancelled = true) :
    (s.undergo i).writer.cancelled = true := by
  have hreceiver : ∀ c, (s.receiverStep c).1 = s ∨ (s.receiverStep c).1 = s.receiverLeaves := by
    intro c
    cases hr : s.receiver <;> simp [receiverStep, hr, h, waits, goesOn]
  have hmonitor : ∀ c, (s.monitorStep c).1 = s ∨ (s.monitorStep c).1 = s.monitorLeaves := by
    intro c
    cases hm : s.monitor <;> simp [monitorStep, hm, h, waits, goesOn]
  cases i with
  | event c e =>
    cases e with
    | step τ =>
      cases τ with
      | receiver =>
        show (s.receiverStep c).1.writer.cancelled = true
        rcases hreceiver c with hsame | hleaves
        · rw [hsame, h]
        · rw [hleaves, receiverLeaves]
          split <;> exact h
      | monitor =>
        show (s.monitorStep c).1.writer.cancelled = true
        rcases hmonitor c with hsame | hleaves
        · rw [hsame, h]
        · rw [hleaves, monitorLeaves]
          split <;> exact h
    | _ => exact h
  | typed line => exact h
  | cancelled => rfl

/-- The monitor does not leave, unless the link is cancelled. -/
def IsPlanned (s : Service) : Prop := s.writer.cancelled = false → s.nextSweep? ≠ none

theorem IsPlanned.undergo (h : s.IsPlanned) (i : Incident) : (s.undergo i).IsPlanned := by
  intro hopen
  have hstill : s.writer.cancelled = false := by
    by_contra hcancelled
    rw [cancelled_undergo i (eq_true_of_ne_false hcancelled)] at hopen
    cases hopen
  cases hsweep : s.sweep? i with
  | some x =>
    rw [(of_sweep? hsweep).2.2.2]
    exact Option.some_ne_none _
  | none =>
    rcases of_sweep?_eq_none hsweep with hsame | ⟨hcancelled, -⟩
    · rw [hsame]
      exact h hstill
    · cases hstill.symm.trans hcancelled

theorem IsPlanned.afterIncidents (h : s.IsPlanned) (incidents : List Incident) :
    (s.afterIncidents incidents).IsPlanned := by
  induction incidents generalizing s with
  | nil => exact h
  | cons i incidents ih => exact ih (h.undergo i)

/-- A monitor that waits sweeps in its first step at the planned time or later. -/
theorem sweep?_of_waiting (c : Channel) (hopen : s.writer.cancelled = false) {due : Nat}
    (hmonitor : s.monitor = .waiting due) (hdue : due ≤ s.millis) :
    s.sweep? (.event c (.step .monitor)) = some ⟨due, s.millis⟩ := by
  show s.sweepNow? = some ⟨due, s.millis⟩
  rw [sweepNow?, hmonitor, hopen]
  exact if_neg (Nat.not_lt.mpr hdue)

/-! ## A link that is opened -/

/-- A link that is opened over a table with records in it, those of the links before. -/
def openedOver (settings : ServiceSettings) (kind : LinkKind) (clock : UInt64) (store : Store) :
    Service :=
  { opened settings kind clock with
    backend := { Backend.start settings.terms clock with store := store } }

end Service

/-- What is served with some settings goes by a duration and an interval, whatever happens to it. -/
structure ServiceSettings.Observes (s : ServiceSettings) (duration : UInt64) (interval : Duration) :
    Prop where
  /-- The terms of a link have the duration: it is not raised to the least one. -/
  takesDuration : s.terms = ⟨duration⟩
  /-- The time between two sweeps is the interval: it is not raised to the least one. -/
  takesInterval : s.interval = interval
  /-- A rental whose duration was left open gets the duration. -/
  rentals : ∀ kind clock store incidents c frame frames t,
    let l := (Service.openedOver s kind clock store).afterIncidents incidents
    l.writer.cancelled = false → l.receiver = .handling (frame :: frames) →
      Message.LeavesDurationOpen frame t →
      (∀ r, l.backend.store.get? t = some r → r.status ≠ .rented) →
        (l.step c .receiver).1.backend.store.get? t = some ⟨.rented, l.backend.clock, duration, 0⟩
  /-- The first sweep is due at once, and each one behind it when the one before says. -/
  sweeps : ∀ kind clock store incidents,
    let sweeps := (Service.openedOver s kind clock store).sweepsIn incidents
    sweeps.IsChain (Service.Sweep.Follows interval.millis) ∧ (∀ x ∈ sweeps.head?, x.due = 0) ∧
      ∀ x ∈ sweeps, x.due ≤ x.made
  /-- Until the link is cancelled there is a next sweep, and a monitor that waits makes it in its
  first step when the time has come. -/
  sweepsWhenDue : ∀ kind clock store incidents c,
    let l := (Service.openedOver s kind clock store).afterIncidents incidents
    l.writer.cancelled = false → ∃ due, l.nextSweep? = some due ∧
      (l.monitor = .waiting due → due ≤ l.millis →
        l.sweep? (.event c (.step .monitor)) = some ⟨due, l.millis⟩ ∧
          (l.step c .monitor).1.backend.store = l.backend.store.expired l.backend.clock)

/-- **Every link observes the settings** with which it is served. -/
theorem ServiceSettings.observes {s : ServiceSettings} {duration : UInt64} {interval : Duration}
    (hterms : s.terms = ⟨duration⟩) (hinterval : s.interval = interval) :
    s.Observes duration interval where
  takesDuration := hterms
  takesInterval := hinterval
  rentals := by
    intro kind clock store incidents c frame frames t l hopen hreceiver hframe hin
    have hrules : l.rules = (s.terms, s.interval) := Service.rules_afterIncidents incidents
    have hkept : l.backend.terms = ⟨duration⟩ := (congrArg Prod.fst hrules).trans hterms
    have hduration : l.backend.terms.defaultDuration = duration :=
      congrArg Terms.defaultDuration hkept
    rw [Service.get?_step_of_leavesDurationOpen c hopen hreceiver hframe hin, hduration]
  sweeps := by
    intro kind clock store incidents sweeps
    obtain ⟨hchain, hfirst, hmade⟩ :=
      Service.sweepsIn_spec (s := Service.openedOver s kind clock store) incidents
    refine ⟨?_, fun x hx => ?_, hmade⟩
    · rw [← hinterval]
      exact hchain
    · exact (Option.some.inj (hfirst x hx)).symm
  sweepsWhenDue := by
    intro kind clock store incidents c l hopen
    have hopened : (Service.openedOver s kind clock store).IsPlanned :=
      fun _ => Option.some_ne_none 0
    obtain ⟨due, hplanned⟩ := Option.ne_none_iff_exists'.mp (hopened.afterIncidents incidents hopen)
    refine ⟨due, hplanned, fun hmonitor hdue => ?_⟩
    have hsweep := Service.sweep?_of_waiting c hopen hmonitor hdue
    exact ⟨hsweep, (Service.of_sweep? hsweep).2.2.1⟩

end TagRental
