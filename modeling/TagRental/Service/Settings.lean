import TagRental.Link.Receive

/-!
# Settings of the service

What a served link needs to know: the duration of a rental whose request names none, how often the
table is swept, and how the link is read.  Neither of the first two may be zero when it is used, so
both are raised to the least sensible value --- one second, one millisecond.  Settings that were
validated are never changed by that.
-/

namespace TagRental

/-- The least time between two sweeps. -/
def leastSweepInterval : Duration := .ofMillis 1

/-- The time between two sweeps that is used for a configured one. -/
def sweepIntervalOf (configured : Duration) : Duration := configured.atLeast leastSweepInterval

/-- The time between two sweeps where none is configured. -/
def usualSweepInterval : Duration := .ofSeconds 10

/-- What a served link needs to know. -/
structure ServiceSettings where
  defaultDuration : UInt64
  sweepInterval : Duration
  receive : ReceiveSettings
  deriving Repr, DecidableEq

namespace ServiceSettings

/-- The settings where none are configured. -/
def usual : ServiceSettings := ⟨Terms.usualDuration, usualSweepInterval, .usual⟩

/-- The terms of the rentals. -/
def terms (s : ServiceSettings) : Terms := .withDefault s.defaultDuration

/-- The time between two sweeps. -/
def interval (s : ServiceSettings) : Duration := sweepIntervalOf s.sweepInterval

end ServiceSettings

end TagRental
