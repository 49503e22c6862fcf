/-!
# Moments

A moment is a point on the time line, counted from 1970-01-01 00:00:00: whole seconds and then
nanoseconds. The calendar covers the years -262143 to 262142. Leap seconds have no number of their
own: one that follows a second is written as that second with a billion nanoseconds and more.

## Main definitions

* `Moment.IsLeap` — the moment is in a leap second.
* `Moment.AfterCalendar` — the moment is in the leap second behind the last second of the calendar.
* `Moment.micros` — microseconds since 2000-01-01 00:00:00, cut off toward that point.
* `Moment.ofMicros?` — the moment at that many microseconds, when the calendar covers it.
-/

namespace TableMapper

/-- The first second of the calendar, counted from 1970-01-01 00:00:00. -/
def Moment.firstSecond : Int := -8334601228800

/-- The last second of the calendar that is no leap second. -/
def Moment.lastSecond : Int := 8210266876799

structure Moment where
  seconds : Int
  nanos : Nat
  nanos_lt : nanos < 2000000000
  le_seconds : Moment.firstSecond ≤ seconds
  seconds_le : seconds ≤ Moment.lastSecond
  deriving DecidableEq

namespace Moment

def IsLeap (m : Moment) : Prop := 1000000000 ≤ m.nanos

instance (m : Moment) : Decidable m.IsLeap := inferInstanceAs (Decidable (_ ≤ _))

def AfterCalendar (m : Moment) : Prop := m.seconds = lastSecond ∧ m.IsLeap

instance (m : Moment) : Decidable m.AfterCalendar := inferInstanceAs (Decidable (_ ∧ _))

def ofUnix? (seconds : Int) (nanos : Nat) : Option Moment :=
  if h : nanos < 2000000000 ∧ firstSecond ≤ seconds ∧ seconds ≤ lastSecond then
    some ⟨seconds, nanos, h.1, h.2.1, h.2.2⟩
  else none

/-- The seconds from 1970-01-01 to 2000-01-01. -/
def epoch : Int := 946684800

/-- Nanoseconds since 2000-01-01 00:00:00. A leap second counts as the second behind it. -/
def sinceEpoch (m : Moment) : Int := (m.seconds - epoch) * 1000000000 + m.nanos

/-- Microseconds since 2000-01-01 00:00:00, the rest of a microsecond cut off toward zero. -/
def micros (m : Moment) : Int := m.sinceEpoch.tdiv 1000

/-- The moment at so many microseconds since 2000-01-01 00:00:00; it is never in a leap second. -/
def ofMicros? (n : Int) : Option Moment :=
  ofUnix? (n / 1000000 + epoch) ((n % 1000000).toNat * 1000)

end Moment

end TableMapper
