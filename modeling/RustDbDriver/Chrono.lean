import RustDbDriver.Lib.Calendar
import RustDbDriver.Lib.Checked

/-!
# Dates, instants and durations

The `chrono` types the driver computes with. A date is a day number and an instant a number of
nanoseconds, both counted from 1970-01-01 and both inside the range the crate can hold; no instant is
a leap second. What the crate prints is a parameter (`Chrono`): the driver hands it a format string,
and what is assumed of the printed text is stated where a backend reads it. `Chrono.gregorian` prints
the formats of the driver.
-/

namespace RustDbDriver

/-- `NaiveDate`: `-262143-01-01` to `+262142-12-31`. -/
structure NaiveDate where
  days : Int
  inRange : -96465292 ≤ days ∧ days ≤ 95026236
deriving DecidableEq, Repr

/-- `NaiveTime`: nanoseconds since midnight. -/
structure NaiveTime where
  ns : Nat
  lt : ns < 86400000000000
deriving DecidableEq, Repr

/-- `NaiveDateTime`: from the first to the last nanosecond of the `NaiveDate` range. -/
structure NaiveDateTime where
  ns : Int
  inRange : -96465292 * 86400000000000 ≤ ns ∧ ns < 95026237 * 86400000000000
deriving DecidableEq, Repr

structure DateTimeUtc where
  utc : NaiveDateTime
deriving DecidableEq, Repr

structure Duration where
  ns : Int
deriving DecidableEq, Repr

namespace Duration

def I64_MAX : Int := 2 ^ 63 - 1

def FitsI64 (x : Int) : Prop := -2 ^ 63 ≤ x ∧ x ≤ I64_MAX

instance (x : Int) : Decidable (FitsI64 x) := by unfold FitsI64; infer_instance

def numDays (d : Duration) : Int := d.ns.tdiv 86400000000000

def numSeconds (d : Duration) : Int := d.ns.tdiv 1000000000

/-- The whole microseconds, rounded towards zero, if they are an `i64`. -/
def numMicroseconds (d : Duration) : Option Int :=
  if FitsI64 (d.ns.tdiv 1000) then some (d.ns.tdiv 1000) else none

/-- The constructors panic outside of `± i64::MAX` milliseconds. -/
def ofNs (ns : Int) : Option Duration :=
  if -(I64_MAX * 1000000) ≤ ns ∧ ns ≤ I64_MAX * 1000000 then some ⟨ns⟩ else none

def days (n : Int) : Option Duration := ofNs (n * 86400000000000)
def seconds (n : Int) : Option Duration := ofNs (n * 1000000000)
def microseconds (n : Int) : Option Duration := ofNs (n * 1000)

end Duration

def NaiveDate.sub (max min : NaiveDate) : Duration := ⟨(max.days - min.days) * 86400000000000⟩

/-- `date + duration`: moves by the whole days, and panics outside of the range. -/
def NaiveDate.add (d : NaiveDate) (by_ : Duration) : Option NaiveDate :=
  if h : -96465292 ≤ d.days + by_.numDays ∧ d.days + by_.numDays ≤ 95026236 then some ⟨_, h⟩ else none

def NaiveDateTime.sub (max min : NaiveDateTime) : Duration := ⟨max.ns - min.ns⟩

/-- `instant + duration` panics outside of the range. -/
def NaiveDateTime.add (t : NaiveDateTime) (by_ : Duration) : Option NaiveDateTime :=
  if h : -96465292 * 86400000000000 ≤ t.ns + by_.ns ∧ t.ns + by_.ns < 95026237 * 86400000000000 then
    some ⟨_, h⟩
  else none

/-- What `chrono` prints: `format` with a format string, and `Display`. -/
structure Chrono where
  formatDate : String → NaiveDate → String
  formatDateTime : String → NaiveDateTime → String
  formatDateTimeUtc : String → DateTimeUtc → String
  displayDate : NaiveDate → String
  displayTime : NaiveTime → String
  displayDateTime : NaiveDateTime → String
  displayDateTimeUtc : DateTimeUtc → String

open Lib in
/-- The calendar of the crate, as it prints the formats above. -/
def Chrono.gregorian : Chrono where
  formatDate format date := Calendar.print (date.days * 86400000000000) format
  formatDateTime format t := Calendar.print t.ns format
  formatDateTimeUtc format t := Calendar.print t.utc.ns format
  displayDate date := Calendar.print (date.days * 86400000000000) "%Y-%m-%d"
  displayTime time := Calendar.print time.ns "%H:%M:%S%.f"
  displayDateTime t := Calendar.print t.ns "%Y-%m-%d %H:%M:%S%.f"
  displayDateTimeUtc t := Calendar.print t.utc.ns "%Y-%m-%d %H:%M:%S%.f UTC"

end RustDbDriver
