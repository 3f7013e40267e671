namespace SqlAssembly

/-!
# Dates and times

Dates of the proleptic Gregorian calendar, and instants as they are read on a clock some seconds
east of UTC.

* `Date.ofDays` — the date a number of days after 1 January 1970;
* `Instant.clock` — the date and the time of day that a clock shows;
* `Date.text`, `Clock.text`, `Clock.withOffset` — their texts.
-/

structure Date where
  year : Int
  /-- From 1 to 12. -/
  month : Nat
  /-- From 1. -/
  day : Nat
  deriving DecidableEq, Repr

/-- A time of day on a date.  Within a leap second the second is 60. -/
structure Clock where
  date : Date
  hour : Nat
  minute : Nat
  second : Nat
  nanos : Nat
  deriving DecidableEq, Repr

/-- Seconds since 1970 UTC and a part of the next second; from a whole second on the part lies in
a leap second. -/
structure Instant where
  seconds : Int
  nanos : Nat
  deriving DecidableEq, Repr

/-- An instant with the offset of a clock, in seconds east of UTC. -/
structure ZonedInstant where
  instant : Instant
  offset : Int
  deriving DecidableEq, Repr

/-- The decimal digits of `n`, at least `width` of them. -/
def padded (width n : Nat) : String :=
  let ds := Nat.toDigits 10 n
  String.ofList (List.replicate (width - ds.length) '0' ++ ds)

namespace Date

/-- The date `days` after 1 January 1970.  Years are counted from 1 March in eras of 400, so that
a leap day is the last day of its year. -/
def ofDays (days : Int) : Date :=
  let shifted := days + 719468
  let era := shifted.fdiv 146097
  let dayOfEra := (shifted - era * 146097).toNat
  let yearOfEra :=
    (dayOfEra - dayOfEra / 1460 + dayOfEra / 36524 - dayOfEra / 146096) / 365
  let dayOfYear := dayOfEra - (365 * yearOfEra + yearOfEra / 4 - yearOfEra / 100)
  let march := (5 * dayOfYear + 2) / 153
  let month := if march < 10 then march + 3 else march - 9
  { year := era * 400 + yearOfEra + if month ≤ 2 then 1 else 0
    month
    day := dayOfYear - (153 * march + 2) / 5 + 1 }

/-- Four digits for the years 0 to 9999; any other year carries its sign. -/
def yearText (year : Int) : String :=
  (if year < 0 then "-" else if 9999 < year then "+" else "") ++ padded 4 year.natAbs

/-- Year, month and day between hyphens. -/
def text (d : Date) : String :=
  yearText d.year ++ "-" ++ padded 2 d.month ++ "-" ++ padded 2 d.day

end Date

/-- What a clock `offset` seconds east of UTC shows. -/
def Instant.clock (i : Instant) (offset : Int) : Clock :=
  let seconds := i.seconds + offset
  let ofDay := (seconds.fmod 86400).toNat
  { date := Date.ofDays (seconds.fdiv 86400)
    hour := ofDay / 3600
    minute := ofDay / 60 % 60
    second := ofDay % 60 + i.nanos / 1000000000
    nanos := i.nanos % 1000000000 }

namespace Clock

/-- The fraction of a second in as few groups of three digits as hold it, none for zero. -/
def fractionText (nanos : Nat) : String :=
  if nanos = 0 then ""
  else if nanos % 1000000 = 0 then "." ++ padded 3 (nanos / 1000000)
  else if nanos % 1000 = 0 then "." ++ padded 6 (nanos / 1000)
  else "." ++ padded 9 nanos

/-- Hour, minute and second between colons, and the fraction. -/
def timeText (c : Clock) : String :=
  padded 2 c.hour ++ ":" ++ padded 2 c.minute ++ ":" ++ padded 2 c.second
    ++ fractionText c.nanos

/-- Date and time with a space between them. -/
def text (c : Clock) : String := c.date.text ++ " " ++ c.timeText

/-- The sign, hours and minutes of an offset, rounded to the nearest minute. -/
def offsetText (offset : Int) : String :=
  let minutes := (offset.natAbs + 30) / 60
  (if offset < 0 then "-" else "+") ++ padded 2 (minutes / 60) ++ ":" ++ padded 2 (minutes % 60)

/-- Date and time with a `T` between them, and the offset of the clock. -/
def withOffset (c : Clock) (offset : Int) : String :=
  c.date.text ++ "T" ++ c.timeText ++ offsetText offset

end Clock

/-- The date and time on the clock of the instant, and its offset. -/
def ZonedInstant.text (z : ZonedInstant) : String :=
  (z.instant.clock z.offset).withOffset z.offset

end SqlAssembly
