import Mathlib.Data.Rat.Floor
import Mathlib.Tactic.Linarith

/-! # Instants, calendar days and datetimes

Time as the program sees it. Stored timestamps (`TIMESTAMPTZ`) are instants, in microseconds since
1970-01-01T00:00:00Z. The ingestion pipeline's dates are day numbers on the same axis. A request's
`start` and `end` are Python datetimes: calendar fields on a wall clock, with a UTC offset or
without one; what an offset-less one denotes depends on the session that reads it. -/

namespace WindSight

/-- A point in time, in microseconds since 1970-01-01T00:00:00Z. -/
abbrev Instant := ℤ

/-- Microseconds in a second. -/
def microsPerSecond : ℤ := 1000000

/-- Microseconds in an hour. -/
def microsPerHour : ℤ := 3600 * microsPerSecond

/-- Microseconds in a day. -/
def microsPerDay : ℤ := 24 * microsPerHour

/-- An interval of `h` hours, in microseconds. -/
def hours (h : ℚ) : ℚ := h * microsPerHour

@[simp] theorem microsPerSecond_pos : 0 < microsPerSecond := by decide

@[simp] theorem microsPerHour_pos : 0 < microsPerHour := by decide

@[simp] theorem microsPerDay_pos : 0 < microsPerDay := by decide

/-! ## Calendar days -/

/-- A calendar day, as its number counted from 1970-01-01. The `YYYY-MM-DD` strings the pipeline
passes around are read back with `strptime` and shifted by `timedelta(days=k)`, which is addition of
day numbers. -/
abbrev Date := ℤ

/-- 1000-01-01, the first day whose year `strftime` writes with four digits. -/
def minDate : Date := -354285

/-- 9999-12-31, the last day of the calendar. -/
def maxDate : Date := 2932896

/-- `T00:00:00Z` of a day. -/
def midnight (d : Date) : Instant := d * microsPerDay

/-- The day an instant falls on, in UTC. -/
def dateOf (t : Instant) : Date := t / microsPerDay

/-! ## Datetimes -/

/-- The Gregorian leap-year rule. -/
def isLeap (year : ℕ) : Bool := year % 4 = 0 && (year % 100 ≠ 0 || year % 400 = 0)

/-- Days before the first of a month, in a year that is not a leap year. -/
def daysBeforeMonth : ℕ → ℕ
  | 1 => 0
  | 2 => 31
  | 3 => 59
  | 4 => 90
  | 5 => 120
  | 6 => 151
  | 7 => 181
  | 8 => 212
  | 9 => 243
  | 10 => 273
  | 11 => 304
  | _ => 334

/-- Days in a month. -/
def daysInMonth (year month : ℕ) : ℕ :=
  if month = 2 then if isLeap year then 29 else 28
  else if month = 4 ∨ month = 6 ∨ month = 9 ∨ month = 11 then 30 else 31

/-- A Python `datetime`: a wall clock reading, with its UTC offset in minutes unless it is naive. -/
structure Datetime where
  year : ℕ
  month : ℕ
  day : ℕ
  hour : ℕ
  minute : ℕ
  second : ℕ
  microsecond : ℕ
  /-- `utcoffset()`, in minutes; `none` for a naive datetime. -/
  utcoffset : Option ℤ
  year_range : 1 ≤ year ∧ year ≤ 9999
  month_range : 1 ≤ month ∧ month ≤ 12
  day_range : 1 ≤ day ∧ day ≤ daysInMonth year month
  time_range : hour < 24 ∧ minute < 60 ∧ second < 60 ∧ microsecond < 1000000
  offset_range : ∀ o ∈ utcoffset, -1440 < o ∧ o < 1440
  deriving DecidableEq

namespace Datetime

/-- The fields are those of a datetime. -/
abbrev InRange (year month day hour minute second microsecond : ℕ) (utcoffset : Option ℤ) : Prop :=
  (1 ≤ year ∧ year ≤ 9999) ∧ (1 ≤ month ∧ month ≤ 12) ∧
    (1 ≤ day ∧ day ≤ daysInMonth year month) ∧
    (hour < 24 ∧ minute < 60 ∧ second < 60 ∧ microsecond < 1000000) ∧
    ∀ o ∈ utcoffset, -1440 < o ∧ o < 1440

/-- `datetime(year, month, …)`, of fields in range. -/
def ofFields (year month day hour minute second microsecond : ℕ) (utcoffset : Option ℤ)
    (h : InRange year month day hour minute second microsecond utcoffset) : Datetime :=
  ⟨year, month, day, hour, minute, second, microsecond, utcoffset, h.1, h.2.1, h.2.2.1, h.2.2.2.1,
    h.2.2.2.2⟩

/-- The proleptic Gregorian ordinal of the date, counted from 0001-01-01 as day one. -/
def toordinal (t : Datetime) : ℕ :=
  let y := t.year - 1
  y * 365 + y / 4 - y / 100 + y / 400 + daysBeforeMonth t.month
    + (if 2 < t.month && isLeap t.year then 1 else 0) + t.day

/-- The wall clock reading in microseconds, counted from 1970-01-01 00:00:00 on the same clock. -/
def wallClock (t : Datetime) : ℤ :=
  ((t.toordinal : ℤ) - 719163) * microsPerDay + t.hour * microsPerHour
    + (t.minute * 60 + t.second) * microsPerSecond + t.microsecond

/-- The instant a datetime denotes when an offset-less one is read on a clock `zone` seconds ahead
of UTC. -/
def instantIn (zone : ℤ) (t : Datetime) : Instant :=
  match t.utcoffset with
  | some o => t.wallClock - o * 60 * microsPerSecond
  | none => t.wallClock - zone * microsPerSecond

/-- A datetime that carries an offset denotes the same instant on every clock. -/
theorem instantIn_aware {t : Datetime} (h : t.utcoffset.isSome) (zone zone' : ℤ) :
    t.instantIn zone = t.instantIn zone' := by
  obtain ⟨o, ho⟩ := Option.isSome_iff_exists.mp h
  simp only [instantIn, ho]

end Datetime

end WindSight
