import HotelPms.Basic
import HotelPms.Lib.Gregorian

/- Boost's functions between dates and text.

   SQL statements carry dates as `YYYYMMDD` and JSON messages as `YYYY-MM-DD`. The
   program relies on each text being read back as the date it was written from,
   and, where SQLite sorts by it, on the text sorting as the dates do. Boost is
   not part of the repository, so these are the laws of a parameter of the model;
   `BoostDate.gregorian` is an instance that computes. -/
namespace HotelPms
open Lib

/-- The text functions of `boost::gregorian`; `none` is an exception of the parser. -/
structure BoostDate where
  toIsoString : Date → String
  fromUndelimitedString : String → Option Date
  toIsoExtendedString : Date → String
  fromString : String → Option Date
  undelimited : ∀ d, fromUndelimitedString (toIsoString d) = some d
  extended : ∀ d, fromString (toIsoExtendedString d) = some d
  chronological : ∀ d e, toIsoString d < toIsoString e ↔ d < e
  printable : ∀ d, '\x00' ∉ (toIsoString d).toList

attribute [simp] BoostDate.undelimited BoostDate.extended

namespace Date

/-- The day number as a natural number. -/
def day (d : Date) : Nat := d.dayNumber.toNat

theorem day_fourDigits (d : Date) : Gregorian.FourDigits d.day := by
  have := d.lower
  have := d.upper
  exact ⟨by unfold day; omega, by unfold day; omega⟩

theorem day_lt_iff (d e : Date) : d.day < e.day ↔ d < e := by
  have := d.lower
  have := e.lower
  rw [lt_def]
  unfold day
  omega

/-- The date of a day number, if it is in Boost's range. -/
def ofDay (n : Nat) : Option Date :=
  if h : 2232400 ≤ (n : Int) ∧ (n : Int) ≤ 5373484 then some ⟨n, h.1, h.2⟩ else none

theorem ofDay_day (d : Date) : ofDay d.day = some d := by
  have hd : (d.day : Int) = d.dayNumber := by
    have := d.lower
    unfold day
    omega
  unfold ofDay
  rw [dif_pos (by rw [hd]; exact ⟨d.lower, d.upper⟩)]
  exact congrArg some (Date.ext hd)

end Date

/-- The Gregorian calendar as Boost prints and parses it, for canonical text. -/
def BoostDate.gregorian : BoostDate where
  toIsoString d := Gregorian.isoText d.day
  fromUndelimitedString text := (Gregorian.readIso text).bind Date.ofDay
  toIsoExtendedString d := Gregorian.extendedText d.day
  fromString text := (Gregorian.readExtended text).bind Date.ofDay
  undelimited d := by
    rw [Gregorian.readIso_isoText d.day_fourDigits, Option.bind_some, d.ofDay_day]
  extended d := by
    rw [Gregorian.readExtended_extendedText d.day_fourDigits, Option.bind_some, d.ofDay_day]
  chronological d e := by
    rw [Gregorian.isoText_lt d.day_fourDigits e.day_fourDigits, Date.day_lt_iff]
  printable d h := absurd (Gregorian.isDigit_isoText d.day _ h) (by decide)

end HotelPms
