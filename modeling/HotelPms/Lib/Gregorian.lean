import Mathlib

/- The Gregorian calendar over day numbers, and its dates as text.

   `civilOfDay` gives year, month and day of a Julian day number and `dayOfCivil`
   is its inverse (`dayOfCivil_civilOfDay`). The calendar is counted from March,
   so that the leap day is the last day of a year (`marchYear`). Dates of four
   digit years are written as eight digits (`isoText`) or with hyphens
   (`extendedText`); both are read back (`readIso_isoText`,
   `readExtended_extendedText`), and the eight digits sort as the days do
   (`isoText_lt`). -/
namespace HotelPms.Lib.Gregorian

/-- The year since -4800, counted from March, the month of such a year, and the day of the month, the last two from 0. -/
def marchYear (dayNumber : Nat) : Nat × Nat × Nat :=
  let a := dayNumber + 32044
  let b := (4 * a + 3) / 146097
  let c := a - 146097 * b / 4
  let d := (4 * c + 3) / 1461
  let e := c - 1461 * d / 4
  let m := (5 * e + 2) / 153
  (100 * b + d, m, e - (153 * m + 2) / 5)

/-- The day number of a day given as `marchYear` gives it. -/
def dayOfMarchYear (y m d : Nat) : Nat :=
  d + (153 * m + 2) / 5 + 365 * y + y / 4 - y / 100 + y / 400 - 32044

/-- How `marchYear` splits a day number: `c` days into century `b`, `e` days into year `d` of it. -/
structure Split (n b c d e m : Nat) : Prop where
  century : b = (4 * (n + 32044) + 3) / 146097
  inCentury : c = n + 32044 - 146097 * b / 4
  year : d = (4 * c + 3) / 1461
  inYear : e = c - 1461 * d / 4
  month : m = (5 * e + 2) / 153
  centuryBegun : 146097 * b / 4 ≤ n + 32044
  yearBegun : 1461 * d / 4 ≤ c
  monthBegun : (153 * m + 2) / 5 ≤ e
  centuryDays : c < 36525
  years : d < 100
  yearDays : e < 366

theorem marchYear_split (n : Nat) : ∃ b c d e m, Split n b c d e m ∧
    marchYear n = (100 * b + d, m, e - (153 * m + 2) / 5) := by
  refine ⟨_, _, _, _, _, ⟨rfl, rfl, rfl, rfl, rfl, ?_, ?_, ?_, ?_, ?_, ?_⟩, rfl⟩
  · omega
  · omega
  · omega
  · omega
  · omega
  · omega

theorem marchYear_bounds (n : Nat) : (marchYear n).2.1 < 12 ∧ (marchYear n).2.2 < 31 := by
  obtain ⟨b, c, d, e, m, h, hn⟩ := marchYear_split n
  have hm := h.month
  have he := h.yearDays
  rw [hn]
  clear h hn
  refine ⟨?_, ?_⟩
  · dsimp only
    omega
  · dsimp only
    omega

theorem days_of_century (b d : Nat) (hd : d < 100) :
    365 * (100 * b + d) + (100 * b + d) / 4 - (100 * b + d) / 100 + (100 * b + d) / 400 =
      146097 * b / 4 + 1461 * d / 4 := by
  have h₁ : (100 * b + d) / 100 = b := by omega
  have h₂ : (100 * b + d) / 400 = b / 4 := by omega
  have h₃ : (100 * b + d) / 4 = 25 * b + d / 4 := by omega
  have h₄ : 146097 * b / 4 = 36524 * b + b / 4 := by omega
  have h₅ : 1461 * d / 4 = 365 * d + d / 4 := by omega
  rw [h₁, h₂, h₃, h₄, h₅]
  omega

theorem dayOfMarchYear_marchYear (n : Nat) :
    dayOfMarchYear (marchYear n).1 (marchYear n).2.1 (marchYear n).2.2 = n := by
  obtain ⟨b, c, d, e, m, h, hn⟩ := marchYear_split n
  have hdays := days_of_century b d h.years
  have hc := h.inCentury
  have he := h.inYear
  have h₁ := h.centuryBegun
  have h₂ := h.yearBegun
  have h₃ := h.monthBegun
  have hsum : e - (153 * m + 2) / 5 + (153 * m + 2) / 5 + 365 * (100 * b + d) + (100 * b + d) / 4 -
      (100 * b + d) / 100 + (100 * b + d) / 400 = n + 32044 := by
    have : (100 * b + d) / 100 ≤ (100 * b + d) := Nat.div_le_self _ _
    omega
  rw [hn]
  unfold dayOfMarchYear
  dsimp only
  rw [hsum, Nat.add_sub_cancel]

/-- A later day has a later year, or the same and a later month, or the same and a later day. -/
theorem marchYear_lt {n n' : Nat} (h : n < n') :
    (marchYear n).1 < (marchYear n').1 ∨ (marchYear n).1 = (marchYear n').1 ∧
      ((marchYear n).2.1 < (marchYear n').2.1 ∨ (marchYear n).2.1 = (marchYear n').2.1 ∧
        (marchYear n).2.2 < (marchYear n').2.2) := by
  obtain ⟨b, c, d, e, m, hs, hn⟩ := marchYear_split n
  obtain ⟨b', c', d', e', m', hs', hn'⟩ := marchYear_split n'
  have hb : b ≤ b' := by
    rw [hs.century, hs'.century]
    omega
  have hd₁ := hs.years
  have hc : b = b' → c < c' := by
    rintro rfl
    have := hs.centuryBegun
    rw [hs.inCentury, hs'.inCentury]
    omega
  have hd : c < c' → d ≤ d' := by
    intro hlt
    rw [hs.year, hs'.year]
    omega
  have he : c < c' → d = d' → e < e' := by
    rintro hlt rfl
    have := hs.yearBegun
    rw [hs.inYear, hs'.inYear]
    omega
  have hm : e < e' → m ≤ m' := by
    intro hlt
    rw [hs.month, hs'.month]
    omega
  have hday := hs.monthBegun
  rw [hn, hn']
  clear hs hs' hn hn'
  dsimp only
  rcases Nat.lt_or_eq_of_le hb with hlt | rfl
  · left
    omega
  · have hcc := hc rfl
    rcases Nat.lt_or_eq_of_le (hd hcc) with hlt | rfl
    · left
      omega
    · have hee := he hcc rfl
      rcases Nat.lt_or_eq_of_le (hm hee) with hlt | rfl
      · exact Or.inr ⟨rfl, Or.inl hlt⟩
      · exact Or.inr ⟨rfl, Or.inr ⟨rfl, by omega⟩⟩

/-! ## Year, month and day -/

def civilOfDay (dayNumber : Nat) : Nat × Nat × Nat :=
  let t := marchYear dayNumber
  (t.1 - 4800 + t.2.1 / 10, t.2.1 + 3 - 12 * (t.2.1 / 10), t.2.2 + 1)

def dayOfCivil (year month day : Nat) : Nat :=
  let a := (14 - month) / 12
  dayOfMarchYear (year + 4800 - a) (month + 12 * a - 3) (day - 1)

/-- The days of the years 1400 to 9999. -/
def FourDigits (n : Nat) : Prop := 2232400 ≤ n ∧ n ≤ 5373484

theorem marchYear_year {n : Nat} (h : FourDigits n) :
    4800 ≤ (marchYear n).1 ∧ (marchYear n).1 - 4800 + (marchYear n).2.1 / 10 ≤ 9999 := by
  have hfirst : marchYear 2232399 = (6199, 9, 30) := by decide
  have hlast : marchYear 5373485 = (14799, 10, 0) := by decide
  have h₁ := marchYear_lt (show 2232399 < n from by have := h.1; omega)
  have h₂ := marchYear_lt (show n < 5373485 from by have := h.2; omega)
  have hm := (marchYear_bounds n).1
  rw [hfirst] at h₁
  rw [hlast] at h₂
  dsimp only at h₁ h₂
  omega

theorem dayOfCivil_civilOfDay {n : Nat} (h : FourDigits n) :
    dayOfCivil (civilOfDay n).1 (civilOfDay n).2.1 (civilOfDay n).2.2 = n := by
  have hy := (marchYear_year h).1
  have hm := (marchYear_bounds n).1
  have hround := dayOfMarchYear_marchYear n
  revert hy hm hround
  simp only [civilOfDay, dayOfCivil]
  generalize marchYear n = t
  obtain ⟨y, m, d⟩ := t
  intro hy hm hround
  dsimp only at hy hm hround ⊢
  have ha : (14 - (m + 3 - 12 * (m / 10))) / 12 = m / 10 := by omega
  have h₁ : y - 4800 + m / 10 + 4800 - m / 10 = y := by omega
  have h₂ : m + 3 - 12 * (m / 10) + 12 * (m / 10) - 3 = m := by omega
  rw [ha, h₁, h₂, Nat.add_sub_cancel]
  exact hround

theorem civilOfDay_bounds {n : Nat} (h : FourDigits n) :
    (civilOfDay n).1 < 10000 ∧ (civilOfDay n).2.1 < 100 ∧ (civilOfDay n).2.2 < 100 := by
  have hy := (marchYear_year h).2
  have hb := marchYear_bounds n
  simp only [civilOfDay]
  omega

/-- Year, month and day as one number of eight digits. -/
def civilNumber (n : Nat) : Nat :=
  10000 * (civilOfDay n).1 + 100 * (civilOfDay n).2.1 + (civilOfDay n).2.2

theorem civilNumber_lt {n n' : Nat} (h : FourDigits n) (h' : FourDigits n') (hlt : n < n') :
    civilNumber n < civilNumber n' := by
  have hy := (marchYear_year h).1
  have hy' := (marchYear_year h').1
  have hb := marchYear_bounds n
  have hb' := marchYear_bounds n'
  have hmarch := marchYear_lt hlt
  simp only [civilNumber, civilOfDay]
  omega

theorem civilNumber_lt_iff {n n' : Nat} (h : FourDigits n) (h' : FourDigits n') :
    civilNumber n < civilNumber n' ↔ n < n' := by
  constructor
  · intro hlt
    by_contra hge
    rcases Nat.lt_or_eq_of_le (Nat.le_of_not_lt hge) with hgt | rfl
    · exact absurd (civilNumber_lt h' h hgt) (Nat.lt_asymm hlt)
    · exact absurd hlt (Nat.lt_irrefl _)
  · exact civilNumber_lt h h'

/-! ## Numbers of a fixed width -/

/-- The last `w` decimal digits of a number. -/
def fixedDigits : Nat → Nat → List Char
  | 0, _ => []
  | w + 1, n => Nat.digitChar (n / 10 ^ w % 10) :: fixedDigits w n

/-- The number a list of digits stands for. -/
def digitsValue (cs : List Char) : Nat := cs.foldl (fun n c => 10 * n + (c.toNat - 48)) 0

/-- The number some text stands for, if it is digits only. -/
def readDigits (cs : List Char) : Option Nat :=
  if cs.all Char.isDigit then some (digitsValue cs) else none

theorem digitChar_lt_iff : ∀ d < 10, ∀ e < 10, (Nat.digitChar d < Nat.digitChar e ↔ d < e) := by
  decide

theorem digitChar_value : ∀ d < 10, (Nat.digitChar d).toNat - 48 = d := by decide

theorem isDigit_digitChar : ∀ d < 10, (Nat.digitChar d).isDigit = true := by decide

@[simp] theorem length_fixedDigits (w n : Nat) : (fixedDigits w n).length = w := by
  induction w with
  | zero => rfl
  | succ w ih => rw [fixedDigits, List.length_cons, ih]

theorem isDigit_fixedDigits (w n : Nat) : ∀ c ∈ fixedDigits w n, c.isDigit = true := by
  induction w with
  | zero => simp [fixedDigits]
  | succ w ih =>
    rw [fixedDigits, List.forall_mem_cons]
    exact ⟨isDigit_digitChar _ (Nat.mod_lt _ (by decide)), ih⟩

theorem mod_pow_succ (n w : Nat) : n % 10 ^ (w + 1) = n / 10 ^ w % 10 * 10 ^ w + n % 10 ^ w := by
  rw [pow_succ, Nat.mod_mul]
  ring

/-- Numbers of one width compare as their digits do. -/
theorem fixedDigits_lt_iff (w n m : Nat) :
    fixedDigits w n < fixedDigits w m ↔ n % 10 ^ w < m % 10 ^ w := by
  induction w with
  | zero => simp [fixedDigits, Nat.mod_one]
  | succ w ih =>
    have hn := Nat.mod_lt (n / 10 ^ w) (show 0 < 10 by decide)
    have hm := Nat.mod_lt (m / 10 ^ w) (show 0 < 10 by decide)
    have hpos : 0 < 10 ^ w := Nat.pow_pos (by decide)
    have hn' := Nat.mod_lt n hpos
    have hm' := Nat.mod_lt m hpos
    have heq : Nat.digitChar (n / 10 ^ w % 10) = Nat.digitChar (m / 10 ^ w % 10) ↔
        n / 10 ^ w % 10 = m / 10 ^ w % 10 := by
      constructor
      · intro h
        rw [← digitChar_value _ hn, ← digitChar_value _ hm, h]
      · exact congrArg _
    rw [fixedDigits, fixedDigits, List.cons_lt_cons_iff, digitChar_lt_iff _ hn _ hm, heq, ih,
      mod_pow_succ n, mod_pow_succ m]
    generalize n / 10 ^ w % 10 = a at *
    generalize m / 10 ^ w % 10 = b at *
    generalize n % 10 ^ w = x at *
    generalize m % 10 ^ w = y at *
    generalize 10 ^ w = p at *
    constructor
    · rintro (h | ⟨rfl, h⟩)
      · calc a * p + x < a * p + p := by omega
          _ = (a + 1) * p := by ring
          _ ≤ b * p := Nat.mul_le_mul_right p h
          _ ≤ b * p + y := Nat.le_add_right _ _
      · omega
    · intro h
      rcases Nat.lt_trichotomy a b with hab | rfl | hab
      · exact Or.inl hab
      · exact Or.inr ⟨rfl, by omega⟩
      · have : (b + 1) * p ≤ a * p := Nat.mul_le_mul_right p hab
        have : (b + 1) * p = b * p + p := by ring
        omega

theorem foldl_fixedDigits (w n k : Nat) :
    (fixedDigits w n).foldl (fun n c => 10 * n + (c.toNat - 48)) k = k * 10 ^ w + n % 10 ^ w := by
  induction w generalizing k with
  | zero => simp [fixedDigits, Nat.mod_one]
  | succ w ih =>
    rw [fixedDigits, List.foldl_cons, ih, digitChar_value _ (Nat.mod_lt _ (by decide)),
      mod_pow_succ, pow_succ]
    ring

theorem readDigits_fixedDigits {w n : Nat} (h : n < 10 ^ w) :
    readDigits (fixedDigits w n) = some n := by
  rw [readDigits, if_pos (List.all_eq_true.2 (isDigit_fixedDigits w n)), digitsValue,
    foldl_fixedDigits, Nat.mod_eq_of_lt h, Nat.zero_mul, Nat.zero_add]

/-! ## Dates as text -/

/-- The day of a year, month and day, if there is one. -/
def dayOfCivil? (year month day : Nat) : Option Nat :=
  let n := dayOfCivil year month day
  if civilOfDay n = (year, month, day) then some n else none

theorem dayOfCivil?_civilOfDay {n : Nat} (h : FourDigits n) :
    dayOfCivil? (civilOfDay n).1 (civilOfDay n).2.1 (civilOfDay n).2.2 = some n := by
  simp only [dayOfCivil?, dayOfCivil_civilOfDay h, if_true]

/-- `YYYYMMDD` -/
def isoText (n : Nat) : String := String.ofList (fixedDigits 8 (civilNumber n))

def readIso (text : String) : Option Nat :=
  if text.toList.length = 8 then
    (readDigits text.toList).bind fun k => dayOfCivil? (k / 10000) (k / 100 % 100) (k % 100)
  else none

/-- `YYYY-MM-DD` -/
def extendedText (n : Nat) : String :=
  String.ofList (fixedDigits 4 (civilOfDay n).1 ++ '-' :: fixedDigits 2 (civilOfDay n).2.1 ++
    '-' :: fixedDigits 2 (civilOfDay n).2.2)

def readExtended (text : String) : Option Nat :=
  let cs := text.toList
  if cs.length = 10 ∧ cs[4]? = some '-' ∧ cs[7]? = some '-' then
    (readDigits (cs.take 4)).bind fun y => (readDigits ((cs.drop 5).take 2)).bind fun m =>
      (readDigits (cs.drop 8)).bind fun d => dayOfCivil? y m d
  else none

theorem civilNumber_bound {n : Nat} (h : FourDigits n) : civilNumber n < 10 ^ 8 := by
  have := civilOfDay_bounds h
  simp only [civilNumber]
  omega

theorem readIso_isoText {n : Nat} (h : FourDigits n) : readIso (isoText n) = some n := by
  have hb := civilOfDay_bounds h
  have hy : civilNumber n / 10000 = (civilOfDay n).1 := by simp only [civilNumber]; omega
  have hm : civilNumber n / 100 % 100 = (civilOfDay n).2.1 := by simp only [civilNumber]; omega
  have hd : civilNumber n % 100 = (civilOfDay n).2.2 := by simp only [civilNumber]; omega
  rw [readIso, isoText, String.toList_ofList, if_pos (length_fixedDigits 8 _),
    readDigits_fixedDigits (civilNumber_bound h), Option.bind_some, hy, hm, hd]
  exact dayOfCivil?_civilOfDay h

theorem readExtended_append {y m d : List Char} (hy : y.length = 4) (hm : m.length = 2)
    (hd : d.length = 2) : readExtended (String.ofList (y ++ '-' :: m ++ '-' :: d)) =
      (readDigits y).bind fun y => (readDigits m).bind fun m => (readDigits d).bind fun d =>
        dayOfCivil? y m d := by
  have hy₅ : y.drop 5 = [] := List.drop_eq_nil_of_le (by omega)
  have hy₈ : y.drop 8 = [] := List.drop_eq_nil_of_le (by omega)
  have hm₃ : m.drop 3 = [] := List.drop_eq_nil_of_le (by omega)
  simp [readExtended, hy, hm, hd, hy₅, hy₈, hm₃, List.drop_append]

theorem readExtended_extendedText {n : Nat} (h : FourDigits n) :
    readExtended (extendedText n) = some n := by
  obtain ⟨hy, hm, hd⟩ := civilOfDay_bounds h
  rw [extendedText, readExtended_append (length_fixedDigits 4 _) (length_fixedDigits 2 _)
    (length_fixedDigits 2 _), readDigits_fixedDigits (by omega), readDigits_fixedDigits (by omega),
    readDigits_fixedDigits (by omega), Option.bind_some, Option.bind_some, Option.bind_some]
  exact dayOfCivil?_civilOfDay h

/-- The text of eight digits sorts as the days do. -/
theorem isoText_lt {n n' : Nat} (h : FourDigits n) (h' : FourDigits n') :
    isoText n < isoText n' ↔ n < n' := by
  rw [isoText, isoText, String.lt_iff_toList_lt, String.toList_ofList, String.toList_ofList,
    fixedDigits_lt_iff, Nat.mod_eq_of_lt (civilNumber_bound h),
    Nat.mod_eq_of_lt (civilNumber_bound h'), civilNumber_lt_iff h h']

theorem isDigit_isoText (n : Nat) : ∀ c ∈ (isoText n).toList, c.isDigit = true := by
  rw [isoText, String.toList_ofList]
  exact isDigit_fixedDigits 8 _

end HotelPms.Lib.Gregorian
