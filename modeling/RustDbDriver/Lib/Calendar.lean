import RustDbDriver.Lib.Scan

/-!
# The Gregorian calendar, printed and read

Days and nanoseconds are counted from 1970-01-01. A year starts on the first of March here, so that the
leap day is its last one, and the calendar repeats every 146097 days. What `strftime` prints reads back
as the moment it was printed from, truncated to the digits of the fraction
(`readMoment_strftime_append`).
-/

namespace RustDbDriver.Lib.Calendar
open Scan

/-! ### Dates -/

structure Date where
  year : Int
  month : Nat
  day : Nat
deriving DecidableEq, Repr

def dayOfCycle (year : Nat) : Nat := 365 * year + year / 4 - year / 100

/-- The year of a cycle that holds a day, and which day of the year it is. -/
def yearOfCycle (day : Nat) : Nat × Nat :=
  let century := min 3 (day / 36524)
  let inCentury := day - 36524 * century
  let leap := inCentury / 1461
  let inLeap := inCentury - 1461 * leap
  let year := min 3 (inLeap / 365)
  (100 * century + 4 * leap + year, inLeap - 365 * year)

def Date.ofDays (days : Int) : Date :=
  let (year, inYear) := yearOfCycle ((days + 719468) % 146097).toNat
  let month := (5 * inYear + 2) / 153
  let day := inYear - (153 * month + 2) / 5 + 1
  if month < 10 then ⟨400 * ((days + 719468) / 146097) + year, month + 3, day⟩
  else ⟨400 * ((days + 719468) / 146097) + year + 1, month - 9, day⟩

/-- Day `day`, from one, of month `month`, from zero, of the year that starts in March of `year`. -/
def dayOfMarch (year : Int) (month day : Nat) : Int :=
  146097 * (year / 400) + dayOfCycle (year % 400).toNat + ((153 * month + 2) / 5 : Nat) + day - 719469

def Date.toDays (date : Date) : Int :=
  if 3 ≤ date.month then dayOfMarch date.year (date.month - 3) date.day
  else dayOfMarch (date.year - 1) (date.month + 9) date.day

theorem yearOfCycle_spec (day : Nat) (h : day < 146097) :
    (yearOfCycle day).1 < 400 ∧ (yearOfCycle day).2 < 366 ∧
      dayOfCycle (yearOfCycle day).1 + (yearOfCycle day).2 = day := by
  simp only [yearOfCycle, dayOfCycle]
  generalize hcentury : min 3 (day / 36524) = century
  have hc : 36524 * century ≤ day ∧ day - 36524 * century ≤ 36524 ∧ century ≤ 3 := by omega
  generalize hinCentury : day - 36524 * century = inCentury at *
  generalize hleap : inCentury / 1461 = leap at *
  have hl : leap ≤ 24 := by omega
  generalize hinLeap : inCentury - 1461 * leap = inLeap at *
  generalize hyear : min 3 (inLeap / 365) = year at *
  have hy : year ≤ 3 ∧ 365 * year ≤ inLeap ∧ inLeap - 365 * year ≤ 365 := by omega
  have hfour : (100 * century + 4 * leap + year) / 4 = 25 * century + leap := by omega
  have hhundred : (100 * century + 4 * leap + year) / 100 = century := by omega
  rw [hfour, hhundred]
  omega

theorem dayOfMarch_eq {days : Int} {year inYear : Nat} (hyear : year < 400)
    (hday : dayOfCycle year + inYear = ((days + 719468) % 146097).toNat) :
    dayOfMarch (400 * ((days + 719468) / 146097) + year) ((5 * inYear + 2) / 153)
      (inYear - (153 * ((5 * inYear + 2) / 153) + 2) / 5 + 1) = days := by
  have hcycle : (400 * ((days + 719468) / 146097) + (year : Int)) / 400 = (days + 719468) / 146097 := by
    omega
  have hin : ((400 * ((days + 719468) / 146097) + (year : Int)) % 400).toNat = year := by omega
  have hmonth : (153 * ((5 * inYear + 2) / 153) + 2) / 5 ≤ inYear := by omega
  rw [dayOfMarch, hcycle, hin]
  omega

theorem Date.toDays_ofDays (days : Int) : (Date.ofDays days).toDays = days := by
  obtain ⟨hyear, hin, hday⟩ := yearOfCycle_spec ((days + 719468) % 146097).toNat (by omega)
  have h := dayOfMarch_eq hyear hday
  unfold Date.ofDays Date.toDays
  generalize yearOfCycle ((days + 719468) % 146097).toNat = y at h hin
  obtain ⟨year, inYear⟩ := y
  by_cases hm : (5 * inYear + 2) / 153 < 10
  · simpa [hm] using h
  · have hlt : ¬ 3 ≤ (5 * inYear + 2) / 153 - 9 := by omega
    have hadd : (5 * inYear + 2) / 153 - 9 + 9 = (5 * inYear + 2) / 153 := by omega
    simpa [hm, hlt, hadd] using h

/-! ### Moments -/

structure Moment where
  date : Date
  hour : Nat
  minute : Nat
  second : Nat
  nano : Nat
deriving DecidableEq, Repr

def Moment.ofNs (ns : Int) : Moment where
  date := Date.ofDays (ns / 86400000000000)
  hour := (ns % 86400000000000 / 3600000000000).toNat
  minute := (ns % 3600000000000 / 60000000000).toNat
  second := (ns % 60000000000 / 1000000000).toNat
  nano := (ns % 1000000000).toNat

def Moment.toNs (moment : Moment) : Int :=
  86400000000000 * moment.date.toDays +
    (3600000000000 * moment.hour + 60000000000 * moment.minute + 1000000000 * moment.second + moment.nano : Nat)

/-- Cutting the fraction off at a microsecond cuts the count off there. -/
theorem Moment.toNs_micros (ns : Int) :
    { Moment.ofNs ns with nano := (Moment.ofNs ns).nano / 1000 * 1000 }.toNs = ns - ns % 1000 := by
  unfold Moment.toNs Moment.ofNs
  simp only [Date.toDays_ofDays]
  omega

/-! ### Printing -/

/-- Four digits, and a sign outside of the years 0 to 9999. -/
def printYear (year : Int) : List Char :=
  if year < 0 then '-' :: padded 4 year.natAbs
  else if year ≤ 9999 then padded 4 year.natAbs
  else '+' :: padded 4 year.natAbs

/-- The fraction of a second in as many groups of three digits as it takes. -/
def printFraction (nano : Nat) : List Char :=
  if nano = 0 then []
  else if nano % 1000000 = 0 then '.' :: padded 3 (nano / 1000000)
  else if nano % 1000 = 0 then '.' :: padded 6 (nano / 1000)
  else '.' :: padded 9 nano

/-- Prints a moment, in UTC, under a format; what is no specifier here is copied. -/
def strftime (moment : Moment) : List Char → List Char
  | '%' :: 'Y' :: format => printYear moment.date.year ++ strftime moment format
  | '%' :: 'm' :: format => padded 2 moment.date.month ++ strftime moment format
  | '%' :: 'd' :: format => padded 2 moment.date.day ++ strftime moment format
  | '%' :: 'H' :: format => padded 2 moment.hour ++ strftime moment format
  | '%' :: 'M' :: format => padded 2 moment.minute ++ strftime moment format
  | '%' :: 'S' :: format => padded 2 moment.second ++ strftime moment format
  | '%' :: '.' :: '6' :: 'f' :: format => '.' :: (padded 6 (moment.nano / 1000) ++ strftime moment format)
  | '%' :: '.' :: 'f' :: format => printFraction moment.nano ++ strftime moment format
  | '%' :: ':' :: 'z' :: format => "+00:00".toList ++ strftime moment format
  | c :: format => c :: strftime moment format
  | [] => []

def print (ns : Int) (format : String) : String := String.ofList (strftime (Moment.ofNs ns) format.toList)

/-! ### Reading -/

/-- Reads a fraction of at most nine digits. -/
def readFraction (text : List Char) : Option (Nat × List Char) :=
  let digits := text.takeWhile Char.isDigit
  if 9 < digits.length then none
  else some (Nat.ofDigitChars 10 digits 0 * 10 ^ (9 - digits.length), text.dropWhile Char.isDigit)

def readDate (text : List Char) : Option (Date × List Char) := do
  let (year, text) ← signed text
  let (month, text) ← nat (← lit "-" text)
  let (day, text) ← nat (← lit "-" text)
  return (⟨year, month, day⟩, text)

def readMoment (text : List Char) : Option (Moment × List Char) := do
  let (date, text) ← readDate text
  let (hour, text) ← nat (← lit " " text)
  let (minute, text) ← nat (← lit ":" text)
  let (second, text) ← nat (← lit ":" text)
  let (nano, text) ← readFraction (← lit "." text)
  return (⟨date, hour, minute, second, nano⟩, text)

/-- Reads a whole text as a moment and what `suffix` stands for after it, in nanoseconds. -/
def readNs (suffix text : String) : Option Int := do
  let (moment, rest) ← readMoment text.toList
  if rest = suffix.toList then some moment.toNs else none

/-- Reads a whole text as a date, in days. -/
def readDays (text : String) : Option Int := do
  let (date, rest) ← readDate text.toList
  if rest = [] then some date.toDays else none

section ReadBack

variable {rest : List Char}

theorem signed_printYear_append (year : Int) (hr : ¬ StartsWithDigit rest) :
    signed (printYear year ++ rest) = some (year, rest) := by
  have hnat := nat_padded_append 4 year.natAbs hr
  unfold printYear
  split
  · show (nat (padded 4 year.natAbs ++ rest)).map (fun (n, rest) => (-(n : Int), rest)) = _
    simp only [hnat, Option.map_some, Option.some.injEq, Prod.mk.injEq, and_true]
    omega
  · split
    · rw [signed_padded_append 4 _ hr]
      congr 2
      omega
    · show (nat (padded 4 year.natAbs ++ rest)).map (fun (n, rest) => ((n : Int), rest)) = _
      simp only [hnat, Option.map_some, Option.some.injEq, Prod.mk.injEq, and_true]
      omega

theorem readFraction_padded_append (micros : Nat) (h : micros < 1000000) (hr : ¬ StartsWithDigit rest) :
    readFraction (padded 6 micros ++ rest) = some (micros * 1000, rest) := by
  obtain ⟨ht, hw⟩ := takeWhile_isDigit_append (padded 6 micros) (fun _ => isDigit_of_mem_padded) hr
  have hlen : (padded 6 micros).length = 6 := length_padded (by decide) (by omega)
  simp [readFraction, ht, hw, hlen, ofDigitChars_padded]

theorem readDate_append (date : Date) (hr : ¬ StartsWithDigit rest) :
    readDate (printYear date.year ++ '-' :: (padded 2 date.month ++ '-' :: (padded 2 date.day ++ rest))) =
      some (date, rest) := by
  have hdash (rest : List Char) : ¬ StartsWithDigit ('-' :: rest) := not_startsWithDigit_cons rfl
  simp [readDate, signed_printYear_append _ (hdash _), nat_padded_append _ _ (hdash _),
    nat_padded_append _ _ hr, lit_cons "-" '-' rfl]

theorem strftime_micros (moment : Moment) (format : List Char) :
    strftime moment ("%Y-%m-%d %H:%M:%S%.6f".toList ++ format) =
      printYear moment.date.year ++ '-' :: (padded 2 moment.date.month ++ '-' :: (padded 2 moment.date.day ++
        ' ' :: (padded 2 moment.hour ++ ':' :: (padded 2 moment.minute ++ ':' :: (padded 2 moment.second ++
          '.' :: (padded 6 (moment.nano / 1000) ++ strftime moment format)))))) := rfl

theorem readMoment_strftime_append (moment : Moment) (hnano : moment.nano < 1000000000) (format : List Char)
    (hr : ¬ StartsWithDigit (strftime moment format)) :
    readMoment (strftime moment ("%Y-%m-%d %H:%M:%S%.6f".toList ++ format)) =
      some ({ moment with nano := moment.nano / 1000 * 1000 }, strftime moment format) := by
  have hspace (rest : List Char) : ¬ StartsWithDigit (' ' :: rest) := not_startsWithDigit_cons rfl
  have hcolon (rest : List Char) : ¬ StartsWithDigit (':' :: rest) := not_startsWithDigit_cons rfl
  have hdot (rest : List Char) : ¬ StartsWithDigit ('.' :: rest) := not_startsWithDigit_cons rfl
  have hfraction := readFraction_padded_append (moment.nano / 1000) (by omega) hr
  rw [strftime_micros]
  simp [readMoment, readDate_append _ (hspace _), nat_padded_append _ _ (hcolon _),
    nat_padded_append _ _ (hdot _), lit_cons " " ' ' rfl, lit_cons ":" ':' rfl, lit_cons "." '.' rfl, hfraction]

/-- What is printed with six digits reads back as the count truncated to microseconds. -/
theorem readNs_print (ns : Int) {format suffix : String} (tail : String)
    (hformat : format.toList = "%Y-%m-%d %H:%M:%S%.6f".toList ++ tail.toList)
    (hsuffix : strftime (Moment.ofNs ns) tail.toList = suffix.toList)
    (hr : ¬ StartsWithDigit suffix.toList) : readNs suffix (print ns format) = some (ns - ns % 1000) := by
  have hnano : (Moment.ofNs ns).nano < 1000000000 := by
    simp only [Moment.ofNs]
    omega
  rw [← hsuffix] at hr
  rw [readNs, print, String.toList_ofList, hformat, readMoment_strftime_append _ hnano _ hr]
  simp [hsuffix, Moment.toNs_micros]

/-- What is printed of a date reads back as its day. -/
theorem readDays_print (days : Int) : readDays (print (days * 86400000000000) "%Y-%m-%d") = some days := by
  have hdays : days * 86400000000000 / 86400000000000 = days := by omega
  have hdate : (Moment.ofNs (days * 86400000000000)).date = Date.ofDays days := by
    rw [Moment.ofNs, hdays]
  have htext : strftime (Moment.ofNs (days * 86400000000000)) "%Y-%m-%d".toList =
      printYear (Date.ofDays days).year ++ '-' :: (padded 2 (Date.ofDays days).month ++
        '-' :: (padded 2 (Date.ofDays days).day ++ [])) := by
    rw [← hdate]
    rfl
  rw [readDays, print, String.toList_ofList, htext, readDate_append _ not_startsWithDigit_nil]
  simp [Date.toDays_ofDays]

example : print 1709164800000001999 "%Y-%m-%d %H:%M:%S%.6f" = "2024-02-29 00:00:00.000001" := by decide

end ReadBack

/-! ### Characters -/

theorem notMem_padded {c : Char} (hc : c.isDigit = false) (width n : Nat) : c ∉ padded width n := by
  intro hmem
  rw [isDigit_of_mem_padded hmem] at hc
  cases hc

theorem quote_notMem_strftime (moment : Moment) {format : List Char} (h : '\'' ∉ format) :
    '\'' ∉ strftime moment format := by
  have hpad := notMem_padded (c := '\'') rfl
  fun_induction strftime moment format with
  | case1 format ih =>
    have hyear : '\'' ∉ printYear moment.date.year := by
      unfold printYear
      split
      · simp [hpad]
      · split <;> simp [hpad]
    simp_all
  | case8 format ih =>
    have hfraction : '\'' ∉ printFraction moment.nano := by
      unfold printFraction
      split
      · simp
      · split
        · simp [hpad]
        · split <;> simp [hpad]
    simp_all
  | _ => simp_all

theorem quote_notMem_print (ns : Int) {format : String} (h : '\'' ∉ format.toList) :
    '\'' ∉ (print ns format).toList := by
  rw [print, String.toList_ofList]
  exact quote_notMem_strftime _ h

end RustDbDriver.Lib.Calendar
