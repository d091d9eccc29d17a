import Mathlib.Data.List.Basic
import ZkApi.Gregorian
import ZkApi.MachineIntegers
import ZkApi.OpenRouterReplies

/-!
# The expiry of a key as a date

The server sends the expiry of an OpenRouter key as a text.  The text names the date and the
time of day of the timestamp in the proleptic Gregorian calendar, so a key that OpenRouter
confirms expires when the server wants it to.
-/

namespace ZkApi

open Gregorian

/-- The result of every `i64` operation of `unix_to_iso8601`, in its order. -/
def i64Results (secs : UInt64) : List Int :=
  let days : Int := (secs / 86400).toNat
  let z := days + 719468
  let shifted := if z ≥ 0 then z else z - 146096
  let era := shifted.tdiv 146097
  let doe := z - era * 146097
  let sum := doe - doe.tdiv 1460
  let yoe := (sum + doe.tdiv 36524 - doe.tdiv 146096).tdiv 365
  let y := yoe + era * 400
  let leapDays := 365 * yoe + yoe.tdiv 4
  let doy := doe - (leapDays - yoe.tdiv 100)
  let mp := (5 * doy + 2).tdiv 153
  let day := doy - (153 * mp + 2).tdiv 5 + 1
  let month := if mp < 10 then mp + 3 else mp - 9
  let year := if month ≤ 2 then y + 1 else y
  [days, z, shifted, era, era * 146097, doe, doe.tdiv 1460, sum, doe.tdiv 36524,
    sum + doe.tdiv 36524, doe.tdiv 146096, sum + doe.tdiv 36524 - doe.tdiv 146096, yoe, era * 400,
    y, 365 * yoe, yoe.tdiv 4, leapDays, yoe.tdiv 100, leapDays - yoe.tdiv 100, doy, 5 * doy,
    5 * doy + 2, mp, 153 * mp, 153 * mp + 2, (153 * mp + 2).tdiv 5, doy - (153 * mp + 2).tdiv 5,
    day, month, year]

def FitsI64 (value : Int) : Prop :=
  -(2 ^ 63) ≤ value ∧ value < 2 ^ 63

/-- The text of a date and a time of day. -/
def isoText (date : Date) (time : TimeOfDay) : String :=
  zeroPadded 4 date.year ++ "-" ++ zeroPadded 2 date.month ++ "-" ++ zeroPadded 2 date.day ++ "T" ++
    zeroPadded 2 time.hour ++ ":" ++ zeroPadded 2 time.minute ++ ":" ++
      zeroPadded 2 time.second ++ "Z"

/-- The Unix time of a date and a time of day. -/
def unixSeconds (date : Date) (time : TimeOfDay) : Int :=
  ((date.days : Int) - (daysBeforeYear 1970 : Int)) * 86400 + time.seconds

section Steps

/-- The numbers that `unix_to_iso8601` computes from the days since the first of March of the
year zero. -/
structure MarchSteps (days : Nat) where
  era : Nat
  doe : Nat
  yoe : Nat
  doy : Nat
  mp : Nat
  day : Nat
  era_eq : era = (days + 719468) / 146097
  doe_eq : days + 719468 = era * 146097 + doe
  doe_lt : doe < 146097
  yoe_eq : yoe = yearOfEra doe
  yoe_lt : yoe < 400
  doy_eq : doe = daysBeforeYearOfEra yoe + doy
  doy_le : doy ≤ 365
  leap : doy = 365 → isLeap (yoe + era * 400 + 1) = true
  mp_eq : mp = (5 * doy + 2) / 153
  day_eq : doy = daysFromMarch mp + day

/-- The steps of every day. -/
def marchSteps (days : Nat) : MarchSteps days :=
  let era := (days + 719468) / 146097
  let doe := (days + 719468) % 146097
  have within : doe < 146097 := Nat.mod_lt _ (by omega)
  have spec := yearOfEra_spec within era
  let yoe := yearOfEra doe
  let doy := doe - daysBeforeYearOfEra yoe
  let mp := (5 * doy + 2) / 153
  have month := @day_fromMarch (yoe + era * 400) mp _ spec.2.2.1 spec.2.2.2 rfl
  { era := era
    doe := doe
    yoe := yoe
    doy := doy
    mp := mp
    day := doy - daysFromMarch mp
    era_eq := rfl
    doe_eq := by omega
    doe_lt := within
    yoe_eq := rfl
    yoe_lt := spec.1
    doy_eq := (Nat.add_sub_cancel' spec.2.1).symm
    doy_le := spec.2.2.1
    leap := spec.2.2.2
    mp_eq := rfl
    day_eq := (Nat.add_sub_cancel' month.2.1).symm }

variable {days : Nat}

theorem MarchSteps.month_pos (steps : MarchSteps days) : 1 ≤ monthFromMarch steps.mp := by
  rw [monthFromMarch]
  split <;> omega

theorem MarchSteps.month_le (steps : MarchSteps days) : monthFromMarch steps.mp ≤ 12 := by
  have small := (day_fromMarch steps.doy_le steps.leap steps.mp_eq).1
  rw [monthFromMarch]
  split <;> omega

theorem MarchSteps.day_pos (steps : MarchSteps days) : 1 ≤ steps.day + 1 :=
  Nat.le_add_left 1 _

theorem MarchSteps.day_le (steps : MarchSteps days) :
    steps.day + 1 ≤ daysInMonth (yearFromMarch (steps.yoe + steps.era * 400) steps.mp)
      (monthFromMarch steps.mp) := by
  have month := (day_fromMarch steps.doy_le steps.leap steps.mp_eq).2.2
  have left : steps.doy - daysFromMarch steps.mp = steps.day := by
    have := steps.day_eq
    omega
  rwa [left] at month

/-- The date that the steps lead to. -/
def MarchSteps.date (steps : MarchSteps days) : Date where
  year := yearFromMarch (steps.yoe + steps.era * 400) steps.mp
  month := monthFromMarch steps.mp
  day := steps.day + 1
  month_pos := steps.month_pos
  month_le := steps.month_le
  day_pos := steps.day_pos
  day_le := steps.day_le

/-- The date has as many days before it as the steps start from. -/
theorem MarchSteps.days_date (steps : MarchSteps days) : steps.date.days = days + 719528 := by
  have small := (day_fromMarch steps.doy_le steps.leap steps.mp_eq).1
  have month := daysBeforeMonth_fromMarch (steps.yoe + steps.era * 400) steps.mp small
  have march := daysBeforeMarch_era steps.yoe steps.era steps.yoe_lt
  have fields : steps.date.days = daysBeforeYear (yearFromMarch (steps.yoe + steps.era * 400)
      steps.mp) + daysBeforeMonth (yearFromMarch (steps.yoe + steps.era * 400) steps.mp)
        (monthFromMarch steps.mp) + steps.day := rfl
  have start := steps.doe_eq
  have year := steps.doy_eq
  have day := steps.day_eq
  omega

/-- The time of day of a timestamp. -/
def timeOfDay (secs : UInt64) : TimeOfDay where
  hour := (secs % 86400).toNat / 3600
  minute := (secs % 86400).toNat % 3600 / 60
  second := (secs % 86400).toNat % 60
  hour_lt := by
    have within : (secs % 86400).toNat < 86400 := by simpa using Nat.mod_lt secs.toNat (by omega)
    omega
  minute_lt := by omega
  second_lt := by omega

end Steps

section Texts

variable {days : Nat} (steps : MarchSteps days)

theorem MarchSteps.era_tdiv : (if ((days + 719468 : Nat) : Int) ≥ 0
    then ((days + 719468 : Nat) : Int) else ((days + 719468 : Nat) : Int) - 146096).tdiv 146097 =
      (steps.era : Int) := by
  rw [if_pos (Int.natCast_nonneg _), Int.tdiv_eq_ediv_of_nonneg (Int.natCast_nonneg _),
    steps.era_eq]
  omega

theorem MarchSteps.doe_sub :
    ((days + 719468 : Nat) : Int) - (steps.era : Int) * 146097 = (steps.doe : Int) := by
  have start := steps.doe_eq
  omega

theorem MarchSteps.yoe_tdiv :
    ((steps.doe : Int) - (steps.doe : Int).tdiv 1460 + (steps.doe : Int).tdiv 36524 -
      (steps.doe : Int).tdiv 146096).tdiv 365 = (steps.yoe : Int) := by
  have found : steps.yoe = (steps.doe - steps.doe / 1460 + steps.doe / 36524 -
    steps.doe / 146096) / 365 := steps.yoe_eq
  simp only [Int.tdiv_eq_ediv_of_nonneg (Int.natCast_nonneg steps.doe)]
  rw [Int.tdiv_eq_ediv_of_nonneg (by omega), found]
  omega

theorem MarchSteps.doy_sub :
    (steps.doe : Int) - (365 * (steps.yoe : Int) + (steps.yoe : Int).tdiv 4 -
      (steps.yoe : Int).tdiv 100) = (steps.doy : Int) := by
  have year := steps.doy_eq
  rw [daysBeforeYearOfEra] at year
  simp only [Int.tdiv_eq_ediv_of_nonneg (Int.natCast_nonneg steps.yoe)]
  omega

theorem MarchSteps.mp_tdiv : (5 * (steps.doy : Int) + 2).tdiv 153 = (steps.mp : Int) := by
  rw [Int.tdiv_eq_ediv_of_nonneg (by omega), steps.mp_eq]
  omega

theorem MarchSteps.day_sub :
    (steps.doy : Int) - (153 * (steps.mp : Int) + 2).tdiv 5 + 1 = (steps.date.day : Int) := by
  have day := steps.day_eq
  rw [daysFromMarch] at day
  have field : steps.date.day = steps.day + 1 := rfl
  rw [Int.tdiv_eq_ediv_of_nonneg (by omega), field]
  omega

theorem MarchSteps.month_ite :
    (if (steps.mp : Int) < 10 then (steps.mp : Int) + 3 else (steps.mp : Int) - 9) =
      (steps.date.month : Int) := by
  have field : steps.date.month = if steps.mp < 10 then steps.mp + 3 else steps.mp - 9 := rfl
  rw [field]
  split <;> split <;> omega

theorem MarchSteps.year_ite :
    (if (steps.date.month : Int) ≤ 2 then (steps.yoe : Int) + (steps.era : Int) * 400 + 1
      else (steps.yoe : Int) + (steps.era : Int) * 400) = (steps.date.year : Int) := by
  have small := (day_fromMarch steps.doy_le steps.leap steps.mp_eq).1
  have month : steps.date.month = if steps.mp < 10 then steps.mp + 3 else steps.mp - 9 := rfl
  have year : steps.date.year = if steps.mp < 10 then steps.yoe + steps.era * 400
      else steps.yoe + steps.era * 400 + 1 := rfl
  rw [month, year]
  split <;> split <;> split at * <;> omega

theorem timeOfDay_hour (secs : UInt64) :
    ((secs % 86400).toNat : Int).tdiv 3600 = ((timeOfDay secs).hour : Int) := by
  rw [Int.tdiv_eq_ediv_of_nonneg (Int.natCast_nonneg _)]
  rfl

theorem timeOfDay_minute (secs : UInt64) :
    (((secs % 86400).toNat : Int).tmod 3600).tdiv 60 = ((timeOfDay secs).minute : Int) := by
  rw [Int.tmod_eq_emod_of_nonneg (Int.natCast_nonneg _), Int.tdiv_eq_ediv_of_nonneg (by omega)]
  rfl

theorem timeOfDay_second (secs : UInt64) :
    ((secs % 86400).toNat : Int).tmod 60 = ((timeOfDay secs).second : Int) := by
  rw [Int.tmod_eq_emod_of_nonneg (Int.natCast_nonneg _)]
  rfl

/-- The text of a timestamp names the date and the time of day that the steps lead to. -/
theorem unixToIso8601_eq (secs : UInt64) (steps : MarchSteps (secs / 86400).toNat) :
    unixToIso8601 secs = isoText steps.date (timeOfDay secs) := by
  have start : ((secs / 86400).toNat : Int) + 719468 =
      (((secs / 86400).toNat + 719468 : Nat) : Int) := by omega
  simp only [unixToIso8601, start, steps.era_tdiv, steps.doe_sub, steps.yoe_tdiv, steps.doy_sub,
    steps.mp_tdiv, steps.day_sub, steps.month_ite, steps.year_ite, timeOfDay_hour,
    timeOfDay_minute, timeOfDay_second, isoText]

/-- The last results are the numbers of the date that is written. -/
theorem i64Results_date (secs : UInt64) (steps : MarchSteps (secs / 86400).toNat) :
    (i64Results secs).drop 28 =
      [(steps.date.day : Int), (steps.date.month : Int), (steps.date.year : Int)] := by
  have start : ((secs / 86400).toNat : Int) + 719468 =
      (((secs / 86400).toNat + 719468 : Nat) : Int) := by omega
  simp only [i64Results, start, steps.era_tdiv, steps.doe_sub, steps.yoe_tdiv, steps.doy_sub,
    steps.mp_tdiv, steps.day_sub, steps.month_ite, steps.year_ite, List.drop_succ_cons,
    List.drop_zero]

/-- No operation overflows. -/
theorem i64Results_fit (secs : UInt64) (steps : MarchSteps (secs / 86400).toNat) :
    ∀ value ∈ i64Results secs, FitsI64 value := by
  have limit : (secs / 86400).toNat < 2 ^ 48 := by
    have divided : (secs / 86400).toNat = secs.toNat / 86400 := UInt64.toNat_div _ _
    have word := secs.toNat_lt
    omega
  have start : ((secs / 86400).toNat : Int) + 719468 =
      (((secs / 86400).toNat + 719468 : Nat) : Int) := by omega
  have eraLimit : steps.era < 2 ^ 32 := by
    have divided := steps.era_eq
    omega
  have doeLimit := steps.doe_lt
  have yoeLimit := steps.yoe_lt
  have doyLimit := steps.doy_le
  have mpLimit := (day_fromMarch steps.doy_le steps.leap steps.mp_eq).1
  have dayLimit : steps.date.day ≤ 366 := by
    have day := steps.day_eq
    have field : steps.date.day = steps.day + 1 := rfl
    omega
  have monthLimit := steps.date.month_le
  have yearLimit : steps.date.year ≤ steps.yoe + steps.era * 400 + 1 := by
    change yearFromMarch _ _ ≤ _
    rw [yearFromMarch]
    split <;> omega
  have product : (153 * (steps.mp : Int) + 2).tdiv 5 = (153 * (steps.mp : Int) + 2) / 5 :=
    Int.tdiv_eq_ediv_of_nonneg (by omega)
  simp only [i64Results, start, steps.era_tdiv, steps.doe_sub, steps.yoe_tdiv, steps.doy_sub,
    steps.mp_tdiv, steps.month_ite, steps.year_ite, product]
  simp only [Int.tdiv_eq_ediv_of_nonneg (Int.natCast_nonneg steps.doe),
    Int.tdiv_eq_ediv_of_nonneg (Int.natCast_nonneg steps.yoe)]
  clear product start
  simp only [List.forall_mem_cons, List.not_mem_nil, false_implies, implies_true, and_true, FitsI64]
  refine ⟨?_, ?_, ?_, ?_, ?_, ?_, ?_, ?_, ?_, ?_, ?_, ?_, ?_, ?_, ?_, ?_, ?_, ?_, ?_, ?_, ?_, ?_,
    ?_, ?_, ?_, ?_, ?_, ?_, ?_, ?_, ?_⟩ <;> omega

end Texts

section Inverse

theorem daysBeforeYear_epoch : daysBeforeYear 1970 = 719528 := by
  rw [daysBeforeYear_eq]

theorem timeOfDay_seconds (secs : UInt64) :
    (timeOfDay secs).seconds = secs.toNat % 86400 := by
  have rem : (secs % 86400).toNat = secs.toNat % 86400 := UInt64.toNat_mod _ _
  simp only [TimeOfDay.seconds, timeOfDay, rem]
  omega

/-- The date and the time of day that the steps lead to are those of the timestamp. -/
theorem unixSeconds_date (secs : UInt64) (steps : MarchSteps (secs / 86400).toNat) :
    unixSeconds steps.date (timeOfDay secs) = secs.toNat := by
  have divided : (secs / 86400).toNat = secs.toNat / 86400 := UInt64.toNat_div _ _
  rw [unixSeconds, steps.days_date, daysBeforeYear_epoch, timeOfDay_seconds]
  omega

end Inverse

section Injectivity

theorem toList_zeroPadded (width value : Nat) :
    (zeroPadded width value).toList =
      List.replicate (width - (toString value).length) '0' ++ Nat.toDigits 10 value := by
  have text : toString (value : Int) = toString value := rfl
  simp only [zeroPadded, text, String.toList_append, String.toList_ofList]
  rw [Nat.toString_eq_ofList_toDigits, String.toList_ofList]

/-- Zeros on the left do not change the number that a text denotes. -/
theorem ofDigitChars_zeroPadded (width value : Nat) :
    Nat.ofDigitChars 10 (zeroPadded width value).toList 0 = value := by
  rw [toList_zeroPadded, Nat.ofDigitChars_append, Nat.ofDigitChars_replicate_zero, Nat.mul_zero,
    Nat.ofDigitChars_ten_toDigits]

theorem zeroPadded_injective {width first second : Nat}
    (same : (zeroPadded width first).toList = (zeroPadded width second).toList) :
    first = second := by
  rw [← ofDigitChars_zeroPadded width first, same, ofDigitChars_zeroPadded]

theorem length_zeroPadded_two {value : Nat} (small : value < 100) :
    (zeroPadded 2 value).toList.length = 2 := by
  have digits : (Nat.toDigits 10 value).length ≤ 2 :=
    (Nat.length_toDigits_le_iff (by omega) (by omega)).mpr (by omega)
  have text : (toString value).length = (Nat.toDigits 10 value).length := by
    rw [Nat.toString_eq_ofList_toDigits, String.length_ofList]
  rw [toList_zeroPadded, List.length_append, List.length_replicate, text]
  omega

/-- A text determines its date and its time of day. -/
theorem isoText_injective {date other : Date} {time another : TimeOfDay}
    (same : isoText date time = isoText other another) : date = other ∧ time = another := by
  have letters := congrArg String.toList same
  simp only [isoText, String.toList_append, List.append_assoc] at letters
  have two : ∀ {first second : Nat} {rest more : List Char}, first < 100 → second < 100 →
      (zeroPadded 2 first).toList ++ rest = (zeroPadded 2 second).toList ++ more →
        first = second ∧ rest = more := by
    intro first second rest more small less equal
    obtain ⟨left, right⟩ := List.append_inj equal
      ((length_zeroPadded_two small).trans (length_zeroPadded_two less).symm)
    exact ⟨zeroPadded_injective left, right⟩
  have dayLess : ∀ date : Date, date.day < 100 := by
    intro date
    have most := date.day_le.trans (daysInMonth_le _ _)
    omega
  have monthLess : ∀ date : Date, date.month < 100 := fun date => by
    have most := date.month_le
    omega
  have hourLess : ∀ time : TimeOfDay, time.hour < 100 := fun time => by
    have most := time.hour_lt
    omega
  have minuteLess : ∀ time : TimeOfDay, time.minute < 100 := fun time => by
    have most := time.minute_lt
    omega
  have secondLess : ∀ time : TimeOfDay, time.second < 100 := fun time => by
    have most := time.second_lt
    omega
  -- Everything after the year has the same length, so the years end at the same place.
  have tail : ∀ (date : Date) (time : TimeOfDay), ("-".toList ++ ((zeroPadded 2 date.month).toList ++
      ("-".toList ++ ((zeroPadded 2 date.day).toList ++ ("T".toList ++
        ((zeroPadded 2 time.hour).toList ++ (":".toList ++ ((zeroPadded 2 time.minute).toList ++
          (":".toList ++ ((zeroPadded 2 time.second).toList ++ "Z".toList)))))))))).length = 16 := by
    intro date time
    simp only [List.length_append, length_zeroPadded_two (monthLess date),
      length_zeroPadded_two (dayLess date), length_zeroPadded_two (hourLess time),
      length_zeroPadded_two (minuteLess time), length_zeroPadded_two (secondLess time)]
    rfl
  obtain ⟨years, rest⟩ := List.append_inj' letters ((tail date time).trans (tail other another).symm)
  obtain ⟨months, rest⟩ := two (monthLess date) (monthLess other) (List.append_cancel_left rest)
  obtain ⟨dayNumbers, rest⟩ := two (dayLess date) (dayLess other) (List.append_cancel_left rest)
  obtain ⟨hours, rest⟩ := two (hourLess time) (hourLess another) (List.append_cancel_left rest)
  obtain ⟨minutes, rest⟩ := two (minuteLess time) (minuteLess another) (List.append_cancel_left rest)
  obtain ⟨seconds, -⟩ := two (secondLess time) (secondLess another) (List.append_cancel_left rest)
  exact ⟨Date.ext (zeroPadded_injective years) months dayNumbers,
    TimeOfDay.ext hours minutes seconds⟩

end Injectivity

section Expiry

theorem unixToIso8601_injective : Function.Injective unixToIso8601 := by
  intro secs other same
  rw [unixToIso8601_eq secs (marchSteps _), unixToIso8601_eq other (marchSteps _)] at same
  obtain ⟨dates, times⟩ := isoText_injective same
  have value := unixSeconds_date secs (marchSteps _)
  rw [dates, times, unixSeconds_date other (marchSteps _)] at value
  exact UInt64.toNat_inj.mp (by omega)

/-- The text of a timestamp ends with two digits and a `Z` after a colon. -/
theorem toList_unixToIso8601 (secs : UInt64) : ∃ front tens ones,
    (unixToIso8601 secs).toList = front ++ [':', tens, ones, 'Z'] := by
  have length := @length_zeroPadded_two (timeOfDay secs).second (by
    have most := (timeOfDay secs).second_lt
    omega)
  obtain ⟨tens, ones, digits⟩ := List.length_eq_two.mp length
  have ending : ∃ front : String, unixToIso8601 secs =
      front ++ ":" ++ zeroPadded 2 (timeOfDay secs).second ++ "Z" :=
    ⟨_, unixToIso8601_eq secs (marchSteps _)⟩
  obtain ⟨front, text⟩ := ending
  refine ⟨front.toList, tens, ones, ?_⟩
  simp only [text, String.toList_append, digits, List.append_assoc]
  rfl

/-- OpenRouter repeats a text with or without milliseconds. -/
theorem openrouterExpiryMatches_iff (actual : String) (secs : UInt64) :
    openrouterExpiryMatches actual (unixToIso8601 secs) = true ↔
      actual = unixToIso8601 secs ∨
        ∃ front, unixToIso8601 secs = front ++ "Z" ∧ actual = front ++ ".000Z" := by
  obtain ⟨front, tens, ones, letters⟩ := toList_unixToIso8601 secs
  have text : unixToIso8601 secs = String.ofList (front ++ [':', tens, ones]) ++ "Z" := by
    rw [← String.toList_inj, letters]
    simp
  simp only [openrouterExpiryMatches, letters, List.reverse_append, List.reverse_cons,
    List.reverse_nil, List.nil_append, List.cons_append, Bool.or_eq_true, beq_iff_eq,
    List.reverse_reverse]
  constructor
  · rintro (same | same)
    · exact Or.inl same
    · exact Or.inr ⟨_, text, by simpa using same⟩
  · rintro (same | ⟨prefixText, whole, same⟩)
    · exact Or.inl same
    · right
      have front := String.append_left_inj _ |>.mp (text.symm.trans whole)
      rw [same, ← front]
      simp

/-- A text with milliseconds is the text of no timestamp. -/
theorem unixToIso8601_ne_milliseconds (secs : UInt64) (front : String) :
    unixToIso8601 secs ≠ front ++ ".000Z" := by
  intro same
  obtain ⟨start, tens, ones, letters⟩ := toList_unixToIso8601 secs
  rw [same, String.toList_append] at letters
  have last := congrArg (fun text => text.reverse[3]?) letters
  simp at last

/-- A timestamp is written without overflow as a valid date and time of day that denote it, so
different timestamps have different texts and a confirmed expiry is the one that was sent. -/
theorem unixToIso8601_exact (secs : UInt64) :
    (∀ value ∈ i64Results secs, FitsI64 value) ∧
      (∃ date time, unixToIso8601 secs = isoText date time ∧
        (i64Results secs).drop 28 = [(date.day : Int), (date.month : Int), (date.year : Int)] ∧
        unixSeconds date time = secs.toNat) ∧
      (∀ other, unixToIso8601 other = unixToIso8601 secs → other = secs) ∧
      (∀ other, openrouterExpiryMatches (unixToIso8601 other) (unixToIso8601 secs) = true →
        other = secs) := by
  refine ⟨i64Results_fit secs (marchSteps _), ?_, ?_, ?_⟩
  · exact ⟨_, _, unixToIso8601_eq secs (marchSteps _), i64Results_date secs (marchSteps _),
      unixSeconds_date secs (marchSteps _)⟩
  · intro other same
    exact unixToIso8601_injective same
  · intro other repeated
    rcases (openrouterExpiryMatches_iff _ _).mp repeated with same | ⟨front, -, milliseconds⟩
    · exact unixToIso8601_injective same
    · exact absurd milliseconds (unixToIso8601_ne_milliseconds other front)

end Expiry

end ZkApi
