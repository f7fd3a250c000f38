import AIHub.Domain.TimeOrder

/-!
# Times read from texts

`datetime.fromisoformat` is the inverse of `isoformat`: it reads a text that `isoformat` has
written with microseconds in UTC as the time that it shows. The other formats that it knows, and its
errors, are a parameter.

* `daysFromCivil_civil`: the day of a date, in closed form.
* `fromisoformat_isoformat`: a time is read back from its text.
-/

namespace AIHub.Timestamp

/-- The day of a date, counted from 1970-01-01. -/
def daysFromCivil (year : Int) (month day : Nat) : Int :=
  let year := if month ≤ 2 then year - 1 else year
  let yearOfEra := (year.fmod 400).toNat
  let march := if 2 < month then month - 3 else month + 9
  let dayOfYear := (153 * march + 2) / 5 + (day - 1)
  year.fdiv 400 * 146097 +
    ((yearOfEra * 365 + yearOfEra / 4 - yearOfEra / 100 + dayOfYear : Nat) : Int) - 719468

theorem daysFromCivil_marchDate {era : Int} {year day : Nat} (hyear : year < 400)
    (hday : day ≤ 365) :
    daysFromCivil (marchDate (year + 400 * era) day).1 (marchDate (year + 400 * era) day).2.1
        (marchDate (year + 400 * era) day).2.2 =
      era * 146097 + (year * 365 + year / 4 - year / 100 + day : Nat) - 719468 := by
  have hdiv : ((year : Int) + 400 * era).fdiv 400 = era := by
    rw [Int.fdiv_eq_ediv_of_nonneg _ (by decide)]
    omega
  have hmod : (((year : Int) + 400 * era).fmod 400).toNat = year := by
    rw [Int.fmod_eq_emod_of_nonneg _ (by decide)]
    omega
  -- the day of the month counts from the first one, which is not after the day
  have hfirst : (153 * ((5 * day + 2) / 153) + 2) / 5 ≤ day := by omega
  by_cases hmarch : (5 * day + 2) / 153 < 10
  · have hmonth : ¬ (5 * day + 2) / 153 + 3 ≤ 2 := by omega
    have hmonth' : 2 < (5 * day + 2) / 153 + 3 := by omega
    simp only [daysFromCivil, marchDate, if_pos hmarch, if_neg hmonth, if_pos hmonth', add_zero,
      hdiv, hmod]
    omega
  · have hmonth : (5 * day + 2) / 153 - 9 ≤ 2 := by omega
    have hmonth' : ¬ 2 < (5 * day + 2) / 153 - 9 := by omega
    simp only [daysFromCivil, marchDate, if_neg hmarch, if_pos hmonth, if_neg hmonth',
      add_sub_cancel_right, hdiv, hmod]
    omega

theorem daysFromCivil_civil (day : Int) :
    daysFromCivil (civil day).1 (civil day).2.1 (civil day).2.2 = day := by
  have hera : 0 ≤ (day + 719468) % 146097 ∧ (day + 719468) % 146097 < 146097 := by omega
  have hlt : ((day + 719468) % 146097).toNat < 146097 := by omega
  have hstart := yearStart_le hlt
  rw [civil_eq, Int.fmod_eq_emod_of_nonneg _ (by decide),
    Int.fdiv_eq_ediv_of_nonneg _ (by decide),
    daysFromCivil_marchDate (yearOfEra_lt hlt) (by unfold dayOfYear; omega)]
  unfold dayOfYear
  omega

/-! ## Texts with microseconds -/

/-- `isoformat(timespec="microseconds")`. -/
def isoformatMicroseconds (t : Timestamp) : String :=
  let (year, month, day) := civil (t.shown.fdiv microsPerDay)
  let micros := (t.shown.fmod microsPerDay).toNat
  padded 4 year.toNat ++ "-" ++ padded 2 month ++ "-" ++ padded 2 day ++ "T" ++ clock micros ++
    "." ++ padded 6 (micros % 1000000) ++ offsetText t.offset

/-- The number in the `width` characters from `start` on. -/
def numberAt (cs : List Char) (start width : Nat) : Nat :=
  Nat.ofDigitChars 10 ((cs.drop start).take width) 0

/-- The time that a text shows, if it is one that `isoformat` has written with microseconds. -/
def readDigits (cs : List Char) : Int :=
  daysFromCivil (numberAt cs 0 4) (numberAt cs 5 2) (numberAt cs 8 2) * microsPerDay +
    ((((numberAt cs 11 2 * 60 + numberAt cs 14 2) * 60 + numberAt cs 17 2) * 1000000 +
      numberAt cs 20 6 : Nat) : Int)

instance (t : Timestamp) : Decidable t.IsDatetime :=
  decidable_of_iff (-719162 * microsPerDay ≤ t.instant + t.offset ∧
      t.instant + t.offset < 2932897 * microsPerDay ∧ t.offset.natAbs < microsPerDay.natAbs)
    ⟨fun h => ⟨h.1, h.2.1, h.2.2⟩, fun h => ⟨h.first, h.last, h.offset⟩⟩

/-- A `datetime`; a naive one is the date and the time of day, as microseconds. -/
inductive ParsedTime where
  | naive (shown : Int)
  | aware (t : Timestamp)
  deriving DecidableEq

/-- The UTC offset, if there is one. -/
def ParsedTime.offset? : ParsedTime → Option Int
  | naive _ => none
  | aware t => some t.offset

/-- `datetime.fromisoformat`, given what it makes of the texts that are not UTC with
microseconds. -/
def fromisoformat (otherFormats : String → Except HubError ParsedTime) (text : String) :
    Except HubError ParsedTime :=
  let t : Timestamp := { instant := readDigits text.toList }
  if t.IsDatetime ∧ isoformatMicroseconds t = text then .ok (.aware t) else otherFormats text

theorem ofDigitChars_padded (width n : Nat) :
    Nat.ofDigitChars 10 (padded width n).toList 0 = n := by
  rw [padded, String.toList_ofList, Nat.ofDigitChars_append, Nat.ofDigitChars_replicate_zero,
    Nat.mul_zero, Nat.ofDigitChars_ten_toDigits]

/-- The first number is read. -/
theorem numberAt_zero {width n : Nat} (hwidth : 0 < width) (hn : n < 10 ^ width)
    (after : List Char) : numberAt ((padded width n).toList ++ after) 0 width = n := by
  rw [numberAt, List.drop_zero, List.take_left' (length_padded hwidth hn), ofDigitChars_padded]

/-- A number is read after another one and a separator. -/
theorem numberAt_padded {width n start start' : Nat} (hwidth : 0 < width) (hn : n < 10 ^ width)
    (hstart : start = width + 1 + start') (c : Char) (after : List Char) (width' : Nat) :
    numberAt ((padded width n).toList ++ c :: after) start width' =
      numberAt after start' width' := by
  have hdrop : ((padded width n).toList ++ c :: after).drop start = after.drop start' := by
    rw [hstart, ← List.drop_drop, List.append_cons,
      List.drop_left' (by rw [List.length_append, length_padded hwidth hn, List.length_singleton])]
  rw [numberAt, hdrop, numberAt]

theorem toList_isoformatMicroseconds (t : Timestamp) : t.isoformatMicroseconds.toList =
    (padded 4 (civil (t.shown.fdiv microsPerDay)).1.toNat).toList ++
      ('-' :: ((padded 2 (civil (t.shown.fdiv microsPerDay)).2.1).toList ++
        ('-' :: ((padded 2 (civil (t.shown.fdiv microsPerDay)).2.2).toList ++
          ('T' :: ((clock (t.shown.fmod microsPerDay).toNat).toList ++
            ('.' :: ((padded 6 ((t.shown.fmod microsPerDay).toNat % 1000000)).toList ++
              (offsetText t.offset).toList)))))))) := by
  simp [isoformatMicroseconds]

theorem readDigits_isoformatMicroseconds {t : Timestamp} (h : t.IsDatetime) :
    readDigits t.isoformatMicroseconds.toList = t.shown := by
  obtain ⟨hyear, hyear'⟩ := year_digits h
  obtain ⟨hmonth, hday⟩ := civil_digits (t.shown.fdiv microsPerDay)
  have htext := toList_isoformatMicroseconds t
  have hcivil := daysFromCivil_civil (t.shown.fdiv microsPerDay)
  have hshown := Int.fdiv_mul_add_fmod t.shown microsPerDay
  have hmicros : (t.shown.fmod microsPerDay).toNat < 86400000000 ∧
      ((t.shown.fmod microsPerDay).toNat : Int) = t.shown.fmod microsPerDay := by
    rw [Int.fmod_eq_emod_of_nonneg _ (by decide), microsPerDay]
    omega
  generalize (civil (t.shown.fdiv microsPerDay)).1 = year at *
  generalize (civil (t.shown.fdiv microsPerDay)).2.1 = month at *
  generalize (civil (t.shown.fdiv microsPerDay)).2.2 = day at *
  generalize (t.shown.fmod microsPerDay).toNat = micros at *
  obtain ⟨hmicros, hfmod⟩ := hmicros
  have hyear'' : year.toNat < 10 ^ 4 := by omega
  have hhour : micros / 1000000 / 3600 < 10 ^ 2 := by omega
  have hminute : micros / 1000000 / 60 % 60 < 10 ^ 2 := by omega
  have hsecond : micros / 1000000 % 60 < 10 ^ 2 := by omega
  simp only [toList_clock, List.append_assoc, List.cons_append] at htext
  -- each number is behind those before it, and one separator for each
  have pastYear := fun (a b : Nat) (hab : a = 5 + b) =>
    numberAt_padded (by decide) hyear'' hab
  have pastMonth := fun (a b : Nat) (hab : a = 3 + b) =>
    numberAt_padded (by decide) hmonth hab
  have pastDay := fun (a b : Nat) (hab : a = 3 + b) =>
    numberAt_padded (by decide) hday hab
  have pastHour := fun (a b : Nat) (hab : a = 3 + b) =>
    numberAt_padded (by decide) hhour hab
  have pastMinute := fun (a b : Nat) (hab : a = 3 + b) =>
    numberAt_padded (by decide) hminute hab
  have pastSecond := fun (a b : Nat) (hab : a = 3 + b) =>
    numberAt_padded (by decide) hsecond hab
  have yearAt : numberAt t.isoformatMicroseconds.toList 0 4 = year.toNat := by
    rw [htext, numberAt_zero (by decide) hyear'']
  have monthAt : numberAt t.isoformatMicroseconds.toList 5 2 = month := by
    rw [htext, pastYear 5 0 rfl, numberAt_zero (by decide) hmonth]
  have dayAt : numberAt t.isoformatMicroseconds.toList 8 2 = day := by
    rw [htext, pastYear 8 3 rfl, pastMonth 3 0 rfl,
      numberAt_zero (by decide) hday]
  have hourAt : numberAt t.isoformatMicroseconds.toList 11 2 = micros / 1000000 / 3600 := by
    rw [htext, pastYear 11 6 rfl, pastMonth 6 3 rfl, pastDay 3 0 rfl,
      numberAt_zero (by decide) hhour]
  have minuteAt : numberAt t.isoformatMicroseconds.toList 14 2 = micros / 1000000 / 60 % 60 := by
    rw [htext, pastYear 14 9 rfl, pastMonth 9 6 rfl, pastDay 6 3 rfl,
      pastHour 3 0 rfl, numberAt_zero (by decide) hminute]
  have secondAt : numberAt t.isoformatMicroseconds.toList 17 2 = micros / 1000000 % 60 := by
    rw [htext, pastYear 17 12 rfl, pastMonth 12 9 rfl,
      pastDay 9 6 rfl, pastHour 6 3 rfl, pastMinute 3 0 rfl,
      numberAt_zero (by decide) hsecond]
  have microsAt : numberAt t.isoformatMicroseconds.toList 20 6 = micros % 1000000 := by
    rw [htext, pastYear 20 15 rfl, pastMonth 15 12 rfl,
      pastDay 12 9 rfl, pastHour 9 6 rfl, pastMinute 6 3 rfl,
      pastSecond 3 0 rfl, numberAt_zero (by decide) (by omega)]
  have htime : ((micros / 1000000 / 3600 * 60 + micros / 1000000 / 60 % 60) * 60 +
      micros / 1000000 % 60) * 1000000 + micros % 1000000 = micros := by
    omega
  rw [readDigits, yearAt, monthAt, dayAt, hourAt, minuteAt, secondAt, microsAt, htime,
    Int.toNat_of_nonneg hyear, hcivil, hfmod, hshown]

/-- A time in UTC is read back from its text. -/
theorem fromisoformat_isoformat (otherFormats : String → Except HubError ParsedTime)
    {instant : Int} (h : (⟨instant, 0⟩ : Timestamp).IsDatetime) :
    fromisoformat otherFormats (isoformatMicroseconds ⟨instant, 0⟩) =
      .ok (.aware ⟨instant, 0⟩) := by
  have hread : readDigits (isoformatMicroseconds ⟨instant, 0⟩).toList = instant :=
    (readDigits_isoformatMicroseconds h).trans (Int.add_zero instant)
  simp only [fromisoformat, hread]
  rw [if_pos ⟨h, trivial⟩]

end AIHub.Timestamp
