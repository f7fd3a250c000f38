import AIHub.Domain.Isoformat
import Mathlib.Data.String.Basic
import Mathlib.Tactic.IntervalCases

/-!
# The order of time texts

Times that are stored as texts are compared as texts. All numbers of a text have a fixed width, so
texts are compared as the dates and the times of day that they show (`isoformat_lt`); the UTC
offset stands at the end, and only breaks a tie. The order is that of the instants among times of
one offset (`shownBefore_of_offset`), but not among times of different ones.

* `padded_append_lt`: numbers of one width are compared first.
* `civil_lt`: a later day has a later date.
* `isoformat_lt`: the order of two texts, in terms of the times.
-/

namespace AIHub.Timestamp

/-! ## Numbers -/

theorem digitChar_lt {a b : Nat} (ha : a < 10) (hb : b < 10) :
    a.digitChar < b.digitChar ↔ a < b := by
  show a.digitChar.toNat < b.digitChar.toNat ↔ a < b
  rw [Nat.toNat_digitChar_of_lt_ten ha, Nat.toNat_digitChar_of_lt_ten hb]
  omega

theorem digitChar_inj {a b : Nat} (ha : a < 10) (hb : b < 10) :
    a.digitChar = b.digitChar ↔ a = b := by
  rw [← Char.toNat_inj, Nat.toNat_digitChar_of_lt_ten ha, Nat.toNat_digitChar_of_lt_ten hb]
  omega

/-- The last digit of a number stands after the others. -/
theorem toList_padded_succ {width n : Nat} (h : 0 < width) :
    (padded (width + 1) n).toList = (padded width (n / 10)).toList ++ [(n % 10).digitChar] := by
  unfold padded
  simp only [String.toList_ofList]
  by_cases hn : n < 10
  · have hrest : n / 10 = 0 := Nat.div_eq_of_lt hn
    rw [hrest, Nat.toDigits_of_lt_base hn, Nat.toDigits_zero, Nat.mod_eq_of_lt hn]
    obtain ⟨k, rfl⟩ := Nat.exists_eq_succ_of_ne_zero (Nat.ne_of_gt h)
    simp [List.replicate_succ']
  · rw [Nat.toDigits_of_base_le (by decide) (Nat.not_lt.1 hn), List.length_append,
      List.length_singleton, Nat.add_sub_add_right, List.append_assoc]

theorem toList_padded_one {n : Nat} (h : n < 10) : (padded 1 n).toList = [n.digitChar] := by
  rw [padded, Nat.toDigits_of_lt_base h, String.toList_ofList]
  rfl

theorem length_padded {width n : Nat} (h : 0 < width) (hn : n < 10 ^ width) :
    (padded width n).toList.length = width := by
  have hlen := (Nat.length_toDigits_le_iff (by decide : 1 < 10) h).2 hn
  simp only [padded, String.toList_ofList, List.length_append, List.length_replicate]
  omega

/-- Numbers of one width are compared first. -/
theorem padded_append_lt {width n m : Nat} (h : 0 < width) (hn : n < 10 ^ width)
    (hm : m < 10 ^ width) {x y : List Char} :
    (padded width n).toList ++ x < (padded width m).toList ++ y ↔ n < m ∨ n = m ∧ x < y := by
  induction width, h using Nat.le_induction generalizing n m x y with
  | base =>
    have hn : n < 10 := by simpa using hn
    have hm : m < 10 := by simpa using hm
    rw [toList_padded_one hn, toList_padded_one hm, List.singleton_append, List.singleton_append,
      List.cons_lt_cons_iff, digitChar_lt hn hm, digitChar_inj hn hm]
  | succ width h ih =>
    have hn' : n / 10 < 10 ^ width := Nat.div_lt_of_lt_mul (by rwa [← Nat.pow_succ'])
    have hm' : m / 10 < 10 ^ width := Nat.div_lt_of_lt_mul (by rwa [← Nat.pow_succ'])
    rw [toList_padded_succ h, toList_padded_succ h, List.append_assoc, List.append_assoc,
      ih hn' hm', List.singleton_append, List.singleton_append, List.cons_lt_cons_iff,
      digitChar_lt (Nat.mod_lt _ (by decide)) (Nat.mod_lt _ (by decide)),
      digitChar_inj (Nat.mod_lt _ (by decide)) (Nat.mod_lt _ (by decide))]
    by_cases hxy : x < y
    · simp only [hxy, and_true]
      omega
    · simp only [hxy, and_false, or_false]
      omega

/-! ## Dates -/

/-- Dates are compared by their year, their month and their day. -/
def DateBefore (d e : Int × Nat × Nat) : Prop :=
  d.1 < e.1 ∨ d.1 = e.1 ∧ (d.2.1 < e.2.1 ∨ d.2.1 = e.2.1 ∧ d.2.2 < e.2.2)

theorem DateBefore.trans {d e f : Int × Nat × Nat} (h : DateBefore d e) (h' : DateBefore e f) :
    DateBefore d f := by
  unfold DateBefore at *
  omega

/-- The date of a day of a year that begins in March. -/
def marchDate (year : Int) (dayOfYear : Nat) : Int × Nat × Nat :=
  let march := (5 * dayOfYear + 2) / 153
  let month := if march < 10 then march + 3 else march - 9
  (year + if month ≤ 2 then 1 else 0, month, dayOfYear - (153 * march + 2) / 5 + 1)

theorem marchDate_lt {year year' : Int} {day day' : Nat} (hday : day ≤ 365) (hday' : day' ≤ 365)
    (h : year < year' ∨ year = year' ∧ day < day') :
    DateBefore (marchDate year day) (marchDate year' day') := by
  unfold DateBefore marchDate
  dsimp only
  split_ifs <;> omega

/-- The year of a day in an era. -/
def yearOfEra (dayOfEra : Nat) : Nat :=
  (dayOfEra - dayOfEra / 1460 + dayOfEra / 36524 - dayOfEra / 146096) / 365

def dayOfYear (dayOfEra : Nat) : Nat :=
  dayOfEra - (365 * yearOfEra dayOfEra + yearOfEra dayOfEra / 4 - yearOfEra dayOfEra / 100)

theorem yearOfEra_mono {d : Nat} (h : d + 1 < 146097) : yearOfEra d ≤ yearOfEra (d + 1) := by
  unfold yearOfEra
  omega

theorem yearOfEra_lt {d : Nat} (h : d < 146097) : yearOfEra d < 400 := by
  unfold yearOfEra
  omega

/-- The leap years before a year are those that the days before it have been counted with, but for
the last one. -/
theorem leapYears {d : Nat} (h : d < 146097) :
    yearOfEra d / 100 = d / 36524 - d / 146096 ∧ yearOfEra d / 4 ≤ d / 1460 ∧
      d / 1460 ≤ yearOfEra d / 4 + 1 := by
  unfold yearOfEra
  rw [Nat.div_div_eq_div_mul, Nat.div_div_eq_div_mul]
  have hcentury : d / 36524 ≤ 4 := by omega
  have hfewer : d / 36524 ≤ d / 1460 := Nat.div_le_div_left (by decide) (by decide)
  have hle : d - d / 1460 + d / 36524 - d / 146096 ≤ d := by omega
  refine ⟨?_, Nat.div_le_div_right hle, by omega⟩
  interval_cases hc : d / 36524 <;> omega

theorem yearStart_le {d : Nat} (h : d < 146097) :
    365 * yearOfEra d + yearOfEra d / 4 - yearOfEra d / 100 ≤ d ∧
      d ≤ 365 * yearOfEra d + yearOfEra d / 4 - yearOfEra d / 100 + 365 := by
  obtain ⟨hcentury, hleap, hleap'⟩ := leapYears h
  have hyear : 365 * yearOfEra d ≤ d - d / 1460 + d / 36524 - d / 146096 ∧
      d - d / 1460 + d / 36524 - d / 146096 < 365 * yearOfEra d + 365 := by
    unfold yearOfEra
    omega
  omega

/-- The next day is later in the same year, or in a later year. -/
theorem dayOfYear_succ {d : Nat} (h : d + 1 < 146097) : yearOfEra d < yearOfEra (d + 1) ∨
    yearOfEra d = yearOfEra (d + 1) ∧ dayOfYear d < dayOfYear (d + 1) := by
  have hmono := yearOfEra_mono h
  by_cases hsame : yearOfEra d = yearOfEra (d + 1)
  · have hstart := (yearStart_le (by omega : d < 146097)).1
    refine .inr ⟨hsame, ?_⟩
    unfold dayOfYear
    rw [← hsame]
    omega
  · exact .inl (by omega)

theorem civil_eq (day : Int) : civil day =
    marchDate (yearOfEra ((day + 719468).fmod 146097).toNat + 400 * (day + 719468).fdiv 146097)
      (dayOfYear ((day + 719468).fmod 146097).toNat) := rfl

/-- The next day has a later date. -/
theorem civil_succ (day : Int) : DateBefore (civil day) (civil (day + 1)) := by
  have hle : ∀ {d : Nat}, d < 146097 → dayOfYear d ≤ 365 := by
    intro d hd
    have hstart := yearStart_le hd
    unfold dayOfYear
    omega
  rw [civil_eq, civil_eq, Int.fmod_eq_emod_of_nonneg _ (by decide),
    Int.fmod_eq_emod_of_nonneg _ (by decide), Int.fdiv_eq_ediv_of_nonneg _ (by decide),
    Int.fdiv_eq_ediv_of_nonneg _ (by decide)]
  by_cases hlast : (day + 719468) % 146097 = 146096
  · -- the first day of the next era
    have hfirst : (day + 1 + 719468) % 146097 = 0 := by omega
    have hera : (day + 1 + 719468) / 146097 = (day + 719468) / 146097 + 1 := by omega
    rw [hlast, hfirst, hera]
    refine marchDate_lt (hle (by decide)) (hle (by decide)) (.inl ?_)
    have hyear := yearOfEra_lt (by decide : (146096 : Int).toNat < 146097)
    omega
  · have hera : (day + 1 + 719468) / 146097 = (day + 719468) / 146097 := by omega
    have hnext : ((day + 1 + 719468) % 146097).toNat = ((day + 719468) % 146097).toNat + 1 := by
      omega
    have hlt : ((day + 719468) % 146097).toNat + 1 < 146097 := by omega
    rw [hera, hnext]
    refine marchDate_lt (hle (by omega)) (hle hlt) ?_
    have hsucc := dayOfYear_succ hlt
    omega

theorem civil_lt {day day' : Int} (h : day < day') : DateBefore (civil day) (civil day') := by
  induction day', h using Int.leInduction with
  | base => exact civil_succ day
  | succ day' _ ih => exact ih.trans (civil_succ day')

theorem dateBefore_irrefl (d : Int × Nat × Nat) : ¬ DateBefore d d := by
  unfold DateBefore
  omega

theorem civil_lt_iff {day day' : Int} : DateBefore (civil day) (civil day') ↔ day < day' := by
  refine ⟨fun h => ?_, civil_lt⟩
  by_contra hle
  rcases Int.lt_or_eq_of_le (Int.not_lt.1 hle) with hlt | rfl
  · exact dateBefore_irrefl _ (h.trans (civil_lt hlt))
  · exact dateBefore_irrefl _ h

theorem civil_inj {day day' : Int} : civil day = civil day' ↔ day = day' := by
  refine ⟨fun h => ?_, congrArg civil⟩
  by_contra hne
  rcases lt_or_gt_of_ne hne with hlt | hlt
  · exact dateBefore_irrefl _ (h ▸ civil_lt hlt)
  · exact dateBefore_irrefl _ (h ▸ civil_lt hlt)

/-- A month and a day have two digits. -/
theorem civil_digits (day : Int) : (civil day).2.1 < 100 ∧ (civil day).2.2 < 100 := by
  have hstart := (yearStart_le (d := ((day + 719468) % 146097).toNat) (by omega)).2
  rw [civil_eq, Int.fmod_eq_emod_of_nonneg _ (by decide), marchDate]
  dsimp only
  unfold dayOfYear
  split_ifs <;> omega

theorem year_mono {day day' : Int} (h : day ≤ day') : (civil day).1 ≤ (civil day').1 := by
  rcases Int.lt_or_eq_of_le h with hlt | rfl
  · rcases civil_lt hlt with hyear | hyear
    · exact Int.le_of_lt hyear
    · exact Int.le_of_eq hyear.1
  · exact Int.le_refl _

/-! ## Times of day -/

theorem cons_lt_cons_self {c : Char} {x y : List Char} : c :: x < c :: y ↔ x < y := by
  simp

theorem toList_clock (micros : Nat) : (clock micros).toList =
    (padded 2 (micros / 1000000 / 3600)).toList ++
      (':' :: ((padded 2 (micros / 1000000 / 60 % 60)).toList ++
        ':' :: (padded 2 (micros / 1000000 % 60)).toList)) := by
  simp [clock, String.intercalate_cons_cons]

/-- Times of day are compared by their seconds first. -/
theorem clock_append_lt {m m' : Nat} (h : m < 86400000000) (h' : m' < 86400000000)
    {x y : List Char} : (clock m).toList ++ x < (clock m').toList ++ y ↔
      m / 1000000 < m' / 1000000 ∨ m / 1000000 = m' / 1000000 ∧ x < y := by
  simp only [toList_clock, List.append_assoc, List.cons_append]
  rw [padded_append_lt (by decide) (by omega) (by omega), cons_lt_cons_self,
    padded_append_lt (by decide) (by omega) (by omega), cons_lt_cons_self,
    padded_append_lt (by decide) (by omega) (by omega)]
  by_cases hxy : x < y
  · simp only [hxy, and_true]
    omega
  · simp only [hxy, and_false, or_false]
    omega

/-- Before what starts with a sign, or before nothing, a fraction is compared first. -/
theorem fraction_append_lt {m m' : Nat} {x y : List Char} (hx : ∀ c ∈ x.head?, c < '.')
    (hy : ∀ c ∈ y.head?, c < '.') : (fraction m).toList ++ x < (fraction m').toList ++ y ↔
      m % 1000000 < m' % 1000000 ∨ m % 1000000 = m' % 1000000 ∧ x < y := by
  have hdot : ∀ {z w : List Char}, (∀ c ∈ z.head?, c < '.') → z < '.' :: w ∧ ¬ '.' :: w < z := by
    intro z w hz
    cases z with
    | nil => simp
    | cons c z =>
      have hc := hz c rfl
      simp [List.cons_lt_cons_iff, hc, hc.ne', hc.le]
  unfold fraction
  split_ifs with hzero hzero' hzero'
  · simp [hzero, hzero']
  · have hlt : 0 < m' % 1000000 := Nat.pos_of_ne_zero hzero'
    simp [hzero, hlt, (hdot hx).1]
  · have hne : m % 1000000 ≠ 0 := hzero
    simp [hzero', hne, (hdot hy).2]
  · have hchars : ∀ m : Nat, ("." ++ padded 6 (m % 1000000)).toList =
        '.' :: (padded 6 (m % 1000000)).toList := fun m => String.toList_append
    rw [hchars, hchars, List.cons_append, List.cons_append, cons_lt_cons_self,
      padded_append_lt (by decide) (by omega) (by omega)]

/-! ## Texts of times -/

/-- A time that a `datetime` can hold: its date is between 0001-01-01 and 9999-12-31, and its UTC
offset is less than a day. -/
structure IsDatetime (t : Timestamp) : Prop where
  first : -719162 * microsPerDay ≤ t.instant + t.offset
  last : t.instant + t.offset < 2932897 * microsPerDay
  offset : t.offset.natAbs < microsPerDay.natAbs

/-- The time that a text shows: the date and the time of day, as microseconds. -/
def shown (t : Timestamp) : Int := t.instant + t.offset

/-- The order of the texts of two UTC offsets: one to the east is before one to the west, and the
smaller one is before the larger one. -/
def OffsetBefore (x y : Int) : Prop := if x < 0 then y < 0 ∧ y < x else y < 0 ∨ x < y

instance : DecidableRel OffsetBefore := fun x y =>
  inferInstanceAs (Decidable (if x < 0 then y < 0 ∧ y < x else y < 0 ∨ x < y))

/-- `t` is shown before `t'`: with an earlier date and time of day, or with the same, but with a
smaller text for the offset. -/
def ShownBefore (t t' : Timestamp) : Prop :=
  t.shown < t'.shown ∨ t.shown = t'.shown ∧ OffsetBefore t.offset t'.offset

instance : DecidableRel ShownBefore := fun _ _ => inferInstanceAs (Decidable (_ ∨ _))

theorem year_digits {t : Timestamp} (h : t.IsDatetime) :
    0 ≤ (civil (t.shown.fdiv microsPerDay)).1 ∧
      (civil (t.shown.fdiv microsPerDay)).1 < 10000 := by
  have hfirst := h.first
  have hlast := h.last
  have hday : -719162 ≤ t.shown.fdiv microsPerDay ∧ t.shown.fdiv microsPerDay ≤ 2932896 := by
    rw [Int.fdiv_eq_ediv_of_nonneg _ (by decide)]
    unfold microsPerDay at *
    unfold shown
    omega
  have hlow : (civil (-719162)).1 = 1 := by decide
  have hhigh : (civil 2932896).1 = 9999 := by decide
  have hyear := year_mono hday.1
  have hyear' := year_mono hday.2
  omega

/-! ## UTC offsets -/

/-- The text of an offset without its sign. -/
def offsetBody (micros : Nat) : String :=
  if micros % 60000000 = 0 then
    padded 2 (micros / 3600000000) ++ ":" ++ padded 2 (micros / 60000000 % 60)
  else clock micros ++ fraction micros

/-- What stands after the minutes of an offset. -/
def offsetRest (micros : Nat) : List Char :=
  if micros % 60000000 = 0 then []
  else ':' :: ((padded 2 (micros / 1000000 % 60)).toList ++ (fraction micros).toList)

theorem toList_offsetBody (micros : Nat) : (offsetBody micros).toList =
    (padded 2 (micros / 3600000000)).toList ++
      (':' :: ((padded 2 (micros / 60000000 % 60)).toList ++ offsetRest micros)) := by
  unfold offsetBody offsetRest
  split_ifs with hwhole
  · simp
  · have hhours : micros / 1000000 / 3600 = micros / 3600000000 := by omega
    have hminutes : micros / 1000000 / 60 = micros / 60000000 := by omega
    simp [toList_clock, hhours, hminutes]

theorem offsetRest_lt {m m' : Nat} :
    offsetRest m < offsetRest m' ↔ m % 60000000 < m' % 60000000 := by
  unfold offsetRest
  split_ifs with hzero hzero' hzero'
  · simp [hzero, hzero']
  · simp [hzero, Nat.pos_of_ne_zero hzero']
  · simp [hzero']
  · have hfraction := @fraction_append_lt m m' [] [] (by simp) (by simp)
    rw [List.append_nil, List.append_nil] at hfraction
    rw [cons_lt_cons_self, padded_append_lt (by decide) (by omega) (by omega), hfraction]
    simp only [lt_irrefl, and_false, or_false]
    omega

theorem offsetBody_lt {m m' : Nat} (h : m < 86400000000) (h' : m' < 86400000000) :
    (offsetBody m).toList < (offsetBody m').toList ↔ m < m' := by
  rw [toList_offsetBody, toList_offsetBody, padded_append_lt (by decide) (by omega) (by omega),
    cons_lt_cons_self, padded_append_lt (by decide) (by omega) (by omega), offsetRest_lt]
  omega

theorem toList_offsetText (offset : Int) : (offsetText offset).toList =
    (if offset < 0 then '-' else '+') :: (offsetBody offset.natAbs).toList := by
  have htext : offsetText offset =
      (if offset < 0 then "-" else "+") ++ offsetBody offset.natAbs := rfl
  rw [htext, String.toList_append]
  split_ifs <;> rfl

/-- The text of an offset starts with a sign. -/
theorem head_offsetText (offset : Int) : ∀ c ∈ (offsetText offset).toList.head?, c < '.' := by
  rw [toList_offsetText]
  intro c hc
  cases hc
  split_ifs <;> decide

theorem offsetText_lt {x y : Int} (hx : x.natAbs < microsPerDay.natAbs)
    (hy : y.natAbs < microsPerDay.natAbs) :
    (offsetText x).toList < (offsetText y).toList ↔ OffsetBefore x y := by
  have hbody := @offsetBody_lt x.natAbs y.natAbs hx hy
  have hsign : '+' < '-' ∧ ¬ '-' < '+' := by decide
  rw [toList_offsetText, toList_offsetText, List.cons_lt_cons_iff, hbody, OffsetBefore]
  split_ifs <;> simp [hsign] <;> omega

/-! ## Texts -/

theorem toList_isoformat (t : Timestamp) : t.isoformat.toList =
    (padded 4 (civil (t.shown.fdiv microsPerDay)).1.toNat).toList ++
      ('-' :: ((padded 2 (civil (t.shown.fdiv microsPerDay)).2.1).toList ++
        ('-' :: ((padded 2 (civil (t.shown.fdiv microsPerDay)).2.2).toList ++
          ('T' :: ((clock (t.shown.fmod microsPerDay).toNat).toList ++
            ((fraction (t.shown.fmod microsPerDay).toNat).toList ++
              (offsetText t.offset).toList))))))) := by
  simp [isoformat, shown]

/-- Two texts are in the order of the dates and times of day that they show, and if these are the
same, in that of their offsets. -/
theorem isoformat_lt {t t' : Timestamp} (h : t.IsDatetime) (h' : t'.IsDatetime) :
    t.isoformat < t'.isoformat ↔ t.ShownBefore t' := by
  have hpos : (0 : Int) ≤ microsPerDay := by decide
  have hmicros : ∀ t : Timestamp, (t.shown.fmod microsPerDay).toNat < 86400000000 := by
    intro t
    rw [Int.fmod_eq_emod_of_nonneg _ hpos, microsPerDay]
    omega
  have hyear := year_digits h
  have hyear' := year_digits h'
  have hdate := @civil_lt_iff (t.shown.fdiv microsPerDay) (t'.shown.fdiv microsPerDay)
  have hsame := @civil_inj (t.shown.fdiv microsPerDay) (t'.shown.fdiv microsPerDay)
  obtain ⟨hmonth, hday⟩ := civil_digits (t.shown.fdiv microsPerDay)
  obtain ⟨hmonth', hday'⟩ := civil_digits (t'.shown.fdiv microsPerDay)
  rw [String.lt_iff_toList_lt, toList_isoformat, toList_isoformat,
    padded_append_lt (by decide) (by omega) (by omega), cons_lt_cons_self,
    padded_append_lt (by decide) hmonth hmonth', cons_lt_cons_self,
    padded_append_lt (by decide) hday hday', cons_lt_cons_self,
    clock_append_lt (hmicros t) (hmicros t'),
    fraction_append_lt (head_offsetText _) (head_offsetText _), offsetText_lt h.offset h'.offset]
  have hshown : ∀ t : Timestamp, t.shown =
      86400000000 * t.shown.fdiv microsPerDay + (t.shown.fmod microsPerDay).toNat := by
    intro t
    rw [Int.fmod_eq_emod_of_nonneg _ hpos, Int.fdiv_eq_ediv_of_nonneg _ hpos, microsPerDay]
    omega
  have ht := hshown t
  have ht' := hshown t'
  have hlt := hmicros t
  have hlt' := hmicros t'
  rw [DateBefore] at hdate
  rw [Prod.ext_iff, Prod.ext_iff] at hsame
  rw [ShownBefore]
  generalize OffsetBefore t.offset t'.offset = before
  generalize (t.shown.fmod microsPerDay).toNat = micros at ht hlt
  generalize (t'.shown.fmod microsPerDay).toNat = micros' at ht' hlt'
  by_cases hbefore : before
  · simp only [hbefore, and_true]
    omega
  · simp only [hbefore, and_false, or_false]
    omega

theorem offsetBefore_trichotomy (x y : Int) :
    OffsetBefore x y ∨ x = y ∨ OffsetBefore y x := by
  unfold OffsetBefore
  split_ifs <;> omega

theorem eq_of_instant {t t' : Timestamp} (h : t.instant = t'.instant)
    (h' : t.offset = t'.offset) : t = t' := by
  cases t; cases t'; cases h; cases h'; rfl

/-- Different times have different texts. -/
theorem isoformat_inj {t t' : Timestamp} (h : t.IsDatetime) (h' : t'.IsDatetime) :
    t.isoformat = t'.isoformat ↔ t = t' := by
  refine ⟨fun heq => ?_, congrArg isoformat⟩
  have hnot : ¬ t.ShownBefore t' := fun hlt => ((isoformat_lt h h').2 hlt).ne heq
  have hnot' : ¬ t'.ShownBefore t := fun hlt => ((isoformat_lt h' h).2 hlt).ne heq.symm
  have htri := offsetBefore_trichotomy t.offset t'.offset
  unfold ShownBefore at hnot hnot'
  have hshown : t.shown = t'.shown := by omega
  have hoffset : t.offset = t'.offset := by
    simp only [hshown, lt_irrefl, true_and, false_or] at hnot hnot'
    exact (htri.resolve_left hnot).resolve_right hnot'
  refine eq_of_instant ?_ hoffset
  unfold shown at hshown
  omega

/-- With one offset, the order of the texts is that of the times. -/
theorem shownBefore_of_offset {t t' : Timestamp} (h : t.offset = t'.offset) :
    t.ShownBefore t' ↔ t < t' := by
  have hirrefl : ¬ OffsetBefore t'.offset t'.offset := by
    unfold OffsetBefore
    split_ifs <;> omega
  rw [ShownBefore, h, shown, shown, h, lt_def]
  simp only [hirrefl, and_false, or_false]
  omega

end AIHub.Timestamp
