import AIHub.Domain.Tasks

/-!
# Times as texts

`datetime.isoformat`, the text under which a time is stored in a column. Columns are compared as
texts, so rows that a query orders by a time are in the order of these.
-/

namespace AIHub.Timestamp

def microsPerDay : Int := 86400000000

/-- The year, month and day of a day, counted from 1970-01-01. -/
def civil (day : Int) : Int × Nat × Nat :=
  -- eras of 400 years, and years that begin in March, so that the leap day ends one
  let z := day + 719468
  let era := z.fdiv 146097
  let dayOfEra := (z.fmod 146097).toNat
  let yearOfEra := (dayOfEra - dayOfEra / 1460 + dayOfEra / 36524 - dayOfEra / 146096) / 365
  let dayOfYear := dayOfEra - (365 * yearOfEra + yearOfEra / 4 - yearOfEra / 100)
  let march := (5 * dayOfYear + 2) / 153
  let month := if march < 10 then march + 3 else march - 9
  (yearOfEra + 400 * era + if month ≤ 2 then 1 else 0, month,
    dayOfYear - (153 * march + 2) / 5 + 1)

/-- A number with leading zeros. -/
def padded (width n : Nat) : String :=
  let digits := Nat.toDigits 10 n
  String.ofList (List.replicate (width - digits.length) '0' ++ digits)

/-- A time of day, given in microseconds: with its hours, minutes and seconds. -/
def clock (micros : Nat) : String :=
  let seconds := micros / 1000000
  ":".intercalate [padded 2 (seconds / 3600), padded 2 (seconds / 60 % 60), padded 2 (seconds % 60)]

/-- The fraction of a second, unless it is zero. -/
def fraction (micros : Nat) : String :=
  if micros % 1000000 = 0 then "" else "." ++ padded 6 (micros % 1000000)

/-- The UTC offset, without its seconds if these are zero. -/
def offsetText (offset : Int) : String :=
  let micros := offset.natAbs
  let text :=
    if micros % 60000000 = 0 then
      padded 2 (micros / 3600000000) ++ ":" ++ padded 2 (micros / 60000000 % 60)
    else clock micros ++ fraction micros
  (if offset < 0 then "-" else "+") ++ text

/-- `isoformat()`. -/
def isoformat (t : Timestamp) : String :=
  let written := t.instant + t.offset
  let (year, month, day) := civil (written.fdiv microsPerDay)
  let micros := (written.fmod microsPerDay).toNat
  padded 4 year.toNat ++ "-" ++ padded 2 month ++ "-" ++ padded 2 day ++ "T" ++ clock micros ++
    fraction micros ++ offsetText t.offset

example : isoformat ⟨951782400000001, 7200000000⟩ = "2000-02-29T02:00:00.000001+02:00" := by
  decide +kernel

end AIHub.Timestamp
