/-!
# Moments as text

Moments are counted in nanoseconds since the start of 1970 and written in universal time.
-/

namespace ElvishOutline.Timestamp

/-- A number with at least the given number of digits. -/
def padded (width n : Nat) : String :=
  let digits := Nat.toDigits 10 n
  String.ofList (List.replicate (width - digits.length) '0' ++ digits)

/-- Year, month and day of a day counted from the start of 1970. The count is moved to the first of
March of the year zero, so that a leap day is the last day of its year and of its cycle of years. -/
def date (day : Nat) : Nat × Nat × Nat :=
  let shifted := day + 719468
  let era := shifted / 146097
  let inEra := shifted % 146097
  let year := (inEra - inEra / 1460 + inEra / 36524 - inEra / 146096) / 365
  let inYear := inEra - (365 * year + year / 4 - year / 100)
  let month := (5 * inYear + 2) / 153
  let dayOfMonth := inYear - (153 * month + 2) / 5 + 1
  let monthOfYear := if month < 10 then month + 3 else month - 9
  let january := if monthOfYear ≤ 2 then 1 else 0
  (year + era * 400 + january, monthOfYear, dayOfMonth)

/-- A moment in universal time. -/
def text (nanoseconds : Nat) : String :=
  let seconds := nanoseconds / Nat.pow 10 9
  let (year, month, day) := date (seconds / 86400)
  padded 4 year ++ "-" ++ padded 2 month ++ "-" ++ padded 2 day ++ "T" ++
    padded 2 (seconds / 3600 % 24) ++ ":" ++ padded 2 (seconds / 60 % 60) ++ ":" ++
    padded 2 (seconds % 60) ++ "." ++ padded 9 (nanoseconds % Nat.pow 10 9) ++ "+00:00"

end ElvishOutline.Timestamp
