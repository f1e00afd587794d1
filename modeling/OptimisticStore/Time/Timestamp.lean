/-!
Moments in microseconds since 1970-01-01T00:00:00Z, and their calendar text.

The calendar reaches from the year -262144 to the year 262143; a count of microseconds outside it
stands for the epoch itself. The text is the extended calendar form in UTC, with as many digits of
the second as are needed to be exact: none, three or six.
-/
namespace OptimisticStore

structure Timestamp where
  micros : Int
deriving DecidableEq, Inhabited

namespace Timestamp

def earliest : Int := -8334601228800000000

def latest : Int := 8210266876799999999

def epoch : Timestamp := ⟨0⟩

def ofMicros (micros : Int) : Timestamp :=
  if earliest ≤ micros ∧ micros ≤ latest then ⟨micros⟩ else epoch

structure Date where
  year : Int
  month : Nat
  day : Nat
deriving DecidableEq

/-- The date that lies `days` days after 1970-01-01. Years are counted from the first of March, so
that the leap day comes last, in eras of 400 years or 146097 days. -/
def dateOfDays (days : Int) : Date :=
  let shifted := days + 719468
  let era := shifted.fdiv 146097
  let dayOfEra := (shifted - era * 146097).toNat
  let yearOfEra := (dayOfEra - dayOfEra / 1460 + dayOfEra / 36524 - dayOfEra / 146096) / 365
  let dayOfYear := dayOfEra - (365 * yearOfEra + yearOfEra / 4 - yearOfEra / 100)
  let fromMarch := (5 * dayOfYear + 2) / 153
  let month := if fromMarch < 10 then fromMarch + 3 else fromMarch - 9
  { year := yearOfEra + era * 400 + (if month ≤ 2 then 1 else 0)
    month
    day := dayOfYear - (153 * fromMarch + 2) / 5 + 1 }

def padded (width n : Nat) : String :=
  let digits := toString n
  String.ofList (List.replicate (width - digits.length) '0') ++ digits

/-- Four digits; outside 0 to 9999 a sign comes first. -/
def yearText (year : Int) : String :=
  if 0 ≤ year ∧ year ≤ 9999 then padded 4 year.toNat
  else (if year < 0 then "-" else "+") ++ padded 4 year.natAbs

def fractionText (micros : Nat) : String :=
  if micros = 0 then ""
  else if micros % 1000 = 0 then "." ++ padded 3 (micros / 1000)
  else "." ++ padded 6 micros

def text (t : Timestamp) : String :=
  let seconds := t.micros.fdiv 1000000
  let micros := (t.micros - seconds * 1000000).toNat
  let days := seconds.fdiv 86400
  let second := (seconds - days * 86400).toNat
  let date := dateOfDays days
  yearText date.year ++ "-" ++ padded 2 date.month ++ "-" ++ padded 2 date.day ++ "T" ++
    padded 2 (second / 3600) ++ ":" ++ padded 2 (second / 60 % 60) ++ ":" ++
    padded 2 (second % 60) ++ fractionText micros ++ "Z"

end Timestamp

end OptimisticStore
