/-! Moments as texts: the date, the time of day, and the distance from universal time, which is
always none. Moments are counted in milliseconds from the beginning of 1970. -/

namespace ToolPipeline.Moment

structure Date where
  year : Nat
  month : Nat
  day : Nat
  deriving DecidableEq, Repr

/-- The date that many days after the first of January 1970. Years are taken to begin in March, so
that a leap day is the last of its year. -/
def dateAfter (days : Nat) : Date :=
  let days := days + 719468
  let ofEra := days % 146097
  let yearOfEra := (ofEra - ofEra / 1460 + ofEra / 36524 - ofEra / 146096) / 365
  let ofYear := ofEra - (365 * yearOfEra + yearOfEra / 4 - yearOfEra / 100)
  let march := (5 * ofYear + 2) / 153
  let day := ofYear - (153 * march + 2) / 5 + 1
  let month := if march < 10 then march + 3 else march - 9
  ⟨yearOfEra + days / 146097 * 400 + (if month ≤ 2 then 1 else 0), month, day⟩

def padded (width n : Nat) : String :=
  let digits := Nat.toDigits 10 n
  String.ofList (List.replicate (width - digits.length) '0' ++ digits)

def Date.text (d : Date) : String :=
  padded 4 d.year ++ "-" ++ padded 2 d.month ++ "-" ++ padded 2 d.day

/-- Whole seconds have no fraction. -/
def fraction (ms : Nat) : String := if ms % 1000 = 0 then "" else "." ++ padded 3 (ms % 1000)

def stamp (ms : Nat) : String :=
  let secs := ms / 1000
  (dateAfter (secs / 86400)).text ++ "T" ++ padded 2 (secs / 3600 % 24) ++ ":"
    ++ padded 2 (secs / 60 % 60) ++ ":" ++ padded 2 (secs % 60) ++ fraction ms ++ "+00:00"

example : stamp 951782400000 = "2000-02-29T00:00:00+00:00" := by decide +kernel

example : stamp 1735689599999 = "2024-12-31T23:59:59.999+00:00" := by decide +kernel

end ToolPipeline.Moment
