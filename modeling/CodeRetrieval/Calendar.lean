import CodeRetrieval.Text.Basic

set_option autoImplicit false

namespace CodeRetrieval

structure Date where
  year : Int
  month : Nat
  day : Nat
  deriving DecidableEq, Repr

namespace Date

/-- The date that is a number of days after the first of January 1970. Years are counted from March,
so that the leap day is the last of its year. -/
def ofDays (days : Int) : Date :=
  let shifted := days + 719468
  let era := shifted.fdiv 146097
  let d := (shifted - era * 146097).toNat
  let y := (d - d / 1460 + d / 36524 - d / 146096) / 365
  let inYear := d - (365 * y + y / 4 - y / 100)
  let m := (5 * inYear + 2) / 153
  let month := if m < 10 then m + 3 else m - 9
  { year := era * 400 + y + (if month ≤ 2 then 1 else 0)
    month
    day := inYear - (153 * m + 2) / 5 + 1 }

def padded (width n : Nat) : String :=
  let digits := toString n
  String.ofList (List.replicate (width - digits.length) '0') ++ digits

def yearText (year : Int) : String :=
  if 0 ≤ year ∧ year ≤ 9999 then padded 4 year.toNat
  else (if year < 0 then "-" else "+") ++ padded 4 year.natAbs

def text (d : Date) : String := yearText d.year ++ "-" ++ padded 2 d.month ++ "-" ++ padded 2 d.day

def isRepresentable (d : Date) : Bool := -262143 ≤ d.year && d.year ≤ 262142

end Date

namespace Time

def text (seconds : Int) : String :=
  let date := Date.ofDays (seconds.fdiv 86400)
  let minutes := (seconds.fmod 86400).toNat / 60
  if date.isRepresentable then
    date.text ++ " " ++ Date.padded 2 (minutes / 60) ++ ":" ++ Date.padded 2 (minutes % 60)
  else toString seconds

def ago (n : Int) (what : String) : String :=
  toString n ++ " " ++ what ++ (if n = 1 then "" else "s") ++ " ago"

def relative (now time : Int) : String :=
  let delta := now - time
  if delta < 0 then text time
  else if delta < 60 then "just now"
  else if delta < 3600 then ago (delta / 60) "min"
  else if delta < 86400 then ago (delta / 3600) "hour"
  else if delta < 86400 * 30 then ago (delta / 86400) "day"
  else text time

end Time

end CodeRetrieval
