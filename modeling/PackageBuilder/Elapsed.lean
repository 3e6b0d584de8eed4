import PackageBuilder.Library.Text

/-! Durations as the builder prints them: `timedelta` in microseconds, exact rationals for
the floats. -/
namespace PackageBuilder
open Text

/-- `timedelta.seconds`: the seconds past whole days. -/
def seconds (us : Nat) : Nat := us / 1000000 % 86400

def padLeft (width : Nat) (n : Nat) : Str :=
  let digits := natStr n
  List.replicate (width - digits.length) '0' ++ digits

/-- `str(timedelta)`: `[D day[s], ]H:MM:SS[.ffffff]`. -/
def timedeltaStr (us : Nat) : Str :=
  let days := us / 1000000 / 86400
  let secs := seconds us
  let micro := us % 1000000
  let dayPart : Str := if days = 0 then "" else
    if days = 1 then natStr days ++ " day, " else natStr days ++ " days, "
  let microPart : Str := if micro = 0 then "" else "." ++ padLeft 6 micro
  dayPart ++ natStr (secs / 3600) ++ ":" ++ padLeft 2 (secs / 60 % 60) ++ ":"
    ++ padLeft 2 (secs % 60) ++ microPart

def digitsValue (s : Str) : Nat := s.foldl (fun n c => 10 * n + (c.toNat - '0'.toNat)) 0

/-- `float(s)` of a text of digits with at most one point. -/
def floatOf (s : Str) : ℚ :=
  match s.splitOn '.' with
  | [whole] => digitsValue whole
  | whole :: frac :: _ => digitsValue whole + digitsValue frac / 10 ^ frac.length
  | [] => 0

/-- The nearest integer, the even one of two. -/
def roundHalfEven (q : ℚ) : Nat :=
  let n := q.floor.toNat
  if q - n < 1 / 2 then n else if 1 / 2 < q - n then n + 1 else n + n % 2

/-- `format(q, '.<digits>f')` of a non-negative number. -/
def formatFixed (digits : Nat) (q : ℚ) : Str :=
  let n := roundHalfEven (q * 10 ^ digits)
  natStr (n / 10 ^ digits) ++ "." ++ padLeft digits (n % 10 ^ digits)

/-- `M minutes S seconds` -/
def elapsedTime (us : Nat) : Str :=
  let secTime := formatFixed 2 (floatOf (((timedeltaStr us).splitOn ':')[2]?.getD []))
  natStr (seconds us / 60) ++ " minutes " ++ secTime ++ " seconds"

example : elapsedTime 75125000 = ("1 minutes 15.12 seconds" : Str) := by decide +kernel

end PackageBuilder
