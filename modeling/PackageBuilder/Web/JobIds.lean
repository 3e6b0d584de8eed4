import PackageBuilder.Duration
import PackageBuilder.FrontEnd

/-! The job ids of clicks: the package and the second. -/
namespace PackageBuilder
open Text

/-- What the getters of a `Date` give, in years of four digits. -/
structure LocalTime where
  fullYear : ℕ
  month : ℕ
  date : ℕ
  hours : ℕ
  minutes : ℕ
  seconds : ℕ
  fourDigits : 1000 ≤ fullYear ∧ fullYear < 10000
  month_lt : month < 12
  date_le : 1 ≤ date ∧ date ≤ 31
  hours_lt : hours < 24
  minutes_lt : minutes < 60
  seconds_lt : seconds < 60
  deriving DecidableEq

def pad (input : ℕ) : Str :=
  let s := natStr input
  if s.length = 1 then '0' :: s else s

/-- The `timestamp` of the click handler. -/
def LocalTime.timestamp (d : LocalTime) : Str :=
  natStr d.fullYear ++ pad (d.month + 1) ++ pad d.date ++ pad d.hours ++ pad d.minutes ++
    pad d.seconds

/-- The `pkg` of the click handler. -/
def jobPackage (svnUrl : Str) : Str :=
  let pkg := lastComponent (dropSlash svnUrl)
  if (".tar.gz" : Str) <:+ pkg then (pkg.splitOn '_').headD [] else pkg

variable {n m width : ℕ} {d d' : LocalTime} {s s' : Str}

theorem length_natStr_le (hw : 0 < width) : (natStr n).length ≤ width ↔ n < 10 ^ width := by
  rw [natStr_eq]
  exact Nat.length_toDigits_le_iff (by omega) hw

theorem pad_eq (h : n < 100) : pad n = padLeft 2 n := by
  have hle : (natStr n).length ≤ 2 := (length_natStr_le (by omega)).mpr h
  have hpos : 0 < (natStr n).length := by
    rw [natStr_eq]
    exact Nat.length_toDigits_pos
  rw [pad, padLeft]
  split
  next h1 => simp [h1]
  next h1 =>
    have h2 : (natStr n).length = 2 := by omega
    simp [h2]

theorem natStr_year (d : LocalTime) : natStr d.fullYear = padLeft 4 d.fullYear := by
  obtain ⟨hlow, hhigh⟩ := d.fourDigits
  have hle : (natStr d.fullYear).length ≤ 4 := (length_natStr_le (by omega)).mpr hhigh
  have hgt : ¬ (natStr d.fullYear).length ≤ 3 := by
    rw [length_natStr_le (by omega)]
    omega
  have hlen : (natStr d.fullYear).length = 4 := by omega
  simp [padLeft, hlen]

/-- Two numbers of one width are told apart, whatever follows. -/
theorem padLeft_cancel (hw : 0 < width) (hn : n < 10 ^ width) (hm : m < 10 ^ width)
    (h : padLeft width n ++ s = padLeft width m ++ s') : n = m ∧ s = s' := by
  have hlen : (padLeft width n).length = (padLeft width m).length := by
    rw [length_padLeft hw hn, length_padLeft hw hm]
  obtain ⟨hp, hs⟩ := List.append_inj h hlen
  refine ⟨?_, hs⟩
  rw [← digitsValue_padLeft width n, hp, digitsValue_padLeft]

theorem timestamp_eq (d : LocalTime) : d.timestamp = padLeft 4 d.fullYear ++
    (padLeft 2 (d.month + 1) ++ (padLeft 2 d.date ++ (padLeft 2 d.hours ++
      (padLeft 2 d.minutes ++ padLeft 2 d.seconds)))) := by
  have hmonth := d.month_lt
  have hdate := d.date_le
  have hhours := d.hours_lt
  have hminutes := d.minutes_lt
  have hseconds := d.seconds_lt
  rw [LocalTime.timestamp, natStr_year, pad_eq (by omega), pad_eq (by omega), pad_eq (by omega),
    pad_eq (by omega), pad_eq (by omega)]
  simp only [List.append_assoc]

theorem length_timestamp (d : LocalTime) : d.timestamp.length = 14 := by
  have hmonth := d.month_lt
  have hdate := d.date_le
  have hhours := d.hours_lt
  have hminutes := d.minutes_lt
  have hseconds := d.seconds_lt
  rw [timestamp_eq]
  simp only [List.length_append]
  rw [length_padLeft (by omega) d.fourDigits.2, length_padLeft (by omega) (by omega),
    length_padLeft (by omega) (by omega), length_padLeft (by omega) (by omega),
    length_padLeft (by omega) (by omega), length_padLeft (by omega) (by omega)]

theorem timestamp_injective (h : d.timestamp = d'.timestamp) : d = d' := by
  have hlt := d.fourDigits
  have hlt' := d'.fourDigits
  have hmonth := d.month_lt
  have hmonth' := d'.month_lt
  have hdate := d.date_le
  have hdate' := d'.date_le
  have hhours := d.hours_lt
  have hhours' := d'.hours_lt
  have hminutes := d.minutes_lt
  have hminutes' := d'.minutes_lt
  have hseconds := d.seconds_lt
  have hseconds' := d'.seconds_lt
  rw [timestamp_eq, timestamp_eq] at h
  obtain ⟨h1, h⟩ := padLeft_cancel (by omega) (by omega) (by omega) h
  obtain ⟨h2, h⟩ := padLeft_cancel (by omega) (by omega) (by omega) h
  obtain ⟨h3, h⟩ := padLeft_cancel (by omega) (by omega) (by omega) h
  obtain ⟨h4, h⟩ := padLeft_cancel (by omega) (by omega) (by omega) h
  obtain ⟨h5, h⟩ := padLeft_cancel (by omega) (by omega) (by omega) h
  rw [← List.append_nil (padLeft 2 d.seconds), ← List.append_nil (padLeft 2 d'.seconds)] at h
  obtain ⟨h6, -⟩ := padLeft_cancel (by omega) (by omega) (by omega) h
  have h2 : d.month = d'.month := by omega
  cases d
  cases d'
  simp_all

/-- Two clicks get the same job id if and only if they are for the same package in the same
second. -/
theorem job_id_same_iff (svnUrl svnUrl' : Str) (d d' : LocalTime) :
    startBuildJobId svnUrl d.timestamp = startBuildJobId svnUrl' d'.timestamp ↔
      jobPackage svnUrl = jobPackage svnUrl' ∧ d = d' := by
  have hid : ∀ url stamp, startBuildJobId url stamp = jobPackage url ++ ("_" ++ stamp) :=
    fun _ _ => List.append_assoc _ _ _
  rw [hid, hid]
  constructor
  · intro h
    have hlen : (("_" : Str) ++ d.timestamp).length = (("_" : Str) ++ d'.timestamp).length := by
      simp [length_timestamp]
    obtain ⟨hp, hs⟩ := List.append_inj' h hlen
    exact ⟨hp, timestamp_injective (List.append_cancel_left hs)⟩
  · rintro ⟨hp, rfl⟩
    rw [hp]

end PackageBuilder
