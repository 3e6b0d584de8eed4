import PackageBuilder.Elapsed

/-! What the text of an elapsed time denotes, and when that is the time measured. -/
namespace PackageBuilder
open Text

theorem natStr_eq (n : Nat) : natStr n = Nat.toDigits 10 n := by
  simp [natStr, ofString]

theorem digitsValue_eq (s : Str) : digitsValue s = Nat.ofDigitChars 10 s 0 := rfl

@[simp] theorem digitsValue_natStr (n : Nat) : digitsValue (natStr n) = n := by
  rw [natStr_eq, digitsValue_eq, Nat.ofDigitChars_ten_toDigits]

@[simp] theorem digitsValue_padLeft (width n : Nat) : digitsValue (padLeft width n) = n := by
  have h := digitsValue_natStr n
  rw [digitsValue_eq] at h ⊢
  rw [padLeft, Nat.ofDigitChars_append, Nat.ofDigitChars_replicate_zero, Nat.mul_zero, h]

theorem isDigit_of_mem_natStr {n : Nat} {c : Char} (h : c ∈ natStr n) : c.isDigit := by
  rw [natStr_eq] at h
  exact Nat.isDigit_of_mem_toDigits (by omega) (by omega) h

theorem isDigit_of_mem_padLeft {width n : Nat} {c : Char} (h : c ∈ padLeft width n) :
    c.isDigit := by
  rcases List.mem_append.mp h with h | h
  · rw [List.eq_of_mem_replicate h]
    decide
  · exact isDigit_of_mem_natStr h

/-- A separator is no digit. -/
theorem not_mem_natStr {n : Nat} {c : Char} (hc : c.isDigit = false) : c ∉ natStr n := by
  intro h
  simp [isDigit_of_mem_natStr h] at hc

theorem not_mem_padLeft {width n : Nat} {c : Char} (hc : c.isDigit = false) :
    c ∉ padLeft width n := by
  intro h
  simp [isDigit_of_mem_padLeft h] at hc

theorem length_padLeft {width n : Nat} (hw : 0 < width) (hn : n < 10 ^ width) :
    (padLeft width n).length = width := by
  have h : (natStr n).length ≤ width := by
    rw [natStr_eq]
    exact (Nat.length_toDigits_le_iff (by omega) hw).mpr hn
  simp only [padLeft, List.length_append, List.length_replicate]
  omega

theorem floatOf_digits {s : Str} (h : '.' ∉ s) : floatOf s = digitsValue s := by
  rw [floatOf, List.splitOn_eq_singleton h]

/-- A number printed with a point and `k` digits behind it. -/
theorem floatOf_point {whole frac : Str} (hw : '.' ∉ whole) (hf : '.' ∉ frac) :
    floatOf (whole ++ '.' :: frac) = digitsValue whole + digitsValue frac / 10 ^ frac.length := by
  rw [floatOf, List.splitOn_append_cons_self, List.splitOn_eq_singleton hw,
    List.splitOn_eq_singleton hf]
  rfl

theorem floor_bounds {q : ℚ} (hq : 0 ≤ q) :
    (q.floor.toNat : ℚ) ≤ q ∧ q < q.floor.toNat + 1 := by
  have hf : (0 : ℤ) ≤ ⌊q⌋ := Int.floor_nonneg.mpr hq
  have hn : ((q.floor.toNat : ℕ) : ℚ) = ((⌊q⌋ : ℤ) : ℚ) := by
    exact_mod_cast congrArg (Int.cast (R := ℚ)) (Int.toNat_of_nonneg hf)
  rw [hn]
  exact ⟨Int.floor_le q, Int.lt_floor_add_one q⟩

theorem roundHalfEven_close {q : ℚ} (hq : 0 ≤ q) : |(roundHalfEven q : ℚ) - q| ≤ 1 / 2 := by
  obtain ⟨hlow, hhigh⟩ := floor_bounds hq
  simp only [roundHalfEven]
  generalize q.floor.toNat = n at *
  split
  next h => rw [abs_le]; constructor <;> linarith
  next h =>
    split
    next h' => rw [abs_le]; push_cast; constructor <;> linarith
    next h' =>
      have hmod : ((n % 2 : ℕ) : ℚ) = 0 ∨ ((n % 2 : ℕ) : ℚ) = 1 := by
        rcases Nat.mod_two_eq_zero_or_one n with h2 | h2 <;> simp [h2]
      rw [abs_le]
      push_cast
      rcases hmod with h2 | h2 <;> rw [h2] <;> constructor <;> linarith

/-- Halfway below an even number is rounded up to it. -/
theorem roundHalfEven_lt_iff {q : ℚ} (hq : 0 ≤ q) (k : Nat) :
    roundHalfEven q < 2 * k ↔ q < 2 * k - 1 / 2 := by
  obtain ⟨hlow, hhigh⟩ := floor_bounds hq
  simp only [roundHalfEven]
  generalize q.floor.toNat = n at *
  -- the even number is at most the floor, its successor, or beyond
  rcases lt_trichotomy (n + 1) (2 * k) with hk | hk | hk
  · have hk' : (n : ℚ) + 2 ≤ 2 * k := by exact_mod_cast hk
    have hr : q < 2 * k - 1 / 2 := by linarith
    have hmod := Nat.mod_lt n (y := 2) (by omega)
    simp only [hr, iff_true]
    split_ifs <;> omega
  · have hk' : (n : ℚ) + 1 = 2 * k := by exact_mod_cast hk
    have hodd : n % 2 = 1 := by omega
    rw [hodd]
    split_ifs with h1 h2
    · simp only [show n < 2 * k by omega, true_iff]
      linarith
    · simp only [hk, lt_irrefl, false_iff, not_lt]
      linarith
    · simp only [hk, lt_irrefl, false_iff, not_lt]
      linarith
  · have hk' : (2 * k : ℚ) ≤ n := by exact_mod_cast Nat.lt_succ_iff.mp hk
    have hr : ¬ q < 2 * k - 1 / 2 := by linarith
    simp only [hr, iff_false, not_lt]
    split_ifs <;> omega

theorem not_mem_formatFixed {digits : Nat} {q : ℚ} {c : Char} (hc : c.isDigit = false)
    (hp : c ≠ '.') : c ∉ formatFixed digits q := by
  intro h
  rcases List.mem_append.mp h with h | h
  · rcases List.mem_append.mp h with h | h
    · exact not_mem_natStr hc h
    · exact hp (by simpa [ofString] using h)
  · exact not_mem_padLeft hc h

theorem floatOf_formatFixed {digits : Nat} (hd : 0 < digits) (q : ℚ) :
    floatOf (formatFixed digits q) = roundHalfEven (q * 10 ^ digits) / 10 ^ digits := by
  have hlen := length_padLeft hd (Nat.mod_lt (roundHalfEven (q * 10 ^ digits))
    (Nat.pow_pos (n := digits) (show 0 < 10 by omega)))
  have hpoint : formatFixed digits q =
      natStr (roundHalfEven (q * 10 ^ digits) / 10 ^ digits) ++
        '.' :: padLeft digits (roundHalfEven (q * 10 ^ digits) % 10 ^ digits) := by
    simp [formatFixed, ofString]
  rw [hpoint, floatOf_point (not_mem_natStr rfl) (not_mem_padLeft rfl), hlen,
    digitsValue_natStr, digitsValue_padLeft]
  generalize roundHalfEven (q * 10 ^ digits) = n
  have hn : (n : ℚ) = 10 ^ digits * (n / 10 ^ digits : ℕ) + (n % 10 ^ digits : ℕ) := by
    exact_mod_cast (Nat.div_add_mod n (10 ^ digits)).symm
  have hpos : (10 : ℚ) ^ digits ≠ 0 := by positivity
  field_simp
  linarith

/-- The seconds past whole minutes. -/
def secondsLeft (us : Nat) : ℚ := (us % 60000000 : ℕ) / 1000000

def microPart (us : Nat) : Str :=
  if us % 1000000 = 0 then "" else "." ++ padLeft 6 (us % 1000000)

def dayPart (us : Nat) : Str :=
  let days := us / 1000000 / 86400
  if days = 0 then "" else
    if days = 1 then natStr days ++ " day, " else natStr days ++ " days, "

theorem not_mem_dayPart (us : Nat) : ':' ∉ dayPart us := by
  have hn : ∀ n, ':' ∉ natStr n := fun n => not_mem_natStr rfl
  simp only [dayPart]
  split_ifs <;> simp [ofString, hn]

/-- The day count adds no colon in front of the minutes. -/
theorem third_part (us : Nat) : ((timedeltaStr us).splitOn ':')[2]?.getD [] =
    padLeft 2 (seconds us % 60) ++ microPart us := by
  have ht : timedeltaStr us = (dayPart us ++ natStr (seconds us / 3600)) ++
      ':' :: (padLeft 2 (seconds us / 60 % 60) ++
        ':' :: (padLeft 2 (seconds us % 60) ++ microPart us)) := by
    simp [timedeltaStr, dayPart, microPart, ofString]
  have hday : ':' ∉ dayPart us ++ natStr (seconds us / 3600) := by
    simpa [not_mem_dayPart] using not_mem_natStr rfl
  have hmicro : ':' ∉ microPart us := by
    rw [microPart]
    split_ifs
    · simp [ofString]
    · simpa [ofString] using not_mem_padLeft rfl
  have hlast : ':' ∉ padLeft 2 (seconds us % 60) ++ microPart us := by
    simpa [hmicro] using not_mem_padLeft rfl
  rw [ht, List.splitOn_append_cons_self, List.splitOn_append_cons_self,
    List.splitOn_eq_singleton hday, List.splitOn_eq_singleton (not_mem_padLeft rfl),
    List.splitOn_eq_singleton hlast]
  rfl

theorem floatOf_third_part (us : Nat) :
    floatOf (padLeft 2 (seconds us % 60) ++ microPart us) = secondsLeft us := by
  have hus : us % 60000000 = seconds us % 60 * 1000000 + us % 1000000 := by
    simp only [seconds]
    omega
  rw [secondsLeft, hus, microPart]
  split
  next h =>
    rw [h, show (("" : String) : Str) = [] from rfl, List.append_nil,
      floatOf_digits (not_mem_padLeft rfl), digitsValue_padLeft]
    push_cast
    ring
  next h =>
    rw [show (("." : String) : Str) = ['.'] from rfl, List.singleton_append,
      floatOf_point (not_mem_padLeft rfl) (not_mem_padLeft rfl),
      length_padLeft (by omega) (by omega), digitsValue_padLeft, digitsValue_padLeft]
    push_cast
    ring

theorem elapsedTime_eq (us : Nat) : elapsedTime us =
    natStr (seconds us / 60) ++ " minutes " ++ formatFixed 2 (secondsLeft us) ++ " seconds" := by
  rw [elapsedTime, third_part, floatOf_third_part]

def minutesRead (text : Str) : Nat := digitsValue ((text.splitOn ' ')[0]?.getD [])

def secondsRead (text : Str) : ℚ := floatOf ((text.splitOn ' ')[2]?.getD [])

/-- A text of minutes and seconds that denotes `us` microseconds. -/
structure Faithful (us : Nat) (text : Str) : Prop where
  low : 0 ≤ secondsRead text
  high : secondsRead text < 60
  close : |60 * minutesRead text + secondsRead text - us / 1000000| ≤ 5 / 1000

theorem elapsedTime_words (us : Nat) : (elapsedTime us).splitOn ' ' =
    [natStr (seconds us / 60), "minutes", formatFixed 2 (secondsLeft us), "seconds"] := by
  have ht : elapsedTime us = natStr (seconds us / 60) ++ ' ' :: (("minutes" : Str) ++
      ' ' :: (formatFixed 2 (secondsLeft us) ++ ' ' :: ("seconds" : Str))) := by
    simp [elapsedTime_eq, ofString]
  rw [ht, List.splitOn_append_cons_self, List.splitOn_append_cons_self,
    List.splitOn_append_cons_self, List.splitOn_eq_singleton (not_mem_natStr rfl),
    List.splitOn_eq_singleton (not_mem_formatFixed rfl (by decide))]
  rfl

theorem minutesRead_elapsedTime (us : Nat) :
    minutesRead (elapsedTime us) = seconds us / 60 := by
  rw [minutesRead, elapsedTime_words]
  exact digitsValue_natStr _

/-- Hundredths of a second, rounded. -/
def hundredths (us : Nat) : Nat := roundHalfEven (secondsLeft us * 10 ^ 2)

theorem secondsRead_elapsedTime (us : Nat) :
    secondsRead (elapsedTime us) = hundredths us / 100 := by
  rw [secondsRead, elapsedTime_words]
  have h := floatOf_formatFixed (show 0 < 2 by omega) (secondsLeft us)
  rw [show (100 : ℚ) = 10 ^ 2 by norm_num]
  exact h

theorem secondsLeft_nonneg (us : Nat) : 0 ≤ secondsLeft us := by
  rw [secondsLeft]
  positivity

/-- From 59.995 seconds on, the text says 60.00. -/
theorem hundredths_lt_iff (us : Nat) : hundredths us < 6000 ↔ us % 60000000 < 59995000 := by
  have h := roundHalfEven_lt_iff (q := secondsLeft us * 10 ^ 2)
    (mul_nonneg (secondsLeft_nonneg us) (by positivity)) 3000
  rw [hundredths, show 6000 = 2 * 3000 by rfl, h, secondsLeft]
  generalize us % 60000000 = r
  constructor
  · intro hr
    have hr' : (r : ℚ) < 59995000 := by linarith
    exact_mod_cast hr'
  · intro hr
    have hr' : (r : ℚ) < 59995000 := by exact_mod_cast hr
    linarith

theorem hundredths_close (us : Nat) : |(hundredths us : ℚ) / 100 - secondsLeft us| ≤ 5 / 1000 := by
  have h := roundHalfEven_close (q := secondsLeft us * 10 ^ 2)
    (mul_nonneg (secondsLeft_nonneg us) (by positivity))
  rw [hundredths]
  rw [abs_le] at h ⊢
  constructor <;> linarith [h.1, h.2]

/-- Whole days are not counted in the minutes. -/
theorem us_eq (us : Nat) : (us : ℚ) / 1000000 =
    86400 * (us / 86400000000 : ℕ) + 60 * (seconds us / 60 : ℕ) + secondsLeft us := by
  have h : us = 86400000000 * (us / 86400000000) + 60000000 * (seconds us / 60) +
      us % 60000000 := by
    simp only [seconds]
    omega
  have hq : (us : ℚ) = 86400000000 * (us / 86400000000 : ℕ) + 60000000 * (seconds us / 60 : ℕ) +
      (us % 60000000 : ℕ) := by exact_mod_cast h
  rw [secondsLeft]
  linarith

/-- The text is right for durations under a day that do not round up to a full minute. -/
theorem elapsedTime_faithful_iff (us : Nat) :
    Faithful us (elapsedTime us) ↔ us < 86400000000 ∧ us % 60000000 < 59995000 := by
  have hc := abs_le.mp (hundredths_close us)
  have hus := us_eq us
  have hs := secondsRead_elapsedTime us
  have hm := minutesRead_elapsedTime us
  rw [← hundredths_lt_iff]
  constructor
  · intro h
    constructor
    · by_contra hday
      have hd : (1 : ℚ) ≤ (us / 86400000000 : ℕ) := by
        exact_mod_cast (Nat.one_le_div_iff (by omega)).mpr (not_lt.mp hday)
      have hclose := abs_le.mp h.close
      rw [hs, hm] at hclose
      linarith [hclose.1, hc.2]
    · have hhigh := h.high
      rw [hs] at hhigh
      have hn : (hundredths us : ℚ) < 6000 := by linarith
      exact_mod_cast hn
  · rintro ⟨hday, hn⟩
    have hd : us / 86400000000 = 0 := Nat.div_eq_of_lt hday
    have hn' : (hundredths us : ℚ) < 6000 := by exact_mod_cast hn
    rw [hd, Nat.cast_zero] at hus
    refine ⟨?_, ?_, ?_⟩
    · rw [hs]
      positivity
    · rw [hs]
      linarith
    · rw [hs, hm, abs_le]
      constructor <;> linarith [hc.1, hc.2]

/-- A build of a minute less one millisecond. -/
theorem full_minute_not_faithful :
    elapsedTime 59999000 = ("0 minutes 60.00 seconds" : Str) ∧
      ¬ Faithful 59999000 (elapsedTime 59999000) := by
  refine ⟨by decide +kernel, fun h => ?_⟩
  have hhigh := h.high
  rw [secondsRead_elapsedTime] at hhigh
  revert hhigh
  decide +kernel

end PackageBuilder
