import RestaurantAssistant.Binary64

/-!
# The time codec

`convertToTime` writes a number of minutes and `convertToMinutes` reads it back, both in
binary64.  Up to `2 ^ 53` all whole numbers are numbers, and up to `2 ^ 55` those that are
come back unchanged (`time_codec_exact`): the hours are not rounded up, and their minutes
need no more digits than there are.  Not far beyond they do (`time_codec_rounds`).
-/

namespace RestaurantAssistant.Binary64

open Js Js.Binary64

variable {m : Nat}

/-- Up to `2 ^ 55` the minutes are few units of their last place. -/
theorem place_of_minutes (rep : Representable m) (small : m ≤ 2 ^ 55) :
    ∃ j ≤ 2, 2 ^ j ∣ m ∧ m ≤ 2 ^ (53 + j) := by
  by_cases first : m ≤ 2 ^ 53
  · exact ⟨0, by omega, one_dvd m, first⟩
  by_cases second : m ≤ 2 ^ 54
  · exact ⟨1, by omega, rep.dvd (k := 0) (by omega), second⟩
  · exact ⟨2, by omega, rep.dvd (k := 1) (by omega), small⟩

/-- The quotient by 60 is not rounded to the next hour. -/
theorem floor_hours (rep : Representable m) (small : m ≤ 2 ^ 55) :
    ⌊nearest ((m : ℚ) / 60)⌋ = (m / 60 : Nat) := by
  obtain ⟨j, le, dvd, bound⟩ := place_of_minutes rep small
  have floor : ⌊(m : ℚ) / 60⌋ = ((m / 60 : Nat) : ℤ) := Rat.floor_natCast_div_natCast m 60
  have power : (0 : ℚ) < 2 ^ j := pow_pos two_pos j
  have unit : (2 : ℚ) ^ ((j : ℤ) - 5) = 2 ^ j / 32 := by
    rw [zpow_sub₀ two_ne_zero, zpow_natCast]
    norm_num
  -- what is missing to the next hour is no less than a unit of the last place
  have missing : 2 ^ j ≤ 60 - m % 60 := by
    have sixty : 2 ^ j ∣ 60 := (Nat.pow_dvd_pow 2 le).trans (by decide)
    exact Nat.le_of_dvd (by omega) (Nat.dvd_sub sixty ((Nat.dvd_mod_iff sixty).mpr dvd))
  have missing : m + 2 ^ j ≤ 60 * (m / 60 + 1) := by omega
  have missing : (m : ℚ) + 2 ^ j ≤ 60 * ((m / 60 : Nat) + 1) := by exact_mod_cast missing
  have bound : (m : ℚ) ≤ 2 ^ 53 * 2 ^ j := by exact_mod_cast bound.trans_eq (pow_add 2 53 j)
  rw [floor_nearest (e := j - 5) (by omega), floor]
  · rw [abs_of_nonneg (by positivity), unit]
    linarith
  · rw [floor, Nat.abs_cast]
    have hours : m / 60 ≤ 2 ^ 53 := by omega
    exact_mod_cast hours
  · rw [floor, unit, Int.cast_natCast]
    linarith

/-- A whole number of minutes is written as in exact arithmetic. -/
theorem convertToTime_ofInt (valid : (Double.ofInt m).number = .finite m) (small : m ≤ 2 ^ 55) :
    convertToTime (.ofInt m) = RestaurantAssistant.convertToTime (.finite m) := by
  have rep := (Double.of_finite_valid (valid ▸ (Double.ofInt m).rounded)).1
  have sixty : (60 : Double).number = .finite (60 : Nat) := Double.ofInt_number (by norm_num)
  have hours : (Double.ofInt m / 60).floor = .ofInt (m / 60 : Nat) := by
    have quotient : (Double.ofInt m).number / (60 : Double).number = .finite ((m : ℚ) / 60) := by
      rw [valid, sixty]
      exact JsNumber.finite_div (by norm_num)
    have bound : |(m : ℚ) / 60| ≤ 2 ^ 53 := by
      have cast : (m : ℚ) ≤ 2 ^ 55 := by exact_mod_cast small
      rw [abs_of_nonneg (by positivity)]
      linarith
    change ((Double.ofInt m).number / (60 : Double).number).rounded.floor.toDouble = _
    rw [quotient, Double.rounded_of_le bound, JsNumber.floor_finite, floor_hours rep small]
    rfl
  have mins : Double.ofInt m % 60 = .ofInt (m % 60 : Nat) := by
    change ((Double.ofInt m).number % (60 : Double).number).toDouble = _
    rw [valid, sixty, JsNumber.natCast_mod (by decide)]
    rfl
  rw [convertToTime_natCast]
  simp only [convertToTime, hours, mins]
  rw [Double.text_ofInt (by omega), Double.text_ofInt (by omega)]

/-- The number is read back from its text. -/
theorem convertToMinutes_exact (small : m ≤ 2 ^ 55) :
    convertToMinutes (RestaurantAssistant.convertToTime (.finite m)) = .ofInt m := by
  have parts : ((RestaurantAssistant.convertToTime (.finite m)).toList.splitOn ':').map
      Double.parse = [.ofInt (m / 60 : Nat), .ofInt (m % 60 : Nat)] := by
    have exact := congrArg (List.map JsNumber.toDouble) (split_convertToTime m)
    rw [List.map_map] at exact
    exact exact
  have sixty : (60 : Double).number = .finite (60 : Nat) := Double.ofInt_number (by norm_num)
  have small' : |((m / 60 : Nat) : ℤ)| ≤ 2 ^ 53 ∧ |((m % 60 : Nat) : ℤ)| ≤ 2 ^ 53 := by
    rw [Nat.abs_cast, Nat.abs_cast]
    omega
  -- the minutes of the whole hours are a multiple of four
  have whole : (Double.ofInt (m / 60 : Nat) * 60).number = .finite (m / 60 * 60 : Nat) := by
    have product : (Double.ofInt (m / 60 : Nat)).number * (60 : Double).number =
        .finite (m / 60 * 60 : Nat) := by
      rw [Double.ofInt_number small'.1, sixty, JsNumber.finite_mul, Nat.cast_mul, Int.cast_natCast]
    have rep : Representable ((m / 60 * 60 : Nat) : ℚ) := by
      have digits : |((m / 60 * 15 : Nat) : ℤ)| ≤ 2 ^ 53 := by
        rw [Nat.abs_cast]
        omega
      have multiple := representable_multiple digits (e := 2) (by omega)
      have same : ∀ h : Nat, (((h * 15 : Nat) : ℤ) : ℚ) * 2 ^ (2 : ℤ) = ((h * 60 : Nat) : ℚ) := by
        intro h
        push_cast
        ring
      rwa [same] at multiple
    change ((Double.ofInt (m / 60 : Nat)).number * (60 : Double).number).rounded = _
    rw [product]
    refine Double.finite_valid rep (Double.lt_overflow ?_)
    rw [Nat.abs_cast]
    have bound : m / 60 * 60 ≤ 2 ^ 60 := by omega
    exact_mod_cast bound
  have sum : (Double.ofInt (m / 60 : Nat) * 60).number + (Double.ofInt (m % 60 : Nat)).number =
      .finite m := by
    rw [whole, Double.ofInt_number small'.2, JsNumber.finite_add, Int.cast_natCast]
    have split : ((m / 60 * 60 : Nat) : ℚ) + ((m % 60 : Nat) : ℚ) = m := by
      exact_mod_cast Nat.div_add_mod' m 60
    rw [split]
  simp only [convertToMinutes, parts]
  change ((Double.ofInt (m / 60 : Nat) * 60).number + (Double.ofInt (m % 60 : Nat)).number).toDouble
    = _
  rw [sum]
  rfl

theorem ofInt_natCast (small : m ≤ 2 ^ 53) : (Double.ofInt m).number = .finite m := by
  rw [Double.ofInt_number (by rw [Nat.abs_cast]; exact_mod_cast small), Int.cast_natCast]

theorem minutes_of_day : (24 * 60 : Double) = .ofInt (1440 : ℕ) :=
  Double.ofInt_mul (by norm_num) (by norm_num)

theorem convertToTime_day (day : m < 1440) :
    convertToTime (.ofInt m) = RestaurantAssistant.convertToTime (.finite m) :=
  convertToTime_ofInt (ofInt_natCast (by omega)) (by omega)

/-- A valid time is read as a minute of the day. -/
theorem convertToMinutes_of_valid {time : String} (valid : isValidTimeString time = true) :
    ∃ m < 1440, RestaurantAssistant.convertToMinutes time = .finite (m : Nat) ∧
      convertToMinutes time = .ofInt (m : Nat) := by
  obtain ⟨m, day, rfl⟩ := isValidTimeString_iff.mp valid
  exact ⟨m, day, convertToMinutes_convertToTime m,
    convertToMinutes_exact (by omega)⟩

/-- **The time codec is exact**, up to `2 ^ 55` minutes.  Writing and reading give back every
whole number of them; the valid times are the texts of the minutes of one day, read as the
minute they were written for; and the patterns of the inputs accept these texts and no
others. -/
theorem time_codec_exact :
    (∀ m : Nat, m ≤ 2 ^ 55 → (Double.ofInt m).number = .finite m →
      convertToMinutes (convertToTime (.ofInt m)) = .ofInt m) ∧
    ∀ time : String,
      (isValidTimeString time = true ↔ ∃ m < 1440, time = convertToTime (.ofInt (m : Nat))) ∧
      (∀ m < 1440, time = convertToTime (.ofInt (m : Nat)) →
        convertToMinutes time = .ofInt (m : Nat)) ∧
      createTimePattern.test time = isValidTimeString time ∧
      queryTimePattern.test time = isValidTimeString time := by
  refine ⟨?_, fun time => ⟨?_, ?_, createTimePattern_test time, queryTimePattern_test time⟩⟩
  · intro m small valid
    rw [convertToTime_ofInt valid small, convertToMinutes_exact small]
  · rw [isValidTimeString_iff]
    refine exists_congr fun m => and_congr_right fun day => ?_
    rw [convertToTime_day day]
  · intro m day written
    rw [written, convertToTime_day day]
    exact convertToMinutes_exact (by omega)

/-- The first whole number after `2 ^ 53` comes back. -/
theorem time_codec_exact_large :
    convertToMinutes (convertToTime (.ofInt 9007199254740994)) = .ofInt 9007199254740994 :=
  time_codec_exact.1 9007199254740994 (by norm_num) (by decide +kernel)

/-- Beyond, the minutes of the whole hours are rounded when they are read. -/
theorem time_codec_rounds :
    ¬ ∀ m : Nat, (Double.ofInt m).number = .finite m →
      convertToMinutes (convertToTime (.ofInt m)) = .ofInt m := by
  intro claim
  have read := claim 36028797018964024 (by decide +kernel)
  have other : convertToMinutes (convertToTime (.ofInt (36028797018964024 : Nat))) ≠
      .ofInt (36028797018964024 : Nat) := by
    decide +kernel
  exact other read

end RestaurantAssistant.Binary64
