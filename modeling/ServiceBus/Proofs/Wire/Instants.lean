import ServiceBus.Instant.Text
import ServiceBus.Proofs.Wire.Digits

/-!
# Instants are read back from their text

The reader takes much more than is ever written: offsets, blanks, other separators, numbers without
their zeros.  Here it is followed on what is written only, part by part in front of any rest: the
year in its two forms, the two-digit parts, and the fraction in its four lengths.  The shortest
length that loses nothing is enough because the digits that are left out are zeros.

`Instant.ofText?_text` puts the parts together, for every instant, leap seconds and years outside
four digits included.
-/

set_option autoImplicit false

namespace ServiceBus.Instant

open Digits

/-! ## Blanks and separators -/

theorem skip_of_digit {c : Char} {d : Nat} (h : value? c = some d) (cs : List Char) :
    Blank.skip (c :: cs) = c :: cs := by
  have hc : 48 ≤ c.toNat ∧ c.toNat ≤ 57 := by
    unfold value? at h
    split at h
    · assumption
    · cases h
  have hblank : Blank.isBlank c = false := by
    simp only [Blank.isBlank, Bool.or_eq_false_iff, Bool.and_eq_false_iff, decide_eq_false_iff_not]
    omega
  rw [Blank.skip, List.dropWhile_cons, hblank]
  rfl

theorem skip_fixed {width : Nat} (hwidth : 0 < width) (n : Nat) (rest : List Char) :
    Blank.skip (fixed width n ++ rest) = fixed width n ++ rest := by
  obtain ⟨width, rfl⟩ : ∃ w, width = w + 1 := ⟨width - 1, by omega⟩
  obtain ⟨c, cs, hcs, hc⟩ := exists_fixed_eq_cons width n
  obtain ⟨d, hd⟩ := Option.isSome_iff_exists.mp hc
  rw [hcs]
  exact skip_of_digit hd _

theorem stops_hyphen (cs : List Char) : Stops ('-' :: cs) := stops_cons rfl cs

theorem stops_zone : Stops ['Z'] := stops_cons rfl []

theorem separator?_hyphen (cs : List Char) : separator? '-' ('-' :: cs) = some cs := rfl

theorem separator?_colon (cs : List Char) : separator? ':' (':' :: cs) = some cs := rfl

theorem twoDigits?_fixed {n : Nat} (h : n < 100) (rest : List Char) :
    twoDigits? (fixed 2 n ++ rest) = some (n, rest) := by
  rw [twoDigits?, skip_fixed (by decide)]
  exact read?_fixed (by decide) (Nat.le_refl 2) h (.inl rfl)

/-! ## The date -/

/-- A year of four digits stands without a sign. -/
theorem year?_fixed {year : Int} (h : 0 ≤ year ∧ year ≤ 9999) (rest : List Char) :
    year? (fixed 4 year.toNat ++ rest) = some (year, rest) := by
  have hread : read? 4 (fixed 4 year.toNat ++ rest) = some (year.toNat, rest) :=
    read?_fixed (by decide) (Nat.le_refl 4) (by omega) (.inl rfl)
  obtain ⟨c, cs, hcs, hc⟩ := exists_fixed_eq_cons 3 year.toNat
  rw [year?, skip_fixed (by decide)]
  rw [hcs, List.cons_append] at hread ⊢
  split
  · next heq => cases (List.cons.inj heq).1; exact absurd hc (by decide)
  · next heq => cases (List.cons.inj heq).1; exact absurd hc (by decide)
  · rw [hread]
    simp [Int.toNat_of_nonneg h.1]

/-- Every other year has a sign, and then any number of digits is read. -/
theorem year?_padded (n : Nat) {rest : List Char} (hrest : Stops rest) :
    year? ('-' :: padded 4 n ++ rest) = some (-(n : Int), rest) ∧
      year? ('+' :: padded 4 n ++ rest) = some ((n : Int), rest) := by
  have hread : read? (padded 4 n ++ rest).length (padded 4 n ++ rest) = some (n, rest) := by
    refine read?_padded ?_ hrest
    rw [List.length_append, padded, length_fixed]
    exact Nat.le_add_right ..
  constructor
  · show (read? (padded 4 n ++ rest).length (padded 4 n ++ rest)).map _ = _
    rw [hread]
    rfl
  · show (read? (padded 4 n ++ rest).length (padded 4 n ++ rest)).map _ = _
    rw [hread]
    rfl

theorem year?_yearText (year : Int) {rest : List Char} (hrest : Stops rest) :
    year? (yearText year ++ rest) = some (year, rest) := by
  rw [yearText]
  split
  · next h => exact year?_fixed h rest
  · split
    · rw [(year?_padded _ hrest).1, Int.ofNat_natAbs_of_nonpos (by omega), Int.neg_neg]
    · rw [(year?_padded _ hrest).2, Int.natAbs_of_nonneg (by omega)]

theorem date?_text {date : Date} (h : date.Valid) (rest : List Char) :
    date? (yearText date.year ++ '-' :: fixed 2 date.month ++ '-' :: fixed 2 date.day ++ rest) =
      some (date, rest) := by
  obtain ⟨-, -, -, hmonth, -, hday⟩ := h
  have hdays := daysInMonth_le date.year date.month
  simp only [List.append_assoc, List.cons_append, date?, year?_yearText _ (stops_hyphen _),
    separator?_hyphen, twoDigits?_fixed (show date.month < 100 by omega),
    twoDigits?_fixed (show date.day < 100 by omega), Option.bind_eq_bind, Option.bind_some]
  rfl

/-! ## The time of day -/

/-- The digits of a fraction, with the zeros that were left out put back. -/
theorem fraction?_point {places n : Nat} (hplaces : 0 < places) (hmost : places ≤ 9)
    (hn : n < 10 ^ places) :
    fraction? ('.' :: fixed places n ++ ['Z']) = some (n * 10 ^ (9 - places), ['Z']) := by
  have hread : read? 9 (fixed places n ++ ['Z']) = some (n, ['Z']) :=
    read?_fixed hplaces hmost hn (.inr stops_zone)
  have hlength : (fixed places n ++ ['Z']).length - ['Z'].length = places := by
    rw [List.length_append, length_fixed, Nat.add_sub_cancel]
  rw [List.cons_append, fraction?, hread, Option.bind_eq_bind, Option.bind_some]
  dsimp only
  rw [hlength]
  rfl

theorem fraction?_fractionText {nano : Nat} (h : nano < 1000000000) :
    fraction? (fractionText nano ++ ['Z']) = some (nano, ['Z']) := by
  rw [fractionText]
  split
  · next hzero => rw [hzero]; rfl
  split
  · next hmillis =>
    rw [fraction?_point (by decide) (by decide) (by omega), show 10 ^ (9 - 3) = 1000000 from rfl,
      Nat.div_mul_cancel (Nat.dvd_of_mod_eq_zero hmillis)]
  split
  · next hmicros =>
    rw [fraction?_point (by decide) (by decide) (by omega), show 10 ^ (9 - 6) = 1000 from rfl,
      Nat.div_mul_cancel (Nat.dvd_of_mod_eq_zero hmicros)]
  · rw [fraction?_point (by decide) (by decide) h, Nat.sub_self, Nat.pow_zero, Nat.mul_one]

theorem timeOfDay?_text {hour minute second nano : Nat} (hhour : hour < 24) (hminute : minute < 60)
    (hsecond : second ≤ 60) (hnano : nano < 1000000000) :
    timeOfDay? (fixed 2 hour ++ ':' :: fixed 2 minute ++ ':' :: fixed 2 second ++
      fractionText nano ++ ['Z']) = some ((hour, minute, second, nano), ['Z']) := by
  simp only [List.append_assoc, List.cons_append, timeOfDay?, separator?_colon,
    twoDigits?_fixed (show hour < 100 by omega), twoDigits?_fixed (show minute < 100 by omega),
    twoDigits?_fixed (show second < 100 by omega), fraction?_fractionText hnano,
    Option.bind_eq_bind, Option.bind_some]
  rfl

/-! ## The whole text -/

theorem ofParts?_eq_some (t : Instant) :
    ofParts? t.date t.hour t.minute t.second t.nano = some t := dif_pos t.valid

/-- Universal time needs no shift. -/
theorem shifted_zero (date : Date) {hour minute : Nat} (hhour : hour < 24) (hminute : minute < 60) :
    shifted date hour minute 0 = (date, hour, minute) := by
  have hday : (((60 * hour + minute : Int) - 0) % 1440).toNat = 60 * hour + minute := by omega
  rw [shifted, if_neg (by omega), if_neg (by omega), hday]
  refine Prod.ext rfl (Prod.ext ?_ ?_)
  · show (60 * hour + minute) / 60 = hour
    omega
  · show (60 * hour + minute) % 60 = minute
    omega

theorem ofChars?_chars (t : Instant) : ofChars? t.chars = some t := by
  obtain ⟨hdate, hhour, hminute, hsecond, hnano⟩ := t.valid
  have hchars : t.chars =
      yearText t.date.year ++ '-' :: fixed 2 t.date.month ++ '-' :: fixed 2 t.date.day ++
        'T' :: (fixed 2 t.hour ++ ':' :: fixed 2 t.minute ++ ':' :: fixed 2 t.second ++
          fractionText t.nano ++ ['Z']) := by
    simp only [chars, List.append_assoc, List.cons_append]
  have hzone : offset? (Blank.skip ['Z']) = some (0, []) := rfl
  rw [hchars, ofChars?, date?_text hdate, Option.bind_eq_bind, Option.bind_some]
  dsimp only
  rw [show ∀ cs, dateEnd? ('T' :: cs) = some cs from fun _ ↦ rfl, Option.bind_eq_bind,
    Option.bind_some, timeOfDay?_text hhour hminute hsecond hnano, Option.bind_eq_bind,
    Option.bind_some]
  dsimp only
  rw [hzone, Option.bind_eq_bind, Option.bind_some]
  dsimp only
  rw [if_pos (show Blank.skip [] = [] from rfl), ofParts?_eq_some, Option.bind_eq_bind,
    Option.bind_some, shifted_zero _ hhour hminute]
  exact t.ofParts?_eq_some

/-- **An instant is read back from its text.** -/
theorem ofText?_text (t : Instant) : ofText? t.text = some t := by
  rw [ofText?, text, String.toList_ofList, ofChars?_chars]

end ServiceBus.Instant
