/-!
# Instants

An instant is a moment of universal time to the nanosecond, given by its calendar date and its time
of day.  The calendar is the Gregorian one, carried back before its beginning, for the years from
`-262143` to `262142`.  A minute may have a sixtieth second: a leap second.  It comes after the
fifty-ninth and before the next minute, wherever it is claimed to be.

Instants are compared by `Instant.rank`, a whole number that orders them; two instants of one rank
are equal (`Instant.rank_injective`).  `Instant.afterTick?` is the instant a hundred nanoseconds
later, and there is none past the last one that can be represented.
-/

set_option autoImplicit false

namespace ServiceBus

/-! ## The calendar -/

/-- Every fourth year has a leap day, but of the years that end a century only every fourth. -/
def isLeapYear (year : Int) : Bool := year % 4 = 0 && (year % 100 ≠ 0 || year % 400 = 0)

/-- The number of days in a month. -/
def daysInMonth (year : Int) (month : Nat) : Nat :=
  if month = 2 then if isLeapYear year then 29 else 28
  else if month = 4 ∨ month = 6 ∨ month = 9 ∨ month = 11 then 30
  else 31

/-- A calendar date. -/
structure Date where
  year : Int
  month : Nat
  day : Nat
deriving DecidableEq, Repr

namespace Date

/-- The first year that can be represented. -/
def firstYear : Int := -262143

/-- The last year that can be represented. -/
def lastYear : Int := 262142

/-- The date is in the calendar, and in a year that can be represented. -/
def Valid (d : Date) : Prop :=
  firstYear ≤ d.year ∧ d.year ≤ lastYear ∧ 1 ≤ d.month ∧ d.month ≤ 12 ∧ 1 ≤ d.day ∧
    d.day ≤ daysInMonth d.year d.month

instance (d : Date) : Decidable d.Valid := by
  unfold Valid
  infer_instance

/-- The day after. -/
def next (d : Date) : Date :=
  if d.day < daysInMonth d.year d.month then { d with day := d.day + 1 }
  else if d.month < 12 then ⟨d.year, d.month + 1, 1⟩
  else ⟨d.year + 1, 1, 1⟩

/-- The day before. -/
def previous (d : Date) : Date :=
  if 1 < d.day then { d with day := d.day - 1 }
  else if 1 < d.month then ⟨d.year, d.month - 1, daysInMonth d.year (d.month - 1)⟩
  else ⟨d.year - 1, 12, 31⟩

end Date

/-! ## Instants -/

/-- A moment of universal time. -/
structure Instant where
  date : Date
  hour : Nat
  minute : Nat
  /-- Sixty is a leap second. -/
  second : Nat
  nano : Nat
  valid : date.Valid ∧ hour < 24 ∧ minute < 60 ∧ second ≤ 60 ∧ nano < 1000000000
deriving DecidableEq

namespace Instant

/-- The instant with these parts, if they are in range. -/
def ofParts? (date : Date) (hour minute second nano : Nat) : Option Instant :=
  if h : date.Valid ∧ hour < 24 ∧ minute < 60 ∧ second ≤ 60 ∧ nano < 1000000000 then
    some ⟨date, hour, minute, second, nano, h⟩
  else none

theorem daysInMonth_le (year : Int) (month : Nat) : daysInMonth year month ≤ 31 := by
  unfold daysInMonth
  repeat' split
  all_goals omega

/-- A whole number that is larger for a later instant. -/
def rank (t : Instant) : Int :=
  (((((t.date.year * 13 + t.date.month) * 32 + t.date.day) * 24 + t.hour) * 60 + t.minute) * 61 +
    t.second) * 1000000000 + t.nano

instance : LT Instant := ⟨fun t u ↦ t.rank < u.rank⟩

instance : LE Instant := ⟨fun t u ↦ t.rank ≤ u.rank⟩

instance (t u : Instant) : Decidable (t < u) := inferInstanceAs (Decidable (t.rank < u.rank))

instance (t u : Instant) : Decidable (t ≤ u) := inferInstanceAs (Decidable (t.rank ≤ u.rank))

theorem lt_iff_rank {t u : Instant} : t < u ↔ t.rank < u.rank := Iff.rfl

theorem le_iff_rank {t u : Instant} : t ≤ u ↔ t.rank ≤ u.rank := Iff.rfl

/-- Instants of one rank are equal. -/
theorem rank_injective {t u : Instant} (h : t.rank = u.rank) : t = u := by
  obtain ⟨⟨y, mo, d⟩, hr, mi, s, n, ⟨_, _, _, hmo, _, hd⟩, hhr, hmi, hs, hn⟩ := t
  obtain ⟨⟨y', mo', d'⟩, hr', mi', s', n', ⟨_, _, _, hmo', _, hd'⟩, hhr', hmi', hs', hn'⟩ := u
  have hd31 := daysInMonth_le y mo
  have hd31' := daysInMonth_le y' mo'
  simp only [rank] at h hd hd' hmo hmo'
  have : y = y' ∧ mo = mo' ∧ d = d' ∧ hr = hr' ∧ mi = mi' ∧ s = s' ∧ n = n' := by omega
  obtain ⟨rfl, rfl, rfl, rfl, rfl, rfl, rfl⟩ := this
  rfl

/-! ## The next slot -/

/-- The nanoseconds from one slot to the next. -/
def tick : Nat := 100

/-- The start of the next minute. -/
def nextMinute (t : Instant) : Date × Nat × Nat :=
  if t.minute < 59 then (t.date, t.hour, t.minute + 1)
  else if t.hour < 23 then (t.date, t.hour + 1, 0)
  else (t.date.next, 0, 0)

/-- The instant one tick later, unless that cannot be represented.  A tick that leaves a leap
second leads into the next minute. -/
def afterTick? (t : Instant) : Option Instant :=
  let nano := t.nano + tick
  if nano < 1000000000 then ofParts? t.date t.hour t.minute t.second nano
  else if t.second < 59 then ofParts? t.date t.hour t.minute (t.second + 1) (nano - 1000000000)
  else
    let (date, hour, minute) := t.nextMinute
    ofParts? date hour minute 0 (nano - 1000000000)

/-- What comes in is older than what is known.  An instant that is not given makes no claim. -/
def isStale (known incoming : Option Instant) : Bool :=
  match known, incoming with
  | some known, some incoming => incoming < known
  | _, _ => false

theorem eq_of_ofParts? {date : Date} {hour minute second nano : Nat} {t : Instant}
    (h : ofParts? date hour minute second nano = some t) :
    t.date = date ∧ t.hour = hour ∧ t.minute = minute ∧ t.second = second ∧ t.nano = nano := by
  unfold ofParts? at h
  split at h
  · obtain rfl := Option.some.inj h
    simp
  · simp at h

/-- A tick leads to a strictly later instant. -/
theorem lt_of_afterTick? {t u : Instant} (h : t.afterTick? = some u) : t < u := by
  obtain ⟨⟨y, mo, d⟩, hr, mi, s, n, ⟨_, _, _, hmo, _, hd⟩, hhr, hmi, hs, hn⟩ := t
  have hd31 := daysInMonth_le y mo
  simp only at hd hmo
  rw [lt_iff_rank]
  unfold afterTick? tick at h
  simp only at h
  split at h
  · obtain ⟨h1, h2, h3, h4, h5⟩ := eq_of_ofParts? h
    simp only [rank, h1, h2, h3, h4, h5]
    omega
  · split at h
    · obtain ⟨h1, h2, h3, h4, h5⟩ := eq_of_ofParts? h
      simp only [rank, h1, h2, h3, h4, h5]
      omega
    · obtain ⟨h1, h2, h3, h4, h5⟩ := eq_of_ofParts? h
      simp only [nextMinute] at h1 h2 h3
      by_cases hm : mi < 59
      · simp only [hm, if_true] at h1 h2 h3
        simp only [rank, h1, h2, h3, h4, h5]
        omega
      · by_cases hh : hr < 23
        · simp only [hm, hh, if_true, if_false] at h1 h2 h3
          simp only [rank, h1, h2, h3, h4, h5]
          omega
        · simp only [hm, hh, if_false] at h1 h2 h3
          simp only [rank, h1, h2, h3, h4, h5, Date.next]
          repeat' split
          all_goals
            simp only
            omega

end Instant

end ServiceBus
