import Mathlib.Data.List.ReduceOption
import ServiceBus.Proofs.Directory.Standing

/-!
# Timestamps go up

A source of timestamps is asked again and again, each time with a reading of the clock.  The clock
may stand still, jump back or be in a leap second: every timestamp is later than all before it, and
not earlier than the reading that it was given for.  Only at the end of time is none given, when the
last timestamp leaves no room for another tick (`Instant.IsLast`); and then the last one stays the
last, so that whatever is given afterwards is still later.

A client asks one source for the timestamps of all its commands.  `Situation.ascends_of_run` says
both: how one source answers any readings, and that the commands of a client carry timestamps that go
up in the order in which its calls are made.
-/

set_option autoImplicit false

namespace ServiceBus

/-! ## The end of time -/

namespace Date

/-- The last day that can be represented. -/
def last : Date := ⟨lastYear, 12, 31⟩

theorem daysInMonth_pos (year : Int) (month : Nat) : 1 ≤ daysInMonth year month := by
  unfold daysInMonth
  repeat' split
  all_goals omega

/-- Every day but the last has a day after it. -/
theorem valid_next_iff {d : Date} (h : d.Valid) : d.next.Valid ↔ d ≠ last := by
  obtain ⟨y, m, n⟩ := d
  obtain ⟨hfirst, hlast, hm, hm12, hn, hdays⟩ := h
  dsimp only at hfirst hlast hm hm12 hn hdays
  rw [next]
  dsimp only
  split
  · next hlt =>
    refine iff_of_true ⟨hfirst, hlast, hm, hm12, by dsimp only; omega, hlt⟩ fun heq ↦ ?_
    cases heq
    -- the last month has no more than 31 days
    exact absurd hlt (by decide)
  · next hlt =>
    split
    · next hm' =>
      refine iff_of_true ⟨hfirst, hlast, by dsimp only; omega, by dsimp only; omega, Nat.le_refl 1,
        daysInMonth_pos _ _⟩ fun heq ↦ ?_
      cases heq
      exact absurd hm' (by decide)
    · next hm' =>
      obtain rfl : m = 12 := by omega
      obtain rfl : n = 31 := Nat.le_antisymm hdays (Nat.le_of_not_lt hlt)
      have hyear : (⟨y, 12, 31⟩ : Date) ≠ last ↔ y + 1 ≤ lastYear := by
        rw [ne_eq, last, mk.injEq]
        simp only [and_true]
        omega
      rw [hyear]
      exact ⟨fun hvalid ↦ hvalid.2.1, fun hle ↦
        ⟨by dsimp only; omega, hle, Nat.le_refl 1, (by decide : 1 ≤ 12),
          Nat.le_refl 1, daysInMonth_pos _ _⟩⟩

end Date

namespace Instant

/-- The instant is in the last minute that can be represented, and a tick leads out of it. -/
def IsLast (t : Instant) : Prop :=
  t.date = .last ∧ t.hour = 23 ∧ t.minute = 59 ∧ 59 ≤ t.second ∧ 1000000000 ≤ t.nano + tick

theorem ofParts?_eq_none_iff {date : Date} {hour minute second nano : Nat} :
    ofParts? date hour minute second nano = none ↔
      ¬ (date.Valid ∧ hour < 24 ∧ minute < 60 ∧ second ≤ 60 ∧ nano < 1000000000) := by
  rw [ofParts?]
  split
  · next h => exact iff_of_false (Option.some_ne_none _) (not_not.mpr h)
  · next h => exact iff_of_true rfl h

/-- Every minute but the last has a minute after it. -/
theorem valid_nextMinute_iff (t : Instant) :
    (t.nextMinute.1.Valid ∧ t.nextMinute.2.1 < 24 ∧ t.nextMinute.2.2 < 60) ↔
      ¬ (t.date = .last ∧ t.hour = 23 ∧ t.minute = 59) := by
  obtain ⟨hdate, hhour, hminute, -, -⟩ := t.valid
  rw [nextMinute]
  split
  · exact iff_of_true ⟨hdate, hhour, by dsimp only; omega⟩ (by omega)
  · split
    · exact iff_of_true ⟨hdate, by dsimp only; omega, (by decide : 0 < 60)⟩ (by omega)
    · have hend : t.hour = 23 ∧ t.minute = 59 := by omega
      have hmidnight : 0 < 24 ∧ 0 < 60 := by decide
      rw [Date.valid_next_iff hdate, and_iff_left hmidnight, and_iff_left hend]

/-- **Only at the end of time is there no instant a tick later.** -/
theorem afterTick?_eq_none_iff {t : Instant} : t.afterTick? = none ↔ t.IsLast := by
  obtain ⟨hdate, hhour, hminute, hsecond, hnano⟩ := t.valid
  rw [IsLast, afterTick?]
  dsimp only
  split
  · next hsame =>
    rw [ofParts?_eq_none_iff]
    exact iff_of_false (not_not.mpr ⟨hdate, hhour, hminute, hsecond, hsame⟩) (by omega)
  · next hcarry =>
    have hrest : t.nano + tick - 1000000000 < 1000000000 := by
      rw [tick]
      omega
    split
    · rw [ofParts?_eq_none_iff]
      exact iff_of_false (not_not.mpr ⟨hdate, hhour, hminute, by omega, hrest⟩) (by omega)
    · next hleave =>
      have hcarried : 59 ≤ t.second ∧ 1000000000 ≤ t.nano + tick := by omega
      have hstart : 0 ≤ 60 ∧ t.nano + tick - 1000000000 < 1000000000 := ⟨Nat.zero_le _, hrest⟩
      rw [ofParts?_eq_none_iff]
      constructor
      · intro hnot
        obtain ⟨hday, hh, hm⟩ := not_not.mp fun hmore ↦ hnot <|
          let ⟨hday, hh, hm⟩ := t.valid_nextMinute_iff.mpr hmore
          ⟨hday, hh, hm, hstart⟩
        exact ⟨hday, hh, hm, hcarried⟩
      · rintro ⟨hday, hh, hm, -⟩ ⟨hday', hh', hm', -⟩
        exact t.valid_nextMinute_iff.mp ⟨hday', hh', hm'⟩ ⟨hday, hh, hm⟩

end Instant

namespace Directory

/-! ## What a source of timestamps gives -/

namespace Stamps

variable {s : Stamps} {now t : Instant}

theorem next?_eq_none_iff :
    s.next? now = none ↔ ∃ last, s.last = some last ∧ now ≤ last ∧ last.IsLast := by
  rw [next?]
  cases s.last with
  | none => simp
  | some last =>
    by_cases hle : now ≤ last
    · simp [hle, Instant.afterTick?_eq_none_iff]
    · simp [hle]

/-- A timestamp is not earlier than the reading that it is given for. -/
theorem le_of_next? (h : s.next? now = some t) : now ≤ t := by
  rw [next?] at h
  split at h
  · split at h
    · next hle => exact Int.le_trans hle (Int.le_of_lt (Instant.lt_of_afterTick? h))
    · exact Int.le_of_eq (congrArg Instant.rank (Option.some.inj h))
  · exact Int.le_of_eq (congrArg Instant.rank (Option.some.inj h))

theorem take_of_next? (h : s.next? now = some t) : s.take now = (some t, ⟨some t⟩) := by
  rw [take, h]

theorem take_of_no_next? (h : s.next? now = none) : s.take now = (none, s) := by
  rw [take, h]

theorem take_fst (s : Stamps) (now : Instant) : (s.take now).1 = s.next? now := by
  rw [take]
  split
  · next h => exact h.symm
  · next h => exact h.symm

/-- What a source answers to readings of the clock, one after the other. -/
def given : Stamps → List Instant → List (Option Instant)
  | _, [] => []
  | s, now :: readings => (s.take now).1 :: (s.take now).2.given readings

/-- The source after that. -/
def after (s : Stamps) (readings : List Instant) : Stamps :=
  readings.foldl (fun s now ↦ (s.take now).2) s

theorem length_given (s : Stamps) (readings : List Instant) :
    (s.given readings).length = readings.length := by
  induction readings generalizing s with
  | nil => rfl
  | cons now readings ih => exact congrArg Nat.succ (ih _)

theorem take_given (s : Stamps) (readings : List Instant) (n : Nat) :
    (s.given readings).take n = s.given (readings.take n) := by
  induction readings generalizing s n with
  | nil => simp [given]
  | cons now readings ih =>
    cases n with
    | zero => rfl
    | succ n => exact congrArg (List.cons _) (ih _ n)

/-- Each answer is that of the source as the answers before have left it. -/
theorem getElem?_given (s : Stamps) (readings : List Instant) (n : Nat) :
    (s.given readings)[n]? = (readings[n]?).map fun now ↦ (s.after (readings.take n)).next? now := by
  induction readings generalizing s n with
  | nil => rfl
  | cons now readings ih =>
    cases n with
    | zero => exact congrArg some (s.take_fst now)
    | succ n => exact ih _ n

/-- The last timestamp of a source is the last one that it has given. -/
theorem last_after (s : Stamps) (readings : List Instant) :
    (s.after readings).last = ((s.given readings).reduceOption.getLast?).or s.last := by
  induction readings generalizing s with
  | nil => rfl
  | cons now readings ih =>
    refine (ih (s.take now).2).trans ?_
    rw [given]
    cases hnext : s.next? now with
    | none => rw [take_of_no_next? hnext, List.reduceOption_cons_of_none]
    | some t =>
      rw [take_of_next? hnext, List.reduceOption_cons_of_some, List.getLast?_cons]
      cases (given ⟨some t⟩ readings).reduceOption.getLast? <;> rfl

/-- **Timestamps go up**, whatever the clock says. -/
theorem pairwise_given (s : Stamps) (readings : List Instant) :
    (s.given readings).reduceOption.Pairwise (· < ·) ∧
      ∀ t ∈ (s.given readings).reduceOption, s.Before t := by
  induction readings generalizing s with
  | nil => exact ⟨.nil, fun t ht ↦ by cases ht⟩
  | cons now readings ih =>
    obtain ⟨hrest, hafter⟩ := ih (s.take now).2
    rw [given]
    cases hnext : s.next? now with
    | none =>
      rw [take_of_no_next? hnext] at hrest hafter ⊢
      rw [List.reduceOption_cons_of_none]
      exact ⟨hrest, hafter⟩
    | some t =>
      rw [take_of_next? hnext] at hrest hafter ⊢
      rw [List.reduceOption_cons_of_some]
      have hbefore : s.Before t := fun last hlast ↦ last_lt_of_next? hlast hnext
      have hlater : ∀ u ∈ (given ⟨some t⟩ readings).reduceOption, t < u :=
        fun u hu ↦ hafter u hu t rfl
      refine ⟨.cons hlater hrest, fun u hu ↦ ?_⟩
      obtain rfl | hu := List.mem_cons.mp hu
      · exact hbefore
      · exact fun last hlast ↦ Int.lt_trans (hbefore last hlast) (hlater u hu)

/-- No timestamp is earlier than the reading that it is given for. -/
theorem le_of_mem_zip_given {s : Stamps} {readings : List Instant} {now t : Instant}
    (h : (now, some t) ∈ readings.zip (s.given readings)) : now ≤ t := by
  obtain ⟨n, hn⟩ := List.mem_iff_getElem?.mp h
  rw [List.getElem?_zip_eq_some, getElem?_given] at hn
  obtain ⟨hnow, hgiven⟩ := hn
  dsimp only at hnow hgiven
  rw [hnow] at hgiven
  exact le_of_next? (Option.some.inj hgiven)

/-- A new source gives no timestamp just where the last one that it has given leaves no room. -/
theorem given_eq_none_iff (readings : List Instant) (n : Nat) :
    (given {} readings)[n]? = some none ↔ ∃ now last, readings[n]? = some now ∧
      ((given {} readings).take n).reduceOption.getLast? = some last ∧ now ≤ last ∧
        last.IsLast := by
  have hlast : (after {} (readings.take n)).last =
      ((given {} readings).take n).reduceOption.getLast? := by
    rw [last_after, take_given, Option.or_none]
  rw [getElem?_given]
  simp only [Option.map_eq_some_iff, next?_eq_none_iff, hlast, exists_and_left]

/-- In the last tick of time a clock that stands still gets one timestamp, and no other. -/
example :
    let t : Instant := ⟨.last, 23, 59, 59, 999999900, by decide⟩
    given {} [t, t, t] = [some t, none, none] := by
  decide

end Stamps

/-! ## The commands of a client -/

namespace Situation

theorem underWay_step_subset (s : Situation) (act : Act) :
    (s.step act).underWay ⊆ s.underWay ++ (s.issue? act).toList := fun _ hmem ↦
  (s.underWay_step act).subset (List.mem_append_right _ hmem)

/-- What an act brings forward is a command that is under way or issued then. -/
theorem mem_of_progress? {s : Situation} {act : Act} {command : Command} {progress : Progress}
    (h : s.progress? act = some (command, progress)) :
    command ∈ s.underWay ++ (s.issue? act).toList ∧
      ∀ a, progress = .waiting a → a.command = command := by
  cases act with
  | event e => cases h
  | answer place answer now =>
    obtain ⟨a, hplace, hsame⟩ := Option.map_eq_some_iff.mp h
    cases hsame
    exact ⟨List.mem_append_left _ (List.mem_map_of_mem (List.mem_of_getElem? hplace)),
      fun a' ↦ Client.command_of_resume⟩
  | call call now seed =>
    obtain ⟨command', hcommand, hsame⟩ := Option.map_eq_some_iff.mp h
    cases hsame
    exact ⟨List.mem_append_right _ (Option.mem_toList.mpr hcommand),
      fun a ↦ Client.command_of_begin hcommand⟩

theorem mem_issued_of_course {s : Situation} {acts : List Act} {command : Command}
    {progress : Progress} (h : (command, progress) ∈ s.course acts) :
    command ∈ s.underWay ++ s.issued acts ∧ ∀ a, progress = .waiting a → a.command = command := by
  induction acts generalizing s with
  | nil => cases h
  | cons act acts ih =>
    rw [issued, ← List.append_assoc]
    obtain hfirst | hrest := List.mem_append.mp h
    · exact (mem_of_progress? (Option.mem_toList.mp hfirst)).imp_left (List.mem_append_left _)
    · obtain ⟨hmem, hsame⟩ := ih hrest
      refine ⟨?_, hsame⟩
      obtain hbefore | hlater := List.mem_append.mp hmem
      · exact List.mem_append_left _ (s.underWay_step_subset act hbefore)
      · exact List.mem_append_right _ hlater

/-- What servers are tried with was under way before or is issued in the run. -/
theorem mem_issued_of_tried {s : Situation} {acts : List Act} {command : Command} {server : Peer}
    (h : (command, server) ∈ tried (s.course acts)) : command ∈ s.underWay ++ s.issued acts := by
  obtain ⟨⟨command', progress⟩, hcourse, htried⟩ := List.mem_filterMap.mp h
  obtain ⟨hmem, hcommand⟩ := mem_issued_of_course hcourse
  cases progress with
  | finished result => cases htried
  | waiting a =>
    cases htried
    rwa [hcommand a rfl]

/-- **Timestamps go up.**  Ask one source of timestamps again and again, whatever readings of the
clock it is asked with.  Then

* each question is answered, with a timestamp or with none;
* the timestamps go up, also past the questions that were answered with none;
* no timestamp is earlier than the reading that it was given for;
* none is given just where the reading is not later than the last timestamp, and a tick after that
  cannot be represented.

So, of a client that is made, called, answered and told of events in any order,

* all commands have timestamps, and these go up in the order in which the calls were made;
* what the servers are tried with are these commands. -/
theorem ascends_of_run (readings : List Instant) (settings : Settings) (clock : Clock)
    (roster : Roster) (acts : List Act) :
    let given := Stamps.given {} readings
    let s := start settings clock roster
    (given.length = readings.length ∧
      given.reduceOption.Pairwise (· < ·) ∧
      (∀ now t, (now, some t) ∈ readings.zip given → now ≤ t) ∧
      ∀ n : Nat, given[n]? = some none ↔ ∃ now last, readings[n]? = some now ∧
        (given.take n).reduceOption.getLast? = some last ∧ now ≤ last ∧ last.IsLast) ∧
    (s.issued acts).Pairwise Command.IsBefore ∧
    (∀ command ∈ s.issued acts, command.timestamp.isSome) ∧
    ∀ command server, (command, server) ∈ tried (s.course acts) → command ∈ s.issued acts := by
  intro given s
  obtain ⟨hpairwise, htimed⟩ := s.pairwise_issued acts
  refine ⟨⟨Stamps.length_given _ _, (Stamps.pairwise_given _ _).1,
    fun now t ↦ Stamps.le_of_mem_zip_given, Stamps.given_eq_none_iff readings⟩, hpairwise,
    fun command hmem ↦ ?_, fun command server hmem ↦ ?_⟩
  · obtain ⟨t, htime, -⟩ := htimed command hmem
    exact Option.isSome_of_eq_some htime
  · exact mem_issued_of_tried hmem

end Situation

end Directory

end ServiceBus
