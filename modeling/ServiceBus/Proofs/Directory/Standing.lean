import Mathlib.Data.List.Perm.Basic
import ServiceBus.Proofs.Directory.Commands
import ServiceBus.Proofs.Directory.Timestamps

/-!
# What the standing of a client follows

A call that returns sets the standing of its client, or leaves it (`Return.leaves`).  Calls may
overlap, and then they need not return in the order in which they have issued their commands.  The
standing goes by the order of the returns (`Situation.standing_of_run`), while the directory goes by
the timestamps of the commands, which is the order of issue.

So a client can end unregistered although its last command was to register, and was taken
(`Situation.standing_refusedLate`).  The two orders lead to the same standing if the last call to set
it has the latest timestamp among those that do, and so they do if no calls overlap.
-/

set_option autoImplicit false

namespace ServiceBus.Directory

/-- A command was issued at an earlier time than another. -/
def Command.IsBefore (command command' : Command) : Prop :=
  ∃ t t', command.timestamp = some t ∧ command'.timestamp = some t' ∧ t < t'

theorem Command.IsBefore.asymm {command command' : Command} (h : command.IsBefore command') :
    ¬ command'.IsBefore command := by
  rintro ⟨u', u, hu', hu, hlt'⟩
  obtain ⟨t, t', ht, ht', hlt⟩ := h
  obtain rfl := Option.some.inj (ht.symm.trans hu)
  obtain rfl := Option.some.inj (ht'.symm.trans hu')
  rw [Instant.lt_iff_rank] at hlt hlt'
  omega

namespace Return

/-! ## What calls set when they return -/

/-- The standing after a call has returned, given that before. -/
def leaves (before : Standing) (r : Return) : Standing := (r.command.sets? r.result).getD before

/-- The call sets the standing when it returns. -/
def Decides (r : Return) : Prop := (r.command.sets? r.result).isSome

/-- The command of the call was issued before that of another. -/
def IsBefore (r r' : Return) : Prop := r.command.IsBefore r'.command

theorem leaves_of_not_decides {r : Return} (h : ¬ r.Decides) (before : Standing) :
    leaves before r = before := by
  rw [leaves, Option.not_isSome_iff_eq_none.mp h]
  rfl

theorem leaves_of_decides {r : Return} (h : r.Decides) (before before' : Standing) :
    leaves before r = leaves before' r := by
  obtain ⟨standing, hstanding⟩ := Option.isSome_iff_exists.mp h
  rw [leaves, leaves, hstanding]
  rfl

theorem foldl_leaves_of_none {rs : List Return} (h : ∀ r ∈ rs, ¬ r.Decides) (before : Standing) :
    rs.foldl leaves before = before := by
  induction rs with
  | nil => rfl
  | cons r rs ih =>
    rw [List.foldl_cons, leaves_of_not_decides (h r List.mem_cons_self)]
    exact ih fun r' hr' ↦ h r' (List.mem_cons_of_mem _ hr')

/-- The last call that sets the standing decides. -/
theorem foldl_leaves_of_last {last : Return} (hlast : last.Decides) {late : List Return}
    (hlate : ∀ r ∈ late, ¬ r.Decides) (early : List Return) (before : Standing) :
    (early ++ last :: late).foldl leaves before = leaves before last := by
  rw [List.foldl_append, List.foldl_cons, foldl_leaves_of_none hlate]
  exact leaves_of_decides hlast _ _

theorem exists_last_or (rs : List Return) :
    (∀ r ∈ rs, ¬ r.Decides) ∨ ∃ early last late, rs = early ++ last :: late ∧ last.Decides ∧
      ∀ r ∈ late, ¬ r.Decides := by
  induction rs with
  | nil => exact Or.inl fun r hr ↦ by cases hr
  | cons r rs ih =>
    obtain hnone | ⟨early, last, late, rfl, hlast, hlate⟩ := ih
    · by_cases hr : r.Decides
      · exact Or.inr ⟨[], r, rs, rfl, hr, hnone⟩
      · exact Or.inl fun r' hr' ↦ (List.mem_cons.mp hr').elim (· ▸ hr) (hnone r')
    · exact Or.inr ⟨r :: early, last, late, rfl, hlast, hlate⟩

/-- The order of the returns and that of the timestamps lead to the same standing, if of those that
set it the last to return has the latest timestamp. -/
theorem foldl_leaves_of_latest {rs sorted : List Return} (hperm : sorted.Perm rs)
    (hsorted : sorted.Pairwise IsBefore)
    (hlatest : ∀ early last late, rs = early ++ last :: late → last.Decides →
      (∀ r ∈ late, ¬ r.Decides) → ∀ r ∈ early, r.Decides → r.IsBefore last)
    (before : Standing) : sorted.foldl leaves before = rs.foldl leaves before := by
  obtain hnone | ⟨early, last, late, hrs, hlast, hlate⟩ := exists_last_or rs
  · rw [foldl_leaves_of_none hnone, foldl_leaves_of_none fun r hr ↦ hnone r (hperm.mem_iff.mp hr)]
  · have hmem : last ∈ sorted := hperm.mem_iff.mpr (by simp [hrs])
    obtain ⟨early', late', rfl⟩ := List.append_of_mem hmem
    have hlate' : ∀ r ∈ late', ¬ r.Decides := fun r hr hdecides ↦ by
      have hafter : last.IsBefore r :=
        List.rel_of_pairwise_cons (List.pairwise_append.mp hsorted).2.1 hr
      have hback : r ∈ early ++ last :: late := hrs ▸ hperm.mem_iff.mp (by simp [hr])
      obtain hearly | hrest := List.mem_append.mp hback
      · exact hafter.asymm (hlatest early last late hrs hlast hlate r hearly hdecides)
      · obtain rfl | hin := List.mem_cons.mp hrest
        · exact hafter.asymm hafter
        · exact hlate r hin hdecides
    rw [hrs, foldl_leaves_of_last hlast hlate, foldl_leaves_of_last hlast hlate']

end Return

namespace Client

/-! ## What a client sets -/

theorem standing_handle (c : Client) (e : Event) : (c.handle e).1.standing = c.standing := by
  rw [handle]
  cases c.held <;> rfl

theorem command_of_tryNext {c : Client} {command : Command} {selection rest : List Peer}
    {a : Attempt} (h : (c.tryNext command selection rest).2.2 = .waiting a) :
    a.command = command := by
  cases rest with
  | cons server rest =>
    cases h
    rfl
  | nil =>
    rw [tryNext_nil] at h
    cases h

/-- The standing when a call has gone on is what its end sets, or that before. -/
theorem standing_resume (c : Client) (a : Attempt) (answer : Answer) (now : Nat) :
    (c.resume a answer now).1.standing =
      (((c.resume a answer now).2.2.result?).bind a.command.sets?).getD c.standing := by
  cases htaken : a.command.isTaken answer with
  | true =>
    obtain ⟨hprogress, -, hstanding⟩ := resume_of_taken (c := c) htaken now
    rw [hprogress, hstanding]
    rfl
  | false =>
    obtain ⟨notice, hfall⟩ := resume_of_refused (c := c) htaken now
    rw [hfall]
    exact standing_tryNext ..

theorem command_of_resume {c : Client} {a a' : Attempt} {answer : Answer} {now : Nat}
    (h : (c.resume a answer now).2.2 = .waiting a') : a'.command = a.command := by
  cases htaken : a.command.isTaken answer with
  | true =>
    rw [(resume_of_taken htaken now).1] at h
    cases h
  | false =>
    obtain ⟨notice, hfall⟩ := resume_of_refused (c := c) htaken now
    rw [hfall] at h
    exact command_of_tryNext h

/-- The standing when a call has begun is what its end sets, or that while it is going on. -/
theorem standing_begin_of_command {c : Client} {call : Call} {command : Command}
    (h : c.command? call = some command) (now seed : Nat) :
    (c.begin call now seed).1.standing =
      (((c.begin call now seed).2.2.result?).bind command.sets?).getD
        (call.standing c.standing) := by
  obtain ⟨notices, hbegin⟩ := begin_of_command h now seed
  rw [hbegin, ← c.standing_poised call now seed]
  exact standing_tryNext ..

theorem command_of_begin {c : Client} {call : Call} {command : Command} {now seed : Nat}
    {a : Attempt} (h : c.command? call = some command)
    (ha : (c.begin call now seed).2.2 = .waiting a) : a.command = command := by
  obtain ⟨notices, hbegin⟩ := begin_of_command h now seed
  rw [hbegin] at ha
  exact command_of_tryNext ha

/-- A command has the timestamp that the client takes for it. -/
theorem timestamp_of_command {c : Client} {call : Call} {command : Command}
    (h : c.command? call = some command) : ∃ t, c.stamp.1 = some t ∧ command.timestamp = some t := by
  cases call with
  | register self ss =>
    obtain ⟨t, hstamp, rfl⟩ := Option.map_eq_some_iff.mp h
    exact ⟨t, hstamp, hstamp⟩
  | update ss =>
    obtain ⟨self, -, h⟩ := Option.bind_eq_some_iff.mp h
    obtain ⟨t, hstamp, rfl⟩ := Option.map_eq_some_iff.mp h
    exact ⟨t, hstamp, rfl⟩
  | unregister =>
    obtain ⟨self, -, h⟩ := Option.bind_eq_some_iff.mp h
    obtain ⟨t, hstamp, rfl⟩ := Option.map_eq_some_iff.mp h
    exact ⟨t, hstamp, rfl⟩

theorem stamps_begin_of_command {c : Client} {call : Call} {command : Command}
    (h : c.command? call = some command) (now seed : Nat) :
    (c.begin call now seed).1.stamps = c.stamp.2.stamps := by
  obtain ⟨notices, hbegin⟩ := begin_of_command h now seed
  rw [hbegin]
  refine (stamps_tryNext ..).trans ?_
  cases call <;> rfl

end Client

namespace Situation

/-! ## What a run sets -/

/-- The standing is as told, or a registration is going on. -/
def Settled (s : Situation) (standing : Standing) : Prop :=
  s.client.standing = standing ∨ ∃ a ∈ s.waiting, ∃ d, a.command = .register d

/-- A call that has begun or gone on sets what it sets when it returns. -/
theorem settled_goOn {others : List Attempt} {outcome : Client × List Notice × Progress}
    {command : Command} {standing meanwhile : Standing}
    (hstanding : outcome.1.standing =
      ((outcome.2.2.result?).bind command.sets?).getD meanwhile)
    (hcommand : ∀ a, outcome.2.2 = .waiting a → a.command = command)
    (h : (meanwhile = standing ∨ ∃ a ∈ others, ∃ d, a.command = .register d) ∨
      ∃ d, command = .register d) :
    (goOn others outcome).Settled
      ((returned [(command, outcome.2.2)]).foldl Return.leaves standing) := by
  obtain ⟨c, notices, progress⟩ := outcome
  cases progress with
  | waiting a =>
    obtain (hsame | ⟨a', ha', hregister⟩) | ⟨d, rfl⟩ := h
    · exact Or.inl (hstanding.trans hsame)
    · exact Or.inr ⟨a', List.mem_append_left _ ha', hregister⟩
    · exact Or.inr ⟨a, List.mem_append_right _ (List.mem_singleton_self a), d, hcommand a rfl⟩
  | finished result =>
    have hset : c.standing = (command.sets? result).getD meanwhile := hstanding
    show Settled ⟨c, others⟩ ((command.sets? result).getD standing)
    cases hsets : command.sets? result with
    | some set =>
      rw [hsets] at hset
      exact Or.inl hset
    | none =>
      rw [hsets] at hset
      obtain (hsame | hother) | ⟨d, rfl⟩ := h
      · exact Or.inl (hset.trans hsame)
      · exact Or.inr hother
      · cases result <;> cases hsets

/-- A registration that begins gets a timestamp. -/
def Timely (s : Situation) (act : Act) : Prop :=
  ∀ self ss now seed, act = .call (.register self ss) now seed → s.client.stamp.1 ≠ none

theorem settled_step {s : Situation} {standing : Standing} (h : s.Settled standing) {act : Act}
    (htimely : s.Timely act) :
    (s.step act).Settled
      ((returned (s.progress? act).toList).foldl Return.leaves standing) := by
  cases act with
  | event e => exact h.imp_left (s.client.standing_handle e).trans
  | answer place answer now =>
    rw [step, progress?]
    cases hplace : s.waiting[place]? with
    | none => exact h
    | some a =>
      refine settled_goOn (s.client.standing_resume a answer now)
        (fun a' ↦ Client.command_of_resume) ?_
      obtain hsame | ⟨a', ha', d, hd⟩ := h
      · exact Or.inl (Or.inl hsame)
      · -- the registration that is going on is this call or another one
        obtain ⟨hlt, rfl⟩ := List.getElem?_eq_some_iff.mp hplace
        rw [← (List.getElem_cons_eraseIdx_perm hlt).mem_iff] at ha'
        obtain rfl | hother := List.mem_cons.mp ha'
        · exact Or.inr ⟨d, hd⟩
        · exact Or.inl (Or.inr ⟨a', hother, d, hd⟩)
  | call call now seed =>
    have hmeanwhile : call.standing s.client.standing = s.client.standing ∨
        ∃ self ss, call = .register self ss := by
      cases call with
      | register self ss => exact Or.inr ⟨self, ss, rfl⟩
      | _ => exact Or.inl rfl
    rw [step, progress?]
    cases hcommand : s.client.command? call with
    | none =>
      obtain ⟨failure, hprogress, -, -, hstanding⟩ := Client.begin_of_no_command hcommand now seed
      obtain hsame | ⟨self, ss, rfl⟩ := hmeanwhile
      · rw [goOn, hprogress]
        exact h.imp_left (hstanding.trans hsame).trans
      · exact absurd (Option.map_eq_none_iff.mp hcommand) (htimely self ss now seed rfl)
    | some command =>
      refine settled_goOn (Client.standing_begin_of_command hcommand now seed)
        (fun a ↦ Client.command_of_begin hcommand) ?_
      obtain hsame | ⟨self, ss, rfl⟩ := hmeanwhile
      · rw [hsame]
        exact Or.inl h
      · obtain ⟨t, -, hregister⟩ := Option.map_eq_some_iff.mp hcommand
        exact Or.inr ⟨_, hregister.symm⟩

theorem returned_append (course course' : List (Command × Progress)) :
    returned (course ++ course') = returned course ++ returned course' :=
  List.filterMap_append

/-- Once no registration is going on, the standing is what the calls have set, in the order in which
they have returned. -/
theorem settled_run {s : Situation} {standing : Standing} (h : s.Settled standing)
    {acts : List Act} (htimely : ∀ n act, acts[n]? = some act → (s.run (acts.take n)).Timely act) :
    (s.run acts).Settled ((returned (s.course acts)).foldl Return.leaves standing) := by
  induction acts generalizing s standing with
  | nil => exact h
  | cons act acts ih =>
    rw [course, returned_append, List.foldl_append]
    exact ih (settled_step h (htimely 0 act rfl)) fun n act' hact' ↦ htimely (n + 1) act' hact'

/-! ## The commands that a run issues -/

/-- The command that an act issues. -/
def issue? (s : Situation) : Act → Option Command
  | .call call _ _ => s.client.command? call
  | .answer _ _ _ => none
  | .event _ => none

/-- The commands that a run issues, in their order. -/
def issued : Situation → List Act → List Command
  | _, [] => []
  | s, act :: acts => (s.issue? act).toList ++ (s.step act).issued acts

theorem before_step {s : Situation} {act : Act} {t : Instant}
    (h : (s.step act).client.stamps.Before t) : s.client.stamps.Before t := by
  obtain ⟨-, hbefore⟩ | ⟨u, -, hbefore, hlast⟩ := s.stamps_step act
  · exact hbefore t h
  · exact fun last hlast' ↦ Int.lt_trans (hbefore last hlast') (h u hlast)

/-- A command that is issued has a timestamp after all before, and it is the last one then. -/
theorem timestamp_of_issue {s : Situation} {act : Act} {command : Command}
    (h : s.issue? act = some command) :
    ∃ t, command.timestamp = some t ∧ s.client.stamps.Before t ∧
      (s.step act).client.stamps.last = some t := by
  cases act with
  | answer place answer now => cases h
  | event e => cases h
  | call call now seed =>
    obtain ⟨t, hstamp, htime⟩ := Client.timestamp_of_command h
    obtain ⟨hbefore, hlast⟩ := Client.before_of_stamp hstamp
    refine ⟨t, htime, hbefore, ?_⟩
    rw [step, client_goOn, Client.stamps_begin_of_command h, hlast]

/-- **The timestamps of the commands go up** in the order in which they are issued. -/
theorem pairwise_issued (s : Situation) (acts : List Act) :
    (s.issued acts).Pairwise Command.IsBefore ∧
      ∀ command ∈ s.issued acts, ∃ t, command.timestamp = some t ∧ s.client.stamps.Before t := by
  induction acts generalizing s with
  | nil => exact ⟨.nil, fun command hmem ↦ by cases hmem⟩
  | cons act acts ih =>
    obtain ⟨hrest, hafter⟩ := ih (s.step act)
    have hlater : ∀ command ∈ (s.step act).issued acts,
        ∃ t, command.timestamp = some t ∧ s.client.stamps.Before t := fun command hmem ↦ by
      obtain ⟨t, htime, hbefore⟩ := hafter command hmem
      exact ⟨t, htime, before_step hbefore⟩
    rw [issued]
    cases hissue : s.issue? act with
    | none => exact ⟨hrest, hlater⟩
    | some command =>
      obtain ⟨t, htime, hbefore, hlast⟩ := timestamp_of_issue hissue
      refine ⟨.cons (fun command' hmem ↦ ?_) hrest, fun command' hmem ↦ ?_⟩
      · obtain ⟨t', htime', hbefore'⟩ := hafter command' hmem
        exact ⟨t, t', htime, htime', hbefore' t hlast⟩
      · obtain rfl | hmem := List.mem_cons.mp hmem
        · exact ⟨t, htime, hbefore⟩
        · exact hlater command' hmem

/-! ## Each command returns once -/

/-- The commands of the calls that wait. -/
def underWay (s : Situation) : List Command := s.waiting.map Attempt.command

/-- A call that has begun or gone on waits or has returned. -/
theorem underWay_goOn {others : List Attempt} {outcome : Client × List Notice × Progress}
    {command : Command} (hcommand : ∀ a, outcome.2.2 = .waiting a → a.command = command) :
    ((returned [(command, outcome.2.2)]).map Return.command ++ (goOn others outcome).underWay).Perm
      (others.map Attempt.command ++ [command]) := by
  obtain ⟨c, notices, progress⟩ := outcome
  cases progress with
  | waiting a =>
    rw [← hcommand a rfl]
    exact .of_eq List.map_append
  | finished result => exact List.perm_append_comm

/-- What was under way or is issued is under way then or has returned. -/
theorem underWay_step (s : Situation) (act : Act) :
    ((returned (s.progress? act).toList).map Return.command ++ (s.step act).underWay).Perm
      (s.underWay ++ (s.issue? act).toList) := by
  cases act with
  | event e => exact .of_eq (List.append_nil _).symm
  | answer place answer now =>
    rw [step, progress?, issue?]
    cases hplace : s.waiting[place]? with
    | none => exact .of_eq (List.append_nil _).symm
    | some a =>
      obtain ⟨hlt, rfl⟩ := List.getElem?_eq_some_iff.mp hplace
      refine (underWay_goOn fun a' ↦ Client.command_of_resume).trans ?_
      rw [Option.toList_none, List.append_nil]
      exact List.perm_append_comm.trans ((List.getElem_cons_eraseIdx_perm hlt).map _)
  | call call now seed =>
    rw [step, progress?, issue?]
    cases hcommand : s.client.command? call with
    | some command => exact underWay_goOn fun a ↦ Client.command_of_begin hcommand
    | none =>
      obtain ⟨failure, hprogress, -⟩ := Client.begin_of_no_command hcommand now seed
      rw [goOn, hprogress]
      exact .of_eq (List.append_nil _).symm

/-- Every command that is issued returns once, or is under way in the end. -/
theorem underWay_run (s : Situation) (acts : List Act) :
    ((returned (s.course acts)).map Return.command ++ (s.run acts).underWay).Perm
      (s.underWay ++ s.issued acts) := by
  induction acts generalizing s with
  | nil => exact .of_eq (List.append_nil _).symm
  | cons act acts ih =>
    rw [course, issued, returned_append, List.map_append, List.append_assoc]
    refine ((ih (s.step act)).append_left _).trans ?_
    rw [← List.append_assoc, ← List.append_assoc]
    exact (s.underWay_step act).append_right _

/-- A call that begins is the only one then. -/
def Alone (s : Situation) (act : Act) : Prop :=
  ∀ call now seed, act = .call call now seed → s.waiting = []

theorem underWay_step_of_alone {s : Situation} (hone : s.waiting.length ≤ 1) {act : Act}
    (halone : s.Alone act) :
    (returned (s.progress? act).toList).map Return.command ++ (s.step act).underWay =
        s.underWay ++ (s.issue? act).toList ∧
      (s.step act).waiting.length ≤ 1 := by
  have hlength : (s.underWay ++ (s.issue? act).toList).length ≤ 1 := by
    rw [List.length_append, underWay, List.length_map]
    cases act with
    | call call now seed =>
      rw [halone call now seed rfl, issue?]
      cases s.client.command? call <;> simp
    | _ => exact hone
  have hsame := s.underWay_step act
  have heq : (returned (s.progress? act).toList).map Return.command ++ (s.step act).underWay =
      s.underWay ++ (s.issue? act).toList := by
    -- a list with at most one element has no other order
    match hall : s.underWay ++ (s.issue? act).toList with
    | [] => exact List.perm_nil.mp (hall ▸ hsame)
    | [command] => exact List.perm_singleton.mp (hall ▸ hsame)
    | _ :: _ :: _ => simp [hall] at hlength
  refine ⟨heq, ?_⟩
  have hle := heq ▸ hlength
  rw [List.length_append, underWay, List.length_map, List.length_map] at hle
  omega

/-- Calls that do not overlap return in the order in which they have issued their commands. -/
theorem underWay_run_of_alone {s : Situation} (hone : s.waiting.length ≤ 1) {acts : List Act}
    (halone : ∀ n act, acts[n]? = some act → (s.run (acts.take n)).Alone act) :
    (returned (s.course acts)).map Return.command ++ (s.run acts).underWay =
      s.underWay ++ s.issued acts := by
  induction acts generalizing s with
  | nil => exact (List.append_nil _).symm
  | cons act acts ih =>
    obtain ⟨hact, hone'⟩ := underWay_step_of_alone hone (halone 0 act rfl)
    have hrest := ih hone' fun n act' hact' ↦ halone (n + 1) act' hact'
    rw [course, issued, returned_append, List.map_append, List.append_assoc]
    refine (congrArg _ hrest).trans ?_
    rw [← List.append_assoc, hact, List.append_assoc]

/-! ## Which order the standing follows -/

/-- **The standing follows the order in which the calls return.**  Take a client none of whose calls
is going on.  Let calls be made, events come in and servers answer, in any order, each registration
get a timestamp, and in the end all calls have returned.  Then

* the standing is what the calls that had issued a command have set, one after the other in the order
  in which they have returned;
* each command that was issued has returned once, and their timestamps go up in the order of issue;
* taken in the order of their timestamps, the calls lead to the same standing if, of those that set
  it, the last to return has the latest timestamp;
* and if no calls overlap, the order in which they return is that of their timestamps. -/
theorem standing_of_run {s : Situation} (hidle : s.waiting = []) {acts : List Act}
    (htimely : ∀ n act, acts[n]? = some act → (s.run (acts.take n)).Timely act)
    (hreturned : (s.run acts).waiting = []) :
    let returns := returned (s.course acts)
    (s.run acts).client.standing = returns.foldl Return.leaves s.client.standing ∧
    ((returns.map Return.command).Perm (s.issued acts) ∧
      (s.issued acts).Pairwise Command.IsBefore) ∧
    (∀ sorted : List Return, sorted.Perm returns → sorted.Pairwise Return.IsBefore →
      (∀ early last late, returns = early ++ last :: late → last.Decides →
        (∀ r ∈ late, ¬ r.Decides) → ∀ r ∈ early, r.Decides → r.IsBefore last) →
      (s.run acts).client.standing = sorted.foldl Return.leaves s.client.standing) ∧
    ((∀ n act, acts[n]? = some act → (s.run (acts.take n)).Alone act) →
      returns.Pairwise Return.IsBefore) := by
  intro returns
  have hstanding : (s.run acts).client.standing =
      returns.foldl Return.leaves s.client.standing := by
    obtain hstanding | ⟨a, ha, -⟩ := settled_run (s := s) (Or.inl rfl) htimely
    · exact hstanding
    · rw [hreturned] at ha
      cases ha
  have hstart : s.underWay = [] := congrArg (List.map Attempt.command) hidle
  have hend : (s.run acts).underWay = [] := congrArg (List.map Attempt.command) hreturned
  refine ⟨hstanding, ⟨?_, (s.pairwise_issued acts).1⟩, fun sorted hperm hsorted hlatest ↦ ?_,
    fun halone ↦ ?_⟩
  · have hall := s.underWay_run acts
    rwa [hstart, hend, List.append_nil, List.nil_append] at hall
  · rw [hstanding, Return.foldl_leaves_of_latest hperm hsorted hlatest]
  · have hall := underWay_run_of_alone (by rw [hidle]; exact Nat.zero_le 1) halone
    rw [hstart, hend, List.append_nil, List.nil_append] at hall
    exact .of_map Return.command (fun _ _ ↦ id) (hall ▸ (s.pairwise_issued acts).1)

/-- The local peer registers, and leaves. -/
def registersAndLeaves : List Act :=
  registers [] ++ [.call .unregister 0 0, .answer 0 (.replied 0 none) 0]

/-- The last to return has left. -/
theorem standing_registersAndLeaves :
    (withServer.run registersAndLeaves).client.standing = .unregistered := by
  refine (standing_of_run rfl (fun n act hact ↦ ?_) (by with_unfolding_all rfl)).1.trans
    (by with_unfolding_all rfl)
  rintro self ss now seed rfl
  match n with
  | 0 => decide
  | 1 | 2 | 3 => cases hact
  | n + 4 => cases hact

/-- The local peer registers twice at the same time; the second registration is taken, and then the
first one is refused. -/
def refusedLate : List Act :=
  [.call (.register ⟨⟨"Abc.Self.0"⟩, 0⟩ []) 0 0, .call (.register ⟨⟨"Abc.Self.0"⟩, 0⟩ []) 0 0,
    .answer 1 (.replied 0 (some [])) 0, .answer 0 (.replied 1 none) 0]

/-- **The standing need not follow the timestamps.**  Of two registrations that have returned, the
one with the later timestamp has succeeded.  But the client is unregistered. -/
theorem standing_refusedLate :
    (withServer.run refusedLate).waiting = [] ∧
    (withServer.run refusedLate).client.standing = .unregistered ∧
    ∃ sorted : List Return, sorted.Perm (returned (withServer.course refusedLate)) ∧
      sorted.Pairwise Return.IsBefore ∧
      sorted.foldl Return.leaves withServer.client.standing = .registered := by
  have hissued : (returned (withServer.course refusedLate)).reverse.map Return.command =
      withServer.issued refusedLate := by
    with_unfolding_all rfl
  exact ⟨by with_unfolding_all rfl, by with_unfolding_all rfl,
    (returned (withServer.course refusedLate)).reverse, List.reverse_perm _,
    .of_map Return.command (fun _ _ ↦ id) (hissued ▸ (withServer.pairwise_issued refusedLate).1),
    by with_unfolding_all rfl⟩

end Situation

end ServiceBus.Directory
