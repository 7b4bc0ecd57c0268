import ServiceBus.Envelope
import ServiceBus.Proofs.Wire.Instants
import ServiceBus.Proofs.Wire.Values

/-!
# What is written is read back, form by form

On its way through JSON a value *becomes* another one: what is written for the first is sound JSON
and is read as the second (`JsonForm.Becomes`).  A form is lawful if every value becomes itself
(`LawfulJsonForm`).  Being lawful is proved here once for each way to make a form, so that the form
of a new type is lawful by its definition alone: texts, numbers, lists, values that may be missing,
and records.

A record is read by the names of its parts, and a part that was not written is missing.  What the
parts are is `Json.parts?_ofMembers`, for any list of members without repeated names; a key that is
not joined, where one part is left out, is an instance like the others.

An envelope is the one form that is not lawful.  The mark that a message was replayed is not
written, and comes back as not set (`JsonForm.becomes_envelope`).
-/

set_option autoImplicit false

namespace ServiceBus

/-! ## Lawful forms -/

/-- What is written for the value `a` is sound JSON, and is read as the value `b`. -/
structure JsonForm.Becomes {α : Type} [JsonForm α] (a b : α) : Prop where
  sound : (write a).Sound
  read_write : read (write a) = some b

/-- A form from which every value is read as it was written. -/
class LawfulJsonForm (α : Type) [JsonForm α] : Prop where
  becomes : ∀ a : α, JsonForm.Becomes a a

namespace JsonForm

export LawfulJsonForm (becomes)

variable {α : Type} [JsonForm α]

theorem Becomes.decode_encode {a b : α} (h : Becomes a b) : decode (encode a) = some b := by
  rw [decode, encode, Json.ofOctets?_octets h.sound, Option.bind_some, h.read_write]

end JsonForm

/-! ## Texts and numbers -/

namespace Json

theorem text?_ofText (text : String) : (ofText text).text? = some text :=
  readString?_writtenString text

theorem ofText_ne_null (text : String) : ofText text ≠ .null := by
  intro h
  rw [ofText] at h
  cases h

theorem digits?_plain (n : Nat) : digits? (Digits.plain n) = some n := by
  have hlength : Digits.count n ≤ (Digits.plain n).length := by
    rw [Digits.plain, Digits.length_fixed]
  have hread := Digits.read?_plain hlength Digits.stops_nil
  rw [List.append_nil] at hread
  rw [digits?, hread]

theorem int?_ofNat (n : Nat) : (ofNat n).int? = some (n : Int) := by
  -- The digits have no sign in front, so they are read as they are.
  obtain ⟨width, hwidth⟩ : ∃ width, Digits.count n = width + 1 :=
    ⟨Digits.count n - 1, (Nat.sub_add_cancel (Digits.count_pos n)).symm⟩
  obtain ⟨c, cs, hcs, hc⟩ := Digits.exists_fixed_eq_cons width n
  have hplain : Digits.plain n = c :: cs := by rw [Digits.plain, hwidth, hcs]
  have hdigits := digits?_plain n
  rw [hplain] at hdigits
  rw [ofNat, hplain, int?]
  · rw [hdigits]
    rfl
  · intro cs' hsign
    cases (List.cons.inj hsign).1
    exact absurd hc (by decide)

theorem intBetween?_ofNat {n : Nat} {least most : Int} (h : least ≤ n ∧ (n : Int) ≤ most) :
    (ofNat n).intBetween? least most = some (n : Int) := by
  rw [intBetween?, int?_ofNat, Option.bind_eq_bind, Option.bind_some, if_pos h]

end Json

/-! ## Records -/

namespace Json

theorem mapM_map {α β : Type} {f : α → β} {g : β → Option α} (h : ∀ a, g (f a) = some a)
    (as : List α) : (as.map f).mapM g = some as := by
  induction as with
  | nil => rfl
  | cons a as ih => rw [List.map_cons, List.mapM_cons, h, ih]; rfl

theorem mapM_eq_map {α β : Type} {f : α → Option β} {g : α → β} (as : List α)
    (h : ∀ a, f a = some (g a)) : as.mapM f = some (as.map g) := by
  induction as with
  | nil => rfl
  | cons a as ih => rw [List.mapM_cons, h, ih]; rfl

/-- Where no name comes twice, at most one member has the name. -/
theorem membersNamed_of_nodup (name : String) {members : List (String × Json)}
    (h : (members.map Prod.fst).Nodup) :
    membersNamed name members = (members.lookup name).toList := by
  induction members with
  | nil => rfl
  | cons m members ih =>
    obtain ⟨name', value⟩ := m
    obtain ⟨hnot, hrest⟩ := List.nodup_cons.mp h
    have hrest' := ih hrest
    by_cases hname : name = name'
    · subst hname
      have hnone : members.lookup name = none :=
        List.lookup_eq_none_iff.mpr fun m hm ↦ by
          simpa using fun heq : name = m.1 ↦ hnot (List.mem_map.mpr ⟨m, hm, heq.symm⟩)
      rw [hnone, membersNamed] at hrest'
      rw [membersNamed, List.filter_cons_of_pos (by simp), List.map_cons, hrest',
        List.lookup_cons_self]
      rfl
    · rw [membersNamed] at hrest' ⊢
      rw [List.filter_cons_of_neg (by simpa using Ne.symm hname), hrest', List.lookup_cons,
        beq_eq_false_iff_ne.mpr hname]

/-- **The parts of an object are the values that were written under their names**, and those under
whose names nothing was written are missing. -/
theorem parts?_ofMembers (needed : Nat) (names : List String) {members : List (String × Json)}
    (h : (members.map Prod.fst).Nodup) :
    (ofMembers members).parts? needed names =
      some (names.map fun name ↦ members.lookup name) := by
  rw [ofMembers, parts?, mapM_map, Option.bind_eq_bind, Option.bind_some]
  · refine mapM_eq_map names fun name ↦ ?_
    rw [membersNamed_of_nodup name h]
    cases members.lookup name <;> rfl
  · exact fun m ↦ congrArg (Option.map fun name ↦ (name, m.2)) (readString?_writtenString m.1)

theorem lookup_of_mem {members : List (String × Json)} (h : (members.map Prod.fst).Nodup)
    {m : String × Json} (hm : m ∈ members) : members.lookup m.1 = some m.2 := by
  induction members with
  | nil => cases hm
  | cons m' members ih =>
    obtain ⟨hnot, hrest⟩ := List.nodup_cons.mp h
    cases hm with
    | head => exact List.lookup_cons_self
    | tail _ hm =>
      have hne : m.1 ≠ m'.1 := fun heq ↦ hnot (List.mem_map.mpr ⟨m, hm, heq⟩)
      rw [List.lookup_cons, beq_eq_false_iff_ne.mpr hne]
      exact ih hrest hm

/-- A record that was written with all of its parts has them. -/
theorem record?_ofMembers {names : List String} {members : List (String × Json)}
    (hnames : members.map Prod.fst = names) (h : names.Nodup) :
    (ofMembers members).record? names = some (members.map fun m ↦ some m.2) := by
  subst hnames
  rw [record?, parts?_ofMembers _ _ h, List.map_map]
  exact congrArg some (List.map_congr_left fun m hm ↦ lookup_of_mem h hm)

end Json

/-! ## Ways to make a form -/

namespace JsonForm

open Json

variable {α β γ δ : Type}

theorem Becomes.ofText {text : α → String} {ofText? : String → Option α} {a b : α}
    (h : ofText? (text a) = some b) : @Becomes α (.ofText text ofText?) a b := by
  refine @Becomes.mk α (.ofText text ofText?) a b (sound_ofText (text a)) ?_
  show (Json.ofText (text a)).text?.bind ofText? = some b
  rw [text?_ofText, Option.bind_some, h]

theorem Becomes.ofNull {only a : α} (h : only = a) : @Becomes α (.ofNull only) a a :=
  @Becomes.mk α (.ofNull only) a a sound_null (congrArg some h)

variable [JsonForm β] [JsonForm γ] [JsonForm δ] {a a' : α} {b : β} {c : γ} {d : δ}

theorem Becomes.ofPart {name : String} {get : α → β} {make : β → α} (h : Becomes (get a) b)
    (hmake : make b = a') : @Becomes α (.ofPart name get make) a a' := by
  refine @Becomes.mk α (.ofPart name get make) a a' (sound_ofMembers (by simpa using h.sound)) ?_
  dsimp +instances only [JsonForm.ofPart]
  rw [record?_ofMembers ?_ (List.pairwise_singleton _ name)]
  · simp [need, h.read_write, hmake]
  · rfl

theorem Becomes.ofParts₂ {name name' : String} {get : α → β × γ} {make : β → γ → α}
    (h : Becomes (get a).1 b) (h' : Becomes (get a).2 c) (hmake : make b c = a')
    (hnames : [name, name'].Nodup) : @Becomes α (.ofParts₂ name name' get make) a a' := by
  refine @Becomes.mk α (.ofParts₂ name name' get make) a a'
    (sound_ofMembers (by simpa using ⟨h.sound, h'.sound⟩)) ?_
  dsimp +instances only [JsonForm.ofParts₂]
  rw [record?_ofMembers ?_ hnames]
  · simp [need, h.read_write, h'.read_write, hmake]
  · rfl

theorem Becomes.ofParts₃ {name name' name'' : String} {get : α → β × γ × δ} {make : β → γ → δ → α}
    (h : Becomes (get a).1 b) (h' : Becomes (get a).2.1 c) (h'' : Becomes (get a).2.2 d)
    (hmake : make b c d = a') (hnames : [name, name', name''].Nodup) :
    @Becomes α (.ofParts₃ name name' name'' get make) a a' := by
  refine @Becomes.mk α (.ofParts₃ name name' name'' get make) a a'
    (sound_ofMembers (by simpa using ⟨h.sound, h'.sound, h''.sound⟩)) ?_
  dsimp +instances only [JsonForm.ofParts₃]
  rw [record?_ofMembers ?_ hnames]
  · simp [need, h.read_write, h'.read_write, h''.read_write, hmake]
  · rfl

end JsonForm

/-! ## The basic types -/

namespace LawfulJsonForm

open Json JsonForm

instance : LawfulJsonForm String := ⟨fun _ ↦ .ofText rfl⟩

instance : LawfulJsonForm Bool := ⟨fun b ↦ ⟨sound_truth b, rfl⟩⟩

instance : LawfulJsonForm UInt8 where
  becomes n := by
    refine ⟨sound_ofNat n.toNat, ?_⟩
    show ((ofNat n.toNat).intBetween? 0 0xFF).map (fun m ↦ UInt8.ofNat m.toNat) = some n
    have hn : n.toNat < 256 := n.toNat_lt
    rw [intBetween?_ofNat (by omega)]
    simp

instance {α : Type} [JsonForm α] [LawfulJsonForm α] : LawfulJsonForm (List α) where
  becomes as := by
    refine ⟨sound_list fun item hitem ↦ ?_, ?_⟩
    · obtain ⟨a, -, rfl⟩ := List.mem_map.mp hitem
      exact (becomes a).sound
    · exact mapM_map (fun a ↦ (becomes a).read_write) as

theorem read_option {α : Type} [JsonForm α] {j : Json} (h : j ≠ .null) :
    (JsonForm.read j : Option (Option α)) = (JsonForm.read j).map some := by
  cases j with
  | null => exact absurd rfl h
  | truth | number | string | list | object => rfl

/-- A value that may be missing is lawful where no value is written as `null`. -/
theorem option {α : Type} [JsonForm α] [LawfulJsonForm α]
    (h : ∀ a : α, JsonForm.write a ≠ .null) : LawfulJsonForm (Option α) := by
  refine ⟨fun a? ↦ ?_⟩
  cases a? with
  | none => exact ⟨sound_null, rfl⟩
  | some a =>
    refine ⟨(becomes a).sound, (read_option (h a)).trans ?_⟩
    rw [(becomes a).read_write, Option.map_some]

instance : LawfulJsonForm (Option String) := option fun _ ↦ ofText_ne_null _

/-! ## The nouns of the bus -/

instance : LawfulJsonForm Uuid := ⟨fun u ↦ .ofText u.ofText?_text⟩

instance : LawfulJsonForm Instant := ⟨fun t ↦ .ofText t.ofText?_text⟩

instance : LawfulJsonForm (Option Instant) := option fun _ ↦ ofText_ne_null _

instance : LawfulJsonForm PeerId := ⟨fun _ ↦ .ofText rfl⟩

instance : LawfulJsonForm MessageType := ⟨fun _ ↦ .ofText rfl⟩

/-- A key that is not joined is written without saying so, and read as not joined. -/
instance : LawfulJsonForm Key where
  becomes k := by
    obtain ⟨parts, joined⟩ := k
    have hparts := becomes parts
    cases joined with
    | false =>
      have hpartsOf : (ofMembers [("parts", write parts)]).parts? 1 Key.partNames =
          some [some (write parts), none] :=
        parts?_ofMembers 1 Key.partNames (show ["parts"].Nodup by decide)
      refine ⟨sound_ofMembers (by simpa using hparts.sound), ?_⟩
      show ((ofMembers [("parts", write parts)]).parts? 1 Key.partNames).bind _ = _
      rw [hpartsOf]
      simp [need, needOr, hparts.read_write]
    | true =>
      have hpartsOf : (ofMembers [("parts", write parts), ("is_joined", .truth true)]).parts? 1
          Key.partNames = some [some (write parts), some (.truth true)] :=
        parts?_ofMembers 1 Key.partNames (show ["parts", "is_joined"].Nodup by decide)
      have hjoined : JsonForm.read (.truth true) = some true := rfl
      refine ⟨sound_ofMembers (by simpa using ⟨hparts.sound, sound_truth true⟩), ?_⟩
      show ((ofMembers [("parts", write parts), ("is_joined", .truth true)]).parts? 1
        Key.partNames).bind _ = _
      rw [hpartsOf]
      simp [need, needOr, hparts.read_write, hjoined]

instance : LawfulJsonForm Subscription :=
  ⟨fun _ ↦ .ofParts₂ (becomes _) (becomes _) rfl (by decide)⟩

instance : LawfulJsonForm Origin :=
  ⟨fun _ ↦ .ofParts₂ (becomes _) (becomes _) rfl (by decide)⟩

instance : LawfulJsonForm Peer where
  becomes p := by
    have hid := becomes p.id
    have hendPoint := becomes p.contact.endPoint
    have hup := becomes p.contact.up
    have hresponding := becomes p.contact.responding
    refine ⟨sound_ofMembers ?_, ?_⟩
    · simpa using ⟨hid.sound, hendPoint.sound, hup.sound, hresponding.sound⟩
    · show ((ofMembers _).record? Peer.partNames).bind _ = _
      rw [record?_ofMembers ?_ (by decide)]
      · simp [need, hid.read_write, hendPoint.read_write, hup.read_write, hresponding.read_write]
      · rfl

instance : LawfulJsonForm (Descriptor Peer) where
  becomes d := by
    have hpeer := becomes d.peer
    have hsubscriptions := becomes d.subscriptions
    have hpersistent := becomes d.persistent
    have htimestamp := becomes d.timestamp
    have hdebugged := becomes d.debugged
    refine ⟨sound_ofMembers ?_, ?_⟩
    · simpa using ⟨hpeer.sound, hsubscriptions.sound, hpersistent.sound, htimestamp.sound,
        hdebugged.sound⟩
    · show ((ofMembers _).record? Descriptor.partNames).bind _ = _
      rw [record?_ofMembers ?_ (by decide)]
      · simp [need, hpeer.read_write, hsubscriptions.read_write, hpersistent.read_write,
          htimestamp.read_write, hdebugged.read_write]
      · rfl

end LawfulJsonForm

/-! ## Envelopes -/

open Json JsonForm in
/-- **An envelope comes back without the mark that it was replayed**, and otherwise as it was. -/
theorem JsonForm.becomes_envelope (e : Envelope) : Becomes e { e with replayed := false } := by
  have hid := becomes e.id
  have htype := becomes e.type
  have hcontent := becomes e.content
  have horigin := becomes e.origin
  have hpersistent := becomes e.persistent
  have hpersisted := becomes e.persisted
  refine ⟨sound_ofMembers ?_, ?_⟩
  · simpa using ⟨hid.sound, htype.sound, hcontent.sound, horigin.sound, hpersistent.sound,
      hpersisted.sound⟩
  · show ((ofMembers _).record? Envelope.partNames).bind _ = _
    rw [record?_ofMembers ?_ (by decide)]
    · simp [need, hid.read_write, htype.read_write, hcontent.read_write, horigin.read_write,
        hpersistent.read_write, hpersisted.read_write]
    · rfl

end ServiceBus
