import ServiceBus.Json.Form
import ServiceBus.Proofs.Wire.Tokens

/-!
# Values are read back from their octets

The reader keeps what is still open on a stack.  The tokens of a value, read where a value is due,
complete this value and leave the stack as it was (`Reading.run?_tokens`); this needs nothing of the
value, so every value is read back from its tokens (`ofTokens?_tokens`).

For the octets the tokens have to be sound, and no number may run into its neighbour.  The second
always holds, because a number is followed by a comma or by the end of what it stands in.  So a
value is read back from its octets if its numbers and strings are sound (`ofOctets?_octets`).
-/

set_option autoImplicit false

namespace ServiceBus.Json

/-! ## Values from tokens -/

namespace Reading

theorem run?_cons (r : Reading) (t : Token) (ts : List Token) :
    r.run? (t :: ts) = (r.next? t).bind fun r' ↦ r'.run? ts := by
  rw [run?]
  cases r.next? t <;> rfl

/-- Behind the start of a list, what begins a value begins the first item. -/
theorem run?_listStart (item : Json) (items : List Json) (above : List Frame)
    (rest : List Token) :
    (listStart above).run? (itemTokens (item :: items) ++ rest) =
      (needValue (.list [] :: above)).run? (itemTokens (item :: items) ++ rest) := by
  obtain ⟨ts, hts⟩ : ∃ ts, itemTokens (item :: items) = item.tokens ++ ts := by
    cases items with
    | nil => exact ⟨[], by rw [itemTokens, List.append_nil]⟩
    | cons item' items => exact ⟨_, by rw [itemTokens]⟩
  rw [hts, List.append_assoc]
  cases item <;> simp only [tokens, List.cons_append, List.nil_append, run?_cons, next?]

/-- Behind the start of an object, a text is the name of the first member. -/
theorem run?_objectStart (member : Octets × Json) (members : List (Octets × Json))
    (above : List Frame) (rest : List Token) :
    (objectStart above).run? (memberTokens (member :: members) ++ rest) =
      (needName [] above).run? (memberTokens (member :: members) ++ rest) := by
  cases members <;> simp only [memberTokens, List.cons_append, run?_cons, next?]

mutual

theorem run?_tokens : ∀ (j : Json) (above : List Frame) (rest : List Token),
    (needValue above).run? (j.tokens ++ rest) = (close j above).run? rest
  | .null, _, _ | .truth _, _, _ | .number _, _, _ | .string _, _, _ => by
    simp only [tokens, List.cons_append, List.nil_append, run?_cons, next?, begin?,
      Option.bind_some]
  | .list items, above, rest => by
    have hitems := run?_itemTokens items
    rw [tokens, List.cons_append, List.cons_append, List.append_assoc, run?_cons, next?, begin?,
      Option.bind_some]
    cases items with
    | nil => rw [itemTokens, List.nil_append, List.cons_append, run?_cons, next?, Option.bind_some,
        List.nil_append]
    | cons item items =>
      rw [run?_listStart]
      exact hitems (List.cons_ne_nil _ _) [] above rest
  | .object members, above, rest => by
    have hmembers := run?_memberTokens members
    rw [tokens, List.cons_append, List.cons_append, List.append_assoc, run?_cons, next?, begin?,
      Option.bind_some]
    cases members with
    | nil => rw [memberTokens, List.nil_append, List.cons_append, run?_cons, next?,
        Option.bind_some, List.nil_append]
    | cons member members =>
      rw [run?_objectStart]
      exact hmembers (List.cons_ne_nil _ _) [] above rest

/-- The items of a list are read one behind the other. -/
theorem run?_itemTokens : ∀ items : List Json, items ≠ [] → ∀ (read : List Json)
    (above : List Frame) (rest : List Token),
    (needValue (.list read :: above)).run? (itemTokens items ++ .listEnd :: rest) =
      (close (.list (read.reverse ++ items)) above).run? rest
  | [], h, _, _, _ => absurd rfl h
  | [item], _, read, above, rest => by
    rw [itemTokens, run?_tokens item, close, run?_cons, next?, Option.bind_some,
      List.reverse_cons]
  | item :: item' :: items, _, read, above, rest => by
    have hitems := run?_itemTokens (item' :: items) (List.cons_ne_nil _ _) (item :: read) above rest
    rw [itemTokens, List.append_assoc, run?_tokens item, close, List.cons_append, run?_cons, next?,
      Option.bind_some, hitems, List.reverse_cons, List.append_assoc]
    rfl

/-- And so are the members of an object. -/
theorem run?_memberTokens : ∀ members : List (Octets × Json), members ≠ [] →
    ∀ (read : List (Octets × Json)) (above : List Frame) (rest : List Token),
    (needName read above).run? (memberTokens members ++ .objectEnd :: rest) =
      (close (.object (read.reverse ++ members)) above).run? rest
  | [], h, _, _, _ => absurd rfl h
  | [(name, value)], _, read, above, rest => by
    rw [memberTokens, List.cons_append, List.cons_append, run?_cons, next?, Option.bind_some,
      run?_cons, next?, Option.bind_some, run?_tokens value, close, run?_cons, next?,
      Option.bind_some, List.reverse_cons]
  | (name, value) :: member :: members, _, read, above, rest => by
    have hmembers := run?_memberTokens (member :: members) (List.cons_ne_nil _ _)
      ((name, value) :: read) above rest
    rw [memberTokens, List.cons_append, List.cons_append, List.cons_append, run?_cons, next?,
      Option.bind_some, List.cons_append, List.append_assoc, run?_cons, next?, Option.bind_some,
      run?_tokens value, close, List.cons_append, run?_cons, next?, Option.bind_some, hmembers,
      List.reverse_cons, List.append_assoc]
    rfl

end

end Reading

/-- **Every value is read back from its tokens.** -/
theorem ofTokens?_tokens (j : Json) : ofTokens? j.tokens = some j := by
  have hrun := Reading.run?_tokens j [] []
  rw [List.append_nil] at hrun
  rw [ofTokens?, hrun]
  rfl

/-! ## Numbers end -/

open Token (MayPrecede)

theorem mayPrecede_comma (t : Token) : MayPrecede t .comma := fun _ ↦ .inl rfl

theorem mayPrecede_listEnd (t : Token) : MayPrecede t .listEnd := fun _ ↦ .inr (.inl rfl)

theorem mayPrecede_objectEnd (t : Token) : MayPrecede t .objectEnd := fun _ ↦ .inr (.inr rfl)

theorem mayPrecede_of_ne {t : Token} (h : ∀ written, t ≠ .number written) (u : Token) :
    MayPrecede t u := fun ⟨written, ht⟩ ↦ absurd ht (h written)

/-- Anything may follow a token that is no number. -/
theorem isChain_cons_of_ne {t : Token} (h : ∀ written, t ≠ .number written) {ts : List Token}
    (hts : ts.IsChain MayPrecede) : (t :: ts).IsChain MayPrecede :=
  List.isChain_cons.mpr ⟨fun u _ ↦ mayPrecede_of_ne h u, hts⟩

/-- What ends a number may follow anything. -/
theorem isChain_append_cons {t : Token} (h : ∀ u, MayPrecede u t) {ts us : List Token}
    (hts : ts.IsChain MayPrecede) (hus : (t :: us).IsChain MayPrecede) :
    (ts ++ t :: us).IsChain MayPrecede :=
  hts.append hus fun u _ t' ht' ↦ by
    cases ht'
    exact h u

mutual

theorem isChain_tokens : ∀ j : Json, j.tokens.IsChain MayPrecede
  | .null | .truth _ | .number _ | .string _ => .singleton _
  | .list items => by
    rw [tokens]
    refine isChain_cons_of_ne (by nofun) ?_
    exact isChain_append_cons mayPrecede_listEnd (isChain_itemTokens items) (.singleton _)
  | .object members => by
    rw [tokens]
    refine isChain_cons_of_ne (by nofun) ?_
    exact isChain_append_cons mayPrecede_objectEnd (isChain_memberTokens members) (.singleton _)

theorem isChain_itemTokens : ∀ items : List Json, (itemTokens items).IsChain MayPrecede
  | [] => .nil
  | [item] => by
    rw [itemTokens]
    exact isChain_tokens item
  | item :: item' :: items => by
    rw [itemTokens]
    refine isChain_append_cons mayPrecede_comma (isChain_tokens item) ?_
    exact isChain_cons_of_ne (by nofun) (isChain_itemTokens (item' :: items))

theorem isChain_memberTokens :
    ∀ members : List (Octets × Json), (memberTokens members).IsChain MayPrecede
  | [] => .nil
  | [(_, value)] => by
    rw [memberTokens]
    exact isChain_cons_of_ne (by nofun) (isChain_cons_of_ne (by nofun) (isChain_tokens value))
  | (_, value) :: member :: members => by
    rw [memberTokens]
    refine isChain_cons_of_ne (by nofun) (isChain_cons_of_ne (by nofun) ?_)
    refine isChain_append_cons mayPrecede_comma (isChain_tokens value) ?_
    exact isChain_cons_of_ne (by nofun) (isChain_memberTokens (member :: members))

end

/-! ## Values from octets -/

/-- All numbers and strings in the value have the shape that they should have. -/
def Sound (j : Json) : Prop := ∀ t ∈ j.tokens, t.Sound

/-- **A sound value is read back from its octets.** -/
theorem ofOctets?_octets {j : Json} (h : j.Sound) : ofOctets? j.octets = some j := by
  rw [ofOctets?, octets, tokens?_octets h (isChain_tokens j), Option.bind_some, ofTokens?_tokens]

theorem sound_null : null.Sound := by simp [Sound, tokens, Token.Sound]

theorem sound_truth (value : Bool) : (truth value).Sound := by simp [Sound, tokens, Token.Sound]

theorem sound_ofNat (n : Nat) : (ofNat n).Sound := by
  simpa [Sound, ofNat, tokens] using sound_number_plain n

theorem sound_ofText (text : String) : (ofText text).Sound := by
  simpa [Sound, ofText, tokens] using sound_writtenString text

theorem of_mem_itemTokens {items : List Json} {t : Token} (h : t ∈ itemTokens items) :
    t = .comma ∨ ∃ item ∈ items, t ∈ item.tokens := by
  induction items with
  | nil => rw [itemTokens] at h; cases h
  | cons item items ih =>
    cases items with
    | nil =>
      rw [itemTokens] at h
      exact .inr ⟨item, List.mem_cons_self, h⟩
    | cons item' items =>
      rw [itemTokens, List.mem_append, List.mem_cons] at h
      obtain h | rfl | h := h
      · exact .inr ⟨item, List.mem_cons_self, h⟩
      · exact .inl rfl
      · exact (ih h).imp_right fun ⟨i, hi, ht⟩ ↦ ⟨i, List.mem_cons_of_mem item hi, ht⟩

theorem of_mem_memberTokens {members : List (Octets × Json)} {t : Token}
    (h : t ∈ memberTokens members) :
    t = .comma ∨ t = .colon ∨ ∃ m ∈ members, t = .string m.1 ∨ t ∈ m.2.tokens := by
  induction members with
  | nil => rw [memberTokens] at h; cases h
  | cons m members ih =>
    obtain ⟨name, value⟩ := m
    cases members with
    | nil =>
      rw [memberTokens, List.mem_cons, List.mem_cons] at h
      obtain h | h | h := h
      · exact .inr (.inr ⟨_, List.mem_cons_self, .inl h⟩)
      · exact .inr (.inl h)
      · exact .inr (.inr ⟨_, List.mem_cons_self, .inr h⟩)
    | cons m' members =>
      rw [memberTokens, List.cons_append, List.cons_append, List.mem_cons, List.mem_cons,
        List.mem_append, List.mem_cons] at h
      obtain h | h | h | h | h := h
      · exact .inr (.inr ⟨_, List.mem_cons_self, .inl h⟩)
      · exact .inr (.inl h)
      · exact .inr (.inr ⟨_, List.mem_cons_self, .inr h⟩)
      · exact .inl h
      · exact (ih h).imp_right fun hmore ↦ hmore.imp_right
          fun ⟨m, hm, ht⟩ ↦ ⟨m, List.mem_cons_of_mem _ hm, ht⟩

theorem sound_list {items : List Json} (h : ∀ item ∈ items, item.Sound) : (list items).Sound := by
  intro t ht
  rw [tokens, List.cons_append, List.mem_cons, List.mem_append, List.mem_singleton] at ht
  obtain rfl | ht | rfl := ht
  · exact trivial
  · obtain rfl | ⟨item, hitem, ht⟩ := of_mem_itemTokens ht
    · exact trivial
    · exact h item hitem t ht
  · exact trivial

/-- An object is sound if its values are: its names are written as texts. -/
theorem sound_ofMembers {members : List (String × Json)} (h : ∀ m ∈ members, m.2.Sound) :
    (ofMembers members).Sound := by
  intro t ht
  rw [ofMembers, tokens, List.cons_append, List.mem_cons, List.mem_append, List.mem_singleton] at ht
  obtain rfl | ht | rfl := ht
  · exact trivial
  · obtain rfl | rfl | ⟨m, hm, ht⟩ := of_mem_memberTokens ht
    · exact trivial
    · exact trivial
    · obtain ⟨⟨name, value⟩, hmember, rfl⟩ := List.mem_map.mp hm
      obtain rfl | ht := ht
      · exact sound_writtenString name
      · exact h _ hmember t ht
  · exact trivial

end ServiceBus.Json
