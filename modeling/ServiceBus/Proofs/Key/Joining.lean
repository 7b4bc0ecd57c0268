import Mathlib.Data.List.Count
import Mathlib.Data.List.TakeWhile
import ServiceBus.Key.Matching

/-!
# What joining a routing key changes

A routing key in tokens is *joined* by writing its tokens as one dotted text, which is then matched
as a whole.  A pattern should ask for the joined key just when it asks for the tokens.  It need not,
either way.

* The run that stands for a `*` stays on one line, whereas a token is any text.  So joining may lose
  a subscriber if a `*` has to get across a token with a line feed (`Key.crossed`), and not
  otherwise: `Key.accepts_ofJoined_of_accepts`.
* The text does not show where a token ends if the pattern has dots of its own, and an open pattern
  is content with the beginning of a text.  `Key.accepts_iff_of_accepts_ofJoined` says, for patterns
  without `*`, which of those who ask for the joined key ask for the tokens.
-/

set_option autoImplicit false

namespace ServiceBus.Key

/-! ## Dotted texts -/

theorem toList_dotted_cons_cons (part part' : String) (parts : List String) :
    (dotted (part :: part' :: parts)).toList =
      part.toList ++ '.' :: (dotted (part' :: parts)).toList := by
  simp [dotted]

theorem toList_dotted (parts : List String) :
    (dotted parts).toList = ['.'].intercalate (parts.map String.toList) := by
  induction parts with
  | nil => rfl
  | cons part parts ih =>
    cases parts with
    | nil => simp [dotted]
    | cons part' parts =>
      rw [toList_dotted_cons_cons, ih]
      simp [List.intercalate]

/-- Tokens without dots are told by their dotted text. -/
theorem eq_of_dotted_eq {parts parts' : List String} (hne : parts ≠ []) (hne' : parts' ≠ [])
    (hdots : ∀ part ∈ parts, '.' ∉ part.toList) (hdots' : ∀ part ∈ parts', '.' ∉ part.toList)
    (h : dotted parts = dotted parts') : parts = parts' := by
  have hsplit : ∀ {l : List String}, l ≠ [] → (∀ part ∈ l, '.' ∉ part.toList) →
      (dotted l).toList.splitOn '.' = l.map String.toList := by
    intro l hl hdots
    rw [toList_dotted]
    exact List.splitOn_intercalate '.' (by simpa using hdots) (by simpa using hl)
  have hmap : parts.map String.toList = parts'.map String.toList := by
    rw [← hsplit hne hdots, h, hsplit hne' hdots']
  exact (List.map_inj_right fun _ _ ↦ String.toList_inj.mp).mp hmap

/-- Up to its first dot a text shows where a piece ends. -/
theorem prefix_of_append_dot {piece piece' text text' : List Char} (h : '.' ∉ piece)
    (h' : '.' ∉ piece') (hbegins : piece ++ '.' :: text <+: piece' ++ '.' :: text') :
    piece = piece' ∧ text <+: text' := by
  induction piece generalizing piece' with
  | nil =>
    cases piece' with
    | nil => exact ⟨rfl, (List.cons_prefix_cons.mp hbegins).2⟩
    | cons d piece' =>
      obtain ⟨rfl, -⟩ := List.cons_prefix_cons.mp hbegins
      exact absurd List.mem_cons_self h'
  | cons c piece ih =>
    cases piece' with
    | nil =>
      obtain ⟨rfl, -⟩ := List.cons_prefix_cons.mp hbegins
      exact absurd List.mem_cons_self h
    | cons d piece' =>
      obtain ⟨rfl, hrest⟩ := List.cons_prefix_cons.mp hbegins
      obtain ⟨rfl, htext⟩ := ih (fun hc ↦ h (List.mem_cons_of_mem _ hc))
        (fun hc ↦ h' (List.mem_cons_of_mem _ hc)) hrest
      exact ⟨rfl, htext⟩

/-- Where the text of some tokens begins with that of others, it begins with those tokens, provided
that the last of them is a whole one there. -/
theorem prefix_of_dotted {parts parts' : List String}
    (hdots : ∀ part ∈ parts, '.' ∉ part.toList) (hdots' : ∀ part ∈ parts', '.' ∉ part.toList)
    (hlength : parts.length < parts'.length)
    (hlast : (parts'.take parts.length).getLast? = parts.getLast?)
    (h : (dotted parts).toList <+: (dotted parts').toList) : parts <+: parts' := by
  induction parts generalizing parts' with
  | nil => exact List.nil_prefix
  | cons part parts ih =>
    obtain _ | ⟨first, _ | ⟨second, rest⟩⟩ := parts'
    · simp at hlength
    · simp at hlength
    · cases parts with
      | nil =>
        -- no dot shows where the last token ends
        obtain rfl : first = part := by simpa using hlast
        simp
      | cons part' parts =>
        rw [toList_dotted_cons_cons, toList_dotted_cons_cons] at h
        obtain ⟨heq, hrest⟩ := prefix_of_append_dot (hdots part List.mem_cons_self)
          (hdots' first List.mem_cons_self) h
        rw [String.toList_inj] at heq
        subst heq
        refine List.cons_prefix_cons.mpr ⟨rfl, ih (fun p hp ↦ hdots p (List.mem_cons_of_mem _ hp))
          (fun p hp ↦ hdots' p (List.mem_cons_of_mem _ hp)) ?_ ?_ hrest⟩
        · simpa using hlength
        · simpa using hlast

/-! ## Text patterns -/

/-- A run gets across any text without line feed. -/
theorem anyTail_iff {test : List Char → Bool} {text : List Char} :
    anyTail test text ↔ ∃ crossed rest, text = crossed ++ rest ∧ '\n' ∉ crossed ∧ test rest := by
  induction text with
  | nil =>
    refine ⟨fun h ↦ ⟨[], [], rfl, List.not_mem_nil, h⟩, ?_⟩
    rintro ⟨crossed, rest, heq, -, hrest⟩
    obtain ⟨-, rfl⟩ := List.append_eq_nil_iff.mp heq.symm
    exact hrest
  | cons c text ih =>
    rw [anyTail, Bool.or_eq_true, Bool.and_eq_true, ih]
    constructor
    · rintro (h | ⟨hc, crossed, rest, rfl, hcrossed, hrest⟩)
      · exact ⟨[], c :: text, rfl, List.not_mem_nil, h⟩
      · refine ⟨c :: crossed, rest, rfl, ?_, hrest⟩
        rw [List.mem_cons, not_or]
        exact ⟨Ne.symm (by simpa using hc), hcrossed⟩
    · rintro ⟨_ | ⟨d, crossed⟩, rest, heq, hcrossed, hrest⟩
      · exact Or.inl (by rwa [heq])
      · obtain ⟨rfl, rfl⟩ := List.cons.inj heq
        rw [List.mem_cons, not_or] at hcrossed
        exact Or.inr ⟨by simpa using Ne.symm hcrossed.1, crossed, rest, rfl, hcrossed.2, hrest⟩

theorem acceptsText_map_char_append (isOpen : Bool) (cs : List Char) (gs : List Glyph)
    (text : List Char) :
    acceptsText isOpen (cs.map .char ++ gs) (cs ++ text) = acceptsText isOpen gs text := by
  induction cs with
  | nil => rfl
  | cons c cs ih => simp [acceptsText, ih]

/-- Characters alone match the text that they are, and an open pattern its continuations. -/
theorem acceptsText_map_char {isOpen : Bool} {cs text : List Char} :
    acceptsText isOpen (cs.map .char) text ↔ if isOpen then cs <+: text else cs = text := by
  induction cs generalizing text with
  | nil => cases isOpen <;> simp [acceptsText]
  | cons c cs ih =>
    cases text with
    | nil => simp [acceptsText]
    | cons d text =>
      rw [List.map_cons, acceptsText, Bool.and_eq_true, ih]
      cases isOpen <;> simp

/-- A pattern up to the end of a text has the line feeds of the text. -/
theorem count_lineFeed_of_acceptsText {gs : List Glyph} {text : List Char}
    (h : acceptsText false gs text) : text.count '\n' = gs.count (.char '\n') := by
  induction gs generalizing text with
  | nil =>
    obtain rfl : text = [] := by simpa [acceptsText] using h
    rfl
  | cons g gs ih =>
    cases g with
    | char c =>
      cases text with
      | nil => cases h
      | cons d text =>
        rw [acceptsText, Bool.and_eq_true, decide_eq_true_eq] at h
        obtain ⟨rfl, hrest⟩ := h
        rw [List.count_cons, List.count_cons, ih hrest]
        by_cases hc : c = '\n' <;> simp [hc]
    | run =>
      obtain ⟨crossed, rest, rfl, hcrossed, hrest⟩ := anyTail_iff.mp h
      rw [List.count_append, List.count_eq_zero.mpr hcrossed, ih hrest]
      simp

/-! ## Patterns -/

/-- The tokens of a pattern in front of its first `#`. -/
def beforeSharp (pattern : List String) : List String := pattern.takeWhile (· ≠ sharp)

@[simp]
theorem beforeSharp_cons_sharp (ps : List String) : beforeSharp (sharp :: ps) = [] := by
  simp [beforeSharp]

theorem beforeSharp_cons {p : String} (h : p ≠ sharp) (ps : List String) :
    beforeSharp (p :: ps) = p :: beforeSharp ps := by
  simp [beforeSharp, h]

theorem beforeSharp_of_not_mem {pattern : List String} (h : sharp ∉ pattern) :
    beforeSharp pattern = pattern :=
  List.takeWhile_eq_self_iff.mpr (by simpa using fun p hp ↦ ne_of_mem_of_not_mem hp h)

theorem glyphs_cons_cons (token token' : String) (tokens : List String) :
    glyphs (token :: token' :: tokens) =
      tokenGlyphs token ++ .char '.' :: glyphs (token' :: tokens) := rfl

theorem acceptsParts_cons_iff {p r : String} {ps rs : List String} (h : p ≠ sharp) :
    acceptsParts (p :: ps) (r :: rs) ↔ (p = star ∨ p = r) ∧ acceptsParts ps rs := by
  rw [acceptsParts, if_neg h]
  by_cases hp : p = star ∨ p = r <;> simp [hp]

theorem acceptsParts_nil_iff {pattern : List String} :
    acceptsParts pattern [] ↔ pattern = [] := by
  cases pattern <;> simp [acceptsParts]

/-- Against a dotted text a pattern is a text pattern, unless it is a single token. -/
theorem accepts_ofJoined {pattern : Key} (h : pattern.isEmpty = false) (text : String) :
    pattern.accepts (ofJoined text) =
      if 1 < pattern.parts.length then
        acceptsText (pattern.parts.contains sharp) (glyphs (beforeSharp pattern.parts)) text.toList
      else acceptsParts pattern.parts [text] := by
  by_cases hlength : 1 < pattern.parts.length <;>
    simp [accepts, h, ofJoined, hlength, acceptsJoined_eq, beforeSharp]

theorem exists_parts_eq_singleton {pattern : Key} (h : pattern.isEmpty = false)
    (hlength : ¬1 < pattern.parts.length) : ∃ p, p ≠ sharp ∧ pattern.parts = [p] := by
  have hpos := List.length_pos_iff.mpr (parts_ne_nil h)
  obtain ⟨p, hp⟩ := List.length_eq_one_iff.mp (show pattern.parts.length = 1 by omega)
  refine ⟨p, ?_, hp⟩
  rintro rfl
  simp [isEmpty, hp] at h

theorem exists_eq_singleton_of_acceptsParts {p : String} {tokens : List String} (hp : p ≠ sharp)
    (hne : tokens ≠ []) (h : acceptsParts [p] tokens) : ∃ r, tokens = [r] := by
  obtain ⟨r, rs, rfl⟩ := List.exists_cons_of_ne_nil hne
  obtain ⟨-, hrest⟩ := (acceptsParts_cons_iff hp).mp h
  cases rs with
  | nil => exact ⟨r, rfl⟩
  | cons => cases hrest

/-! ## What joining loses -/

/-- The tokens that a `*` of the pattern has to get across to the end: those that stand at a `*` in
front of the first `#`, but for one with the `#` right behind it, whose end does not matter. -/
def crossed : List String → List String → List String
  | p :: ps, r :: rs =>
    if p = sharp ∨ (p = star ∧ ps.head? = some sharp) then []
    else if p = star then r :: crossed ps rs
    else crossed ps rs
  | _, _ => []

theorem crossed_cons {p : String} {ps : List String} (h : p ≠ sharp) (h' : ps.head? ≠ some sharp)
    (r : String) (rs : List String) :
    crossed (p :: ps) (r :: rs) = if p = star then r :: crossed ps rs else crossed ps rs := by
  simp [crossed, h, h']

/-- A token of a pattern matches the token at its place, with any text behind. -/
theorem acceptsText_tokenGlyphs_append {isOpen : Bool} {p r : String} {gs : List Glyph}
    {text : List Char} (hp : p = star ∨ p = r) (hline : p = star → '\n' ∉ r.toList)
    (h : acceptsText isOpen gs text) :
    acceptsText isOpen (tokenGlyphs p ++ gs) (r.toList ++ text) := by
  rw [tokenGlyphs]
  split
  · next hstar => exact anyTail_iff.mpr ⟨r.toList, text, rfl, hline hstar, h⟩
  · next hstar =>
    obtain rfl := hp.resolve_left hstar
    rwa [acceptsText_map_char_append]

/-- At the end of an open pattern line feeds do no harm. -/
theorem acceptsText_tokenGlyphs_of_open {p r : String} (hp : p = star ∨ p = r)
    (text : List Char) : acceptsText true (tokenGlyphs p) (r.toList ++ text) := by
  rw [tokenGlyphs]
  split
  · exact anyTail_iff.mpr ⟨[], _, rfl, List.not_mem_nil, rfl⟩
  · next hstar =>
    obtain rfl := hp.resolve_left hstar
    exact acceptsText_map_char.mpr (List.prefix_append _ _)

/-- The text pattern goes along the text as the pattern goes along the tokens. -/
theorem acceptsText_dotted {pattern tokens : List String} (h : acceptsParts pattern tokens)
    (hne : tokens ≠ []) (hlines : ∀ token ∈ crossed pattern tokens, '\n' ∉ token.toList) :
    acceptsText (pattern.contains sharp) (glyphs (beforeSharp pattern))
      (dotted tokens).toList := by
  induction pattern generalizing tokens with
  | nil =>
    cases tokens with
    | nil => exact absurd rfl hne
    | cons r rs => cases h
  | cons p ps ih =>
    obtain _ | ⟨r, rs⟩ := tokens
    · exact absurd rfl hne
    by_cases hsharp : p = sharp
    · simp [hsharp, glyphs, acceptsText]
    obtain ⟨hp, hrest⟩ := (acceptsParts_cons_iff hsharp).mp h
    have hopen : (p :: ps).contains sharp = ps.contains sharp := by simp [Ne.symm hsharp]
    rw [beforeSharp_cons hsharp, hopen]
    obtain _ | ⟨r', rs⟩ := rs
    · -- the last token of both
      obtain rfl := acceptsParts_nil_iff.mp hrest
      rw [crossed_cons hsharp (by simp)] at hlines
      have hline : p = star → '\n' ∉ r.toList := fun hstar ↦ hlines r (by simp [hstar])
      have hlast : acceptsText false (tokenGlyphs p ++ []) (r.toList ++ []) :=
        acceptsText_tokenGlyphs_append hp hline rfl
      simpa [beforeSharp, glyphs, dotted] using hlast
    · rw [toList_dotted_cons_cons]
      obtain _ | ⟨q, ps⟩ := ps
      · cases hrest
      by_cases hq : q = sharp
      · -- the pattern is cut behind this token
        simpa [hq, glyphs] using acceptsText_tokenGlyphs_of_open hp _
      · rw [crossed_cons hsharp (by simpa using hq)] at hlines
        have hline : p = star → '\n' ∉ r.toList := fun hstar ↦ hlines r (by simp [hstar])
        have hlater : ∀ token ∈ crossed (q :: ps) (r' :: rs), '\n' ∉ token.toList :=
          fun token ht ↦ hlines token (by split <;> simp [ht])
        have hnext := ih hrest (List.cons_ne_nil _ _) hlater
        rw [beforeSharp_cons hq] at hnext ⊢
        rw [glyphs_cons_cons]
        exact acceptsText_tokenGlyphs_append hp hline (by simpa [acceptsText] using hnext)

theorem count_lineFeed_tokenGlyphs {p r : String} (hp : p = star ∨ p = r) :
    r.toList.count '\n' =
      (tokenGlyphs p).count (.char '\n') + if p = star then r.toList.count '\n' else 0 := by
  rw [tokenGlyphs]
  split
  · simp
  · next hstar =>
    obtain rfl := hp.resolve_left hstar
    have hinj : Function.Injective Glyph.char := fun _ _ h ↦ Glyph.char.inj h
    rw [List.count_map_of_injective _ _ hinj, Nat.add_zero]

/-- Without `#` the line feeds of the joined text are those of the pattern and those that have to be
got across. -/
theorem count_lineFeed_dotted {pattern tokens : List String} (h : acceptsParts pattern tokens)
    (hsharp : sharp ∉ pattern) :
    (dotted tokens).toList.count '\n' = (glyphs pattern).count (.char '\n') +
      ((crossed pattern tokens).flatMap String.toList).count '\n' := by
  induction pattern generalizing tokens with
  | nil =>
    cases tokens with
    | nil => rfl
    | cons r rs => cases h
  | cons p ps ih =>
    obtain _ | ⟨r, rs⟩ := tokens
    · cases h
    obtain ⟨hp, hps⟩ : p ≠ sharp ∧ sharp ∉ ps := by
      simpa [not_or, eq_comm] using hsharp
    have hhead : ps.head? ≠ some sharp := fun h ↦ hps (List.mem_of_mem_head? h)
    obtain ⟨htoken, hrest⟩ := (acceptsParts_cons_iff hp).mp h
    have hcount := count_lineFeed_tokenGlyphs htoken
    have hcrossed : ((crossed (p :: ps) (r :: rs)).flatMap String.toList).count '\n' =
        (if p = star then r.toList.count '\n' else 0) +
          ((crossed ps rs).flatMap String.toList).count '\n' := by
      rw [crossed_cons hp hhead]
      split <;> simp
    obtain _ | ⟨q, ps⟩ := ps
    · obtain _ | ⟨r', rs⟩ := rs
      · rw [hcrossed]
        simpa [glyphs, dotted, crossed] using hcount
      · cases hrest
    · obtain _ | ⟨r', rs⟩ := rs
      · cases hrest
      rw [toList_dotted_cons_cons, glyphs_cons_cons, List.count_append, List.count_append,
        List.count_cons_of_ne (by decide), List.count_cons_of_ne (by decide), ih hrest hps,
        hcrossed]
      omega

/-- Who asks for the tokens asks for the joined key too, unless a `*` stands at a token with a line
feed; without `#` such a token is always in the way. -/
theorem accepts_ofJoined_of_accepts {pattern key : Key} (hplain : key.joined = false)
    (hne : key.parts ≠ []) (h : pattern.accepts key) :
    ((1 < pattern.parts.length → ∀ token ∈ crossed pattern.parts key.parts, '\n' ∉ token.toList) →
      pattern.accepts (ofJoined key.text)) ∧
    (1 < pattern.parts.length → sharp ∉ pattern.parts →
      (pattern.accepts (ofJoined key.text) ↔
        ∀ token ∈ crossed pattern.parts key.parts, '\n' ∉ token.toList)) := by
  cases hempty : pattern.isEmpty with
  | true =>
    refine ⟨fun _ ↦ accepts_of_isEmpty hempty _, fun hlength hsharp ↦ ?_⟩
    simp only [isEmpty, Bool.or_eq_true, decide_eq_true_eq] at hempty
    rcases hempty with hparts | hparts <;> simp [hparts] at hlength
  | false =>
    have hparts : acceptsParts pattern.parts key.parts := by
      simpa [accepts, hempty, hplain] using h
    rw [accepts_ofJoined hempty]
    refine ⟨fun hlines ↦ ?_, fun hlength hsharp ↦ ?_⟩
    · split
      · next hlength => exact acceptsText_dotted hparts hne (hlines hlength)
      · next hlength =>
        -- a single token is compared with the whole text
        obtain ⟨p, hsharp, hp⟩ := exists_parts_eq_singleton hempty hlength
        rw [hp] at hparts ⊢
        obtain ⟨r, hr⟩ := exists_eq_singleton_of_acceptsParts hsharp hne hparts
        rwa [text, hr, dotted, ← hr]
    · rw [if_pos hlength]
      refine ⟨fun htext ↦ ?_, fun hlines ↦ acceptsText_dotted hparts hne hlines⟩
      have hclosed : pattern.parts.contains sharp = false := by simpa using hsharp
      rw [hclosed, beforeSharp_of_not_mem hsharp] at htext
      -- a line feed at a `*` would be one more than the pattern has
      have hcount := (count_lineFeed_of_acceptsText htext).symm.trans
        (count_lineFeed_dotted hparts hsharp)
      have hnone : '\n' ∉ (crossed pattern.parts key.parts).flatMap String.toList :=
        List.count_eq_zero.mp (by omega)
      exact fun token htoken hmem ↦ hnone (List.mem_flatMap.mpr ⟨token, htoken, hmem⟩)

/-- A pattern with a dot in a token, and with characters that are read as such. -/
def punctuated : Key := ⟨["a.b", "*", "[c]+"], false⟩

/-- The dots in the tokens and an empty token at the `*` do no harm. -/
theorem accepts_ofJoined_punctuated :
    punctuated.accepts (ofJoined "a.b..[c]+") ∧
    (punctuated.accepts (ofJoined "a.b.x\ny.[c]+") ↔ '\n' ∉ "x\ny".toList) := by
  have hempty : punctuated.accepts ⟨["a.b", "", "[c]+"], false⟩ := by decide
  have hlines : punctuated.accepts ⟨["a.b", "x\ny", "[c]+"], false⟩ := by decide
  refine ⟨(accepts_ofJoined_of_accepts rfl (by decide) hempty).1 fun _ ↦ by decide,
    ((accepts_ofJoined_of_accepts rfl (by decide) hlines).2 (by decide) (by decide)).trans ?_⟩
  exact List.forall_mem_singleton

/-- **A `*` matches a token with a line feed, but not in the joined key.** -/
theorem not_accepts_ofJoined_lines :
    (⟨["a", "*"], false⟩ : Key).accepts ⟨["a", "x\ny"], false⟩ = true ∧
    (⟨["a", "*"], false⟩ : Key).accepts (ofJoined (text ⟨["a", "x\ny"], false⟩)) = false :=
  ⟨by decide, by decide⟩

/-! ## What joining adds -/

theorem glyphs_of_star_not_mem {parts : List String} (h : star ∉ parts) :
    glyphs parts = (dotted parts).toList.map .char := by
  induction parts with
  | nil => rfl
  | cons part parts ih =>
    obtain ⟨hpart, hparts⟩ : part ≠ star ∧ star ∉ parts := by
      simpa [not_or, eq_comm] using h
    cases parts with
    | nil => simp [glyphs, tokenGlyphs, dotted, hpart]
    | cons part' parts =>
      rw [glyphs_cons_cons, toList_dotted_cons_cons, ih hparts, tokenGlyphs, if_neg hpart,
        List.map_append, List.map_cons]

theorem acceptsParts_iff_of_star_not_mem {pattern tokens : List String} (h : star ∉ pattern) :
    acceptsParts pattern tokens ↔
      if sharp ∈ pattern then
        beforeSharp pattern <+: tokens ∧ (beforeSharp pattern).length < tokens.length
      else pattern = tokens := by
  induction pattern generalizing tokens with
  | nil => cases tokens <;> simp [acceptsParts]
  | cons p ps ih =>
    obtain ⟨hp, hps⟩ : p ≠ star ∧ star ∉ ps := by simpa [not_or, eq_comm] using h
    cases tokens with
    | nil => simp [acceptsParts]
    | cons r rs =>
      by_cases hsharp : p = sharp
      · simp [hsharp, acceptsParts]
      · rw [acceptsParts_cons_iff hsharp, ih hps, beforeSharp_cons hsharp]
        simp only [List.mem_cons, Ne.symm hsharp, false_or, hp, List.cons_prefix_cons,
          List.length_cons, Nat.add_lt_add_iff_right, List.cons.injEq, and_assoc]
        split <;> rfl

theorem accepts_ofJoined_iff_of_star_not_mem {pattern : Key} (h : pattern.isEmpty = false)
    (hstar : star ∉ pattern.parts) (text : String) :
    pattern.accepts (ofJoined text) ↔
      if sharp ∈ pattern.parts then
        (dotted (beforeSharp pattern.parts)).toList <+: text.toList
      else dotted pattern.parts = text := by
  rw [accepts_ofJoined h]
  split
  · have hbefore : star ∉ beforeSharp pattern.parts :=
      fun hmem ↦ hstar (List.takeWhile_subset _ hmem)
    rw [glyphs_of_star_not_mem hbefore, acceptsText_map_char]
    by_cases hsharp : sharp ∈ pattern.parts
    · simp [hsharp]
    · simp [hsharp, beforeSharp_of_not_mem, String.toList_inj]
  · next hlength =>
    obtain ⟨p, hsharp, hp⟩ := exists_parts_eq_singleton h hlength
    rw [hp, acceptsParts_iff_of_star_not_mem (hp ▸ hstar)]
    simp [Ne.symm hsharp, dotted]

/-- Without `*`, those who ask for the joined key ask for the tokens just when their own tokens, up
to the first `#`, are without dots and the `#` starts behind a whole token and in front of
another. -/
theorem accepts_iff_of_accepts_ofJoined {pattern key : Key} (hstar : star ∉ pattern.parts)
    (hplain : key.joined = false) (hne : key.parts ≠ [])
    (hdots : ∀ part ∈ key.parts, '.' ∉ part.toList) (h : pattern.accepts (ofJoined key.text)) :
    pattern.accepts key ↔
      (∀ part ∈ beforeSharp pattern.parts, '.' ∉ part.toList) ∧
      (sharp ∈ pattern.parts → (beforeSharp pattern.parts).length < key.parts.length ∧
        (key.parts.take (beforeSharp pattern.parts).length).getLast? =
          (beforeSharp pattern.parts).getLast?) := by
  cases hempty : pattern.isEmpty with
  | true =>
    rw [accepts_of_isEmpty hempty]
    simp only [isEmpty, Bool.or_eq_true, decide_eq_true_eq] at hempty
    rcases hempty with hparts | hparts <;>
      simp [hparts, beforeSharp, List.length_pos_iff.mpr hne]
  | false =>
    have hparts : pattern.accepts key ↔ acceptsParts pattern.parts key.parts := by
      simp [accepts, hempty, hplain]
    rw [hparts, acceptsParts_iff_of_star_not_mem hstar]
    rw [accepts_ofJoined_iff_of_star_not_mem hempty hstar] at h
    split at h
    · next hsharp =>
      simp only [hsharp, if_true, forall_const]
      constructor
      · rintro ⟨hbegins, hlength⟩
        refine ⟨fun part hpart ↦ hdots part (hbegins.subset hpart), hlength, ?_⟩
        rw [← List.prefix_iff_eq_take.mp hbegins]
      · rintro ⟨hbefore, hlength, hlast⟩
        exact ⟨prefix_of_dotted hbefore hdots hlength hlast h, hlength⟩
    · next hsharp =>
      simp only [hsharp, if_false, beforeSharp_of_not_mem, not_false_eq_true, false_implies,
        and_true]
      constructor
      · intro hparts part hpart
        exact hdots part (hparts ▸ hpart)
      · intro hbefore
        exact eq_of_dotted_eq (parts_ne_nil hempty) hne hbefore hdots h

/-- Two tokens in front of a `#`. -/
def opensBehindTwo : Key := ⟨["a", "b", "#"], false⟩

/-- A third token is there, and the second one is whole. -/
theorem accepts_opensBehindTwo : opensBehindTwo.accepts ⟨["a", "b", "c"], false⟩ :=
  (accepts_iff_of_accepts_ofJoined (by decide) rfl (by decide) (by decide) (by decide)).mpr
    ⟨by decide, by decide⟩

/-- **A joined key may be asked for where its tokens are not**: if the `#` starts within a token or
has no token left, and if the pattern has a dot of its own. -/
theorem accepts_ofJoined_not_accepts :
    ((⟨["a", "#"], false⟩ : Key).accepts (ofJoined (text ⟨["ab"], false⟩)) = true ∧
      (⟨["a", "#"], false⟩ : Key).accepts ⟨["ab"], false⟩ = false) ∧
    (opensBehindTwo.accepts (ofJoined (text ⟨["a", "b"], false⟩)) = true ∧
      opensBehindTwo.accepts ⟨["a", "b"], false⟩ = false) ∧
    ((⟨["a.b"], false⟩ : Key).accepts (ofJoined (text ⟨["a", "b"], false⟩)) = true ∧
      (⟨["a.b"], false⟩ : Key).accepts ⟨["a", "b"], false⟩ = false) := by
  decide

end ServiceBus.Key
