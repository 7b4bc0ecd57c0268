import Mathlib.Data.List.Chain
import ServiceBus.Json
import ServiceBus.Proofs.Wire.Digits

/-!
# Tokens are read back from their octets

A token that is *sound* (`Token.Sound`) has the shape that the lexer asks for: a number is a literal
of JSON, and a string has no bare quote, no control character and no broken escape.  The octets of a
sound token are read as this token, whatever follows (`Lexing.run?_token`), with one exception.  A
number does not show where it ends, so what follows has to show it; `Token.MayPrecede` says which
tokens do.  A sequence of sound tokens in which this holds of neighbours is read back as it is
(`tokens?_octets`).

Two kinds of tokens are shown to be sound here because they are written for every value: numbers
without sign, and strings with their escapes.
-/

set_option autoImplicit false

namespace ServiceBus

/-! ## The octets of texts -/

namespace Octets

theorem ofAscii_cons (c : Char) (cs : List Char) :
    ofAscii (c :: cs) = UInt8.ofNat c.toNat :: ofAscii cs := rfl

theorem ofText_ofList (cs : List Char) :
    ofText (String.ofList cs) = cs.flatMap String.utf8EncodeChar := by
  simp [ofText, List.utf8Encode]

/-- Outside ASCII every octet of a character has its highest bit set. -/
theorem of_mem_utf8EncodeChar {c : Char} {o : UInt8} (h : o ∈ String.utf8EncodeChar c) :
    o.toNat = c.toNat ∧ c.toNat < 128 ∨ 128 ≤ o.toNat := by
  simp only [String.utf8EncodeChar] at h
  change _ ∈ (if c.toNat ≤ 127 then _ else _) at h
  split at h
  · next hc =>
    rw [List.mem_singleton] at h
    subst h
    exact .inl ⟨Nat.mod_eq_of_lt (Nat.lt_of_le_of_lt hc (by decide)), by omega⟩
  · right
    repeat' split at h
    all_goals
      simp only [List.mem_cons, List.not_mem_nil, or_false] at h
      rcases h with rfl | rfl | rfl | rfl <;> simp <;> omega

end Octets

namespace Json

/-! ## Literals -/

/-- How far a number has been read after more octets. -/
def Numeral.run? (n : Numeral) : Octets → Option Numeral
  | [] => some n
  | o :: os => (n.next? o).bind fun n' ↦ run? n' os

/-- How far a number has been read after all of its octets. -/
def Numeral.ofOctets? : Octets → Option Numeral
  | [] => none
  | o :: os => (first? o).bind fun n ↦ n.run? os

/-- Where in a string the reading is after more octets, if none of them ends the string. -/
def Quoted.run? (q : Quoted) : Octets → Option Quoted
  | [] => some q
  | o :: os => if q = .plain ∧ o = Token.quote then none else (q.next? o).bind fun q' ↦ run? q' os

theorem Numeral.run?_append (n : Numeral) (os os' : Octets) :
    n.run? (os ++ os') = (n.run? os).bind fun n' ↦ n'.run? os' := by
  induction os generalizing n with
  | nil => rfl
  | cons o os ih =>
    rw [List.cons_append, run?, run?, Option.bind_assoc]
    exact Option.bind_congr fun n' _ ↦ ih n'

theorem Quoted.run?_append (q : Quoted) (os os' : Octets) :
    q.run? (os ++ os') = (q.run? os).bind fun q' ↦ q'.run? os' := by
  induction os generalizing q with
  | nil => rfl
  | cons o os ih =>
    rw [List.cons_append, run?, run?]
    split
    · rfl
    · rw [Option.bind_assoc]
      exact Option.bind_congr fun q' _ ↦ ih q'

namespace Token

/-- The token has the shape that its kind asks for. -/
def Sound : Token → Prop
  | number written =>
    (∀ c ∈ written, c.toNat < 128) ∧
      ∃ n, Numeral.ofOctets? (Octets.ofAscii written) = some n ∧ n.isComplete
  | string written => Quoted.plain.run? written = some .plain
  | _ => True

/-- The octets show that a number before them has ended. -/
def Ends (os : Octets) : Prop := ∀ o ∈ os.head?, o = 44 ∨ o = 93 ∨ o = 125

/-- The second token may stand right behind the first. -/
def MayPrecede (t u : Token) : Prop :=
  (∃ written, t = number written) → u = comma ∨ u = listEnd ∨ u = objectEnd

theorem Ends.of_mayPrecede {t u : Token} {written : List Char} (h : MayPrecede t u)
    (ht : t = number written) (os : Octets) : Ends (u.octets ++ os) := by
  obtain rfl | rfl | rfl := h ⟨written, ht⟩ <;> simp [Ends, octets, Octets.ofAscii]

end Token

/-! ## One token -/

namespace Lexing

variable {acc : List Token} {rest : Octets}

theorem run?_cons (l : Lexing) (acc : List Token) (o : UInt8) (os : Octets) :
    l.run? acc (o :: os) = (l.next? o).bind fun r ↦ r.1.run? (r.2.reverse ++ acc) os := by
  rw [run?]
  cases l.next? o <;> rfl

/-- What begins a number begins nothing else. -/
theorem start?_of_first? {o : UInt8} {n : Numeral} (h : Numeral.first? o = some n) :
    start? o = some (number n [Char.ofNat o.toNat], []) := by
  have ho : o = 45 ∨ 48 ≤ o ∧ o ≤ 57 := by
    simp only [Numeral.first?, Numeral.next?, Numeral.isLeadingDigit] at h
    grind
  have hne : ∀ k : UInt8, ¬(k = 45 ∨ 48 ≤ k ∧ k ≤ 57) → o ≠ k := fun k hk hok ↦ hk (hok ▸ ho)
  have hblank : isBlank o = false := by
    simp [isBlank, hne 32 (by decide), hne 9 (by decide), hne 10 (by decide), hne 13 (by decide)]
  simp only [start?, hblank, h, Token.quote, hne 34 (by decide), hne 91 (by decide),
    hne 93 (by decide), hne 123 (by decide), hne 125 (by decide), hne 44 (by decide),
    hne 58 (by decide), hne 110 (by decide), hne 116 (by decide), hne 102 (by decide), if_false,
    Bool.false_eq_true, Option.map_some]

theorem next?_of_isComplete {n : Numeral} {o : UInt8} (hn : n.isComplete)
    (ho : o = 44 ∨ o = 93 ∨ o = 125) : n.next? o = none := by
  cases n with
  | sign | point | power | powerSign => cases hn
  | zero | whole | places | powerDigits => obtain rfl | rfl | rfl := ho <;> rfl

theorem ofNat_toNat_ofNat {c : Char} (hc : c.toNat < 128) :
    Char.ofNat (UInt8.ofNat c.toNat).toNat = c := by
  rw [UInt8.toNat_ofNat', Nat.mod_eq_of_lt (by omega), Char.ofNat_toNat]

/-- A number that is complete ends before what cannot continue it. -/
theorem run?_number_of_ends {n : Numeral} (read : List Char) (hn : n.isComplete)
    (hrest : Token.Ends rest) :
    (number n read).run? acc rest = between.run? (.number read.reverse :: acc) rest := by
  cases rest with
  | nil => simp [run?, finish?, hn]
  | cons o os =>
    have hnext : n.next? o = none := next?_of_isComplete hn (hrest o rfl)
    rw [run?_cons, run?_cons, next?, next?, hnext]
    cases start? o with
    | none => simp [hn]
    | some r => simp [hn]

theorem run?_number {n n' : Numeral} {cs : List Char} (read : List Char)
    (hcs : ∀ c ∈ cs, c.toNat < 128) (hrun : n.run? (Octets.ofAscii cs) = some n')
    (hn' : n'.isComplete) (hrest : Token.Ends rest) :
    (number n read).run? acc (Octets.ofAscii cs ++ rest) =
      between.run? (.number (read.reverse ++ cs) :: acc) rest := by
  induction cs generalizing n read with
  | nil =>
    obtain rfl : n = n' := Option.some.inj hrun
    rw [List.append_nil]
    exact run?_number_of_ends read hn' hrest
  | cons c cs ih =>
    obtain ⟨m, hm, hrun⟩ := Option.bind_eq_some_iff.mp hrun
    have hc : Char.ofNat (UInt8.ofNat c.toNat).toNat = c :=
      ofNat_toNat_ofNat (hcs c List.mem_cons_self)
    have hcs' : ∀ c ∈ cs, c.toNat < 128 := fun d hd ↦ hcs d (List.mem_cons_of_mem c hd)
    rw [Octets.ofAscii_cons, List.cons_append, run?_cons, next?, hm]
    dsimp only [Option.bind_some]
    rw [hc]
    simpa using ih (c :: read) hcs' hrun

theorem run?_string {q : Quoted} {written : Octets} (read : Octets)
    (hrun : q.run? written = some .plain) :
    (string q read).run? acc (written ++ Token.quote :: rest) =
      between.run? (.string (read.reverse ++ written) :: acc) rest := by
  induction written generalizing q read with
  | nil =>
    obtain rfl : q = .plain := Option.some.inj hrun
    simp [run?_cons, next?]
  | cons o os ih =>
    rw [Quoted.run?] at hrun
    split at hrun
    · cases hrun
    · next hquote =>
      obtain ⟨q', hq', hrun⟩ := Option.bind_eq_some_iff.mp hrun
      rw [List.cons_append, run?_cons, next?, if_neg hquote, hq']
      simpa using ih (o :: read) hrun

/-- **A sound token is read from its octets**, whatever follows; a number needs what ends it. -/
theorem run?_token {t : Token} (h : t.Sound)
    (hrest : ∀ written, t = .number written → Token.Ends rest) :
    between.run? acc (t.octets ++ rest) = between.run? (t :: acc) rest := by
  cases t with
  | listStart | listEnd | objectStart | objectEnd | comma | colon | null => rfl
  | truth value => cases value <;> rfl
  | number written =>
    obtain ⟨hascii, n, hread, hn⟩ := h
    cases written with
    | nil => cases hread
    | cons c cs =>
      obtain ⟨m, hm, hrun⟩ := Option.bind_eq_some_iff.mp hread
      have hc : Char.ofNat (UInt8.ofNat c.toNat).toNat = c :=
        ofNat_toNat_ofNat (hascii c List.mem_cons_self)
      have hcs : ∀ c ∈ cs, c.toNat < 128 := fun d hd ↦ hascii d (List.mem_cons_of_mem c hd)
      rw [Token.octets, Octets.ofAscii_cons, List.cons_append, run?_cons, next?,
        start?_of_first? hm, hc]
      exact run?_number [c] hcs hrun hn (hrest _ rfl)
  | string written =>
    have hstart : start? Token.quote = some (string .plain [], []) := rfl
    simp only [Token.octets, List.cons_append, List.append_assoc, run?_cons,
      next?, hstart, Option.bind_some]
    exact run?_string [] h

theorem run?_tokens {ts : List Token} (hsound : ∀ t ∈ ts, t.Sound)
    (hchain : ts.IsChain Token.MayPrecede) :
    between.run? acc (ts.flatMap Token.octets) = some (acc.reverse ++ ts) := by
  induction ts generalizing acc with
  | nil => rfl
  | cons t ts ih =>
    have hrest : ∀ written, t = .number written → Token.Ends (ts.flatMap Token.octets) := by
      intro written ht
      cases ts with
      | nil => simp [Token.Ends]
      | cons u us => exact .of_mayPrecede (List.isChain_cons_cons.mp hchain).1 ht _
    rw [List.flatMap_cons, run?_token (hsound t List.mem_cons_self) hrest,
      ih (fun u hu ↦ hsound u (List.mem_cons_of_mem t hu)) hchain.tail]
    simp

end Lexing

/-- **Sound tokens are read back**, where no number runs into what follows. -/
theorem tokens?_octets {ts : List Token} (hsound : ∀ t ∈ ts, t.Sound)
    (hchain : ts.IsChain Token.MayPrecede) : tokens? (ts.flatMap Token.octets) = some ts :=
  Lexing.run?_tokens hsound hchain

/-! ## Numbers without sign -/

theorem toNat_ofNat_char (d : Nat) : (UInt8.ofNat (Digits.char d).toNat).toNat = 48 + d % 10 := by
  rw [Digits.toNat_char, UInt8.toNat_ofNat', Nat.mod_eq_of_lt (by omega)]

/-- A number that is not zero starts with a digit that is not zero. -/
theorem run?_plain {n : Nat} (h : 0 < n) :
    Numeral.sign.run? (Octets.ofAscii (Digits.plain n)) = some .whole := by
  induction n using Digits.count.induct with
  | case1 n hn =>
    have hd := toNat_ofNat_char n
    have hne : UInt8.ofNat (Digits.char n).toNat ≠ 48 := by
      rintro h48
      rw [h48, Nat.mod_eq_of_lt hn] at hd
      change 48 = _ at hd
      omega
    have hlead : Numeral.isLeadingDigit (UInt8.ofNat (Digits.char n).toNat) := by
      simp only [Numeral.isLeadingDigit, Bool.and_eq_true, decide_eq_true_eq, UInt8.le_iff_toNat_le,
        hd, Nat.mod_eq_of_lt hn]
      exact ⟨Nat.add_le_add_left h 48, Nat.add_le_add_left (Nat.le_of_lt_succ hn) 48⟩
    rw [Digits.plain_of_lt hn]
    simp [Octets.ofAscii, Numeral.run?, Numeral.next?, hne, hlead]
  | case2 n hn ih =>
    have hdigit : Numeral.isDigit (UInt8.ofNat (Digits.char n).toNat) := by
      have hlt := Nat.mod_lt n (show 0 < 10 by decide)
      simp only [Numeral.isDigit, Bool.and_eq_true, decide_eq_true_eq, UInt8.le_iff_toNat_le,
        toNat_ofNat_char]
      exact ⟨Nat.le_add_right 48 _, Nat.add_le_add_left (Nat.le_of_lt_succ hlt) 48⟩
    rw [Digits.plain_of_not_lt hn, Octets.ofAscii, List.map_append, Numeral.run?_append]
    change ((Numeral.sign.run? (Octets.ofAscii _)).bind _) = _
    rw [ih (by omega)]
    simp [Numeral.run?, Numeral.next?, hdigit]

theorem sound_number_plain (n : Nat) : (Token.number (Digits.plain n)).Sound := by
  refine ⟨fun c hc ↦ Digits.lt_of_mem_fixed hc, ?_⟩
  obtain rfl | hn := Nat.eq_zero_or_pos n
  · exact ⟨.zero, by rw [Digits.plain_of_lt (by decide)]; rfl, rfl⟩
  · refine ⟨.whole, ?_, rfl⟩
    have hrun := run?_plain hn
    cases hplain : Digits.plain n with
    | nil => rw [hplain] at hrun; cases hrun
    | cons c cs =>
      rw [hplain] at hrun
      have hc : UInt8.ofNat c.toNat ≠ 45 := by
        intro h45
        simp [Octets.ofAscii, Numeral.run?, h45, Numeral.next?, Numeral.isLeadingDigit] at hrun
      show (Numeral.first? (UInt8.ofNat c.toNat)).bind _ = _
      rw [Numeral.first?, if_neg hc]
      exact hrun

/-! ## Strings with escapes -/

/-- What is neither a quote nor a backslash nor a control character stands for itself. -/
theorem run?_of_ordinary {os : Octets} (h : ∀ o ∈ os, 32 ≤ o.toNat ∧ o.toNat ≠ 34 ∧ o.toNat ≠ 92) :
    Quoted.plain.run? os = some .plain := by
  induction os with
  | nil => rfl
  | cons o os ih =>
    obtain ⟨hlow, hquote, hslash⟩ := h o List.mem_cons_self
    have hquote' : o ≠ Token.quote := fun ho ↦ hquote (congrArg UInt8.toNat ho)
    have hslash' : o ≠ 92 := fun ho ↦ hslash (congrArg UInt8.toNat ho)
    have hlow' : ¬o < 32 := by
      rw [UInt8.lt_iff_toNat_lt]
      exact Nat.not_lt.mpr hlow
    rw [Quoted.run?, if_neg fun ho ↦ hquote' ho.2, Quoted.next?, if_neg hlow', if_neg hslash']
    exact ih fun o ho ↦ h o (List.mem_cons_of_mem _ ho)

theorem utf8EncodeChar_hexChar {d : Nat} (h : d < 16) :
    ∃ o, String.utf8EncodeChar (hexChar d) = [o] ∧ Quoted.isHexDigit o := by
  match d, h with
  | 0, _ | 1, _ | 2, _ | 3, _ | 4, _ | 5, _ | 6, _ | 7, _ | 8, _ | 9, _ | 10, _ | 11, _ | 12, _
  | 13, _ | 14, _ | 15, _ => exact ⟨_, rfl, rfl⟩
  | d + 16, h => omega

theorem run?_unicodeEscape {d d' : Nat} (h : d < 16) (h' : d' < 16) :
    Quoted.plain.run? (['\\', 'u', '0', '0', hexChar d, hexChar d'].flatMap
      String.utf8EncodeChar) = some .plain := by
  obtain ⟨o, ho, hhex⟩ := utf8EncodeChar_hexChar h
  obtain ⟨o', ho', hhex'⟩ := utf8EncodeChar_hexChar h'
  have hstem : ['\\', 'u', '0', '0', hexChar d, hexChar d'].flatMap String.utf8EncodeChar =
      [92, 117, 48, 48] ++ [o, o'] := by
    simp only [List.flatMap_cons, List.flatMap_nil, ho, ho']
    rfl
  rw [hstem, Quoted.run?_append, show Quoted.plain.run? [92, 117, 48, 48] = some (.hex 2) from rfl]
  simp [Quoted.run?, Quoted.next?, hhex, hhex']

theorem run?_escapeChar (c : Char) :
    Quoted.plain.run? ((escapeChar c).flatMap String.utf8EncodeChar) = some .plain := by
  unfold escapeChar
  split
  · rfl
  split
  · rfl
  split
  · rfl
  split
  · rfl
  split
  · rfl
  split
  · rfl
  split
  · rfl
  split
  · next hcontrol => exact run?_unicodeEscape (by omega) (by omega)
  · next hquote hslash _ _ _ _ _ hcontrol =>
    have hquote' : c.toNat ≠ 34 := fun h ↦ hquote (Char.toNat_inj.mp h)
    have hslash' : c.toNat ≠ 92 := fun h ↦ hslash (Char.toNat_inj.mp h)
    rw [List.flatMap_singleton]
    refine run?_of_ordinary fun o ho ↦ ?_
    obtain ⟨ho, -⟩ | ho := Octets.of_mem_utf8EncodeChar ho <;> omega

theorem sound_writtenString (text : String) : (Token.string (writtenString text)).Sound := by
  show Quoted.plain.run? (writtenString text) = some .plain
  rw [writtenString, Octets.ofText_ofList, escape]
  induction text.toList with
  | nil => rfl
  | cons c cs ih =>
    rw [List.flatMap_cons, List.flatMap_append, Quoted.run?_append, run?_escapeChar]
    exact ih

end Json

end ServiceBus
