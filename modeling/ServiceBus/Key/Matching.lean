import ServiceBus.Key

/-!
# Matching

`Key.accepts pattern key` says whether a pattern asks for a routing key.  Against a routing key
that is in tokens the pattern is walked token by token.  Against a joined key the tokens are not
known, so the pattern is turned into a text pattern first: its tokens with dots between them, cut
at the first `#`, with `*` standing for any run of characters on one line.  The run may well cross
dots, so a joined key can be accepted where the tokens it was joined from would not be.

A pattern of a single token is compared with the whole joined text as if that were one token.

A text pattern can be of any size here.  What is left out is that one of tens of thousands of tokens
may be too large to be made at all, so that nothing matches it and a warning is given.

`acceptsText` says what it means that a text pattern matches; `answers` works it out for all tails of
a text at once, and `acceptsJoined_eq` says that this comes to the same.
-/

set_option autoImplicit false

namespace ServiceBus

namespace Key

/-! ## Token by token -/

/-- Walks the tokens of a pattern and of a routing key side by side.  A `#` settles the rest, but
only if there is a token left for it. -/
def acceptsParts : List String → List String → Bool
  | pattern, [] => pattern.isEmpty
  | [], _ :: _ => false
  | p :: ps, r :: rs =>
    if p = sharp then true
    else if p = star ∨ p = r then acceptsParts ps rs
    else false

/-! ## Against a joined text -/

/-- One position of a text pattern: a character, or a run of characters within a line. -/
inductive Glyph
  | char (c : Char)
  | run
deriving DecidableEq, Repr

/-- The glyphs of one token. -/
def tokenGlyphs (token : String) : List Glyph :=
  if token = star then [.run] else token.toList.map .char

/-- The glyphs of a sequence of tokens, with dots between the tokens. -/
def glyphs : List String → List Glyph
  | [] => []
  | [token] => tokenGlyphs token
  | token :: tokens => tokenGlyphs token ++ .char '.' :: glyphs tokens

/-- Whether the test holds of the text, or of a later tail of it that is reached without crossing
a line feed. -/
def anyTail (test : List Char → Bool) : List Char → Bool
  | [] => test []
  | c :: cs => test (c :: cs) || (c ≠ '\n' && anyTail test cs)

/-- Whether glyphs match a text from its start, and up to its end unless the pattern is open. -/
def acceptsText (isOpen : Bool) : List Glyph → List Char → Bool
  | [], text => isOpen || text.isEmpty
  | .char _ :: _, [] => false
  | .char c :: gs, d :: text => c = d && acceptsText isOpen gs text
  | .run :: gs, text => anyTail (acceptsText isOpen gs) text

/-! ## All tails at once

A pattern with many runs is tried on the same tails of a text again and again.  So the answers for
all tails are worked out together, from the last glyph to the first. -/

/-- The answers of no glyphs, for each tail of a text and the longest first. -/
def endAnswers (isOpen : Bool) : List Char → List Bool
  | [] => [true]
  | _ :: cs => isOpen :: endAnswers isOpen cs

/-- The answers when a character is put in front of the glyphs that gave the answers. -/
def charAnswers (c : Char) : List Char → List Bool → List Bool
  | d :: text, _ :: later => (c = d && later.headD false) :: charAnswers c text later
  | _, _ => [false]

/-- The answers when a run is put in front of the glyphs that gave the answers. -/
def runAnswers : List Char → List Bool → List Bool
  | d :: text, answer :: later =>
    let rest := runAnswers text later
    (answer || (d ≠ '\n' && rest.headD false)) :: rest
  | _, answers => answers

/-- Whether glyphs match each tail of a text, the longest first. -/
def answers (isOpen : Bool) : List Glyph → List Char → List Bool
  | [], text => endAnswers isOpen text
  | .char c :: gs, text => charAnswers c text (answers isOpen gs text)
  | .run :: gs, text => runAnswers text (answers isOpen gs text)

theorem answers_nil (isOpen : Bool) (gs : List Glyph) :
    answers isOpen gs [] = [acceptsText isOpen gs []] := by
  induction gs with
  | nil => simp [answers, endAnswers, acceptsText]
  | cons g gs ih => cases g <;> simp [answers, charAnswers, runAnswers, acceptsText, anyTail, ih]

theorem answers_cons (isOpen : Bool) (gs : List Glyph) (d : Char) (text : List Char) :
    answers isOpen gs (d :: text) =
      acceptsText isOpen gs (d :: text) :: answers isOpen gs text := by
  induction gs generalizing d text with
  | nil => simp [answers, endAnswers, acceptsText]
  | cons g gs ih =>
    cases g with
    | char c =>
      cases text with
      | nil => simp [answers, charAnswers, acceptsText, ih, answers_nil]
      | cons e text => simp [answers, charAnswers, acceptsText, ih]
    | run =>
      have hrun : (runAnswers text (answers isOpen gs text)).headD false =
          anyTail (acceptsText isOpen gs) text := by
        induction text with
        | nil => simp [answers_nil, runAnswers, anyTail]
        | cons e text iht => rw [ih, runAnswers, iht, anyTail, List.headD_cons]
      rw [answers, ih, runAnswers, hrun, acceptsText, anyTail, answers]

/-- The first answer is that for the whole text. -/
theorem headD_answers (isOpen : Bool) (gs : List Glyph) (text : List Char) :
    (answers isOpen gs text).headD false = acceptsText isOpen gs text := by
  cases text <;> simp [answers_nil, answers_cons]

/-- Whether a pattern, given by its tokens, matches a dotted text. -/
def acceptsJoined (pattern : List String) (text : String) : Bool :=
  (answers (pattern.contains sharp) (glyphs (pattern.takeWhile (· ≠ sharp))) text.toList).headD false

/-- A dotted text is matched as a whole, glyph by glyph. -/
theorem acceptsJoined_eq (pattern : List String) (text : String) :
    acceptsJoined pattern text =
      acceptsText (pattern.contains sharp) (glyphs (pattern.takeWhile (· ≠ sharp))) text.toList :=
  headD_answers ..

/-! ## The test -/

/-- Whether a pattern asks for messages with this routing key. -/
def accepts (pattern key : Key) : Bool :=
  if pattern.isEmpty then true
  else if key.joined && 1 < pattern.parts.length then
    acceptsJoined pattern.parts (key.parts.headD "")
  else acceptsParts pattern.parts key.parts

theorem accepts_of_isEmpty {pattern : Key} (h : pattern.isEmpty) (key : Key) :
    pattern.accepts key = true := by
  simp [accepts, h]

/-- Whether a pattern is joined makes no difference to what it asks for. -/
theorem accepts_congr_parts {k k' : Key} (h : k.parts = k'.parts) (key : Key) :
    k.accepts key = k'.accepts key := by
  simp [accepts, isEmpty, h]

end Key

end ServiceBus
