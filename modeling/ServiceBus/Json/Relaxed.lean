import ServiceBus.Json
import ServiceBus.Text.Letter

/-!
# JSON as people write it

Settings are written in JSON5: with comments, with single quotes, with names without quotes, with a
comma after the last item, and with more ways to write a number.  Such a text is turned into the
tokens of JSON, and from there on it is read as JSON.

A string is brought into the escapes of JSON, and so is a name.  A character outside the first plane
may come as two escapes, one for each half of its surrogate pair; a half that stands alone is refused.
A number stays as it was written.
-/

set_option autoImplicit false

namespace ServiceBus.Json.Relaxed

/-! ## Classes of characters -/

/-- The character ends a line. -/
def isLineEnd (c : Char) : Bool := c = '\n' || c = '\r' || c = '\u2028' || c = '\u2029'

/-- The character stands between tokens. -/
def isBlank (c : Char) : Bool :=
  let n := c.toNat
  isLineEnd c || n = 9 || n = 11 || n = 12 || n = 32 || n = 0xA0 || n = 0xFEFF || n = 0x1680 ||
    (0x2000 ≤ n && n ≤ 0x200A) || n = 0x202F || n = 0x205F || n = 0x3000

/-- The character is a decimal digit. -/
def isDigit (c : Char) : Bool := 48 ≤ c.toNat && c.toNat ≤ 57

/-- The character is a hexadecimal digit. -/
def isHexDigit (c : Char) : Bool := (hexValue? c).isSome

/-! ## Comments -/

/-- What follows a comment that runs until `*/`. -/
def afterComment? : List Char → Option (List Char)
  | [] => none
  | '*' :: '/' :: rest => some rest
  | _ :: rest => afterComment? rest

/-! ## Strings and names -/

/-- A piece of a string or a name: a character, or an escape of four hexadecimal digits. -/
inductive Piece
  | char (c : Char)
  | unit (value : Nat)
deriving DecidableEq, Repr

/-- The character of a surrogate pair of escapes.  Each half gives ten binary digits, and these are
laid over the number `0x10000`: what the digits have in common with it counts once. -/
def overlaid (high low : Nat) : Char :=
  Char.ofNat (((high - 0xD800) * 0x400 + (low - 0xDC00)) ||| 0x10000)

/-- The characters that pieces stand for, if no half of a surrogate pair stands alone. -/
def characters? : List Piece → Option (List Char)
  | [] => some []
  | .char c :: pieces => (characters? pieces).map (c :: ·)
  | .unit n :: pieces =>
    if isLowHalf n then none
    else if isHighHalf n then
      match pieces with
      | .unit m :: pieces =>
        if isLowHalf m then (characters? pieces).map (overlaid n m :: ·) else none
      | _ => none
    else (characters? pieces).map (Char.ofNat n :: ·)

/-- The string token of pieces. -/
def stringToken? (pieces : List Piece) : Option Token :=
  (characters? pieces).map fun cs ↦ .string (writtenString (String.ofList cs))

/-- The character that a backslash makes of the next one. -/
def escaped (c : Char) : Char :=
  if c = 'b' then '\x08'
  else if c = 'f' then '\x0c'
  else if c = 'n' then '\n'
  else if c = 'r' then '\r'
  else if c = 't' then '\t'
  else if c = 'v' then '\x0b'
  else if c = '0' then '\x00'
  else c

/-- Reads a string up to the quote that it began with. -/
def string? (quote : Char) : List Char → Option (List Piece × List Char)
  | [] => none
  | '\\' :: 'u' :: a :: b :: c :: d :: rest =>
    match fourHex? a b c d with
    | some n => (string? quote rest).map fun (ps, rest) ↦ (.unit n :: ps, rest)
    | none => none
  | '\\' :: 'x' :: a :: b :: rest =>
    match hexValue? a, hexValue? b with
    | some m, some n =>
      (string? quote rest).map fun (ps, rest) ↦ (.char (Char.ofNat (m * 16 + n)) :: ps, rest)
    | _, _ => none
  | '\\' :: '\r' :: '\n' :: rest => string? quote rest
  | '\\' :: c :: rest =>
    if isLineEnd c then string? quote rest
    else if c = 'u' ∨ c = 'x' ∨ (isDigit c ∧ c ≠ '0') then none
    else (string? quote rest).map fun (ps, rest) ↦ (.char (escaped c) :: ps, rest)
  | c :: rest =>
    if c = quote then some ([], rest)
    else if c = '\\' ∨ isLineEnd c then none
    else (string? quote rest).map fun (ps, rest) ↦ (.char c :: ps, rest)

/-- Reads what goes on with a name. -/
def nameRest : List Char → List Piece × List Char
  | '\\' :: 'u' :: a :: b :: c :: d :: rest =>
    match fourHex? a b c d with
    | some n =>
      let (ps, rest) := nameRest rest
      (.unit n :: ps, rest)
    | none => ([], '\\' :: 'u' :: a :: b :: c :: d :: rest)
  | c :: rest =>
    if Letter.continuesName c then
      let (ps, rest) := nameRest rest
      (.char c :: ps, rest)
    else ([], c :: rest)
  | [] => ([], [])

/-- The text goes on with what may start a name. -/
def nameStarts : List Char → Bool
  | '\\' :: _ => true
  | c :: _ => Letter.startsName c
  | [] => false

/-! ## Numbers -/

/-- Reads an exponent, if there is one. -/
def power (cs : List Char) : List Char × List Char :=
  match cs with
  | e :: s :: cs' =>
    if e = 'e' ∨ e = 'E' then
      if isDigit s then ([e, s] ++ cs'.takeWhile isDigit, cs'.dropWhile isDigit)
      else if (s = '+' ∨ s = '-') ∧ (cs'.head?.any isDigit) then
        ([e, s] ++ cs'.takeWhile isDigit, cs'.dropWhile isDigit)
      else ([], cs)
    else ([], cs)
  | _ => ([], cs)

/-- Reads a decimal number without sign. -/
def decimal? (cs : List Char) : Option (List Char × List Char) :=
  let whole := match cs with
    | '0' :: _ => ['0']
    | _ => cs.takeWhile isDigit
  let rest := cs.drop whole.length
  match rest with
  | '.' :: rest' =>
    let places := rest'.takeWhile isDigit
    if whole.isEmpty ∧ places.isEmpty then none
    else
      let (exponent, rest'') := power (rest'.dropWhile isDigit)
      some (whole ++ '.' :: places ++ exponent, rest'')
  | _ =>
    if whole.isEmpty then none
    else
      let (exponent, rest') := power rest
      some (whole ++ exponent, rest')

/-- Reads a number without sign that does not start with a letter. -/
def unsigned? (cs : List Char) : Option (List Char × List Char) :=
  match cs with
  | '0' :: x :: rest =>
    if (x = 'x' ∨ x = 'X') ∧ rest.head?.any isHexDigit then
      some ('0' :: x :: rest.takeWhile isHexDigit, rest.dropWhile isHexDigit)
    else decimal? cs
  | _ => decimal? cs

/-- The names of numbers. -/
def numberNames : List (List Char) := ["Infinity".toList, "NaN".toList]

/-- Reads what may follow the sign of a number. -/
def afterSign? (cs : List Char) : Option (List Char × List Char) :=
  match numberNames.find? fun name ↦ name.isPrefixOf cs with
  | some name => some (name, cs.drop name.length)
  | none => unsigned? cs

/-! ## Tokens -/

/-- A token, or a name whose meaning depends on what follows it. -/
inductive Lexeme
  | token (token : Token)
  | name (pieces : List Piece)

/-- Reads up to the end of a token or of what stands between tokens. -/
def lexeme? : List Char → Option (List Lexeme × List Char)
  | [] => none
  | '/' :: '/' :: rest => some ([], rest.dropWhile fun c ↦ !isLineEnd c)
  | '/' :: '*' :: rest => (afterComment? rest).map fun rest ↦ ([], rest)
  | c :: rest =>
    if isBlank c then some ([], rest)
    else if c = '[' then some ([.token .listStart], rest)
    else if c = ']' then some ([.token .listEnd], rest)
    else if c = '\x7b' then some ([.token .objectStart], rest)
    else if c = '\x7d' then some ([.token .objectEnd], rest)
    else if c = ',' then some ([.token .comma], rest)
    else if c = ':' then some ([.token .colon], rest)
    else if c = '"' ∨ c = '\'' then
      (string? c rest).bind fun (pieces, rest) ↦
        (stringToken? pieces).map fun token ↦ ([.token token], rest)
    else if c = '+' ∨ c = '-' then
      (afterSign? rest).map fun (cs, rest) ↦ ([.token (.number (c :: cs))], rest)
    else if isDigit c ∨ c = '.' then
      (unsigned? (c :: rest)).map fun (cs, rest) ↦ ([.token (.number cs)], rest)
    else if nameStarts (c :: rest) then
      let (pieces, rest) := nameRest (c :: rest)
      some ([.name pieces], rest)
    else none

/-- The lexemes of a text. -/
def lexemes? (cs : List Char) : Option (List Lexeme) :=
  if cs = [] then some []
  else
    match lexeme? cs with
    | none => none
    | some (found, rest) =>
      if _h : rest.length < cs.length then (lexemes? rest).map (found ++ ·) else none
termination_by cs.length

/-- The value that a name stands for.  Such a name has no escapes. -/
def wordToken? (pieces : List Piece) : Option Token :=
  let isWord (word : List Char) : Bool := pieces = word.map Piece.char
  if isWord "null".toList then some .null
  else if isWord "true".toList then some (.truth true)
  else if isWord "false".toList then some (.truth false)
  else (numberNames.find? isWord).map Token.number

/-- The tokens of lexemes: a name before a colon is the name of a member, and a comma before a
closing bracket is passed over. -/
def settle? (afterValue : Bool) : List Lexeme → Option (List Token)
  | [] => some []
  | .name pieces :: .token .colon :: rest =>
    (stringToken? pieces).bind fun token ↦
      (settle? false rest).map fun tokens ↦ token :: .colon :: tokens
  | .name pieces :: rest =>
    match wordToken? pieces with
    | none => none
    | some token => (settle? true rest).map (token :: ·)
  | .token .comma :: .token close :: rest =>
    if afterValue ∧ (close = .listEnd ∨ close = .objectEnd) then
      (settle? true rest).map (close :: ·)
    else (settle? false (.token close :: rest)).map (.comma :: ·)
  | .token token :: rest =>
    let isValue := match token with
      | .listStart | .objectStart | .comma | .colon => false
      | _ => true
    (settle? isValue rest).map (token :: ·)

/-- Reads a value. -/
def ofText? (text : String) : Option Json :=
  (lexemes? text.toList).bind fun lexemes ↦ (settle? false lexemes).bind ofTokens?

end ServiceBus.Json.Relaxed
