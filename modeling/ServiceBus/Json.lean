import ServiceBus.Json.Escape
import ServiceBus.Json.Lexer

/-!
# JSON values

A JSON value is a tree.  It is written without blanks, members in their order.  It is read in two
stages, octets to tokens and tokens to a value; the second keeps the lists and objects that are
still open on a stack, so that the depth of a value has no limit.
-/

set_option autoImplicit false

namespace ServiceBus

/-- A JSON value.  Numbers and strings are kept as written. -/
inductive Json
  | null
  | truth (value : Bool)
  | number (written : List Char)
  | string (written : Octets)
  | list (items : List Json)
  | object (members : List (Octets × Json))
deriving Inhabited

namespace Json

/-! ## Making values -/

/-- A text as a value. -/
def ofText (text : String) : Json := string (writtenString text)

/-- An object whose members have these names. -/
def ofMembers (members : List (String × Json)) : Json :=
  object (members.map fun (name, value) ↦ (writtenString name, value))

/-! ## Writing -/

mutual

/-- The tokens of a value. -/
def tokens : Json → List Token
  | null => [.null]
  | truth value => [.truth value]
  | number written => [.number written]
  | string written => [.string written]
  | list items => .listStart :: itemTokens items ++ [.listEnd]
  | object members => .objectStart :: memberTokens members ++ [.objectEnd]

/-- The tokens of the items of a list, with commas between them. -/
def itemTokens : List Json → List Token
  | [] => []
  | [item] => tokens item
  | item :: item' :: items => tokens item ++ .comma :: itemTokens (item' :: items)

/-- The tokens of the members of an object, with commas between them. -/
def memberTokens : List (Octets × Json) → List Token
  | [] => []
  | [(name, value)] => .string name :: .colon :: tokens value
  | (name, value) :: member :: members =>
    .string name :: .colon :: tokens value ++ .comma :: memberTokens (member :: members)

end

/-- The octets of a value. -/
def octets (j : Json) : Octets := j.tokens.flatMap Token.octets

/-- The text of a value. -/
def text (j : Json) : String := (Octets.text? j.octets).getD ""

/-! ## Reading -/

/-- A list or an object that is still open, with what has been read of it, last one first; an object
is open at the value of a member. -/
inductive Frame
  | list (items : List Json)
  | member (members : List (Octets × Json)) (name : Octets)

/-- What may come next. -/
inductive Reading
  | needValue (above : List Frame)
  | listStart (above : List Frame)
  | objectStart (above : List Frame)
  | needName (members : List (Octets × Json)) (above : List Frame)
  | needColon (members : List (Octets × Json)) (name : Octets) (above : List Frame)
  | afterItem (items : List Json) (above : List Frame)
  | afterMember (members : List (Octets × Json)) (above : List Frame)
  | done (value : Json)

namespace Reading

/-- A value is complete. -/
def close (value : Json) : List Frame → Reading
  | [] => done value
  | .list items :: above => afterItem (value :: items) above
  | .member members name :: above => afterMember ((name, value) :: members) above

/-- Begins a value. -/
def begin? (above : List Frame) : Token → Option Reading
  | .null => some (close .null above)
  | .truth value => some (close (.truth value) above)
  | .number written => some (close (.number written) above)
  | .string written => some (close (.string written) above)
  | .listStart => some (listStart above)
  | .objectStart => some (objectStart above)
  | _ => none

/-- Reads a token. -/
def next? (r : Reading) (token : Token) : Option Reading :=
  match r, token with
  | needValue above, token => begin? above token
  | listStart above, .listEnd => some (close (.list []) above)
  | listStart above, token => begin? (.list [] :: above) token
  | objectStart above, .objectEnd => some (close (.object []) above)
  | objectStart above, .string written => some (needColon [] written above)
  | needName members above, .string written => some (needColon members written above)
  | needColon members written above, .colon => some (needValue (.member members written :: above))
  | afterItem items above, .comma => some (needValue (.list items :: above))
  | afterItem items above, .listEnd => some (close (.list items.reverse) above)
  | afterMember members above, .comma => some (needName members above)
  | afterMember members above, .objectEnd => some (close (.object members.reverse) above)
  | _, _ => none

/-- Reads tokens. -/
def run? (r : Reading) : List Token → Option Reading
  | [] => some r
  | token :: tokens =>
    match r.next? token with
    | none => none
    | some r' => run? r' tokens

/-- The value that has been read, if it is complete. -/
def result? : Reading → Option Json
  | done value => some value
  | _ => none

end Reading

/-- Reads a value from its tokens. -/
def ofTokens? (tokens : List Token) : Option Json :=
  ((Reading.needValue []).run? tokens).bind Reading.result?

/-- Reads a value. -/
def ofOctets? (octets : Octets) : Option Json := (tokens? octets).bind ofTokens?

/-! ## Looking into values -/

/-- The text that a value is. -/
def text? : Json → Option String
  | string written => readString? written
  | _ => none

/-- The items of a list. -/
def items? : Json → Option (List Json)
  | list items => some items
  | _ => none

/-- The value of a member, the last one if there are several of the name. -/
def member? (j : Json) (name : String) : Option Json :=
  match j with
  | object members =>
    (members.reverse.find? fun m ↦ decide (readString? m.1 = some name)).map Prod.snd
  | _ => none

end Json

end ServiceBus
