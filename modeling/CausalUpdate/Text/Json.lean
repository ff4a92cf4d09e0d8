import CausalUpdate.Decimal.Notation
import CausalUpdate.Text.Quoted

/-!
# JSON documents

A document is a value; objects keep the order of their fields.  `Json.render` writes it over several
lines, each level two blanks deeper, with every character outside printable ASCII escaped.  A
character beyond the basic plane is escaped as the two units that UTF-16 writes it with.  A number
that is not whole is written as the shortest decimal that reads back.
-/

namespace CausalUpdate.Text

inductive Json
  | null
  | bool (value : Bool)
  | int (value : Int)
  | decimal (value : Float)
  | str (text : String)
  | arr (items : List Json)
  | obj (fields : List (String × Json))
deriving Inhabited

namespace Json

def strings (texts : List String) : Json :=
  .arr (texts.map .str)

/-- A value that may be missing. -/
def optional {α : Type} (f : α → Json) : Option α → Json
  | none => .null
  | some a => f a

/-! ## Text -/

/-- The UTF-16 units of a code point. -/
def units (n : Nat) : List Nat :=
  if n < 0x10000 then [n]
  else [0xD800 + (n - 0x10000) / 0x400, 0xDC00 + (n - 0x10000) % 0x400]

/-- A character as it stands in a JSON string. -/
def escapedChar (c : Char) : List Char :=
  if c = '"' ∨ c = '\\' then ['\\', c]
  else if c = '\n' then ['\\', 'n']
  else if c = '\r' then ['\\', 'r']
  else if c = '\t' then ['\\', 't']
  else if c = '\x08' then ['\\', 'b']
  else if c = '\x0c' then ['\\', 'f']
  else if 0x20 ≤ c.toNat ∧ c.toNat < 0x7F then [c]
  else (units c.toNat).flatMap fun u => '\\' :: 'u' :: hexDigits 4 u

/-- A text as a JSON string. -/
def string (s : String) : String :=
  String.ofList ('"' :: s.toList.flatMap escapedChar ++ ['"'])

/-! ## Layout -/

/-- A line break followed by the blanks of a level. -/
def newline (level : Nat) : String :=
  String.ofList ('\n' :: List.replicate (2 * level) ' ')

/-- Items between brackets, one to a line; nothing stands between the brackets of an empty list. -/
def bracketed (level : Nat) (opening closing : String) (items : List String) : String :=
  if items.isEmpty then opening ++ closing
  else
    opening ++ newline (level + 1) ++ String.intercalate ("," ++ newline (level + 1)) items ++
      newline level ++ closing

mutual

/-- A document that stands at a level. -/
def renderAt (level : Nat) : Json → String
  | .null => "null"
  | .bool value => if value then "true" else "false"
  | .int value => toString value
  | .decimal value => Decimal.shortestText value
  | .str text => string text
  | .arr items => bracketed level "[" "]" (renderItems (level + 1) items)
  | .obj fields => bracketed level "\x7b" "\x7d" (renderFields (level + 1) fields)

def renderItems (level : Nat) : List Json → List String
  | [] => []
  | item :: items => renderAt level item :: renderItems level items

def renderFields (level : Nat) : List (String × Json) → List String
  | [] => []
  | (name, value) :: fields =>
    (string name ++ ": " ++ renderAt level value) :: renderFields level fields

end

def render (document : Json) : String :=
  renderAt 0 document

end Json

end CausalUpdate.Text
