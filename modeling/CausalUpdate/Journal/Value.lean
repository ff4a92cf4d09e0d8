import CausalUpdate.Decimal.Form
import CausalUpdate.Journal.Kind.Catalogue
import CausalUpdate.Text.Json

/-!
# Values of fields

A record of the journal has fields, and messages show their values.  A value can be asked for an
item of it, by a number or by a name, and it can be laid out; both can fail, and how depends on the
kind of the value.  The kind of a value is itself a value, and so are the members of the kind; a
kind of values that hold others can be narrowed down by a key.

* `displayed`, `inner` — the text of data on its own and inside other data.
* `FieldValue` — a value of a field, or what can be asked of one.
* `FieldValue.numbered`, `FieldValue.named` — an item of a value.
* `FieldValue.laidOut` — a value in a given layout.
-/

namespace CausalUpdate

open CausalUpdate.Text

/-! ## Text -/

mutual

/-- A value inside another one, as a record shows it. -/
def inner : Json → String
  | .null => "None"
  | .bool value => if value then "True" else "False"
  | .int value => toString value
  | .decimal value => Decimal.shortestText value
  | .str text => quoted text
  | .arr items => "[" ++ String.intercalate ", " (innerItems items) ++ "]"
  | .obj fields => "\x7b" ++ String.intercalate ", " (innerFields fields) ++ "\x7d"

def innerItems : List Json → List String
  | [] => []
  | item :: items => inner item :: innerItems items

def innerFields : List (String × Json) → List String
  | [] => []
  | (name, value) :: fields => (quoted name ++ ": " ++ inner value) :: innerFields fields

end

/-- A value as a record shows it: texts as they are, anything else as inside another value. -/
def displayed : Json → String
  | .str text => text
  | value => inner value

/-! ## Values -/

/-- The value of a field, or a part of it. -/
inductive FieldValue
  | data (value : Json)
  | kind (k : Kind)
  /-- A kind that is narrowed down by a key. -/
  | narrowed (k : Kind) (key : Json)
  /-- Values in a row. -/
  | row (items : List FieldValue)
  /-- A member of a kind, not asked of any value. -/
  | offered (owner : Kind) (m : Member)
  /-- An operation that a kind offers, asked of a value. -/
  | bound (owner : Kind) (m : Member) (holder : FieldValue)
  /-- The members of a kind by name. -/
  | members (k : Kind)

/-- Why a part of a value, or the value in some layout, cannot be had. -/
inductive FieldError
  /-- An object has no field of that name. -/
  | unknownEntry (name : String)
  /-- An object is asked for a field by a number. -/
  | unknownNumber (number : Nat)
  /-- A text, a list or a row is shorter than that. -/
  | outOfRange (kind : String)
  /-- A text, a list or a row is asked for a part by a name. -/
  | namedPart (kind : String)
  /-- Values of the kind have no parts. -/
  | noParts (kind : String)
  /-- The kind cannot be narrowed down. -/
  | noPartsOfKind (name : String)
  /-- The kind is already narrowed down. -/
  | narrowedTwice (shown : String)
  /-- Values of the kind have no such member. -/
  | noMember (kind name : String)
  /-- The kind has no such member. -/
  | noMemberOfKind (kind name : String)
  /-- The part of the kind is not there. -/
  | unset (name : String)
  /-- Values of the kind cannot be laid out. -/
  | noLayout (kind : String)
  | layout (error : LayoutError)
deriving DecidableEq, Repr

/-- The kinds whose parts are numbered, with what they are called in messages. -/
def pluralOf (kind : String) : String :=
  if kind = "str" then "string" else kind

def FieldError.message : FieldError → String
  | .unknownEntry name => quoted name
  | .unknownNumber number => toString number
  | .outOfRange kind => s!"{pluralOf kind} index out of range"
  | .namedPart "str" => "string indices must be integers, not 'str'"
  | .namedPart kind => s!"{kind} indices must be integers or slices, not str"
  | .noParts kind => s!"'{kind}' object is not subscriptable"
  | .noPartsOfKind name => s!"type '{name}' is not subscriptable"
  | .narrowedTwice shown => s!"{shown} is not a generic class"
  | .noMember kind name => s!"'{kind}' object has no attribute '{name}'"
  | .noMemberOfKind kind name => s!"type object '{kind}' has no attribute '{name}'"
  | .unset name => name
  | .noLayout kind => s!"unsupported format string passed to {kind}.__format__"
  | .layout error => error.message

namespace FieldValue

/-- The kind of what a member of a kind is. -/
def kindOfMember (m : Member) : Kind :=
  match m.sort with
  | .method => .method
  | .sign => .sign
  | .shared => .shared
  | .free => .free
  | .part => .part
  | .field => .field
  | .maker => .operation
  | .about => .text
  | .refused => .absent

def kindOf : FieldValue → Kind
  | data .null => .absent
  | data (.bool _) => .truth
  | data (.int _) => .whole
  | data (.decimal _) => .decimal
  | data (.str _) => .text
  | data (.arr _) => .list
  | data (.obj _) => .entries
  | kind _ => .kind
  | narrowed _ _ => .narrowed
  | row _ => .row
  | offered _ m => kindOfMember m
  | bound _ m _ => if m.sort = .sign then .signed else .operation
  | members _ => .directory

/-- The name of the kind of a value. -/
def kindName (v : FieldValue) : String :=
  v.kindOf.name

/-- A text, or nothing if there is none. -/
def ofText? (text : Option String) : FieldValue :=
  data ((text.map Json.str).getD .null)

/-- A member of a kind as a value. -/
def ofMember (owner : Kind) (m : Member) : FieldValue :=
  match m.sort with
  | .maker => bound owner m (kind owner)
  | .about => ofText? owner.description.about
  | .refused => data .null
  | _ => offered owner m

/-! ## Text -/

/-- Where a value is kept; no two runs need agree on it. -/
def place : String := "0x7f0000000000"

/-- The text of an operation of a value of some kind. -/
def operationText (m : Member) (holder : Kind) : String :=
  let shown :=
    if m.sort = .sign then s!"method-wrapper '{m.name}'" else s!"built-in method {m.name}"
  s!"<{shown} of {holder.name} object at {place}>"

/-- The text of a member of a kind. -/
def memberText (owner : Kind) (m : Member) : String :=
  let shown (sort : String) := s!"<{sort} '{m.name}' of '{owner.name}' objects>"
  match m.sort with
  | .method | .shared => shown "method"
  | .sign => shown "slot wrapper"
  | .part => shown "attribute"
  | .field => shown "member"
  | .maker => operationText m .kind
  | .free => s!"<{Kind.free.name}({operationText m .kind})>"
  | .about => inner ((owner.description.about.map Json.str).getD .null)
  | .refused => inner .null

/-- The text of the members of a kind. -/
def membersText (k : Kind) : String :=
  let shown := k.description.members.map fun m => quoted m.name ++ ": " ++ memberText k m
  "\x7b" ++ String.intercalate ", " shown ++ "\x7d"

mutual

/-- The text of a value inside another one. -/
def innerText : FieldValue → String
  | data value => inner value
  | kind k => s!"<class '{k.name}'>"
  | narrowed k key => k.name ++ "[" ++ inner key ++ "]"
  | row [item] => "(" ++ innerText item ++ ",)"
  | row items => "(" ++ String.intercalate ", " (innerTexts items) ++ ")"
  | offered owner m => memberText owner m
  | bound _ m holder => operationText m holder.kindOf
  | members k => Kind.directory.name ++ "(" ++ membersText k ++ ")"

/-- The texts of values inside another one. -/
def innerTexts : List FieldValue → List String
  | [] => []
  | item :: items => innerText item :: innerTexts items

end

/-- The text of a value on its own. -/
def text : FieldValue → String
  | data value => displayed value
  | members k => membersText k
  | value => value.innerText

/-! ## Items -/

/-- The item of a list with a number. -/
def itemAt {α : Type} (kind : String) (items : List α) (n : Nat) (shown : α → FieldValue) :
    Except FieldError FieldValue :=
  match items[n]? with
  | some item => .ok (shown item)
  | none => .error (.outOfRange kind)

/-- A kind narrowed down by a key. -/
def narrow (k : Kind) (key : Json) : Except FieldError FieldValue :=
  if k.isOpen then .ok (narrowed k key) else .error (.noPartsOfKind k.name)

/-- The item of a value with a number. -/
def numbered (v : FieldValue) (n : Nat) : Except FieldError FieldValue :=
  match v with
  | data (.str s) => itemAt v.kindName s.toList n fun c => data (.str (String.ofList [c]))
  | data (.arr items) => itemAt v.kindName items n data
  | row items => itemAt v.kindName items n id
  | data (.obj _) | members _ => .error (.unknownNumber n)
  | kind k => narrow k (.int n)
  | narrowed _ _ => .error (.narrowedTwice v.innerText)
  | v => .error (.noParts v.kindName)

/-- The item of a value with a name. -/
def named (v : FieldValue) (name : String) : Except FieldError FieldValue :=
  match v with
  | data (.str _) | data (.arr _) | row _ => .error (.namedPart v.kindName)
  | data (.obj fields) =>
    match fields.lookup name with
    | some value => .ok (data value)
    | none => .error (.unknownEntry name)
  | members k =>
    match k.own? name with
    | some m => .ok (ofMember k m)
    | none => .error (.unknownEntry name)
  | kind k => narrow k (.str name)
  | narrowed _ _ => .error (.narrowedTwice v.innerText)
  | v => .error (.noParts v.kindName)

/-! ## Layouts -/

/-- The forms in which any number can be shown. -/
def decimalCodes : List Char :=
  ['e', 'E', 'f', 'F', 'g', 'G', '%']

/-- The forms in which only whole numbers can be shown. -/
def wholeCodes : List Char :=
  ['b', 'c', 'd', 'o', 'x', 'X']

/-- The layout of a value, whose form has to be one of its kind. -/
def layoutFor (v : FieldValue) (default : Option Char) (known : List Char) (layout : List Char) :
    Except LayoutError Layout := do
  let l ← Layout.read v.kindName default layout
  match l.code.filter fun c => !known.contains c with
  | some c => throw (.unknownCode c v.kindName)
  | none => return l

/-- A whole number in a layout; many forms are those of other numbers. -/
def wholeLaidOut (n : Int) (l : Layout) : Except LayoutError (List Char) :=
  if l.code.any decimalCodes.contains then l.fitDecimal (.ofInt n) else l.fitWhole n

/-- A value in the layout that a text writes; an empty text leaves it as it is. -/
def laidOut (v : FieldValue) (layout : List Char) : Except FieldError (List Char) :=
  let fitted : Except FieldError (Except LayoutError (List Char)) :=
    match v with
    | data (.str s) => .ok do (← v.layoutFor (some 's') ['s'] layout).fitText s.toList
    | data (.decimal x) => .ok do
      let l ← v.layoutFor none (Layout.noCode :: 'n' :: decimalCodes) layout
      { l with code := l.code.filter (· ≠ Layout.noCode) }.fitDecimal x
    | data (.int n) => .ok do
      wholeLaidOut n (← v.layoutFor none ('n' :: wholeCodes ++ decimalCodes) layout)
    | data (.bool b) => .ok do
      wholeLaidOut b.toInt (← v.layoutFor none ('n' :: wholeCodes ++ decimalCodes) layout)
    | v => .error (.noLayout v.kindName)
  if layout.isEmpty then .ok v.text.toList else fitted.bind (Except.mapError .layout)

end FieldValue

end CausalUpdate
