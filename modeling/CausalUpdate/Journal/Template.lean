import CausalUpdate.Journal.Asked

/-!
# Message templates

A template is a text with placeholders between braces; a brace that is meant as such is doubled.  A
placeholder names a field of a record, and may go on to a part of its value by attributes and keys.
Behind an exclamation mark stands how the value is turned into a text, and behind a colon how that
is laid out.  The layout may hold placeholders of its own, which may not hold any further ones.

Templates are filled in from left to right, and the first fault ends this, be it a fault of the
template or of the fields.

* `Template.pieces`, `Template.steps` — the parts of a template and of a placeholder.
* `Template.fill` — the text with its placeholders filled in.
-/

namespace CausalUpdate

open CausalUpdate.Text

/-! ## Failures -/

/-- What is wrong with a template. -/
inductive TemplateFault
  /-- A closing brace that closes nothing. -/
  | singleClosing
  /-- An opening brace at the end of the text. -/
  | singleOpening
  /-- An opening brace inside the name of a field. -/
  | nestedOpening
  /-- A placeholder that is not closed. -/
  | unclosed
  /-- A layout that is not closed. -/
  | unclosedLayout
  /-- Nothing stands behind an exclamation mark. -/
  | noConversion
  /-- Something other than a colon stands behind a conversion. -/
  | afterConversion
  | unknownConversion (code : Char)
  /-- An attribute or a key without a name. -/
  | emptyStep
  /-- Something other than an attribute or a key stands behind a key. -/
  | afterKey
  /-- A key that is not closed. -/
  | unclosedKey
  /-- A number is too large for a count. -/
  | tooManyDigits
  /-- A layout inside a layout holds a placeholder. -/
  | tooDeep
deriving DecidableEq, Repr

def TemplateFault.message : TemplateFault → String
  | .singleClosing => "Single '\x7d' encountered in format string"
  | .singleOpening => "Single '\x7b' encountered in format string"
  | .nestedOpening => "unexpected '\x7b' in field name"
  | .unclosed => "expected '\x7d' before end of string"
  | .unclosedLayout => "unmatched '\x7b' in format spec"
  | .noConversion => "end of string while looking for conversion specifier"
  | .afterConversion => "expected ':' after conversion specifier"
  | .unknownConversion code =>
    "Unknown conversion specifier " ++
      if 32 < code.toNat ∧ code.toNat < 127 then String.ofList [code]
      else "\\x" ++ shortHex code.toNat
  | .emptyStep => "Empty attribute in format string"
  | .afterKey => "Only '.' or '[' may follow ']' in format field specifier"
  | .unclosedKey => "Missing ']' in format string"
  | .tooManyDigits => "Too many decimal digits in format string"
  | .tooDeep => "Max string recursion exceeded"

/-- Why a template cannot be filled in. -/
inductive TemplateError
  /-- No field has the name of a placeholder. -/
  | unknownField (name : String)
  /-- A placeholder gives a position in place of a name. -/
  | positional (index : Nat)
  /-- A value is not what the template takes it for. -/
  | value (error : FieldError)
  | malformed (fault : TemplateFault)
deriving DecidableEq, Repr

def TemplateError.message : TemplateError → String
  | .unknownField name => quoted name
  | .positional index => s!"Replacement index {index} out of range for positional args tuple"
  | .value error => error.message
  | .malformed fault => fault.message

namespace Template

/-! ## Pieces of a template -/

structure Placeholder where
  /-- The field that it names, with the way to a part of its value. -/
  name : List Char
  /-- How the value is turned into a text. -/
  conversion : Option Char := none
  /-- How the value is laid out. -/
  layout : List Char := []
deriving DecidableEq, Repr

inductive Piece
  | literal (c : Char)
  | placeholder (p : Placeholder)
  /-- The template is malformed from here on. -/
  | fault (f : TemplateFault)
deriving DecidableEq, Repr

/-- Where in a template a character stands.  What was read of a placeholder is kept backwards. -/
inductive Place
  /-- Outside placeholders. -/
  | outside
  /-- Behind an opening brace that may be doubled. -/
  | opened
  /-- Behind a closing brace that has to be doubled. -/
  | closed
  /-- Inside the name of a placeholder, and there possibly inside a key. -/
  | name (inKey : Bool) (read : List Char)
  /-- Behind the exclamation mark after a name. -/
  | marked (name : List Char)
  /-- Behind a conversion. -/
  | converted (name : List Char) (conversion : Char)
  /-- Inside a layout, within so many inner placeholders. -/
  | layout (p : Placeholder) (depth : Nat) (read : List Char)

/-- The fault of a template that ends at a place, if that is one. -/
def faultAtEnd? : Place → Option TemplateFault
  | .outside => none
  | .opened => some .singleOpening
  | .closed => some .singleClosing
  | .name _ _ => some .unclosed
  | .marked _ => some .noConversion
  | .converted _ _ | .layout _ _ _ => some .unclosedLayout

/-- What a character inside a name leads to. -/
def nameStep (inKey : Bool) (read : List Char) (c : Char) : List Piece × Place :=
  if inKey then ([], .name (c ≠ ']') (c :: read))
  else if c = '\x7b' then ([.fault .nestedOpening], .outside)
  else if c = '\x7d' then ([.placeholder { name := read.reverse }], .outside)
  else if c = '!' then ([], .marked read.reverse)
  else if c = ':' then ([], .layout { name := read.reverse } 0 [])
  else ([], .name (c = '[') (c :: read))

/-- What a character inside a layout leads to. -/
def layoutStep (p : Placeholder) (depth : Nat) (read : List Char) (c : Char) :
    List Piece × Place :=
  if c = '\x7b' then ([], .layout p (depth + 1) (c :: read))
  else if c = '\x7d' then
    match depth with
    | 0 => ([.placeholder { p with layout := read.reverse }], .outside)
    | depth + 1 => ([], .layout p depth (c :: read))
  else ([], .layout p depth (c :: read))

/-- The pieces that a character completes, and the place behind it. -/
def step (place : Place) (c : Char) : List Piece × Place :=
  match place with
  | .outside =>
    if c = '\x7b' then ([], .opened)
    else if c = '\x7d' then ([], .closed)
    else ([.literal c], .outside)
  | .opened => if c = '\x7b' then ([.literal c], .outside) else nameStep false [] c
  | .closed => if c = '\x7d' then ([.literal c], .outside) else ([.fault .singleClosing], .outside)
  | .name inKey read => nameStep inKey read c
  | .marked name => ([], .converted name c)
  | .converted name conversion =>
    if c = '\x7d' then ([.placeholder { name, conversion := some conversion }], .outside)
    else if c = ':' then ([], .layout { name, conversion := some conversion } 0 [])
    else ([.fault .afterConversion], .outside)
  | .layout p depth read => layoutStep p depth read c

/-- The pieces of a template from a place on. -/
def piecesFrom (place : Place) : List Char → List Piece
  | [] => ((faultAtEnd? place).map Piece.fault).toList
  | c :: cs => (step place c).1 ++ piecesFrom (step place c).2 cs

def pieces (template : List Char) : List Piece :=
  piecesFrom .outside template

/-! ## Steps to a part of a value -/

/-- A step from a value to a part of it. -/
inductive Step
  | member (name : List Char)
  | key (name : List Char)
  /-- The placeholder is malformed from here on. -/
  | fault (f : TemplateFault)
deriving DecidableEq, Repr

/-- Where among the steps of a placeholder a character stands. -/
inductive StepPlace
  | between
  | member (read : List Char)
  | key (read : List Char)

/-- The steps from a place on. -/
def stepsFrom : StepPlace → List Char → List Step
  | .between, [] => []
  | .member read, [] => [.member read.reverse]
  | .key _, [] => [.fault .unclosedKey]
  | .between, c :: cs =>
    if c = '.' then stepsFrom (.member []) cs
    else if c = '[' then stepsFrom (.key []) cs
    else [.fault .afterKey]
  | .member read, c :: cs =>
    if c = '.' then .member read.reverse :: stepsFrom (.member []) cs
    else if c = '[' then .member read.reverse :: stepsFrom (.key []) cs
    else stepsFrom (.member (c :: read)) cs
  | .key read, c :: cs =>
    if c = ']' then .key read.reverse :: stepsFrom .between cs
    else stepsFrom (.key (c :: read)) cs

def beginsStep (c : Char) : Bool :=
  c = '.' || c = '['

/-- The name of the field in the name of a placeholder. -/
def fieldName (name : List Char) : List Char :=
  name.takeWhile fun c => !beginsStep c

/-- The steps in the name of a placeholder. -/
def steps (name : List Char) : List Step :=
  stepsFrom .between (name.dropWhile fun c => !beginsStep c)

/-! ## Filling in -/

/-- The fields of a record by name. -/
abbrev Fields := List (String × FieldValue)

/-- A failure of the template itself. -/
def malformed {α : Type} (f : TemplateFault) : Except TemplateError α :=
  .error (.malformed f)

/-- The number that a name is, if it has digits only. -/
def number? (name : List Char) : Except TemplateError (Option Nat) :=
  match readCount name with
  | none => malformed .tooManyDigits
  | some (n, rest) => .ok (if name.isEmpty || !rest.isEmpty then none else some n)

/-- The value of the field that a placeholder names; a placeholder without a name means the first
position. -/
def field (fields : Fields) (name : List Char) : Except TemplateError FieldValue := do
  match ← number? name with
  | some n => throw (.positional n)
  | none =>
    if name.isEmpty then throw (.positional 0)
    match fields.lookup (String.ofList name) with
    | some value => return value
    | none => throw (.unknownField (String.ofList name))

def follow (v : FieldValue) : Step → Except TemplateError FieldValue
  | .fault f => malformed f
  | .member name =>
    if name.isEmpty then malformed .emptyStep
    else (v.ask (String.ofList name)).mapError .value
  | .key name => do
    match ← number? name with
    | some n => (v.numbered n).mapError .value
    | none =>
      if name.isEmpty then malformed .emptyStep
      else (v.named (String.ofList name)).mapError .value

/-- A value as a text, if that is asked for. -/
def convert (v : FieldValue) : Option Char → Except TemplateError FieldValue
  | none | some '\x00' => .ok v
  | some 's' => .ok (.data (.str v.text))
  | some 'r' => .ok (.data (.str v.innerText))
  | some 'a' => .ok (.data (.str (String.ofList (asciiOnly v.innerText.toList))))
  | some code => malformed (.unknownConversion code)

/-- A template with its placeholders filled in, if they are nested less deep than `depth`. -/
def fillWithin (fields : Fields) : (depth : Nat) → List Char → Except TemplateError (List Char)
  | 0, _ => malformed .tooDeep
  | depth + 1, template => do
    let filled ← (pieces template).mapM fun piece =>
      match piece with
      | .literal c => return [c]
      | .fault f => malformed f
      | .placeholder p => do
        let value ← field fields (fieldName p.name)
        let part ← (steps p.name).foldlM follow value
        let shown ← convert part p.conversion
        let nested := p.layout.contains '\x7b'
        let layout ← if nested then fillWithin fields depth p.layout else pure p.layout
        (shown.laidOut layout).mapError .value
    return filled.flatten

/-- How deep placeholders may be nested. -/
def depthLimit : Nat := 2

/-- The template with its placeholders filled in. -/
def fill (fields : Fields) (template : String) : Except TemplateError String :=
  (fillWithin fields depthLimit template.toList).map String.ofList

end Template

end CausalUpdate
