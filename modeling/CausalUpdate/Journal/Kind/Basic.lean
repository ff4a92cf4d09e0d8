/-!
# Kinds of values

Every value that a message can show is of a kind, and the kinds are such values themselves.  All
kinds go back to one of them: what that kind offers, every value has.

* `Kind` — the kinds, with their names and what they go back to.
* `Kind.ancestry` — a kind and all that it goes back to, as its parent says (`Kind.ancestry_eq`).
-/

namespace CausalUpdate

inductive Kind
  /-- What all kinds go back to. -/
  | root
  /-- Kinds. -/
  | kind
  /-- Kinds that are narrowed down by a key. -/
  | narrowed
  | text
  /-- Numbers with a fraction. -/
  | decimal
  /-- Whole numbers. -/
  | whole
  /-- Truth values. -/
  | truth
  /-- Values by name. -/
  | entries
  | list
  /-- Values in a row. -/
  | row
  /-- The members of a kind by name. -/
  | directory
  /-- A value that is not there. -/
  | absent
  /-- Operations of one value. -/
  | operation
  /-- Operations of one value that signs stand for. -/
  | signed
  /-- Operations on all values of a kind. -/
  | method
  /-- Operations on all values of a kind that signs stand for. -/
  | sign
  /-- Operations on a kind. -/
  | shared
  /-- Operations on nothing. -/
  | free
  /-- Computed parts of all values of a kind. -/
  | part
  /-- Stored parts of all values of a kind. -/
  | field
deriving DecidableEq, Repr

namespace Kind

/-- The name of a kind where it belongs. -/
def ownName : Kind → String
  | root => "object"
  | kind => "type"
  | narrowed => "GenericAlias"
  | text => "str"
  | decimal => "float"
  | whole => "int"
  | truth => "bool"
  | entries => "dict"
  | list => "list"
  | row => "tuple"
  | directory => "mappingproxy"
  | absent => "NoneType"
  | operation => "builtin_function_or_method"
  | signed => "method-wrapper"
  | method => "method_descriptor"
  | sign => "wrapper_descriptor"
  | shared => "classmethod_descriptor"
  | free => "staticmethod"
  | part => "getset_descriptor"
  | field => "member_descriptor"

def home : Kind → String
  | narrowed => "types"
  | _ => "builtins"

/-- The name of a kind, with where it belongs unless most kinds do. -/
def name (k : Kind) : String :=
  if k.home = root.home then k.ownName else k.home ++ "." ++ k.ownName

/-- The kind that a kind directly goes back to. -/
def parent? : Kind → Option Kind
  | root => none
  | truth => some whole
  | _ => some root

/-- A kind and all that it goes back to, itself first. -/
def ancestry : Kind → List Kind
  | root => [root]
  | truth => [truth, whole, root]
  | k => [k, root]

/-- The kinds that can be narrowed down. -/
def isOpen : Kind → Bool
  | kind | entries | list | row | directory => true
  | _ => false

/-- What a kind goes back to is its parent and what that goes back to. -/
theorem ancestry_eq (k : Kind) :
    k.ancestry = k :: (k.parent?.map ancestry).getD [] := by
  cases k <;> rfl

end Kind

end CausalUpdate
