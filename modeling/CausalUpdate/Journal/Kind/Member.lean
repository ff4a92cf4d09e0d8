import CausalUpdate.Journal.Kind.Basic

/-!
# Members of kinds

A member of a kind is an operation on its values, an operation on the kind itself, a part of its
values, or a text about it.  Members have names, and most of them tell how they are used and what
they do.  Some operations have a sign that stands for them; those are used and do the same for all
kinds that offer them.

* `Member` — a member of a kind.
* `Description` — all that there is to know about a kind.
-/

namespace CausalUpdate

/-- What a member of a kind is. -/
inductive MemberSort
  /-- An operation on values of the kind. -/
  | method
  /-- An operation on values of the kind that a sign stands for. -/
  | sign
  /-- An operation on the kind itself. -/
  | shared
  /-- The operation that makes values of the kind. -/
  | maker
  /-- An operation on neither the kind nor its values. -/
  | free
  /-- A part of values of the kind that is computed. -/
  | part
  /-- A part of values of the kind that is stored. -/
  | field
  /-- The text about the kind. -/
  | about
  /-- An operation that values of the kind do not have, though all others have it. -/
  | refused
deriving DecidableEq, Repr

structure Member where
  sort : MemberSort
  name : String
  /-- How the member is used. -/
  signature : Option String := none
  /-- What the member does. -/
  about : Option String := none
deriving DecidableEq, Repr

/-- A text of some lines, unless there are none. -/
def textOfLines : List String → Option String
  | [] => none
  | ls => some (String.intercalate "\n" ls)

/-- The operations that signs stand for, with how they are used and what they do. -/
def signs : List (String × String × String) := [
  ("__repr__", "($self, /)", "Return repr(self)."),
  ("__hash__", "($self, /)", "Return hash(self)."),
  ("__str__", "($self, /)", "Return str(self)."),
  ("__getattribute__", "($self, name, /)", "Return getattr(self, name)."),
  ("__setattr__", "($self, name, value, /)", "Implement setattr(self, name, value)."),
  ("__delattr__", "($self, name, /)", "Implement delattr(self, name)."),
  ("__lt__", "($self, value, /)", "Return self<value."),
  ("__le__", "($self, value, /)", "Return self<=value."),
  ("__eq__", "($self, value, /)", "Return self==value."),
  ("__ne__", "($self, value, /)", "Return self!=value."),
  ("__gt__", "($self, value, /)", "Return self>value."),
  ("__ge__", "($self, value, /)", "Return self>=value."),
  ("__init__", "($self, /, *args, **kwargs)",
    "Initialize self.  See help(type(self)) for accurate signature."),
  ("__call__", "($self, /, *args, **kwargs)", "Call self as a function."),
  ("__or__", "($self, value, /)", "Return self|value."),
  ("__ror__", "($self, value, /)", "Return value|self."),
  ("__iter__", "($self, /)", "Implement iter(self)."),
  ("__getitem__", "($self, key, /)", "Return self[key]."),
  ("__mod__", "($self, value, /)", "Return self%value."),
  ("__rmod__", "($self, value, /)", "Return value%self."),
  ("__len__", "($self, /)", "Return len(self)."),
  ("__add__", "($self, value, /)", "Return self+value."),
  ("__mul__", "($self, value, /)", "Return self*value."),
  ("__rmul__", "($self, value, /)", "Return value*self."),
  ("__contains__", "($self, key, /)", "Return key in self."),
  ("__radd__", "($self, value, /)", "Return value+self."),
  ("__sub__", "($self, value, /)", "Return self-value."),
  ("__rsub__", "($self, value, /)", "Return value-self."),
  ("__divmod__", "($self, value, /)", "Return divmod(self, value)."),
  ("__rdivmod__", "($self, value, /)", "Return divmod(value, self)."),
  ("__pow__", "($self, value, mod=None, /)", "Return pow(self, value, mod)."),
  ("__rpow__", "($self, value, mod=None, /)", "Return pow(value, self, mod)."),
  ("__neg__", "($self, /)", "-self"),
  ("__pos__", "($self, /)", "+self"),
  ("__abs__", "($self, /)", "abs(self)"),
  ("__bool__", "($self, /)", "True if self else False"),
  ("__int__", "($self, /)", "int(self)"),
  ("__float__", "($self, /)", "float(self)"),
  ("__floordiv__", "($self, value, /)", "Return self//value."),
  ("__rfloordiv__", "($self, value, /)", "Return value//self."),
  ("__truediv__", "($self, value, /)", "Return self/value."),
  ("__rtruediv__", "($self, value, /)", "Return value/self."),
  ("__invert__", "($self, /)", "~self"),
  ("__lshift__", "($self, value, /)", "Return self<<value."),
  ("__rlshift__", "($self, value, /)", "Return value<<self."),
  ("__rshift__", "($self, value, /)", "Return self>>value."),
  ("__rrshift__", "($self, value, /)", "Return value>>self."),
  ("__and__", "($self, value, /)", "Return self&value."),
  ("__rand__", "($self, value, /)", "Return value&self."),
  ("__xor__", "($self, value, /)", "Return self^value."),
  ("__rxor__", "($self, value, /)", "Return value^self."),
  ("__index__", "($self, /)",
    "Return self converted to an integer, if self is suitable for use as an index into a list."),
  ("__ior__", "($self, value, /)", "Return self|=value."),
  ("__setitem__", "($self, key, value, /)", "Set self[key] to value."),
  ("__delitem__", "($self, key, /)", "Delete self[key]."),
  ("__iadd__", "($self, value, /)", "Implement self+=value."),
  ("__imul__", "($self, value, /)", "Implement self*=value."),
  ("__get__", "($self, instance, owner=None, /)",
    "Return an attribute of instance, which is of type owner."),
  ("__set__", "($self, instance, value, /)", "Set an attribute of instance to value."),
  ("__delete__", "($self, instance, /)", "Delete an attribute of instance.")]

namespace Member

def method (name signature : String) (about : List String) : Member :=
  ⟨.method, name, if signature.isEmpty then none else some signature, textOfLines about⟩

/-- An operation on values that a sign stands for. -/
def sign (name : String) : Member :=
  let found := signs.lookup name
  ⟨.sign, name, found.map Prod.fst, found.map Prod.snd⟩

def shared (name signature : String) (about : List String) : Member :=
  { method name signature about with sort := .shared }

def free (name signature : String) (about : List String) : Member :=
  { method name signature about with sort := .free }

def maker : Member :=
  ⟨.maker, "__new__", some "($type, *args, **kwargs)",
    some "Create and return a new object.  See help(type) for accurate signature."⟩

def part (name : String) (about : List String) : Member :=
  ⟨.part, name, none, textOfLines about⟩

def field (name : String) : Member :=
  ⟨.field, name, none, none⟩

def aboutKind : Member :=
  ⟨.about, "__doc__", none, none⟩

def refused (name : String) : Member :=
  ⟨.refused, name, none, none⟩

end Member

/-- How much room values of a kind take, and what is special about the kind. -/
structure Sizes where
  /-- The room for a value. -/
  value : Int
  /-- The room for every item of a value. -/
  item : Int
  /-- What is special about the kind, as bits. -/
  flags : Int
  /-- Where in that room the further members of a value are found. -/
  members : Int
  /-- Where in that room the weak links to a value are found. -/
  links : Int
deriving DecidableEq, Repr

/-- All that there is to know about a kind. -/
structure Description where
  /-- How values of the kind are made. -/
  signature : Option String := none
  /-- What values of the kind are. -/
  about : Option String := none
  sizes : Sizes
  /-- The members of the kind in order. -/
  members : List Member
deriving DecidableEq, Repr

end CausalUpdate
