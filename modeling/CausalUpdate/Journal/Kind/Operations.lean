import CausalUpdate.Journal.Kind.Member

/-!
# Members as values

A member of a kind is a value too, and so is an operation of a value.  What they offer is mostly
about themselves: their names, where they belong, and what they do.
-/

namespace CausalUpdate

def operationDescription : Description where
  sizes := ⟨56, 0, 547200, 0, 40⟩
  members := [
    .sign "__repr__", .sign "__hash__", .sign "__call__", .sign "__getattribute__",
    .sign "__lt__", .sign "__le__", .sign "__eq__", .sign "__ne__", .sign "__gt__",
    .sign "__ge__", .method "__reduce__" "" [], .field "__module__", .part "__doc__" [],
    .part "__name__" [], .part "__qualname__" [], .part "__self__" [],
    .part "__text_signature__" []]

/-- What an operation of a value that a sign stands for offers. -/
def signedDescription : Description where
  sizes := ⟨32, 0, 545152, 0, 0⟩
  members := [
    .sign "__repr__", .sign "__hash__", .sign "__call__", .sign "__getattribute__",
    .sign "__lt__", .sign "__le__", .sign "__eq__", .sign "__ne__", .sign "__gt__",
    .sign "__ge__", .method "__reduce__" "" [], .field "__self__", .part "__objclass__" [],
    .part "__name__" [], .part "__qualname__" [], .part "__doc__" [],
    .part "__text_signature__" []]

def methodDescription : Description where
  sizes := ⟨56, 0, 678272, 0, 0⟩
  members := [
    .sign "__repr__", .sign "__call__", .sign "__getattribute__", .sign "__get__",
    .method "__reduce__" "" [], .field "__objclass__", .field "__name__", .part "__doc__" [],
    .part "__qualname__" [], .part "__text_signature__" []]

/-- What an operation on values that a sign stands for offers. -/
def signDescription : Description where
  sizes := ⟨56, 0, 676224, 0, 0⟩
  members := [
    .sign "__repr__", .sign "__call__", .sign "__getattribute__", .sign "__get__",
    .method "__reduce__" "" [], .field "__objclass__", .field "__name__", .part "__doc__" [],
    .part "__qualname__" [], .part "__text_signature__" []]

def sharedDescription : Description where
  sizes := ⟨56, 0, 545152, 0, 0⟩
  members := [
    .sign "__repr__", .sign "__call__", .sign "__getattribute__", .sign "__get__",
    .field "__objclass__", .field "__name__", .part "__doc__" [], .part "__qualname__" [],
    .part "__text_signature__" []]

def freeDescription : Description where
  about := textOfLines [
    "staticmethod(function) -> method",
    "",
    "Convert a function to be a static method.",
    "",
    "A static method does not receive an implicit first argument.",
    "To declare a static method, use this idiom:",
    "",
    "     class C:",
    "         @staticmethod",
    "         def f(arg1, arg2, argN):",
    "             ...",
    "",
    "It can be called either on the class (e.g. C.f()) or on an instance",
    "(e.g. C().f()). Both the class and the instance are ignored, and",
    "neither is passed implicitly as the first argument to the method.",
    "",
    "Static methods are similar to those found in Java or C++.",
    "For a more advanced concept, see the classmethod builtin."]
  sizes := ⟨32, 0, 546048, 24, 0⟩
  members := [
    .maker, .sign "__repr__", .sign "__call__", .sign "__get__", .sign "__init__",
    .field "__func__", .field "__wrapped__", .part "__isabstractmethod__" [], .part "__dict__" [],
    .aboutKind]

def partDescription : Description where
  sizes := ⟨48, 0, 545152, 0, 0⟩
  members := [
    .sign "__repr__", .sign "__getattribute__", .sign "__get__", .sign "__set__",
    .sign "__delete__", .field "__objclass__", .field "__name__", .part "__doc__" [],
    .part "__qualname__" []]

def fieldDescription : Description where
  sizes := ⟨48, 0, 545152, 0, 0⟩
  members := [
    .sign "__repr__", .sign "__getattribute__", .sign "__get__", .sign "__set__",
    .sign "__delete__", .method "__reduce__" "" [], .field "__objclass__", .field "__name__",
    .part "__doc__" [], .part "__qualname__" []]

end CausalUpdate
