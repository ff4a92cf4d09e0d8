import CausalUpdate.Journal.Kind.Member

/-!
# Kinds of kinds

What is offered by all values, by kinds, and by kinds that are narrowed down.
-/

namespace CausalUpdate

def rootDescription : Description where
  signature := some "()"
  about := textOfLines [
    "The base class of the class hierarchy.",
    "",
    "When called, it accepts no arguments and returns a new featureless",
    "instance that has no instance attributes and cannot be given any.",
    ""]
  sizes := ⟨16, 0, 529664, 0, 0⟩
  members := [
    .maker, .sign "__repr__", .sign "__hash__", .sign "__str__", .sign "__getattribute__",
    .sign "__setattr__", .sign "__delattr__", .sign "__lt__", .sign "__le__", .sign "__eq__",
    .sign "__ne__", .sign "__gt__", .sign "__ge__", .sign "__init__",
    .method "__reduce_ex__" "($self, protocol, /)" ["Helper for pickle."],
    .method "__reduce__" "($self, /)" ["Helper for pickle."],
    .method "__getstate__" "($self, /)" ["Helper for pickle."],
    .shared "__subclasshook__" "" [
      "Abstract classes can override this to customize issubclass().",
      "",
      "This is invoked early on by abc.ABCMeta.__subclasscheck__().",
      "It should return True, False or NotImplemented.  If it returns",
      "NotImplemented, the normal algorithm is used.  Otherwise, it",
      "overrides the normal algorithm (and the outcome is cached).",
      ""],
    .shared "__init_subclass__" "" [
      "This method is called when a class is subclassed.",
      "",
      "The default implementation does nothing. It may be",
      "overridden to extend subclasses.",
      ""],
    .method "__format__" "($self, format_spec, /)" ["Default object formatter."],
    .method "__sizeof__" "($self, /)" ["Size of object in memory, in bytes."],
    .method "__dir__" "($self, /)" ["Default dir() implementation."],
    .part "__class__" ["the object's class"], .aboutKind]

def kindDescription : Description where
  about := textOfLines [
    "type(object) -> the object's type",
    "type(name, bases, dict, **kwds) -> a new type"]
  sizes := ⟨904, 40, 2148031744, 264, 368⟩
  members := [
    .maker, .sign "__repr__", .sign "__call__", .sign "__getattribute__", .sign "__setattr__",
    .sign "__delattr__", .sign "__init__", .sign "__or__", .sign "__ror__",
    .method "mro" "($self, /)" ["Return a type's method resolution order."],
    .method "__subclasses__" "($self, /)" ["Return a list of immediate subclasses."],
    .shared "__prepare__" "" [
      "__prepare__() -> dict",
      "used to create the namespace for the class statement"],
    .method "__instancecheck__" "($self, instance, /)" ["Check if an object is an instance."],
    .method "__subclasscheck__" "($self, subclass, /)" ["Check if a class is a subclass."],
    .method "__dir__" "($self, /)" ["Specialized __dir__ implementation for types."],
    .method "__sizeof__" "($self, /)" ["Return memory consumption of the type object."],
    .field "__basicsize__", .field "__itemsize__", .field "__flags__", .field "__weakrefoffset__",
    .field "__base__", .field "__dictoffset__", .field "__mro__", .part "__name__" [],
    .part "__qualname__" [], .part "__bases__" [], .part "__module__" [],
    .part "__abstractmethods__" [], .part "__dict__" [], .part "__doc__" [],
    .part "__text_signature__" [], .part "__annotations__" []]

def narrowedDescription : Description where
  about := textOfLines [
    "Represent a PEP 585 generic type",
    "",
    "E.g. for t = list[int], t.__origin__ is list and t.__args__ is (int,)."]
  sizes := ⟨64, 0, 548096, 0, 40⟩
  members := [
    .maker, .sign "__repr__", .sign "__hash__", .sign "__call__", .sign "__getattribute__",
    .sign "__lt__", .sign "__le__", .sign "__eq__", .sign "__ne__", .sign "__gt__",
    .sign "__ge__", .sign "__iter__", .sign "__or__", .sign "__ror__", .sign "__getitem__",
    .method "__mro_entries__" "" [], .method "__instancecheck__" "" [],
    .method "__subclasscheck__" "" [], .method "__reduce__" "" [], .method "__dir__" "" [],
    .field "__origin__", .field "__args__", .field "__unpacked__",
    .part "__parameters__" ["Type variables in the GenericAlias."],
    .part "__typing_unpacked_tuple_args__" [], .aboutKind]

end CausalUpdate
