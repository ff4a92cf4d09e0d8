import CausalUpdate.Journal.Kind.Member

/-!
# Values that hold others

What is offered by values that hold other values by name or by number, and by a value that is not
there.
-/

namespace CausalUpdate

def entriesDescription : Description where
  about := textOfLines [
    "dict() -> new empty dictionary",
    "dict(mapping) -> new dictionary initialized from a mapping object's",
    "    (key, value) pairs",
    "dict(iterable) -> new dictionary initialized as if via:",
    "    d = \x7b\x7d",
    "    for k, v in iterable:",
    "        d[k] = v",
    "dict(**kwargs) -> new dictionary initialized with the name=value pairs",
    "    in the keyword argument list.  For example:  dict(one=1, two=2)"]
  sizes := ⟨48, 0, 541611328, 0, 0⟩
  members := [
    .maker, .sign "__repr__", .refused "__hash__", .sign "__getattribute__", .sign "__lt__",
    .sign "__le__", .sign "__eq__", .sign "__ne__", .sign "__gt__", .sign "__ge__",
    .sign "__iter__", .sign "__init__", .sign "__or__", .sign "__ror__", .sign "__ior__",
    .sign "__len__", .method "__getitem__" "" ["x.__getitem__(y) <==> x[y]"], .sign "__setitem__",
    .sign "__delitem__",
    .method "__contains__" "($self, key, /)"
      ["True if the dictionary has the specified key, else False."],
    .method "__sizeof__" "" ["D.__sizeof__() -> size of D in memory, in bytes"],
    .method "get" "($self, key, default=None, /)"
      ["Return the value for key if key is in the dictionary, else default."],
    .method "setdefault" "($self, key, default=None, /)" [
      "Insert key with a value of default if key is not in the dictionary.",
      "",
      "Return the value for key if key is in the dictionary, else default."],
    .method "pop" "($self, key, default=<unrepresentable>, /)" [
      "D.pop(k[,d]) -> v, remove specified key and return the corresponding value.",
      "",
      "If the key is not found, return the default if given; otherwise,",
      "raise a KeyError."],
    .method "popitem" "($self, /)" [
      "Remove and return a (key, value) pair as a 2-tuple.",
      "",
      "Pairs are returned in LIFO (last-in, first-out) order.",
      "Raises KeyError if the dict is empty."],
    .method "keys" "" ["D.keys() -> a set-like object providing a view on D's keys"],
    .method "items" "" ["D.items() -> a set-like object providing a view on D's items"],
    .method "values" "" ["D.values() -> an object providing a view on D's values"],
    .method "update" "" [
      "D.update([E, ]**F) -> None.  Update D from dict/iterable E and F.",
      "If E is present and has a .keys() method, then does:  for k in E: D[k] = E[k]",
      "If E is present and lacks a .keys() method, then does:  for k, v in E: D[k] = v",
      "In either case, this is followed by: for k in F:  D[k] = F[k]"],
    .shared "fromkeys" "($type, iterable, value=None, /)"
      ["Create a new dictionary with keys from iterable and values set to value."],
    .method "clear" "" ["D.clear() -> None.  Remove all items from D."],
    .method "copy" "" ["D.copy() -> a shallow copy of D"],
    .method "__reversed__" "($self, /)" ["Return a reverse iterator over the dict keys."],
    .shared "__class_getitem__" "" ["See PEP 585"], .aboutKind]

def listDescription : Description where
  signature := some "(iterable=(), /)"
  about := textOfLines [
    "Built-in mutable sequence.",
    "",
    "If no argument is given, the constructor creates a new empty list.",
    "The argument must be an iterable if specified."]
  sizes := ⟨40, 0, 38294816, 0, 0⟩
  members := [
    .maker, .sign "__repr__", .refused "__hash__", .sign "__getattribute__", .sign "__lt__",
    .sign "__le__", .sign "__eq__", .sign "__ne__", .sign "__gt__", .sign "__ge__",
    .sign "__iter__", .sign "__init__", .sign "__len__",
    .method "__getitem__" "" ["x.__getitem__(y) <==> x[y]"], .sign "__setitem__",
    .sign "__delitem__", .sign "__add__", .sign "__mul__", .sign "__rmul__", .sign "__contains__",
    .sign "__iadd__", .sign "__imul__",
    .method "__reversed__" "($self, /)" ["Return a reverse iterator over the list."],
    .method "__sizeof__" "($self, /)" ["Return the size of the list in memory, in bytes."],
    .method "clear" "($self, /)" ["Remove all items from list."],
    .method "copy" "($self, /)" ["Return a shallow copy of the list."],
    .method "append" "($self, object, /)" ["Append object to the end of the list."],
    .method "insert" "($self, index, object, /)" ["Insert object before index."],
    .method "extend" "($self, iterable, /)"
      ["Extend list by appending elements from the iterable."],
    .method "pop" "($self, index=-1, /)" [
      "Remove and return item at index (default last).",
      "",
      "Raises IndexError if list is empty or index is out of range."],
    .method "remove" "($self, value, /)" [
      "Remove first occurrence of value.",
      "",
      "Raises ValueError if the value is not present."],
    .method "index" "($self, value, start=0, stop=sys.maxsize, /)" [
      "Return first index of value.",
      "",
      "Raises ValueError if the value is not present."],
    .method "count" "($self, value, /)" ["Return number of occurrences of value."],
    .method "reverse" "($self, /)" ["Reverse *IN PLACE*."],
    .method "sort" "($self, /, *, key=None, reverse=False)" [
      "Sort the list in ascending order and return None.",
      "",
      "The sort is in-place (i.e. the list itself is modified) and stable (i.e. the",
      "order of two equal elements is maintained).",
      "",
      "If a key function is given, apply it once to each list item and sort them,",
      "ascending or descending, according to their function values.",
      "",
      "The reverse flag can be set to sort in descending order."],
    .shared "__class_getitem__" "" ["See PEP 585"], .aboutKind]

def rowDescription : Description where
  signature := some "(iterable=(), /)"
  about := textOfLines [
    "Built-in immutable sequence.",
    "",
    "If no argument is given, the constructor returns an empty tuple.",
    "If iterable is specified the tuple is initialized from iterable's items.",
    "",
    "If the argument is a tuple, the return value is the same object."]
  sizes := ⟨24, 8, 71849248, 0, 0⟩
  members := [
    .maker, .sign "__repr__", .sign "__hash__", .sign "__getattribute__", .sign "__lt__",
    .sign "__le__", .sign "__eq__", .sign "__ne__", .sign "__gt__", .sign "__ge__",
    .sign "__iter__", .sign "__len__", .sign "__getitem__", .sign "__add__", .sign "__mul__",
    .sign "__rmul__", .sign "__contains__", .method "__getnewargs__" "($self, /)" [],
    .method "index" "($self, value, start=0, stop=sys.maxsize, /)" [
      "Return first index of value.",
      "",
      "Raises ValueError if the value is not present."],
    .method "count" "($self, value, /)" ["Return number of occurrences of value."],
    .shared "__class_getitem__" "" ["See PEP 585"], .aboutKind]

/-- What the members of a kind by name offer. -/
def directoryDescription : Description where
  sizes := ⟨24, 0, 545088, 0, 0⟩
  members := [
    .maker, .sign "__repr__", .sign "__str__", .sign "__getattribute__", .sign "__lt__",
    .sign "__le__", .sign "__eq__", .sign "__ne__", .sign "__gt__", .sign "__ge__",
    .sign "__iter__", .sign "__or__", .sign "__ror__", .sign "__ior__", .sign "__len__",
    .sign "__getitem__", .sign "__contains__",
    .method "get" "" ["D.get(k[,d]) -> D[k] if k in D, else d.  d defaults to None."],
    .method "keys" "" ["D.keys() -> a set-like object providing a view on D's keys"],
    .method "values" "" ["D.values() -> an object providing a view on D's values"],
    .method "items" "" ["D.items() -> a set-like object providing a view on D's items"],
    .method "copy" "" ["D.copy() -> a shallow copy of D"],
    .shared "__class_getitem__" "" ["See PEP 585"],
    .method "__reversed__" "" ["D.__reversed__() -> reverse iterator"],
    .aboutKind, .refused "__hash__"]

/-- What a value that is not there offers. -/
def absentDescription : Description where
  sizes := ⟨16, 0, 528640, 0, 0⟩
  members := [
    .maker, .sign "__repr__", .sign "__bool__", .aboutKind]

end CausalUpdate
