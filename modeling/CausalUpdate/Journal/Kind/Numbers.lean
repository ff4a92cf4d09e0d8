import CausalUpdate.Journal.Kind.Member

/-!
# Numbers

What numbers offer.  A truth value is a whole number as well.
-/

namespace CausalUpdate

def decimalDescription : Description where
  signature := some "(x=0, /)"
  about := textOfLines ["Convert a string or number to a floating point number, if possible."]
  sizes := ⟨24, 0, 4723968, 0, 0⟩
  members := [
    .maker, .sign "__repr__", .sign "__hash__", .sign "__getattribute__", .sign "__lt__",
    .sign "__le__", .sign "__eq__", .sign "__ne__", .sign "__gt__", .sign "__ge__",
    .sign "__add__", .sign "__radd__", .sign "__sub__", .sign "__rsub__", .sign "__mul__",
    .sign "__rmul__", .sign "__mod__", .sign "__rmod__", .sign "__divmod__", .sign "__rdivmod__",
    .sign "__pow__", .sign "__rpow__", .sign "__neg__", .sign "__pos__", .sign "__abs__",
    .sign "__bool__", .sign "__int__", .sign "__float__", .sign "__floordiv__",
    .sign "__rfloordiv__", .sign "__truediv__", .sign "__rtruediv__",
    .method "conjugate" "($self, /)" ["Return self, the complex conjugate of any float."],
    .method "__trunc__" "($self, /)" ["Return the Integral closest to x between 0 and x."],
    .method "__floor__" "($self, /)" ["Return the floor as an Integral."],
    .method "__ceil__" "($self, /)" ["Return the ceiling as an Integral."],
    .method "__round__" "($self, ndigits=None, /)" [
      "Return the Integral closest to x, rounding half toward even.",
      "",
      "When an argument is passed, work like built-in round(x, ndigits)."],
    .method "as_integer_ratio" "($self, /)" [
      "Return integer ratio.",
      "",
      "Return a pair of integers, whose ratio is exactly equal to the original float",
      "and with a positive denominator.",
      "",
      "Raise OverflowError on infinities and a ValueError on NaNs.",
      "",
      ">>> (10.0).as_integer_ratio()",
      "(10, 1)",
      ">>> (0.0).as_integer_ratio()",
      "(0, 1)",
      ">>> (-.25).as_integer_ratio()",
      "(-1, 4)"],
    .shared "fromhex" "($type, string, /)" [
      "Create a floating-point number from a hexadecimal string.",
      "",
      ">>> float.fromhex('0x1.ffffp10')",
      "2047.984375",
      ">>> float.fromhex('-0x1p-1074')",
      "-5e-324"],
    .method "hex" "($self, /)" [
      "Return a hexadecimal representation of a floating-point number.",
      "",
      ">>> (-0.1).hex()",
      "'-0x1.999999999999ap-4'",
      ">>> 3.14159.hex()",
      "'0x1.921f9f01b866ep+1'"],
    .method "is_integer" "($self, /)" ["Return True if the float is an integer."],
    .method "__getnewargs__" "($self, /)" [],
    .shared "__getformat__" "($type, typestr, /)" [
      "You probably don't want to use this function.",
      "",
      "  typestr",
      "    Must be 'double' or 'float'.",
      "",
      "It exists mainly to be used in the test suite.",
      "",
      "This function returns whichever of 'unknown', 'IEEE, big-endian' or 'IEEE,",
      "little-endian' best describes the format of floating point numbers used by the",
      "C type named by typestr."],
    .method "__format__" "($self, format_spec, /)" ["Formats the float according to format_spec."],
    .part "real" ["the real part of a complex number"],
    .part "imag" ["the imaginary part of a complex number"], .aboutKind]

def wholeDescription : Description where
  about := textOfLines [
    "int([x]) -> integer",
    "int(x, base=10) -> integer",
    "",
    "Convert a number or string to an integer, or return 0 if no arguments",
    "are given.  If x is a number, return x.__int__().  For floating point",
    "numbers, this truncates towards zero.",
    "",
    "If x is not a number or if base is given, then x must be a string,",
    "bytes, or bytearray instance representing an integer literal in the",
    "given base.  The literal can be preceded by '+' or '-' and be surrounded",
    "by whitespace.  The base defaults to 10.  Valid bases are 0 and 2-36.",
    "Base 0 means to interpret the base from the string as an integer literal.",
    ">>> int('0b100', base=0)",
    "4"]
  sizes := ⟨24, 4, 21501184, 0, 0⟩
  members := [
    .maker, .sign "__repr__", .sign "__hash__", .sign "__getattribute__", .sign "__lt__",
    .sign "__le__", .sign "__eq__", .sign "__ne__", .sign "__gt__", .sign "__ge__",
    .sign "__add__", .sign "__radd__", .sign "__sub__", .sign "__rsub__", .sign "__mul__",
    .sign "__rmul__", .sign "__mod__", .sign "__rmod__", .sign "__divmod__", .sign "__rdivmod__",
    .sign "__pow__", .sign "__rpow__", .sign "__neg__", .sign "__pos__", .sign "__abs__",
    .sign "__bool__", .sign "__invert__", .sign "__lshift__", .sign "__rlshift__",
    .sign "__rshift__", .sign "__rrshift__", .sign "__and__", .sign "__rand__", .sign "__xor__",
    .sign "__rxor__", .sign "__or__", .sign "__ror__", .sign "__int__", .sign "__float__",
    .sign "__floordiv__", .sign "__rfloordiv__", .sign "__truediv__", .sign "__rtruediv__",
    .sign "__index__",
    .method "conjugate" "" ["Returns self, the complex conjugate of any int."],
    .method "bit_length" "($self, /)" [
      "Number of bits necessary to represent self in binary.",
      "",
      ">>> bin(37)",
      "'0b100101'",
      ">>> (37).bit_length()",
      "6"],
    .method "bit_count" "($self, /)" [
      "Number of ones in the binary representation of the absolute value of self.",
      "",
      "Also known as the population count.",
      "",
      ">>> bin(13)",
      "'0b1101'",
      ">>> (13).bit_count()",
      "3"],
    .method "to_bytes" "($self, /, length=1, byteorder='big', *, signed=False)" [
      "Return an array of bytes representing an integer.",
      "",
      "  length",
      "    Length of bytes object to use.  An OverflowError is raised if the",
      "    integer is not representable with the given number of bytes.  Default",
      "    is length 1.",
      "  byteorder",
      "    The byte order used to represent the integer.  If byteorder is 'big',",
      "    the most significant byte is at the beginning of the byte array.  If",
      "    byteorder is 'little', the most significant byte is at the end of the",
      "    byte array.  To request the native byte order of the host system, use",
      "    `sys.byteorder' as the byte order value.  Default is to use 'big'.",
      "  signed",
      "    Determines whether two's complement is used to represent the integer.",
      "    If signed is False and a negative integer is given, an OverflowError",
      "    is raised."],
    .shared "from_bytes" "($type, /, bytes, byteorder='big', *, signed=False)" [
      "Return the integer represented by the given array of bytes.",
      "",
      "  bytes",
      "    Holds the array of bytes to convert.  The argument must either",
      "    support the buffer protocol or be an iterable object producing bytes.",
      "    Bytes and bytearray are examples of built-in objects that support the",
      "    buffer protocol.",
      "  byteorder",
      "    The byte order used to represent the integer.  If byteorder is 'big',",
      "    the most significant byte is at the beginning of the byte array.  If",
      "    byteorder is 'little', the most significant byte is at the end of the",
      "    byte array.  To request the native byte order of the host system, use",
      "    `sys.byteorder' as the byte order value.  Default is to use 'big'.",
      "  signed",
      "    Indicates whether two's complement is used to represent the integer."],
    .method "as_integer_ratio" "($self, /)" [
      "Return integer ratio.",
      "",
      "Return a pair of integers, whose ratio is exactly equal to the original int",
      "and with a positive denominator.",
      "",
      ">>> (10).as_integer_ratio()",
      "(10, 1)",
      ">>> (-10).as_integer_ratio()",
      "(-10, 1)",
      ">>> (0).as_integer_ratio()",
      "(0, 1)"],
    .method "__trunc__" "" ["Truncating an Integral returns itself."],
    .method "__floor__" "" ["Flooring an Integral returns itself."],
    .method "__ceil__" "" ["Ceiling of an Integral returns itself."],
    .method "__round__" "($self, ndigits=<unrepresentable>, /)" [
      "Rounding an Integral returns itself.",
      "",
      "Rounding with an ndigits argument also returns an integer."],
    .method "__getnewargs__" "($self, /)" [], .method "__format__" "($self, format_spec, /)" [],
    .method "__sizeof__" "($self, /)" ["Returns size in memory, in bytes."],
    .part "real" ["the real part of a complex number"],
    .part "imag" ["the imaginary part of a complex number"],
    .part "numerator" ["the numerator of a rational number in lowest terms"],
    .part "denominator" ["the denominator of a rational number in lowest terms"],
    .aboutKind]

def truthDescription : Description where
  about := textOfLines [
    "bool(x) -> bool",
    "",
    "Returns True when the argument x is true, False otherwise.",
    "The builtins True and False are the only two instances of the class bool.",
    "The class bool is a subclass of the class int, and cannot be subclassed."]
  sizes := ⟨32, 4, 21500160, 0, 0⟩
  members := [
    .maker, .sign "__repr__", .sign "__and__", .sign "__rand__", .sign "__xor__",
    .sign "__rxor__", .sign "__or__", .sign "__ror__", .aboutKind]

end CausalUpdate
