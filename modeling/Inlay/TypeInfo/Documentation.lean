/-! The documentation of the members of types: how each is called, and what it does. -/

namespace Inlay

structure Documentation where
  name : String
  /-- The types whose member this is; all that have a member of the name, if none is listed. -/
  owners : List String
  signature : Option String
  text : Option String

namespace Documentation

def all : List Documentation := [
  ⟨"__new__", [], some "($type, *args, **kwargs)",
   some "Create and return a new object.  See help(type) for accurate signature."⟩,
  ⟨"__repr__", [], some "($self, /)", some "Return repr(self)."⟩,
  ⟨"__hash__", [], some "($self, /)", some "Return hash(self)."⟩,
  ⟨"__str__", [], some "($self, /)", some "Return str(self)."⟩,
  ⟨"__getattribute__", [], some "($self, name, /)", some "Return getattr(self, name)."⟩,
  ⟨"__setattr__", [], some "($self, name, value, /)", some "Implement setattr(self, name, value)."⟩,
  ⟨"__delattr__", [], some "($self, name, /)", some "Implement delattr(self, name)."⟩,
  ⟨"__lt__", [], some "($self, value, /)", some "Return self<value."⟩,
  ⟨"__le__", [], some "($self, value, /)", some "Return self<=value."⟩,
  ⟨"__eq__", [], some "($self, value, /)", some "Return self==value."⟩,
  ⟨"__ne__", [], some "($self, value, /)", some "Return self!=value."⟩,
  ⟨"__gt__", [], some "($self, value, /)", some "Return self>value."⟩,
  ⟨"__ge__", [], some "($self, value, /)", some "Return self>=value."⟩,
  ⟨"__init__", [], some "($self, /, *args, **kwargs)",
   some "Initialize self.  See help(type(self)) for accurate signature."⟩,
  ⟨"__reduce_ex__", [], some "($self, protocol, /)", some "Helper for pickle."⟩,
  ⟨"__reduce__", ["object"], some "($self, /)", some "Helper for pickle."⟩,
  ⟨"__getstate__", [], some "($self, /)", some "Helper for pickle."⟩,
  ⟨"__subclasshook__", [], none,
   some ("Abstract classes can override this to customize issubclass().\n\n" ++
    "This is invoked early on by abc.ABCMeta.__subclasscheck__().\n" ++
    "It should return True, False or NotImplemented.  If it returns\n" ++
    "NotImplemented, the normal algorithm is used.  Otherwise, it\n" ++
    "overrides the normal algorithm (and the outcome is cached).\n")⟩,
  ⟨"__init_subclass__", [], none,
   some ("This method is called when a class is subclassed.\n\n" ++
    "The default implementation does nothing. It may be\n" ++
    "overridden to extend subclasses.\n")⟩,
  ⟨"__format__", ["object"], some "($self, format_spec, /)", some "Default object formatter."⟩,
  ⟨"__format__", ["int"], some "($self, format_spec, /)", none⟩,
  ⟨"__format__", ["float"], some "($self, format_spec, /)",
   some "Formats the float according to format_spec."⟩,
  ⟨"__format__", ["str"], some "($self, format_spec, /)",
   some "Return a formatted version of the string as described by format_spec."⟩,
  ⟨"__sizeof__", ["object"], some "($self, /)", some "Size of object in memory, in bytes."⟩,
  ⟨"__sizeof__", ["type"], some "($self, /)", some "Return memory consumption of the type object."⟩,
  ⟨"__sizeof__", ["int"], some "($self, /)", some "Returns size in memory, in bytes."⟩,
  ⟨"__sizeof__", ["str"], some "($self, /)",
   some "Return the size of the string in memory, in bytes."⟩,
  ⟨"__sizeof__", ["list"], some "($self, /)",
   some "Return the size of the list in memory, in bytes."⟩,
  ⟨"__sizeof__", ["dict"], none, some "D.__sizeof__() -> size of D in memory, in bytes"⟩,
  ⟨"__dir__", ["object"], some "($self, /)", some "Default dir() implementation."⟩,
  ⟨"__dir__", ["type"], some "($self, /)", some "Specialized __dir__ implementation for types."⟩,
  ⟨"__class__", [], none, some "the object's class"⟩,
  ⟨"__call__", [], some "($self, /, *args, **kwargs)", some "Call self as a function."⟩,
  ⟨"__or__", [], some "($self, value, /)", some "Return self|value."⟩,
  ⟨"__ror__", [], some "($self, value, /)", some "Return value|self."⟩,
  ⟨"mro", [], some "($self, /)", some "Return a type's method resolution order."⟩,
  ⟨"__subclasses__", [], some "($self, /)", some "Return a list of immediate subclasses."⟩,
  ⟨"__prepare__", [], none,
   some "__prepare__() -> dict\nused to create the namespace for the class statement"⟩,
  ⟨"__instancecheck__", ["type"], some "($self, instance, /)",
   some "Check if an object is an instance."⟩,
  ⟨"__subclasscheck__", ["type"], some "($self, subclass, /)",
   some "Check if a class is a subclass."⟩,
  ⟨"__add__", [], some "($self, value, /)", some "Return self+value."⟩,
  ⟨"__radd__", [], some "($self, value, /)", some "Return value+self."⟩,
  ⟨"__sub__", [], some "($self, value, /)", some "Return self-value."⟩,
  ⟨"__rsub__", [], some "($self, value, /)", some "Return value-self."⟩,
  ⟨"__mul__", [], some "($self, value, /)", some "Return self*value."⟩,
  ⟨"__rmul__", [], some "($self, value, /)", some "Return value*self."⟩,
  ⟨"__mod__", [], some "($self, value, /)", some "Return self%value."⟩,
  ⟨"__rmod__", [], some "($self, value, /)", some "Return value%self."⟩,
  ⟨"__divmod__", [], some "($self, value, /)", some "Return divmod(self, value)."⟩,
  ⟨"__rdivmod__", [], some "($self, value, /)", some "Return divmod(value, self)."⟩,
  ⟨"__pow__", [], some "($self, value, mod=None, /)", some "Return pow(self, value, mod)."⟩,
  ⟨"__rpow__", [], some "($self, value, mod=None, /)", some "Return pow(value, self, mod)."⟩,
  ⟨"__neg__", [], some "($self, /)", some "-self"⟩,
  ⟨"__pos__", [], some "($self, /)", some "+self"⟩,
  ⟨"__abs__", [], some "($self, /)", some "abs(self)"⟩,
  ⟨"__bool__", [], some "($self, /)", some "True if self else False"⟩,
  ⟨"__invert__", [], some "($self, /)", some "~self"⟩,
  ⟨"__lshift__", [], some "($self, value, /)", some "Return self<<value."⟩,
  ⟨"__rlshift__", [], some "($self, value, /)", some "Return value<<self."⟩,
  ⟨"__rshift__", [], some "($self, value, /)", some "Return self>>value."⟩,
  ⟨"__rrshift__", [], some "($self, value, /)", some "Return value>>self."⟩,
  ⟨"__and__", [], some "($self, value, /)", some "Return self&value."⟩,
  ⟨"__rand__", [], some "($self, value, /)", some "Return value&self."⟩,
  ⟨"__xor__", [], some "($self, value, /)", some "Return self^value."⟩,
  ⟨"__rxor__", [], some "($self, value, /)", some "Return value^self."⟩,
  ⟨"__int__", [], some "($self, /)", some "int(self)"⟩,
  ⟨"__float__", [], some "($self, /)", some "float(self)"⟩,
  ⟨"__floordiv__", [], some "($self, value, /)", some "Return self//value."⟩,
  ⟨"__rfloordiv__", [], some "($self, value, /)", some "Return value//self."⟩,
  ⟨"__truediv__", [], some "($self, value, /)", some "Return self/value."⟩,
  ⟨"__rtruediv__", [], some "($self, value, /)", some "Return value/self."⟩,
  ⟨"__index__", [], some "($self, /)",
   some ("Return self converted to an integer, " ++
    "if self is suitable for use as an index into a list.")⟩,
  ⟨"conjugate", ["int"], none, some "Returns self, the complex conjugate of any int."⟩,
  ⟨"conjugate", ["float"], some "($self, /)",
   some "Return self, the complex conjugate of any float."⟩,
  ⟨"bit_length", [], some "($self, /)",
   some ("Number of bits necessary to represent self in binary.\n\n>>> bin(37)\n'0b100101'\n" ++
    ">>> (37).bit_length()\n6")⟩,
  ⟨"bit_count", [], some "($self, /)",
   some ("Number of ones in the binary representation of the absolute value of self.\n\n" ++
    "Also known as the population count.\n\n>>> bin(13)\n'0b1101'\n>>> (13).bit_count()\n" ++
    "3")⟩,
  ⟨"to_bytes", [], some "($self, /, length=1, byteorder='big', *, signed=False)",
   some ("Return an array of bytes representing an integer.\n\n  length\n" ++
    "    Length of bytes object to use.  An OverflowError is raised if the\n" ++
    "    integer is not representable with the given number of bytes.  Default\n" ++
    "    is length 1.\n  byteorder\n" ++
    "    The byte order used to represent the integer.  If byteorder is 'big',\n" ++
    "    the most significant byte is at the beginning of the byte array.  If\n" ++
    "    byteorder is 'little', the most significant byte is at the end of the\n" ++
    "    byte array.  To request the native byte order of the host system, use\n" ++
    "    `sys.byteorder' as the byte order value.  Default is to use 'big'.\n  signed\n" ++
    "    Determines whether two's complement is used to represent the integer.\n" ++
    "    If signed is False and a negative integer is given, an OverflowError\n" ++
    "    is raised.")⟩,
  ⟨"from_bytes", [], some "($type, /, bytes, byteorder='big', *, signed=False)",
   some ("Return the integer represented by the given array of bytes.\n\n  bytes\n" ++
    "    Holds the array of bytes to convert.  The argument must either\n" ++
    "    support the buffer protocol or be an iterable object producing bytes.\n" ++
    "    Bytes and bytearray are examples of built-in objects that support the\n" ++
    "    buffer protocol.\n  byteorder\n" ++
    "    The byte order used to represent the integer.  If byteorder is 'big',\n" ++
    "    the most significant byte is at the beginning of the byte array.  If\n" ++
    "    byteorder is 'little', the most significant byte is at the end of the\n" ++
    "    byte array.  To request the native byte order of the host system, use\n" ++
    "    `sys.byteorder' as the byte order value.  Default is to use 'big'.\n  signed\n" ++
    "    Indicates whether two's complement is used to represent the integer.")⟩,
  ⟨"as_integer_ratio", ["int"], some "($self, /)",
   some ("Return integer ratio.\n\n" ++
    "Return a pair of integers, whose ratio is exactly equal to the original int\n" ++
    "and with a positive denominator.\n\n>>> (10).as_integer_ratio()\n(10, 1)\n" ++
    ">>> (-10).as_integer_ratio()\n(-10, 1)\n>>> (0).as_integer_ratio()\n(0, 1)")⟩,
  ⟨"as_integer_ratio", ["float"], some "($self, /)",
   some ("Return integer ratio.\n\n" ++
    "Return a pair of integers, whose ratio is exactly equal to the original float\n" ++
    "and with a positive denominator.\n\n" ++
    "Raise OverflowError on infinities and a ValueError on NaNs.\n\n" ++
    ">>> (10.0).as_integer_ratio()\n(10, 1)\n>>> (0.0).as_integer_ratio()\n(0, 1)\n" ++
    ">>> (-.25).as_integer_ratio()\n(-1, 4)")⟩,
  ⟨"__trunc__", ["int"], none, some "Truncating an Integral returns itself."⟩,
  ⟨"__trunc__", ["float"], some "($self, /)",
   some "Return the Integral closest to x between 0 and x."⟩,
  ⟨"__floor__", ["int"], none, some "Flooring an Integral returns itself."⟩,
  ⟨"__floor__", ["float"], some "($self, /)", some "Return the floor as an Integral."⟩,
  ⟨"__ceil__", ["int"], none, some "Ceiling of an Integral returns itself."⟩,
  ⟨"__ceil__", ["float"], some "($self, /)", some "Return the ceiling as an Integral."⟩,
  ⟨"__round__", ["int"], some "($self, ndigits=<unrepresentable>, /)",
   some ("Rounding an Integral returns itself.\n\n" ++
    "Rounding with an ndigits argument also returns an integer.")⟩,
  ⟨"__round__", ["float"], some "($self, ndigits=None, /)",
   some ("Return the Integral closest to x, rounding half toward even.\n\n" ++
    "When an argument is passed, work like built-in round(x, ndigits).")⟩,
  ⟨"__getnewargs__", ["int", "float", "tuple"], some "($self, /)", none⟩,
  ⟨"real", [], none, some "the real part of a complex number"⟩,
  ⟨"imag", [], none, some "the imaginary part of a complex number"⟩,
  ⟨"numerator", [], none, some "the numerator of a rational number in lowest terms"⟩,
  ⟨"denominator", [], none, some "the denominator of a rational number in lowest terms"⟩,
  ⟨"fromhex", [], some "($type, string, /)",
   some ("Create a floating-point number from a hexadecimal string.\n\n" ++
    ">>> float.fromhex('0x1.ffffp10')\n2047.984375\n>>> float.fromhex('-0x1p-1074')\n" ++
    "-5e-324")⟩,
  ⟨"hex", [], some "($self, /)",
   some ("Return a hexadecimal representation of a floating-point number.\n\n" ++
    ">>> (-0.1).hex()\n'-0x1.999999999999ap-4'\n>>> 3.14159.hex()\n'0x1.921f9f01b866ep+1'")⟩,
  ⟨"is_integer", [], some "($self, /)", some "Return True if the float is an integer."⟩,
  ⟨"__getformat__", [], some "($type, typestr, /)",
   some ("You probably don't want to use this function.\n\n  typestr\n" ++
    "    Must be 'double' or 'float'.\n\n" ++
    "It exists mainly to be used in Python's test suite.\n\n" ++
    "This function returns whichever of 'unknown', 'IEEE, big-endian' or 'IEEE,\n" ++
    "little-endian' best describes the format of floating point numbers used by the\n" ++
    "C type named by typestr.")⟩,
  ⟨"__iter__", [], some "($self, /)", some "Implement iter(self)."⟩,
  ⟨"__len__", [], some "($self, /)", some "Return len(self)."⟩,
  ⟨"__getitem__", ["str", "tuple", "mappingproxy", "types.GenericAlias"], some "($self, key, /)",
   some "Return self[key]."⟩,
  ⟨"__getitem__", ["list", "dict"], none, some "x.__getitem__(y) <==> x[y]"⟩,
  ⟨"__contains__", ["str", "list", "tuple", "mappingproxy"], some "($self, key, /)",
   some "Return key in self."⟩,
  ⟨"__contains__", ["dict"], some "($self, key, /)",
   some "True if the dictionary has the specified key, else False."⟩,
  ⟨"encode", [], some "($self, /, encoding='utf-8', errors='strict')",
   some ("Encode the string using the codec registered for encoding.\n\n  encoding\n" ++
    "    The encoding in which to encode the string.\n  errors\n" ++
    "    The error handling scheme to use for encoding errors.\n" ++
    "    The default is 'strict' meaning that encoding errors raise a\n" ++
    "    UnicodeEncodeError.  Other possible values are 'ignore', 'replace' and\n" ++
    "    'xmlcharrefreplace' as well as any other name registered with\n" ++
    "    codecs.register_error that can handle UnicodeEncodeErrors.")⟩,
  ⟨"replace", [], some "($self, old, new, count=-1, /)",
   some ("Return a copy with all occurrences of substring old replaced by new.\n\n  count\n" ++
    "    Maximum number of occurrences to replace.\n" ++
    "    -1 (the default value) means replace all occurrences.\n\n" ++
    "If the optional argument count is given, only the first count occurrences are\n" ++
    "replaced.")⟩,
  ⟨"split", [], some "($self, /, sep=None, maxsplit=-1)",
   some ("Return a list of the substrings in the string, using sep as the separator string.\n" ++
    "\n  sep\n    The separator used to split the string.\n\n" ++
    "    When set to None (the default value), will split on any whitespace\n" ++
    "    character (including \\n \\r \\t \\f and spaces) and will discard\n" ++
    "    empty strings from the result.\n  maxsplit\n    Maximum number of splits.\n" ++
    "    -1 (the default value) means no limit.\n\n" ++
    "Splitting starts at the front of the string and works to the end.\n\n" ++
    "Note, str.split() is mainly useful for data that has been intentionally\n" ++
    "delimited.  With natural text that includes punctuation, consider using\n" ++
    "the regular expression module.")⟩,
  ⟨"rsplit", [], some "($self, /, sep=None, maxsplit=-1)",
   some ("Return a list of the substrings in the string, using sep as the separator string.\n" ++
    "\n  sep\n    The separator used to split the string.\n\n" ++
    "    When set to None (the default value), will split on any whitespace\n" ++
    "    character (including \\n \\r \\t \\f and spaces) and will discard\n" ++
    "    empty strings from the result.\n  maxsplit\n    Maximum number of splits.\n" ++
    "    -1 (the default value) means no limit.\n\n" ++
    "Splitting starts at the end of the string and works to the front.")⟩,
  ⟨"join", [], some "($self, iterable, /)",
   some ("Concatenate any number of strings.\n\n" ++
    "The string whose method is called is inserted in between each given string.\n" ++
    "The result is returned as a new string.\n\n" ++
    "Example: '.'.join(['ab', 'pq', 'rs']) -> 'ab.pq.rs'")⟩,
  ⟨"capitalize", [], some "($self, /)",
   some ("Return a capitalized version of the string.\n\n" ++
    "More specifically, make the first character have upper case and the rest lower\n" ++
    "case.")⟩,
  ⟨"casefold", [], some "($self, /)",
   some "Return a version of the string suitable for caseless comparisons."⟩,
  ⟨"title", [], some "($self, /)",
   some ("Return a version of the string where each word is titlecased.\n\n" ++
    "More specifically, words start with uppercased characters and all remaining\n" ++
    "cased characters have lower case.")⟩,
  ⟨"center", [], some "($self, width, fillchar=' ', /)",
   some ("Return a centered string of length width.\n\n" ++
    "Padding is done using the specified fill character (default is a space).")⟩,
  ⟨"count", ["str"], none,
   some ("S.count(sub[, start[, end]]) -> int\n\n" ++
    "Return the number of non-overlapping occurrences of substring sub in\n" ++
    "string S[start:end].  Optional arguments start and end are\n" ++
    "interpreted as in slice notation.")⟩,
  ⟨"count", ["list", "tuple"], some "($self, value, /)",
   some "Return number of occurrences of value."⟩,
  ⟨"expandtabs", [], some "($self, /, tabsize=8)",
   some ("Return a copy where all tab characters are expanded using spaces.\n\n" ++
    "If tabsize is not given, a tab size of 8 characters is assumed.")⟩,
  ⟨"find", [], none,
   some ("S.find(sub[, start[, end]]) -> int\n\n" ++
    "Return the lowest index in S where substring sub is found,\n" ++
    "such that sub is contained within S[start:end].  Optional\n" ++
    "arguments start and end are interpreted as in slice notation.\n\n" ++
    "Return -1 on failure.")⟩,
  ⟨"partition", [], some "($self, sep, /)",
   some ("Partition the string into three parts using the given separator.\n\n" ++
    "This will search for the separator in the string.  If the separator is found,\n" ++
    "returns a 3-tuple containing the part before the separator, the separator\n" ++
    "itself, and the part after it.\n\n" ++
    "If the separator is not found, returns a 3-tuple containing the original string\n" ++
    "and two empty strings.")⟩,
  ⟨"index", ["str"], none,
   some ("S.index(sub[, start[, end]]) -> int\n\n" ++
    "Return the lowest index in S where substring sub is found,\n" ++
    "such that sub is contained within S[start:end].  Optional\n" ++
    "arguments start and end are interpreted as in slice notation.\n\n" ++
    "Raises ValueError when the substring is not found.")⟩,
  ⟨"index", ["list", "tuple"], some "($self, value, start=0, stop=sys.maxsize, /)",
   some "Return first index of value.\n\nRaises ValueError if the value is not present."⟩,
  ⟨"ljust", [], some "($self, width, fillchar=' ', /)",
   some ("Return a left-justified string of length width.\n\n" ++
    "Padding is done using the specified fill character (default is a space).")⟩,
  ⟨"lower", [], some "($self, /)", some "Return a copy of the string converted to lowercase."⟩,
  ⟨"lstrip", [], some "($self, chars=None, /)",
   some ("Return a copy of the string with leading whitespace removed.\n\n" ++
    "If chars is given and not None, remove characters in chars instead.")⟩,
  ⟨"rfind", [], none,
   some ("S.rfind(sub[, start[, end]]) -> int\n\n" ++
    "Return the highest index in S where substring sub is found,\n" ++
    "such that sub is contained within S[start:end].  Optional\n" ++
    "arguments start and end are interpreted as in slice notation.\n\n" ++
    "Return -1 on failure.")⟩,
  ⟨"rindex", [], none,
   some ("S.rindex(sub[, start[, end]]) -> int\n\n" ++
    "Return the highest index in S where substring sub is found,\n" ++
    "such that sub is contained within S[start:end].  Optional\n" ++
    "arguments start and end are interpreted as in slice notation.\n\n" ++
    "Raises ValueError when the substring is not found.")⟩,
  ⟨"rjust", [], some "($self, width, fillchar=' ', /)",
   some ("Return a right-justified string of length width.\n\n" ++
    "Padding is done using the specified fill character (default is a space).")⟩,
  ⟨"rstrip", [], some "($self, chars=None, /)",
   some ("Return a copy of the string with trailing whitespace removed.\n\n" ++
    "If chars is given and not None, remove characters in chars instead.")⟩,
  ⟨"rpartition", [], some "($self, sep, /)",
   some ("Partition the string into three parts using the given separator.\n\n" ++
    "This will search for the separator in the string, starting at the end. If\n" ++
    "the separator is found, returns a 3-tuple containing the part before the\n" ++
    "separator, the separator itself, and the part after it.\n\n" ++
    "If the separator is not found, returns a 3-tuple containing two empty strings\n" ++
    "and the original string.")⟩,
  ⟨"splitlines", [], some "($self, /, keepends=False)",
   some ("Return a list of the lines in the string, breaking at line boundaries.\n\n" ++
    "Line breaks are not included in the resulting list unless keepends is given and\n" ++
    "true.")⟩,
  ⟨"strip", [], some "($self, chars=None, /)",
   some ("Return a copy of the string with leading and trailing whitespace removed.\n\n" ++
    "If chars is given and not None, remove characters in chars instead.")⟩,
  ⟨"swapcase", [], some "($self, /)",
   some "Convert uppercase characters to lowercase and lowercase characters to uppercase."⟩,
  ⟨"translate", [], some "($self, table, /)",
   some ("Replace each character in the string using the given translation table.\n\n  table\n" ++
    "    Translation table, which must be a mapping of Unicode ordinals to\n" ++
    "    Unicode ordinals, strings, or None.\n\n" ++
    "The table must implement lookup/indexing via __getitem__, for instance a\n" ++
    "dictionary or list.  If this operation raises LookupError, the character is\n" ++
    "left untouched.  Characters mapped to None are deleted.")⟩,
  ⟨"upper", [], some "($self, /)", some "Return a copy of the string converted to uppercase."⟩,
  ⟨"startswith", [], none,
   some ("S.startswith(prefix[, start[, end]]) -> bool\n\n" ++
    "Return True if S starts with the specified prefix, False otherwise.\n" ++
    "With optional start, test S beginning at that position.\n" ++
    "With optional end, stop comparing S at that position.\n" ++
    "prefix can also be a tuple of strings to try.")⟩,
  ⟨"endswith", [], none,
   some ("S.endswith(suffix[, start[, end]]) -> bool\n\n" ++
    "Return True if S ends with the specified suffix, False otherwise.\n" ++
    "With optional start, test S beginning at that position.\n" ++
    "With optional end, stop comparing S at that position.\n" ++
    "suffix can also be a tuple of strings to try.")⟩,
  ⟨"removeprefix", [], some "($self, prefix, /)",
   some ("Return a str with the given prefix string removed if present.\n\n" ++
    "If the string starts with the prefix string, return string[len(prefix):].\n" ++
    "Otherwise, return a copy of the original string.")⟩,
  ⟨"removesuffix", [], some "($self, suffix, /)",
   some ("Return a str with the given suffix string removed if present.\n\n" ++
    "If the string ends with the suffix string and that suffix is not empty,\n" ++
    "return string[:-len(suffix)]. Otherwise, return a copy of the original\nstring.")⟩,
  ⟨"isascii", [], some "($self, /)",
   some ("Return True if all characters in the string are ASCII, False otherwise.\n\n" ++
    "ASCII characters have code points in the range U+0000-U+007F.\n" ++
    "Empty string is ASCII too.")⟩,
  ⟨"islower", [], some "($self, /)",
   some ("Return True if the string is a lowercase string, False otherwise.\n\n" ++
    "A string is lowercase if all cased characters in the string are lowercase and\n" ++
    "there is at least one cased character in the string.")⟩,
  ⟨"isupper", [], some "($self, /)",
   some ("Return True if the string is an uppercase string, False otherwise.\n\n" ++
    "A string is uppercase if all cased characters in the string are uppercase and\n" ++
    "there is at least one cased character in the string.")⟩,
  ⟨"istitle", [], some "($self, /)",
   some ("Return True if the string is a title-cased string, False otherwise.\n\n" ++
    "In a title-cased string, upper- and title-case characters may only\n" ++
    "follow uncased characters and lowercase characters only cased ones.")⟩,
  ⟨"isspace", [], some "($self, /)",
   some ("Return True if the string is a whitespace string, False otherwise.\n\n" ++
    "A string is whitespace if all characters in the string are whitespace and there\n" ++
    "is at least one character in the string.")⟩,
  ⟨"isdecimal", [], some "($self, /)",
   some ("Return True if the string is a decimal string, False otherwise.\n\n" ++
    "A string is a decimal string if all characters in the string are decimal and\n" ++
    "there is at least one character in the string.")⟩,
  ⟨"isdigit", [], some "($self, /)",
   some ("Return True if the string is a digit string, False otherwise.\n\n" ++
    "A string is a digit string if all characters in the string are digits and there\n" ++
    "is at least one character in the string.")⟩,
  ⟨"isnumeric", [], some "($self, /)",
   some ("Return True if the string is a numeric string, False otherwise.\n\n" ++
    "A string is numeric if all characters in the string are numeric and there is at\n" ++
    "least one character in the string.")⟩,
  ⟨"isalpha", [], some "($self, /)",
   some ("Return True if the string is an alphabetic string, False otherwise.\n\n" ++
    "A string is alphabetic if all characters in the string are alphabetic and there\n" ++
    "is at least one character in the string.")⟩,
  ⟨"isalnum", [], some "($self, /)",
   some ("Return True if the string is an alpha-numeric string, False otherwise.\n\n" ++
    "A string is alpha-numeric if all characters in the string are alpha-numeric and\n" ++
    "there is at least one character in the string.")⟩,
  ⟨"isidentifier", [], some "($self, /)",
   some ("Return True if the string is a valid Python identifier, False otherwise.\n\n" ++
    "Call keyword.iskeyword(s) to test whether string s is a reserved identifier,\n" ++
    "such as \"def\" or \"class\".")⟩,
  ⟨"isprintable", [], some "($self, /)",
   some ("Return True if the string is printable, False otherwise.\n\n" ++
    "A string is printable if all of its characters are considered printable in\n" ++
    "repr() or if it is empty.")⟩,
  ⟨"zfill", [], some "($self, width, /)",
   some ("Pad a numeric string with zeros on the left, to fill a field of the given width.\n\n" ++
    "The string is never truncated.")⟩,
  ⟨"format", [], none,
   some ("S.format(*args, **kwargs) -> str\n\n" ++
    "Return a formatted version of S, using substitutions from args and kwargs.\n" ++
    "The substitutions are identified by braces ('\x7b' and '\x7d').")⟩,
  ⟨"format_map", [], none,
   some ("S.format_map(mapping) -> str\n\n" ++
    "Return a formatted version of S, using substitutions from mapping.\n" ++
    "The substitutions are identified by braces ('\x7b' and '\x7d').")⟩,
  ⟨"maketrans", [], some "(x, y=<unrepresentable>, z=<unrepresentable>, /)",
   some ("Return a translation table usable for str.translate().\n\n" ++
    "If there is only one argument, it must be a dictionary mapping Unicode\n" ++
    "ordinals (integers) or characters to Unicode ordinals, strings or None.\n" ++
    "Character keys will be then converted to ordinals.\n" ++
    "If there are two arguments, they must be strings of equal length, and\n" ++
    "in the resulting dictionary, each character in x will be mapped to the\n" ++
    "character at the same position in y. If there is a third argument, it\n" ++
    "must be a string, whose characters will be mapped to None in the result.")⟩,
  ⟨"__setitem__", [], some "($self, key, value, /)", some "Set self[key] to value."⟩,
  ⟨"__delitem__", [], some "($self, key, /)", some "Delete self[key]."⟩,
  ⟨"__iadd__", [], some "($self, value, /)", some "Implement self+=value."⟩,
  ⟨"__imul__", [], some "($self, value, /)", some "Implement self*=value."⟩,
  ⟨"__reversed__", ["list"], some "($self, /)", some "Return a reverse iterator over the list."⟩,
  ⟨"__reversed__", ["dict"], some "($self, /)",
   some "Return a reverse iterator over the dict keys."⟩,
  ⟨"__reversed__", ["mappingproxy"], none, some "D.__reversed__() -> reverse iterator"⟩,
  ⟨"clear", ["list"], some "($self, /)", some "Remove all items from list."⟩,
  ⟨"clear", ["dict"], none, some "D.clear() -> None.  Remove all items from D."⟩,
  ⟨"copy", ["list"], some "($self, /)", some "Return a shallow copy of the list."⟩,
  ⟨"copy", ["dict", "mappingproxy"], none, some "D.copy() -> a shallow copy of D"⟩,
  ⟨"append", [], some "($self, object, /)", some "Append object to the end of the list."⟩,
  ⟨"insert", [], some "($self, index, object, /)", some "Insert object before index."⟩,
  ⟨"extend", [], some "($self, iterable, /)",
   some "Extend list by appending elements from the iterable."⟩,
  ⟨"pop", ["list"], some "($self, index=-1, /)",
   some ("Remove and return item at index (default last).\n\n" ++
    "Raises IndexError if list is empty or index is out of range.")⟩,
  ⟨"pop", ["dict"], some "($self, key, default=<unrepresentable>, /)",
   some ("D.pop(k[,d]) -> v, remove specified key and return the corresponding value.\n\n" ++
    "If the key is not found, return the default if given; otherwise,\nraise a KeyError.")⟩,
  ⟨"remove", [], some "($self, value, /)",
   some "Remove first occurrence of value.\n\nRaises ValueError if the value is not present."⟩,
  ⟨"reverse", [], some "($self, /)", some "Reverse *IN PLACE*."⟩,
  ⟨"sort", [], some "($self, /, *, key=None, reverse=False)",
   some ("Sort the list in ascending order and return None.\n\n" ++
    "The sort is in-place (i.e. the list itself is modified) and stable (i.e. the\n" ++
    "order of two equal elements is maintained).\n\n" ++
    "If a key function is given, apply it once to each list item and sort them,\n" ++
    "ascending or descending, according to their function values.\n\n" ++
    "The reverse flag can be set to sort in descending order.")⟩,
  ⟨"__class_getitem__", [], none, some "See PEP 585"⟩,
  ⟨"__ior__", [], some "($self, value, /)", some "Return self|=value."⟩,
  ⟨"get", ["dict"], some "($self, key, default=None, /)",
   some "Return the value for key if key is in the dictionary, else default."⟩,
  ⟨"get", ["mappingproxy"], none,
   some "D.get(k[,d]) -> D[k] if k in D, else d.  d defaults to None."⟩,
  ⟨"setdefault", [], some "($self, key, default=None, /)",
   some ("Insert key with a value of default if key is not in the dictionary.\n\n" ++
    "Return the value for key if key is in the dictionary, else default.")⟩,
  ⟨"popitem", [], some "($self, /)",
   some ("Remove and return a (key, value) pair as a 2-tuple.\n\n" ++
    "Pairs are returned in LIFO (last-in, first-out) order.\n" ++
    "Raises KeyError if the dict is empty.")⟩,
  ⟨"keys", [], none, some "D.keys() -> a set-like object providing a view on D's keys"⟩,
  ⟨"items", [], none, some "D.items() -> a set-like object providing a view on D's items"⟩,
  ⟨"values", [], none, some "D.values() -> an object providing a view on D's values"⟩,
  ⟨"update", [], none,
   some ("D.update([E, ]**F) -> None.  Update D from dict/iterable E and F.\n" ++
    "If E is present and has a .keys() method, then does:  for k in E: D[k] = E[k]\n" ++
    "If E is present and lacks a .keys() method, then does:  for k, v in E: D[k] = v\n" ++
    "In either case, this is followed by: for k in F:  D[k] = F[k]")⟩,
  ⟨"fromkeys", [], some "($type, iterable, value=None, /)",
   some "Create a new dictionary with keys from iterable and values set to value."⟩,
  ⟨"__get__", [], some "($self, instance, owner=None, /)",
   some "Return an attribute of instance, which is of type owner."⟩,
  ⟨"__set__", [], some "($self, instance, value, /)",
   some "Set an attribute of instance to value."⟩,
  ⟨"__delete__", [], some "($self, instance, /)", some "Delete an attribute of instance."⟩,
  ⟨"__parameters__", [], none, some "Type variables in the GenericAlias."⟩]

def find? (name owner : String) : Option Documentation :=
  all.find? fun d => d.name == name && (d.owners.isEmpty || d.owners.contains owner)

end Documentation

end Inlay
