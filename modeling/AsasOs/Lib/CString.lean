import Mathlib.Data.List.Basic

/-!
# C strings

The characters of a C string before its terminator, and the copy into a bounded
buffer that truncates silently.
-/
abbrev CString := List Char

namespace CString

/-- The string that fits a buffer of `capacity` characters together with its
terminator. -/
def copyString (source : CString) (capacity : Nat) : CString :=
  source.take (capacity - 1)

theorem copyString_of_fits {source : CString} {capacity : Nat}
    (fits : source.length < capacity) : copyString source capacity = source :=
  List.take_of_length_le (by omega)

end CString
