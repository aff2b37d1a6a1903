import Mathlib.Data.List.Basic

/-! # Byte strings

A C++ `string` is a sequence of bytes; nothing in the program reads it as
text in an encoding.
-/

namespace Pmud

abbrev ByteString := List UInt8

/-- The bytes of a literal of the source. -/
def text (literal : String) : ByteString :=
  literal.toList.map fun character => UInt8.ofNat character.toNat

example : text "quit" = [113, 117, 105, 116] := by decide

/-- What a run of a program has printed, and its exit code. -/
structure Outcome where
  cout : ByteString
  cerr : ByteString
  code : Nat
  deriving DecidableEq

end Pmud
