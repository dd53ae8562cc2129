import OdinAnalytics.Machine.Bytes

/-!
# Boost

The string algorithms of Boost that the source calls. Boost is not part of the
repository, so it is a parameter, with what its documentation says of them as laws.
-/

namespace Machine

/-- A small letter of ASCII as a capital one. -/
def toUpperAscii (c : UInt8) : UInt8 := if 97 ≤ c ∧ c ≤ 122 then c - 32 else c

/-- The algorithms of Boost, in the locale of the program. -/
structure Boost where
  /-- `boost::split`, by the characters that satisfy a predicate -/
  split (input : Bytes) (pred : UInt8 → Bool) : List Bytes
  /-- `boost::algorithm::join` -/
  join (input : List Bytes) (separator : Bytes) : Bytes
  /-- `boost::to_upper_copy` -/
  toUpperCopy (input : Bytes) : Bytes
  /-- Without token compression, adjacent separators have an empty token between them. -/
  split_eq : ∀ input pred, split input pred = input.splitOnP pred
  join_eq : ∀ input separator, join input separator = separator.intercalate input
  /-- Outside of ASCII it depends on the locale what a capital letter is. -/
  toUpperCopy_ascii : ∀ input, (∀ c ∈ input, c.toNat < 0x80) →
    toUpperCopy input = input.map toUpperAscii

/-- The algorithms in the classic locale, where only ASCII has capital letters. -/
def Boost.classic : Boost where
  split input pred := input.splitOnP pred
  join input separator := separator.intercalate input
  toUpperCopy input := input.map toUpperAscii
  split_eq _ _ := rfl
  join_eq _ _ := rfl
  toUpperCopy_ascii _ _ := rfl

end Machine
