import OdinAnalytics.Machine.Bytes

/-!
# Strings of a fixed size

The class template `fixed_string` (`oa/fixed_string.h`): the constructor, concatenation,
comparison and stream output, among themselves and with `std::string`. A `char` is its
byte.
-/

namespace Oa

open Machine

/-- A `fixed_string<N>`: the member `data_`, which ends with a null terminator. -/
structure FixedString (n : Nat) where
  data : Bytes
  length_data : data.length = n + 1
  terminated : data[n]? = some 0

/-- The types of `fixed_string_input`. -/
inductive FixedStringInput where
  /-- A character array with these elements. -/
  | array (elems : Bytes)
  | fixed (n : Nat) (s : FixedString n)

namespace FixedStringInput

/-- The elements, with the terminator. -/
def elems : FixedStringInput → Bytes
  | .array elems => elems
  | .fixed _ s => s.data

/-- `fixed_size_v`. -/
def fixedSize : FixedStringInput → Nat
  | .array elems => elems.length - 1
  | .fixed n _ => n

/-- The characters that a loop up to `fixed_size_v` reads. -/
def chars (arg : FixedStringInput) : Bytes := arg.elems.take arg.fixedSize

/-- An argument gives as many characters as its size says. -/
theorem length_chars (arg : FixedStringInput) : arg.chars.length = arg.fixedSize := by
  unfold chars
  rw [List.length_take]
  cases arg with
  | array elems => exact Nat.min_eq_left (Nat.sub_le _ _)
  | fixed n s => exact Nat.min_eq_left (by simp [elems, fixedSize, s.length_data])

/-- The number of characters of some arguments, `(fixed_size_v<Ts> + ...)`. -/
def totalSize (args : List FixedStringInput) : Nat :=
  args.foldr (fun arg size => arg.fixedSize + size) 0

/-- The arguments give as many characters as their sizes say. -/
theorem length_flatMap_chars (args : List FixedStringInput) :
    (args.flatMap chars).length = totalSize args := by
  induction args with
  | nil => rfl
  | cons arg args ih =>
    rw [List.flatMap_cons, List.length_append, length_chars, ih]
    rfl

end FixedStringInput

/-- The loop of the constructor over one argument, after the characters that have been
    written already. -/
def copyChars (n : Nat) (written : Bytes) : Bytes → Bytes
  | [] => written
  | c :: rest =>
    -- the string is full
    if written.length < n then copyChars n (written ++ [c]) rest else written

/-- Copying appends characters as long as there is room. -/
theorem copyChars_eq {n : Nat} {written : Bytes} (h : written.length ≤ n) (cs : Bytes) :
    copyChars n written cs = (written ++ cs).take n := by
  induction cs generalizing written with
  | nil =>
    rw [List.append_nil, List.take_of_length_le h]
    rfl
  | cons c rest ih =>
    unfold copyChars
    split
    case isTrue hlt =>
      -- there is room for one more
      have hle : (written ++ [c]).length ≤ n := by
        rw [List.length_append, List.length_singleton]
        exact hlt
      rw [ih hle, List.append_assoc, List.singleton_append]
    case isFalse hfull =>
      -- the string is full, the rest is dropped
      have hlen : written.length = n := by omega
      rw [← hlen, List.take_left]

/-- The characters that the constructor writes. -/
def copyArgs (n : Nat) (args : List FixedStringInput) : Bytes :=
  args.foldl (fun written arg => copyChars n written arg.chars) []

/-- All characters of the arguments, in a row, cut at the size. -/
theorem copyArgs_eq (n : Nat) (args : List FixedStringInput) :
    copyArgs n args = (args.flatMap FixedStringInput.chars).take n := by
  -- what is written before an argument is cut at the size as well
  have hfold : ∀ (args : List FixedStringInput) (before : Bytes),
      args.foldl (fun written arg => copyChars n written arg.chars) (before.take n) =
        (before ++ args.flatMap FixedStringInput.chars).take n := by
    intro args
    induction args with
    | nil => simp
    | cons arg args ih =>
      intro before
      have hrest : n - min n before.length = n - before.length := by omega
      have hcopy : copyChars n (before.take n) arg.chars = (before ++ arg.chars).take n := by
        rw [copyChars_eq (List.length_take_le _ _), List.take_append, List.take_append,
          List.take_take, Nat.min_self, List.length_take, hrest]
      rw [List.foldl_cons, hcopy, ih, List.flatMap_cons, List.append_assoc]
  have h := hfold args []
  rwa [List.take_nil, List.nil_append] at h

/-- Arguments that are large enough fill the string. -/
theorem length_copyArgs {n : Nat} {args : List FixedStringInput}
    (h : n ≤ FixedStringInput.totalSize args) : (copyArgs n args).length = n := by
  rw [copyArgs_eq, List.length_take, FixedStringInput.length_flatMap_chars]
  exact Nat.min_eq_left h

namespace FixedString

/-- The constructor. The inputs have to suffice, or it does not compile. -/
def ofArgs (n : Nat) (args : List FixedStringInput)
    (h : n ≤ FixedStringInput.totalSize args) : FixedString n where
  data := copyArgs n args ++ [0]
  length_data := by rw [List.length_append, length_copyArgs h, List.length_singleton]
  terminated := by
    rw [List.getElem?_append_right (Nat.le_of_eq (length_copyArgs h)), length_copyArgs h,
      Nat.sub_self]
    rfl

/-- The constructor with two arguments and the size that is deduced for them. -/
def concat (s t : FixedStringInput) : FixedString (s.fixedSize + t.fixedSize) :=
  ofArgs _ [s, t] (by simp [FixedStringInput.totalSize])

variable {n m : Nat}

/-- What a function reads that is passed `data()`, as a null-terminated string. -/
def cString (s : FixedString n) : Bytes := s.data.takeWhile (· ≠ 0)

/-- `operator+` for two fixed strings. -/
def add (s : FixedString n) (t : FixedString m) : FixedString (n + m) :=
  concat (.fixed n s) (.fixed m t)

/-- `operator+` for a fixed string and a character array. -/
def addArray (s : FixedString n) (t : Bytes) : FixedString (n + (t.length - 1)) :=
  concat (.fixed n s) (.array t)

/-- `operator+` for a character array and a fixed string. -/
def arrayAdd (s : Bytes) (t : FixedString m) : FixedString (s.length - 1 + m) :=
  concat (.array s) (.fixed m t)

/-- `operator+` for a fixed string and a `std::string`. -/
def addString (s : FixedString n) (t : Bytes) : Bytes :=
  -- `s1.data() + s2`
  s.cString ++ t

/-- `operator+` for a `std::string` and a fixed string. -/
def stringAdd (s : Bytes) (t : FixedString m) : Bytes :=
  -- `s1 + s2.data()`
  s ++ t.cString

/-- The loop of `detail::equal`. -/
def equalLoop : Bytes → Bytes → Bool
  | c :: cs, d :: ds => if c ≠ d then false else equalLoop cs ds
  | _, _ => true

/-- `detail::equal`. -/
def equal (s t : FixedStringInput) : Bool :=
  -- the sizes are compared at compile time
  if s.fixedSize ≠ t.fixedSize then false else equalLoop s.chars t.chars

/-- `operator==` for two fixed strings. -/
def eqFixed (s : FixedString n) (t : FixedString m) : Bool :=
  equal (.fixed n s) (.fixed m t)

/-- `operator==` for a fixed string and a character array. -/
def eqArray (s : FixedString n) (t : Bytes) : Bool :=
  equal (.fixed n s) (.array t)

/-- `operator==` for a character array and a fixed string. -/
def arrayEq (s : Bytes) (t : FixedString m) : Bool :=
  equal (.array s) (.fixed m t)

/-- `operator==` for a fixed string and a `std::string`. -/
def eqString (s : FixedString n) (t : Bytes) : Bool :=
  -- `s1.data() == s2`
  s.cString == t

/-- `operator==` for a `std::string` and a fixed string. -/
def stringEq (s : Bytes) (t : FixedString m) : Bool := t.eqString s

/-- `operator<<`, on a stream with what has been written to it. -/
def write (out : Bytes) (s : FixedString n) : Bytes :=
  -- `out.write(str.data(), str.size())`
  out ++ s.data.take n

end FixedString

end Oa
