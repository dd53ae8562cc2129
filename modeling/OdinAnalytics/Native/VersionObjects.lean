import OdinAnalytics.Lib.Heap
import OdinAnalytics.Lib.Slots
import OdinAnalytics.Native.VersionInfo

/-!
# Objects that own version info

The class `version_info` (`config/version_info.cpp`): an object owns the implementation that
its member `impl_` points to, if it has one, hands it on when it is moved, and deletes it in
the end. Objects are named by their place among the live ones.
-/

namespace OA.Config

open Machine

/-- The implementations that there are, and the live objects of `version_info` with the
    member `impl_` of each. -/
structure VersionObjects where
  impls : Heap VersionInfo := .empty
  objs : List (Option Nat) := []

/-- What a program does with objects of `version_info`. -/
inductive ObjectOp where
  | construct
  | load (contents : Bytes)
  | moveConstruct (other : Nat)
  | moveAssign (i other : Nat)
  | destruct (i : Nat)
deriving DecidableEq

/-- The objects that are named are among `n` live ones. -/
def ObjectOp.Names (n : Nat) : ObjectOp → Prop
  | .construct => True
  | .load _ => True
  | .moveConstruct other => other < n
  | .moveAssign i other => i < n ∧ other < n
  | .destruct i => i < n

namespace VersionObjects

/-- The member `impl_` of an object. -/
def impl (s : VersionObjects) (i : Nat) : Option Nat := Slots.slot s.objs i

/-- The member function `from`. -/
def fromOther (s : VersionObjects) (i other : Nat) : VersionObjects :=
  let s := { s with objs := s.objs.set i (s.impl other) }
  -- an object that is moved to itself is left empty
  { s with objs := s.objs.set other none }

/-- The member function `destroy`, which leaves the pointer as it is. -/
def destroy (s : VersionObjects) (i : Nat) : Exec VersionObjects :=
  match s.impl i with
  | none => .ok s
  | some a =>
    match s.impls.free a with
    | some impls => .ok { s with impls := impls }
    | none => .error (.undefined .indexOutOfRange)

/-- The default constructor. -/
def construct (s : VersionObjects) : VersionObjects := { s with objs := s.objs ++ [none] }

/-- The constructor from the path of a file with the given contents. -/
def load (plat : Platform) (contents : Bytes) (s : VersionObjects) : Exec VersionObjects := do
  -- no implementation is left if its constructor throws
  let info ← versionInfo plat contents
  let (a, impls) := s.impls.alloc info
  return { impls := impls, objs := s.objs ++ [some a] }

/-- The move constructor. -/
def moveConstruct (s : VersionObjects) (other : Nat) : VersionObjects :=
  s.construct.fromOther s.objs.length other

/-- The move assignment operator. -/
def moveAssign (s : VersionObjects) (i other : Nat) : Exec VersionObjects := do
  let s ← s.destroy i
  return s.fromOther i other

/-- The destructor. -/
def destruct (s : VersionObjects) (i : Nat) : Exec VersionObjects := do
  let s ← s.destroy i
  return { s with objs := s.objs.eraseIdx i }

/-- One operation. -/
def step (plat : Platform) (s : VersionObjects) : ObjectOp → Exec VersionObjects
  | .construct => .ok s.construct
  | .load contents => s.load plat contents
  | .moveConstruct other => .ok (s.moveConstruct other)
  | .moveAssign i other => s.moveAssign i other
  | .destruct i => s.destruct i

/-! ## What is asked of an object -/

/-- `impl_->`. -/
def arrow (s : VersionObjects) (i : Nat) : Exec VersionInfo :=
  match s.impl i with
  | none => .error (.undefined .nullPointer)
  | some a =>
    match s.impls.block a with
    | some info => .ok info
    | none => .error (.undefined .indexOutOfRange)

/-- `version_info::company`. -/
def company (s : VersionObjects) (i : Nat) : Exec Bytes := do return (← s.arrow i).company

/-- `version_info::description`. -/
def description (s : VersionObjects) (i : Nat) : Exec Bytes := do
  return (← s.arrow i).description

/-- `version_info::filename`. -/
def filename (s : VersionObjects) (i : Nat) : Exec Bytes := do return (← s.arrow i).filename

/-- `version_info::product`. -/
def product (s : VersionObjects) (i : Nat) : Exec Bytes := do return (← s.arrow i).product

/-- `version_info::version`. -/
def version (s : VersionObjects) (i : Nat) : Exec Bytes := do return (← s.arrow i).version

/-- `version_info::version_num`. -/
def versionNum (s : VersionObjects) (i : Nat) : Exec Nat := do return (← s.arrow i).versionNum

/-- `digits[ver & 0xF]`. -/
def hexDigit (ver : Nat) : UInt8 := (bytes "0123456789abcdef").getD (ver &&& 0xF) 0

/-- The loop of `version_hex`, which writes two digits for each of eight bytes. -/
def hexOf (ver : Nat) : Bytes :=
  (List.range 8).foldl (fun str i =>
    let shift := 8 * (8 - i - 1)
    (str.set (i + i) (hexDigit (ver >>> (shift + 4)))).set (i + i + 1) (hexDigit (ver >>> shift)))
    (List.replicate 16 0)

/-- `version_info::version_hex`. -/
def versionHex (s : VersionObjects) (i : Nat) : Exec Bytes := do return hexOf (← s.versionNum i)

end VersionObjects

end OA.Config
