import OdinAnalytics.Machine.Bytes

/-!
# Owners of R objects

The class `sexp` (`oa/r.h`), which protects an R object while an object of the class owns
it, over R's protection stack, and the typemaps of strings that use it
(`oa/typemaps/r.i`). An `SEXP` is a pointer, `none` is `nullptr`.
-/

namespace Oa

open Machine

variable {α : Type}

/-- R's protection stack, its top first, and the live objects of `sexp` with the
    `SEXP` in the member `obj_` of each, in the order of their construction. -/
structure Frame (α : Type) where
  stack : List (Option α)
  objs : List (Option α)
  deriving Repr, DecidableEq

namespace Frame

/-- `Rf_protect`. -/
def rfProtect (s : Frame α) (obj : Option α) : Frame α :=
  { s with stack := obj :: s.stack }

/-- `Rf_unprotect`, on a stack of that height at least. -/
def rfUnprotect (s : Frame α) (n : Nat) : Frame α :=
  { s with stack := s.stack.drop n }

/-- The member `obj_` of an object. -/
def obj (s : Frame α) (i : Nat) : Option α :=
  s.objs.getD i none

/-- The member function `unprotect`. -/
def unprotect (s : Frame α) (i : Nat) : Frame α :=
  -- the entry on top is removed, whichever object it is of
  if (s.obj i).isSome then s.rfUnprotect 1 else s

/-- The member function `from`. -/
def fromOther (s : Frame α) (i other : Nat) : Frame α :=
  let s := { s with objs := s.objs.set i (s.obj other) }
  { s with objs := s.objs.set other none }

/-- The default constructor. -/
def construct (s : Frame α) : Frame α :=
  { s with objs := s.objs ++ [none] }

/-- The constructor from an `SEXP`. -/
def constructWith (s : Frame α) (obj : Option α) : Frame α :=
  let s := s.rfProtect obj
  { s with objs := s.objs ++ [obj] }

/-- The move constructor. -/
def moveConstruct (s : Frame α) (other : Nat) : Frame α :=
  -- `obj_` has no value before `from` writes it
  s.construct.fromOther s.objs.length other

/-- The move assignment operator. -/
def moveAssign (s : Frame α) (i other : Nat) : Frame α :=
  (s.unprotect i).fromOther i other

/-- The destructor, of the object that was constructed last. -/
def destroy (s : Frame α) : Frame α :=
  let s := s.unprotect (s.objs.length - 1)
  { s with objs := s.objs.dropLast }

end Frame

/-- What a program does with objects of `sexp`. Objects are named by their place in the
    order of construction, which is also that of their scopes. -/
inductive SexpOp (α : Type) where
  | construct
  | constructWith (obj : Option α)
  | moveConstruct (other : Nat)
  | moveAssign (i other : Nat)
  | destroy
  deriving Repr, DecidableEq

/-- One operation, on objects that are live. -/
def Frame.step (s : Frame α) : SexpOp α → Option (Frame α)
  | .construct => some s.construct
  | .constructWith obj => some (s.constructWith obj)
  | .moveConstruct other =>
    if other < s.objs.length then some (s.moveConstruct other) else none
  | .moveAssign i other =>
    if i < s.objs.length ∧ other < s.objs.length then some (s.moveAssign i other) else none
  | .destroy => if s.objs = [] then none else some s.destroy

/-- A sequence of operations. -/
def Frame.run (s : Frame α) (ops : List (SexpOp α)) : Option (Frame α) :=
  ops.foldlM Frame.step s

/-- What `to_sexp` uses of R: an object that it has, and those it makes. -/
structure RStrings (α : Type) where
  blankScalarString : α
  mkCharLen : Bytes → α
  scalarString : α → α

/-- The `SEXP` that `to_sexp` constructs its `sexp` with. -/
def toSexp (r : RStrings α) (str : Bytes) : α :=
  if str.isEmpty then r.blankScalarString else r.scalarString (r.mkCharLen str)

/-- The typemaps of strings that are returned, when there are `n` live objects: `res` is
    assigned from a temporary object, which the statement then destroys. -/
def typemapOut (r : RStrings α) (str : Bytes) (n : Nat) : List (SexpOp α) :=
  [.construct, .constructWith (some (toSexp r str)), .moveAssign n (n + 1), .destroy]

end Oa
