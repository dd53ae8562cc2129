import OdinAnalytics.Lib.RefCount

/-!
# Wrappers of Python objects

The class `py_object` (`oa/python.h`), which holds a reference to a Python object, over
the reference counts of Python. A `PyObject*` is a pointer, `none` is `nullptr`.
-/

namespace Oa

variable {α : Type}

/-- The reference counts of Python objects, the references that code outside the class has,
    and the live objects of `py_object` with the member `obj_` of each. -/
structure Interpreter (α : Type) where
  heap : RefHeap α
  external : α → Nat
  objs : List (Option α)

/-- What a program does with objects of `py_object`, which are named by their place among
    the live ones, and with its own references. -/
inductive PyOp (α : Type) where
  | construct
  | own (obj : Option α)
  | share (obj : Option α)
  | copyConstruct (other : Nat)
  | moveConstruct (other : Nat)
  | copyAssign (i other : Nat)
  | moveAssign (i other : Nat)
  | destroy (i : Nat)
  | acquire (x : α)
  | release (x : α)
  deriving Repr, DecidableEq

namespace Interpreter

variable [DecidableEq α]

/-- `Py_XINCREF`. -/
def pyXIncref (s : Interpreter α) (obj : Option α) : Interpreter α :=
  { s with heap := s.heap.xincref obj }

/-- `Py_XDECREF`. -/
def pyXDecref (s : Interpreter α) (obj : Option α) : Interpreter α :=
  { s with heap := s.heap.xdecref obj }

/-- The member `obj_` of an object. -/
def obj (s : Interpreter α) (i : Nat) : Option α :=
  s.objs.getD i none

/-- The member function `from`, of an object that is copied. -/
def fromCopy (s : Interpreter α) (i other : Nat) : Interpreter α :=
  let s := { s with objs := s.objs.set i (s.obj other) }
  s.pyXIncref (s.obj i)

/-- The member function `from`, of an object that is moved. -/
def fromMove (s : Interpreter α) (i other : Nat) : Interpreter α :=
  let s := { s with objs := s.objs.set i (s.obj other) }
  -- an object that is moved to itself is left empty
  { s with objs := s.objs.set other none }

/-- The constructor from a `PyObject*`. -/
def constructWith (s : Interpreter α) (obj : Option α) : Interpreter α :=
  { s with objs := s.objs ++ [obj] }

/-- The default constructor. -/
def construct (s : Interpreter α) : Interpreter α :=
  s.constructWith none

/-- The constructor with `inc`. -/
def constructInc (s : Interpreter α) (obj : Option α) : Interpreter α :=
  let s := s.constructWith obj
  s.pyXIncref (s.obj (s.objs.length - 1))

/-- The copy constructor. -/
def copyConstruct (s : Interpreter α) (other : Nat) : Interpreter α :=
  -- `obj_` has no value before `from` writes it
  s.construct.fromCopy s.objs.length other

/-- The copy assignment operator. -/
def copyAssign (s : Interpreter α) (i other : Nat) : Interpreter α :=
  -- the old reference is given up before the new one is taken
  (s.pyXDecref (s.obj i)).fromCopy i other

/-- The move constructor. -/
def moveConstruct (s : Interpreter α) (other : Nat) : Interpreter α :=
  s.construct.fromMove s.objs.length other

/-- The move assignment operator. -/
def moveAssign (s : Interpreter α) (i other : Nat) : Interpreter α :=
  (s.pyXDecref (s.obj i)).fromMove i other

/-- The destructor. -/
def destroy (s : Interpreter α) (i : Nat) : Interpreter α :=
  let s := s.pyXDecref (s.obj i)
  { s with objs := s.objs.eraseIdx i }

/-- The references outside the class to an object. -/
def setExternal (s : Interpreter α) (x : α) (n : Nat) : Interpreter α :=
  { s with external := Function.update s.external x n }

/-- An object that a new reference may be to: one that has references. -/
def Alive (s : Interpreter α) (x : α) : Prop :=
  x ∉ s.heap.freed ∧ 0 < s.heap.count x

instance (s : Interpreter α) (x : α) : Decidable (s.Alive x) :=
  inferInstanceAs (Decidable (_ ∧ _))

/-- One operation, on objects that are live. -/
def step (s : Interpreter α) : PyOp α → Option (Interpreter α)
  | .construct => some s.construct
  | .own none => some (s.constructWith none)
  | .own (some x) =>
    -- the reference that is taken over has been one of the code outside
    if 0 < s.external x then
      some ((s.setExternal x (s.external x - 1)).constructWith (some x))
    else none
  | .share obj => if ∀ x ∈ obj, s.Alive x then some (s.constructInc obj) else none
  | .copyConstruct other =>
    if other < s.objs.length then some (s.copyConstruct other) else none
  | .moveConstruct other =>
    if other < s.objs.length then some (s.moveConstruct other) else none
  | .copyAssign i other =>
    if i < s.objs.length ∧ other < s.objs.length then some (s.copyAssign i other) else none
  | .moveAssign i other =>
    if i < s.objs.length ∧ other < s.objs.length then some (s.moveAssign i other) else none
  | .destroy i => if i < s.objs.length then some (s.destroy i) else none
  | .acquire x =>
    -- also the first reference to an object that is created
    if x ∉ s.heap.freed then
      some ((s.pyXIncref (some x)).setExternal x (s.external x + 1))
    else none
  | .release x =>
    if 0 < s.external x then
      some ((s.pyXDecref (some x)).setExternal x (s.external x - 1))
    else none

end Interpreter

end Oa
