import OdinAnalytics.Machine.Exec
import OdinAnalytics.Machine.Traced

/-!
# Scope guards

The class template `scope_exit` (`oa/scope_exit.h`), with what is done to its callable and
to storage as a trace, and the guard that the stream output of a `Date` makes
(`date.cpp`).
-/

namespace Oa

open Machine

/-- Where an object of the callable type is: with the caller, in the member `o_` or in
    allocated storage. -/
inductive Place where
  | caller
  | buffer
  | heap
  deriving Repr, DecidableEq

/-- What happens to memory and to the callable. -/
inductive Event where
  | alloc
  | dealloc
  | construct (p : Place)
  | invoke (p : Place)
  | destroy (p : Place)
  deriving Repr, DecidableEq

/-- How a body ends early. -/
inductive Stop where
  | throws (e : Exn)
  /-- A member of a union is read that is not the active one. -/
  | inactiveMember
  deriving Repr, DecidableEq

/-- A body with its events, which may end early. -/
abbrev Body := Traced Stop Event

/-- A nullary callable type: its `sizeof`, and what a call and a move throw. -/
structure Callable where
  size : Nat
  called : Option Exn
  moved : Option Exn
  deriving Repr, DecidableEq

def throwIf : Option Exn → Body Unit
  | none => pure ()
  | some e => .fail (.throws e)

/-- A `try` block with `catch (...) {}`. -/
def catchAll (x : Body Unit) : Body Unit :=
  x.handle fun
    | .throws _ => pure ()
    | .inactiveMember => .fail .inactiveMember

namespace Callable

/-- `std::invoke`. -/
def invoke (f : Callable) (p : Place) : Body Unit := do
  .emit (.invoke p)
  throwIf f.called

/-- The move constructor. -/
def moveConstruct (f : Callable) (p : Place) : Body Unit := do
  throwIf f.moved
  .emit (.construct p)

/-- The expression `new F{std::move(f)}`, with what the allocation throws. -/
def newMove (f : Callable) (noMemory : Option Exn) : Body Place := do
  throwIf noMemory
  .emit .alloc
  -- the expression gives the storage back when the constructor throws
  (f.moveConstruct .heap).handle fun e => do
    .emit .dealloc
    .fail e
  pure .heap

/-- `use_sso`. -/
def useSso (sizeofPtr : Nat) (f : Callable) : Bool :=
  f.size ≤ sizeofPtr

end Callable

/-- The destructor `~F()`. -/
def destroyAt (p : Place) : Body Unit := .emit (.destroy p)

namespace ScopeExit

/-- The union `state`, by its active member. -/
inductive State where
  | p (f : Place)
  | o
  deriving Repr, DecidableEq

/-- The member `p_`. -/
def State.getP : State → Body Place
  | .p f => pure f
  | .o => .fail .inactiveMember

/-- The callable in the member `o_`. -/
def State.getO : State → Body Place
  | .p _ => .fail .inactiveMember
  | .o => pure .buffer

end ScopeExit

open ScopeExit

/-- The members of a `scope_exit`, `none` for a null function pointer. -/
structure ScopeExit where
  u : State
  call : Option (State → Body Unit)
  del : Option (State → Body Unit)

namespace ScopeExit

/-- The constructor from an lvalue. -/
def ofLvalue (f : Callable) : ScopeExit where
  u := .p .caller
  call := some fun u => do f.invoke (← u.getP)
  -- the callable is the caller's
  del := none

/-- The constructor from an rvalue. -/
def ofRvalue (sizeofPtr : Nat) (f : Callable) (noMemory : Option Exn) : Body ScopeExit :=
  if f.useSso sizeofPtr then do
    -- placement `new`
    f.moveConstruct .buffer
    pure {
      u := .o
      call := some fun u => do f.invoke (← u.getO)
      del := some fun u => do destroyAt (← u.getO) }
  else do
    let p ← f.newMove noMemory
    pure {
      u := .p p
      call := some fun u => do f.invoke (← u.getP)
      -- `~F()` alone, which does not give the storage back
      del := some fun u => do destroyAt (← u.getP) }

/-- The destructor. -/
def destruct (s : ScopeExit) : Body Unit := do
  -- what the callable throws is swallowed
  catchAll (match s.call with
    | some call => call s.u
    | none => pure ())
  match s.del with
  | some del => del s.u
  | none => pure ()

/-- The member function `release`. -/
def release (s : ScopeExit) : Body ScopeExit := do
  let s := { s with call := none }
  match s.del with
  | some del => do
    del s.u
    -- the destructor does not delete again
    pure { s with del := none }
  | none => pure s

/-- `release`, a number of times. -/
def releases (s : ScopeExit) : Nat → Body ScopeExit
  | 0 => pure s
  | n + 1 => do releases (← s.release) n

end ScopeExit

/-- What a guard is constructed from. -/
inductive Source where
  | lvalue
  | rvalue (noMemory : Option Exn)
  deriving Repr, DecidableEq

/-- The constructor that overload resolution selects. -/
def Source.construct (sizeofPtr : Nat) (f : Callable) : Source → Body ScopeExit
  | .lvalue => pure (ofLvalue f)
  | .rvalue noMemory => ofRvalue sizeofPtr f noMemory

/-- A scope with a guard that is released a number of times. -/
def Source.scope (source : Source) (sizeofPtr : Nat) (f : Callable) (n : Nat) : Body Unit := do
  let s ← source.construct sizeofPtr f
  let s ← s.releases n
  s.destruct

/-- The lambda in the stream output of a `Date`, which captures a reference and a
    character. -/
def fillReset (sizeofPtr : Nat) : Callable where
  -- the character is padded to the alignment of the reference
  size := 2 * sizeofPtr
  called := none
  moved := none

/-- The guard in the stream output of a `Date`. -/
def fillScope (sizeofPtr : Nat) : Body Unit :=
  (Source.rvalue none).scope sizeofPtr (fillReset sizeofPtr) 0

end Oa
