import OdinAnalytics.Native.ScopeExit

/-!
# Scope guards do things once

A guard invokes its callable and destroys what it owns once, on each of the three ways to
construct it. The storage of a callable that does not fit into the guard is never given
back.

## Key results

- `ends_armed`: what a scope does with a guard, whichever constructor made it
- `ends_scope_lvalue`, `ends_scope_small`, `ends_scope_large`: the events for each way to
  construct it
- `exactlyOnce_iff`: the scopes that do everything exactly once
- `fillScope_trace`: the events of the stream output of a `Date`
-/

namespace Oa

open Machine Traced

/-- How a call ends. -/
def Callable.outcome (f : Callable) : Except Stop Unit :=
  match f.called with
  | none => .ok ()
  | some e => .error (.throws e)

/-- The callable is called. -/
@[simp] def Event.isInvoke : Event → Bool
  | .invoke _ => true
  | _ => false

/-- The callable is destroyed. -/
@[simp] def Event.isDestroy : Event → Bool
  | .destroy _ => true
  | _ => false

/-- The scope exit has a callable of its own. -/
@[simp] def Source.isOwned : Source → Bool
  | .lvalue => false
  | .rvalue _ => true

/-- What is right for a scope with a guard that is released `n` times. The scope ends with
    an exception if there is no guard, because its constructor has thrown it. -/
structure ExactlyOnce (source : Source) (n : Nat) (run : Except Stop Unit × List Event) :
    Prop where
  defined : run.1 ≠ .error .inactiveMember
  invoked : run.2.countP Event.isInvoke = if run.1.toBool ∧ n = 0 then 1 else 0
  destroyed : run.2.countP Event.isDestroy = if run.1.toBool ∧ source.isOwned then 1 else 0
  paired : ∀ p, run.2.count (.destroy p) = run.2.count (.construct p)
  not_borrowed : .destroy .caller ∉ run.2
  deallocated : run.2.count .dealloc = run.2.count .alloc

/-- The callable is moved to allocated storage. -/
def Leaks (source : Source) (sizeofPtr : Nat) (f : Callable) : Prop :=
  source = .rvalue none ∧ sizeofPtr < f.size ∧ f.moved = none

instance (source : Source) (sizeofPtr : Nat) (f : Callable) :
    Decidable (Leaks source sizeofPtr f) :=
  inferInstanceAs (Decidable (_ ∧ _ ∧ _))

/-! ## The callable -/

/-- Nothing is thrown. -/
theorem ends_throwIf_none : Ends (throwIf none) (.ok ()) [] := ends_pure ()

/-- The exception is thrown. -/
theorem ends_throwIf_some (e : Exn) : Ends (throwIf (some e)) (.error (.throws e)) [] :=
  ends_fail _

/-- A call is one event, whatever it comes to. -/
theorem ends_invoke (f : Callable) (p : Place) : Ends (f.invoke p) f.outcome [.invoke p] := by
  refine (ends_emit _).bind (u := []) ?_
  unfold Callable.outcome
  cases f.called with
  | none => exact ends_throwIf_none
  | some e => exact ends_throwIf_some e

/-- What the callable throws does not leave a `try` block. -/
theorem ends_catchAll_invoke {f : Callable} {x : Body Unit} {t : List Event}
    (hx : Ends x f.outcome t) : Ends (catchAll x) (.ok ()) t := by
  unfold Callable.outcome at hx
  split at hx
  case h_1 => exact hx.handle_ok
  case h_2 e =>
    rw [← List.append_nil t]
    exact hx.handle_error (ends_pure ())

variable {f : Callable} {sizeofPtr : Nat} {e : Exn}

/-- A callable is moved to its place. -/
theorem ends_moveConstruct (h : f.moved = none) (p : Place) :
    Ends (f.moveConstruct p) (.ok ()) [.construct p] := by
  unfold Callable.moveConstruct
  rw [h]
  exact ends_throwIf_none.bind (ends_emit _)

/-- A callable whose move throws is not moved. -/
theorem ends_moveConstruct_throws (h : f.moved = some e) (p : Place) :
    Ends (f.moveConstruct p) (.error (.throws e)) [] := by
  unfold Callable.moveConstruct
  rw [h]
  exact (ends_throwIf_some e).bind_error

/-- A callable is moved to the heap. -/
theorem ends_newMove (h : f.moved = none) :
    Ends (f.newMove none) (.ok .heap) [.alloc, .construct .heap] :=
  ends_throwIf_none.bind ((ends_emit _).bind
    ((ends_moveConstruct h _).handle_ok.bind (ends_pure _)))

/-- The storage of a callable that cannot be moved is given back. -/
theorem ends_newMove_throws (h : f.moved = some e) :
    Ends (f.newMove none) (.error (.throws e)) [.alloc, .dealloc] := by
  refine ends_throwIf_none.bind ((ends_emit _).bind (Ends.bind_error ?_))
  refine (ends_moveConstruct_throws h _).handle_error (u := [.dealloc]) ?_
  exact (ends_emit _).bind (ends_fail _)

/-- Without memory nothing is moved. -/
theorem ends_newMove_noMemory (e : Exn) : Ends (f.newMove (some e)) (.error (.throws e)) [] :=
  (ends_throwIf_some e).bind_error

/-- Callables that fit into a pointer go into the buffer. -/
theorem Callable.useSso_iff : f.useSso sizeofPtr = true ↔ f.size ≤ sizeofPtr :=
  decide_eq_true_iff

/-! ## The guard -/

namespace ScopeExit

variable {s : ScopeExit} {p : Place} {deleted : List Event}

/-- A guard that has not been released: it invokes the callable where it is, and what it
    deletes are these events. -/
structure Armed (s : ScopeExit) (f : Callable) (p : Place) (deleted : List Event) : Prop where
  call : ∃ call, s.call = some call ∧ Ends (call s.u) f.outcome [.invoke p]
  del : s.del = none ∧ deleted = [] ∨
    ∃ del, s.del = some del ∧ Ends (del s.u) (.ok ()) deleted

/-- A guard that has been released. -/
structure Released (s : ScopeExit) : Prop where
  call : s.call = none
  del : s.del = none

/-- A scope exit of an lvalue is armed, and deletes nothing. -/
theorem armed_ofLvalue (f : Callable) : Armed (ofLvalue f) f .caller [] where
  call := ⟨_, rfl, (ends_pure _).bind (ends_invoke f _)⟩
  del := .inl ⟨rfl, rfl⟩

/-- A callable that fits is in the member `o_`, and this is the member that the functions
    of the guard read. -/
theorem ends_ofRvalue_small (hsize : f.size ≤ sizeofPtr) (hmoved : f.moved = none)
    (noMemory : Option Exn) :
    ∃ s, Ends (ofRvalue sizeofPtr f noMemory) (.ok s) [.construct .buffer] ∧
      Armed s f .buffer [.destroy .buffer] := by
  unfold ofRvalue
  rw [if_pos (Callable.useSso_iff.mpr hsize)]
  refine ⟨_, (ends_moveConstruct hmoved _).bind (ends_pure _), ⟨_, rfl, ?_⟩, .inr ⟨_, rfl, ?_⟩⟩
  · exact (ends_pure _).bind (ends_invoke f _)
  · exact (ends_pure _).bind (ends_emit _)

/-- Any other callable is in allocated storage, to which the member `p_` points. The
    functions of the guard only destroy it there. -/
theorem ends_ofRvalue_large (hsize : sizeofPtr < f.size) (hmoved : f.moved = none) :
    ∃ s, Ends (ofRvalue sizeofPtr f none) (.ok s) [.alloc, .construct .heap] ∧
      Armed s f .heap [.destroy .heap] := by
  unfold ofRvalue
  rw [if_neg (Callable.useSso_iff.not.mpr (Nat.not_le_of_lt hsize))]
  refine ⟨_, (ends_newMove hmoved).bind (ends_pure _), ⟨_, rfl, ?_⟩, .inr ⟨_, rfl, ?_⟩⟩
  · exact (ends_pure _).bind (ends_invoke f _)
  · exact (ends_pure _).bind (ends_emit _)

/-! ## Release and destruction -/

/-- A release deletes the callable. -/
theorem ends_release_armed (h : Armed s f p deleted) :
    ∃ s', Ends s.release (.ok s') deleted ∧ Released s' := by
  unfold release
  -- a callable in the guard itself needs no deleter
  rcases h.del with ⟨hdel, rfl⟩ | ⟨del, hdel, hends⟩
  · refine ⟨{ s with call := none }, ?_, rfl, hdel⟩
    simp only [hdel]
    exact ends_pure _
  · refine ⟨{ s with call := none, del := none }, ?_, rfl, rfl⟩
    simp only [hdel]
    rw [← List.append_nil deleted]
    exact hends.bind (ends_pure _)

/-- A guard that has been released stays as it is. -/
theorem ends_releases (h : Released s) (n : Nat) :
    Ends (s.releases n) (.ok s) [] := by
  have hrelease : Ends s.release (.ok s) [] := by
    obtain ⟨u, call, del⟩ := s
    cases h.call
    cases h.del
    exact ends_pure _
  induction n with
  | zero => exact ends_pure s
  | succ n ih => exact hrelease.bind ih

/-- After a release nothing is left to do. -/
theorem ends_destruct_released (h : Released s) : Ends s.destruct (.ok ()) [] := by
  unfold destruct
  rw [h.call, h.del]
  exact (Ends.handle_ok (ends_pure ())).bind (ends_pure ())

/-- Without a release the callable is called, then deleted. -/
theorem ends_destruct_armed (h : Armed s f p deleted) :
    Ends s.destruct (.ok ()) (.invoke p :: deleted) := by
  unfold destruct
  obtain ⟨call, hcall, hends⟩ := h.call
  rw [hcall]
  -- whatever the callable throws is caught before the deleter runs
  refine (ends_catchAll_invoke hends).bind ?_
  rcases h.del with ⟨hdel, rfl⟩ | ⟨del, hdel, hends⟩
  · rw [hdel]
    exact ends_pure ()
  · rw [hdel]
    exact hends

/-- The first of the releases deletes what the destructor would, and the others and the
    destructor find nothing to do then. -/
theorem ends_armed (h : Armed s f p deleted) (n : Nat) :
    Ends (do (← s.releases n).destruct) (.ok ())
      ((if n = 0 then [.invoke p] else []) ++ deleted) := by
  cases n with
  | zero => exact (ends_pure s).bind (ends_destruct_armed h)
  | succ n =>
    -- the first release, then those that find nothing
    obtain ⟨s', hends, hs'⟩ := ends_release_armed h
    have hreleases : Ends (s.releases (n + 1)) (.ok s') (deleted ++ []) :=
      hends.bind (ends_releases hs' n)
    have hrun := hreleases.bind (ends_destruct_released hs')
    simpa using hrun

end ScopeExit

/-! ## Scopes -/

open ScopeExit

/-- The events of a scope with an lvalue. -/
theorem ends_scope_lvalue (n : Nat) :
    Ends (Source.lvalue.scope sizeofPtr f n) (.ok ())
      (if n = 0 then [.invoke .caller] else []) := by
  have hrun : Ends (Source.lvalue.scope sizeofPtr f n) (.ok ())
      ([] ++ ((if n = 0 then [.invoke .caller] else []) ++ [])) :=
    (ends_pure (ofLvalue f)).bind (ends_armed (armed_ofLvalue f) n)
  rw [List.nil_append, List.append_nil] at hrun
  exact hrun

/-- The events of a scope with a callable in the buffer. -/
theorem ends_scope_small (hsize : f.size ≤ sizeofPtr) (hmoved : f.moved = none)
    (noMemory : Option Exn) (n : Nat) :
    Ends ((Source.rvalue noMemory).scope sizeofPtr f n) (.ok ())
      (.construct .buffer ::
        ((if n = 0 then [.invoke .buffer] else []) ++ [.destroy .buffer])) := by
  obtain ⟨s, hends, hs⟩ := ends_ofRvalue_small hsize hmoved noMemory
  exact hends.bind (ends_armed hs n)

/-- What is allocated is not given back. -/
theorem ends_scope_large (hsize : sizeofPtr < f.size) (hmoved : f.moved = none) (n : Nat) :
    Ends ((Source.rvalue none).scope sizeofPtr f n) (.ok ())
      (.alloc :: .construct .heap ::
        ((if n = 0 then [.invoke .heap] else []) ++ [.destroy .heap])) := by
  obtain ⟨s, hends, hs⟩ := ends_ofRvalue_large hsize hmoved
  exact hends.bind (ends_armed hs n)

/-- There is no guard when its constructor throws. -/
theorem ends_scope_throws {noMemory : Option Exn} {trace : List Event}
    (h : Ends (ofRvalue sizeofPtr f noMemory) (.error (.throws e)) trace) (n : Nat) :
    Ends ((Source.rvalue noMemory).scope sizeofPtr f n) (.error (.throws e)) trace :=
  h.bind_error

/-- The constructor throws, and what it has allocated is given back. -/
theorem ends_ofRvalue_throws {noMemory : Option Exn}
    (h : f.moved ≠ none ∨ sizeofPtr < f.size ∧ noMemory ≠ none) :
    ∃ e trace, Ends (ofRvalue sizeofPtr f noMemory) (.error (.throws e)) trace ∧
      (trace = [] ∨ trace = [.alloc, .dealloc]) := by
  unfold ofRvalue
  -- in place, only the move can throw; on the heap, the allocation or the move
  split
  case isTrue hsize =>
    have hmoved : f.moved ≠ none :=
      h.resolve_right fun hlarge => Nat.not_le_of_lt hlarge.1 (Callable.useSso_iff.mp hsize)
    obtain ⟨e, he⟩ := Option.ne_none_iff_exists'.mp hmoved
    exact ⟨e, [], (ends_moveConstruct_throws he _).bind_error, .inl rfl⟩
  case isFalse hsize =>
    cases noMemory with
    | some e => exact ⟨e, [], (ends_newMove_noMemory e).bind_error, .inl rfl⟩
    | none =>
      obtain ⟨e, he⟩ := Option.ne_none_iff_exists'.mp (h.resolve_right fun hlarge => hlarge.2 rfl)
      exact ⟨e, _, (ends_newMove_throws he).bind_error, .inr rfl⟩

/-! ## What is done once -/

/-- An lvalue is called once, unless it was released, and not destroyed. -/
theorem exactlyOnce_lvalue (n : Nat) :
    ExactlyOnce .lvalue n (Source.lvalue.scope sizeofPtr f n []) := by
  rw [(ends_scope_lvalue n).run]
  cases n <;> constructor <;> simp [Except.toBool, List.countP_cons]

/-- A callable in the buffer is called once, unless it was released, and destroyed once. -/
theorem exactlyOnce_small (hsize : f.size ≤ sizeofPtr) (hmoved : f.moved = none)
    (noMemory : Option Exn) (n : Nat) :
    ExactlyOnce (.rvalue noMemory) n ((Source.rvalue noMemory).scope sizeofPtr f n []) := by
  rw [(ends_scope_small hsize hmoved noMemory n).run]
  cases n <;> constructor <;> simp [Except.toBool, List.countP_cons, List.count_cons]

/-- One allocation, and nothing is given back. -/
theorem not_exactlyOnce_large (hsize : sizeofPtr < f.size) (hmoved : f.moved = none) (n : Nat) :
    ¬ ExactlyOnce (.rvalue none) n ((Source.rvalue none).scope sizeofPtr f n []) := by
  intro honce
  have hdealloc := honce.deallocated
  rw [(ends_scope_large hsize hmoved n).run] at hdealloc
  cases n <;> simp at hdealloc

/-- Where the constructor throws, nothing is called and nothing is left. -/
theorem exactlyOnce_throws {noMemory : Option Exn}
    (h : f.moved ≠ none ∨ sizeofPtr < f.size ∧ noMemory ≠ none) (n : Nat) :
    ExactlyOnce (.rvalue noMemory) n ((Source.rvalue noMemory).scope sizeofPtr f n []) := by
  obtain ⟨e, trace, hends, htrace⟩ := ends_ofRvalue_throws h
  rw [(ends_scope_throws hends n).run]
  rcases htrace with rfl | rfl <;> constructor <;> simp [Except.toBool]

/-- A scope does everything exactly once, but that it never gives the storage back that it
    moves a callable to. -/
theorem exactlyOnce_iff (sizeofPtr : Nat) (f : Callable) (source : Source) (n : Nat) :
    ExactlyOnce source n (source.scope sizeofPtr f n []) ↔ ¬ Leaks source sizeofPtr f := by
  cases source with
  | lvalue => exact iff_of_true (exactlyOnce_lvalue n) fun hleaks => nomatch hleaks.1
  | rvalue noMemory =>
    by_cases hthrows : f.moved ≠ none ∨ sizeofPtr < f.size ∧ noMemory ≠ none
    · -- no guard is made: the callable is not run, and nothing is left behind
      refine iff_of_true (exactlyOnce_throws hthrows n) ?_
      rintro ⟨hsource, hsize, hmoved⟩
      cases hsource
      rcases hthrows with hne | hne
      · exact hne hmoved
      · exact hne.2 rfl
    · -- there is a guard, and its callable is in one of the two members
      obtain ⟨hmoved, hmemory⟩ := not_or.mp hthrows
      rw [not_ne_iff] at hmoved
      rcases Nat.lt_or_ge sizeofPtr f.size with hlarge | hsmall
      · have hnone : noMemory = none := by
          by_contra hne
          exact hmemory ⟨hlarge, hne⟩
        subst hnone
        exact iff_of_false (not_exactlyOnce_large hlarge hmoved n)
          (not_not_intro ⟨rfl, hlarge, hmoved⟩)
      · -- a small one lies in the guard itself
        exact iff_of_true (exactlyOnce_small hsmall hmoved noMemory n)
          fun hleaks => Nat.not_lt_of_le hsmall hleaks.2.1

/-- A callable of two pointers that is moved to a guard. -/
theorem not_exactlyOnce :
    ¬ ∀ (sizeofPtr : Nat) (f : Callable) (source : Source) (n : Nat),
      ExactlyOnce source n (source.scope sizeofPtr f n []) := by
  intro h
  have hdealloc := (h 8 (fillReset 8) (.rvalue none) 0).deallocated
  exact absurd hdealloc (by decide)

/-- The stream output of a `Date` allocates storage for a callable and never gives it
    back. -/
theorem fillScope_trace (h : 0 < sizeofPtr) :
    fillScope sizeofPtr [] =
      (.ok (), [.alloc, .construct .heap, .invoke .heap, .destroy .heap]) := by
  have hlarge : sizeofPtr < (fillReset sizeofPtr).size := by
    show sizeofPtr < 2 * sizeofPtr
    omega
  exact (ends_scope_large hlarge rfl 0).run

end Oa
