import OdinAnalytics.Lib.Atomic
import OdinAnalytics.Machine.Comp
import OdinAnalytics.Machine.Relate

/-!
# Actions on a state

An `Action σ α` is a function body that works on a state `σ`. It may loop, and it may end
in a fault. The state that it leaves is there in either case, so that a handler goes on
from what was done before an exception.

`Follows R Q act act'` is simulation: from states that `R` relates, whatever the first
action comes to, the second one comes to as well, up to `Q` on the values and `R` on the
states.

## Key results

- `bind_leads`: what the parts of an action lead to
- `Safe.bind`: what the parts of an action never do, the whole never does
- `Follows.bind`: simulation follows the program text
- `Keeps.bind`: so does what an action keeps
-/

namespace Machine

open Atomic

variable {α β γ δ σ τ : Type}

/-! ## Outcomes as values -/

namespace Comp

/-- The outcome of a computation, as a value. -/
def attempt (c : Comp α) : Comp (Exec α) where
  run n := (c.run n).map .ok
  stable := by
    intro n m r hle h
    obtain ⟨x, hx, rfl⟩ := Option.map_eq_some_iff.mp h
    rw [c.stable hle hx]
    rfl

/-- One part after another, and a third one after both. -/
theorem bind_assoc (c : Comp α) (k : α → Comp β) (l : β → Comp γ) :
    (c >>= k) >>= l = c >>= fun a => k a >>= l := by
  apply Comp.ext
  intro n
  simp only [run_bind]
  -- a part that has not ended or has failed is all there is
  cases c.run n with
  | none => rfl
  | some x =>
    cases x with
    | ok a => rfl
    | error f => rfl

/-- The laws of a monad, for the equations that the library derives from them. -/
instance : LawfulMonad Comp := by
  refine LawfulMonad.mk' _ ?_ ?_ bind_assoc
  · intro α c
    apply Comp.ext
    intro n
    change (c >>= fun a => pure (id a)).run n = c.run n
    rw [run_bind]
    cases c.run n with
    | none => rfl
    | some x => cases x <;> rfl
  · intro α β a k
    exact lift_ok_bind a k

/-- Mapping the value of a computation before or after it is lifted. -/
theorem lift_map (g : α → β) (x : Exec α) : lift (g <$> x) = g <$> lift x := by
  cases x with
  | ok a => rfl
  | error f => rfl

/-- An attempt ends when the computation ends. -/
theorem attempt_run (c : Comp α) (n : Nat) : c.attempt.run n = (c.run n).map .ok := rfl

/-- An attempt comes to a value exactly if the computation returns it. -/
theorem attempt_returns_ok {c : Comp α} {a : α} : c.attempt.Returns (.ok a) ↔ c.Returns a := by
  simp [Returns, attempt_run]

/-- An attempt comes to a fault exactly if the computation does. -/
theorem attempt_returns_error {c : Comp α} {f : Fault} :
    c.attempt.Returns (.error f) ↔ c.Faults f := by
  simp [Returns, Faults, attempt_run]

end Comp

/-! ## Actions -/

/-- A function body on a state. The state it leaves is there whatever it comes to. -/
def Action (σ α : Type) := σ → Comp (Exec α × σ)

namespace Action

/-- A part that does not look at the state. -/
def lift (x : Exec α) : Action σ α := fun s => pure (x, s)

/-- A part that loops, and does not look at the state. -/
def ofComp (c : Comp α) : Action σ α := fun s => do
  let x ← c.attempt
  return (x, s)

/-- Run `act`, then `k` on its value; a fault of `act` is the fault of the whole. -/
def bind (act : Action σ α) (k : α → Action σ β) : Action σ β := fun s => do
  match ← act s with
  | (.ok a, s) => k a s
  | (.error f, s) => return (.error f, s)

instance : Monad (Action σ) where
  pure a := lift (.ok a)
  bind := bind

instance : MonadLift Exec (Action σ) := ⟨lift⟩

/-- A thread that nothing else runs beside. -/
def ofProg (p : Prog σ Fault α) : Action σ α := fun s => pure (p.run s)

/-- An action on a part of the state. -/
def within (get : σ → τ) (set : σ → τ → σ) (act : Action τ α) : Action σ α := fun s => do
  let (x, t) ← act (get s)
  return (x, set s t)

/-- `try` and its handlers. Undefined behaviour is not caught. -/
def catching (act : Action σ α) (handler : Exn → Action σ α) : Action σ α := fun s => do
  match ← act s with
  | (.ok a, s) => return (.ok a, s)
  | (.error (.throws e), s) => handler e s
  | (.error f, s) => return (.error f, s)

/-! ## Steps of a run -/

/-- An action that has come to `x` in the state `s`. -/
def ended (x : Exec α) (s : σ) : Action σ α := fun _ => pure (x, s)

section Steps

variable {act : Action σ α} {k : α → Action σ β} {handler : Exn → Action σ α} {s t : σ}

/-- The second action goes on from where the first one has returned. -/
theorem bind_of_ok {a : α} (h : act s = pure (.ok a, t)) : (act >>= k) s = k a t := by
  show act s >>= _ = _
  rw [h]
  rfl

/-- A fault of the first action is the fault of both. -/
theorem bind_of_error {f : Fault} (h : act s = pure (.error f, t)) :
    (act >>= k) s = pure (.error f, t) := by
  show act s >>= _ = _
  rw [h]
  rfl

/-- A value that is there is passed on. -/
theorem lift_ok_bind (a : α) : (lift (.ok a) >>= k : Action σ β) = k a := by
  funext s
  exact bind_of_ok rfl

/-- After a value that is read and converted. -/
theorem read_bind {x : Exec γ} {f : γ → Exec α} {a : α} (h : (x >>= f) = .ok a) :
    (lift x >>= fun c => lift (f c) >>= k : Action σ β) = k a := by
  obtain ⟨c, rfl, ha⟩ := bind_eq_ok.mp h
  rw [lift_ok_bind, ha, lift_ok_bind]

/-- A body that returns has no use for the handler. -/
theorem catching_of_ok {a : α} (h : act s = pure (.ok a, t)) :
    act.catching handler s = pure (.ok a, t) := by
  show act s >>= _ = _
  rw [h]
  rfl

/-- The handler starts where the body has thrown. -/
theorem catching_of_throws {e : Exn} (h : act s = pure (.error (.throws e), t)) :
    act.catching handler s = handler e t := by
  show act s >>= _ = _
  rw [h]
  rfl

/-- Undefined behaviour is not caught. -/
theorem catching_of_undefined {u : Undefined} (h : act s = pure (.error (.undefined u), t)) :
    act.catching handler s = pure (.error (.undefined u), t) := by
  show act s >>= _ = _
  rw [h]
  rfl

end Steps

/-- A thread is its first part and then the rest. -/
theorem ofProg_bind (p : Prog σ Fault α) (k : α → Prog σ Fault β) :
    ofProg (p >>= k) = ofProg p >>= fun a => ofProg (k a) := by
  funext s
  -- a program runs in one go, so its first part may run before
  have hofProg : ofProg p s = pure (p.run s) := rfl
  have hrun : ofProg (p >>= k) s = pure ((p >>= k).run s) := rfl
  rw [hrun, Prog.run_bind]
  rcases hp : p.run s with ⟨x, t⟩
  rw [hp] at hofProg
  cases x with
  | ok a =>
    rw [bind_of_ok hofProg]
    rfl
  | error f => rw [bind_of_error hofProg]

/-- A part of a thread that does not look at the state. -/
theorem ofProg_liftM (x : Exec α) : (ofProg (liftM x) : Action σ α) = lift x := rfl

/-! ## Where an action leads -/

/-- From a state `s` the action comes to `x` and leaves the state `s'`. -/
def Leads (act : Action σ α) (s : σ) (x : Exec α) (s' : σ) : Prop := (act s).Returns (x, s')

variable {act : Action σ α} {k : α → Action σ β} {s s' : σ} {x : Exec α} {y : Exec β}

/-- An action leads to one outcome and one state only. -/
theorem Leads.unique {y : Exec α} {t : σ} (h : act.Leads s x s') (h' : act.Leads s y t) :
    y = x ∧ t = s' :=
  Prod.mk.inj (Comp.Returns.unique h' h)

/-- What is lifted leads to its outcome and leaves the state. -/
@[simp] theorem lift_leads {z : Exec α} :
    (lift x : Action σ α).Leads s z s' ↔ x = z ∧ s = s' := by
  unfold Leads lift
  rw [Comp.pure_returns, Prod.mk.injEq]

@[simp] theorem liftM_eq (x : Exec α) : (liftM x : Action σ α) = lift x := rfl

/-- A value leads to itself and leaves the state. -/
@[simp] theorem pure_leads {a : α} :
    (pure a : Action σ α).Leads s x s' ↔ .ok a = x ∧ s = s' := lift_leads

/-- A computation leads to its outcome and leaves the state. -/
theorem ofComp_leads {c : Comp α} :
    (ofComp c : Action σ α).Leads s x s' ↔ c.attempt.Returns x ∧ s = s' := by
  unfold Leads ofComp
  rw [Comp.bind_returns]
  constructor
  · rintro ⟨y, hy, hpure⟩
    obtain ⟨rfl, rfl⟩ := Prod.mk.inj (Comp.pure_returns.mp hpure)
    exact ⟨hy, rfl⟩
  · rintro ⟨hx, rfl⟩
    exact ⟨x, hx, Comp.pure_returns.mpr rfl⟩

/-- A computation that returns leaves the state. -/
theorem ofComp_leads_ok {c : Comp α} {a : α} :
    (ofComp c : Action σ α).Leads s (.ok a) s' ↔ c.Returns a ∧ s = s' := by
  rw [ofComp_leads, Comp.attempt_returns_ok]

/-- A computation that faults leaves the state. -/
theorem ofComp_leads_error {c : Comp α} {f : Fault} :
    (ofComp c : Action σ α).Leads s (.error f) s' ↔ c.Faults f ∧ s = s' := by
  rw [ofComp_leads, Comp.attempt_returns_error]

/-- A program leads to what it comes to when it is run alone. -/
@[simp] theorem ofProg_leads {p : Prog σ Fault α} :
    (ofProg p).Leads s x s' ↔ p.run s = (x, s') := by
  unfold Leads ofProg
  rw [Comp.pure_returns]

/-- An action on a part of the state leaves the rest. -/
theorem within_leads {get : σ → τ} {set : σ → τ → σ} {act : Action τ α} :
    (within get set act).Leads s x s' ↔ ∃ t, act.Leads (get s) x t ∧ set s t = s' := by
  unfold Leads within
  rw [Comp.bind_returns]
  constructor
  · rintro ⟨⟨y, t⟩, ht, hpure⟩
    obtain ⟨rfl, rfl⟩ := Prod.mk.inj (Comp.pure_returns.mp hpure)
    exact ⟨t, ht, rfl⟩
  · rintro ⟨t, ht, rfl⟩
    exact ⟨(x, t), ht, Comp.pure_returns.mpr rfl⟩

/-- The second part starts where the first one has come to a value. -/
theorem bind_leads : (act >>= k).Leads s y s' ↔
    (∃ a t, act.Leads s (.ok a) t ∧ (k a).Leads t y s') ∨
      ∃ f, act.Leads s (.error f) s' ∧ y = .error f := by
  show Comp.Returns (act s >>= _) (y, s') ↔ _
  rw [Comp.bind_returns]
  constructor
  · rintro ⟨⟨x, t⟩, hx, hrest⟩
    -- the second part runs only when the first one returned
    cases x with
    | ok a => exact Or.inl ⟨a, t, hx, hrest⟩
    | error f =>
      obtain ⟨rfl, rfl⟩ := Prod.mk.inj (Comp.pure_returns.mp hrest)
      exact Or.inr ⟨f, hx, rfl⟩
  · rintro (⟨a, t, ha, hrest⟩ | ⟨f, hf, rfl⟩)
    · exact ⟨(.ok a, t), ha, hrest⟩
    · exact ⟨(.error f, s'), hf, Comp.pure_returns.mpr rfl⟩

/-- A value of the whole is one of both parts. -/
theorem bind_leads_ok {b : β} : (act >>= k).Leads s (.ok b) s' ↔
    ∃ a t, act.Leads s (.ok a) t ∧ (k a).Leads t (.ok b) s' := by
  rw [bind_leads]
  constructor
  · rintro (h | ⟨f, -, hf⟩)
    · exact h
    · cases hf
  · exact Or.inl

/-- What is lifted has to return for the rest to go on. -/
theorem lift_bind_leads_ok {b : β} : (lift x >>= k).Leads s (.ok b) s' ↔
    ∃ a, x = .ok a ∧ (k a).Leads s (.ok b) s' := by
  rw [bind_leads_ok]
  constructor
  · rintro ⟨a, t, hlift, hrest⟩
    obtain ⟨rfl, rfl⟩ := lift_leads.mp hlift
    exact ⟨a, rfl, hrest⟩
  · rintro ⟨a, rfl, hrest⟩
    exact ⟨a, s, lift_leads.mpr ⟨rfl, rfl⟩, hrest⟩

/-! ## Partial correctness -/

/-- Whatever state the action starts from, every fault that it comes to satisfies `E` and every
    value `Q`. -/
def Safe (E : Fault → Prop) (Q : α → Prop) (act : Action σ α) : Prop :=
  ∀ s x s', act.Leads s x s' → Post x E Q

section Safe

variable {E : Fault → Prop} {Q : α → Prop} {R : β → Prop}

/-- What is lifted is as safe as it is. -/
theorem safe_lift {x : Exec α} (h : Post x E Q) : (lift x : Action σ α).Safe E Q := by
  intro s z s' hz
  obtain ⟨rfl, -⟩ := lift_leads.mp hz
  exact h

/-- A value is safe. -/
theorem safe_pure {a : α} (h : Q a) : (pure a : Action σ α).Safe E Q :=
  safe_lift (post_ok.mpr h)

/-- A computation is as safe on a state as without one. -/
theorem safe_ofComp {c : Comp α} (h : c.Safe E Q) : (ofComp c : Action σ α).Safe E Q := by
  intro s x s' hx
  cases x with
  | ok a => exact h.2 a (ofComp_leads_ok.mp hx).1
  | error f => exact h.1 f (ofComp_leads_error.mp hx).1

/-- A program that is safe from every state is safe. -/
theorem safe_ofProg {p : Prog σ Fault α} (h : ∀ s, Post (p.run s).1 E Q) :
    (ofProg p).Safe E Q := by
  intro s x s' hx
  have hs := h s
  rwa [ofProg_leads.mp hx] at hs

/-- What two actions never do, one after the other, their whole never does. -/
theorem Safe.bind {k : α → Action σ β} (h : act.Safe E Q) (hk : ∀ a, Q a → (k a).Safe E R) :
    (act >>= k).Safe E R := by
  intro s y s' hy
  rcases bind_leads.mp hy with ⟨a, t, hact, hrest⟩ | ⟨f, hact, rfl⟩
  · exact hk a (h _ _ _ hact) _ _ _ hrest
  · exact post_error.mpr (h _ _ _ hact)

/-- After a part that does not look at the state. -/
theorem safe_lift_bind {x : Exec α} {k : α → Action σ β} (h : Post x E Q)
    (hk : ∀ a, Q a → (k a).Safe E R) : (lift x >>= k).Safe E R :=
  Safe.bind (safe_lift h) hk

/-- One part of a thread after another. -/
theorem post_run_bind {p : Prog σ Fault α} {k : α → Prog σ Fault β}
    (h : ∀ s, Post (p.run s).1 E Q) (hk : ∀ a, Q a → ∀ s, Post ((k a).run s).1 E R) (s : σ) :
    Post ((p >>= k).run s).1 E R := by
  have hs := h s
  rw [Prog.run_bind]
  rcases hp : p.run s with ⟨x, t⟩
  rw [hp] at hs
  cases x with
  | ok a => exact hk a hs t
  | error f => exact hs

/-- The same after a part that does not look at the state. -/
theorem post_run_lift_bind {x : Exec α} {k : α → Prog σ Fault β} (h : Post x E Q)
    (hk : ∀ a, Q a → ∀ s, Post ((k a).run s).1 E R) (s : σ) :
    Post (((liftM x : Prog σ Fault α) >>= k).run s).1 E R := by
  have hlift : ∀ s : σ, Post ((liftM x : Prog σ Fault α).run s).1 E Q := fun _ => h
  exact post_run_bind hlift hk s

/-- An action on a part of the state is as safe as it is on that part. -/
theorem Safe.within {τ : Type} {get : σ → τ} {set : σ → τ → σ} {act : Action τ α}
    (h : act.Safe E Q) : (within get set act).Safe E Q := by
  intro s x s' hx
  obtain ⟨t, ht, -⟩ := within_leads.mp hx
  exact h _ _ _ ht

end Safe

/-! ## Simulation -/

/-- What `act` comes to from a state, `act'` comes to from a related one. -/
def Follows (R : σ → τ → Prop) (Q : α → β → Prop) (act : Action σ α) (act' : Action τ β) :
    Prop :=
  ∀ {s t x s'}, R s t → act.Leads s x s' → ∃ y t', act'.Leads t y t' ∧ Relates Q x y ∧ R s' t'

section Follows

variable {R : σ → τ → Prop} {Q : α → β → Prop} {S : γ → δ → Prop} {act' : Action τ β}

/-- What is related leads to related outcomes. -/
theorem follows_lift {x : Exec α} {y : Exec β} (h : Relates Q x y) :
    Follows R Q (lift x) (lift y) := by
  intro s t z s' hst hlift
  obtain ⟨rfl, rfl⟩ := lift_leads.mp hlift
  exact ⟨y, t, lift_leads.mpr ⟨rfl, rfl⟩, h, hst⟩

/-- A computation comes to the same from both states. -/
theorem follows_ofComp (c : Comp α) : Follows R Eq (ofComp c) (ofComp c) := by
  intro s t x s' hst hc
  obtain ⟨hx, rfl⟩ := ofComp_leads.mp hc
  exact ⟨x, t, ofComp_leads.mpr ⟨hx, rfl⟩, relates_refl x, hst⟩

/-- Simulation follows two actions in a row. -/
theorem Follows.bind {k : α → Action σ γ} {l : β → Action τ δ} (h : Follows R Q act act')
    (hk : ∀ a b, Q a b → Follows R S (k a) (l b)) : Follows R S (act >>= k) (act' >>= l) := by
  intro s t x s' hst hbind
  rcases bind_leads.mp hbind with ⟨a, s₁, hact, hrest⟩ | ⟨f, hact, rfl⟩
  · -- the first parts end alike, so the second parts start from related states
    obtain ⟨y, t₁, hact', hrel, hst₁⟩ := h hst hact
    cases y with
    | ok b =>
      obtain ⟨z, t', hrest', hrel', hst'⟩ := hk a b hrel hst₁ hrest
      exact ⟨z, t', bind_leads.mpr (Or.inl ⟨b, t₁, hact', hrest'⟩), hrel', hst'⟩
    | error g => exact hrel.elim
  · -- the second part is not reached on either side
    obtain ⟨y, t', hact', hrel, hst'⟩ := h hst hact
    cases y with
    | ok b => exact hrel.elim
    | error g =>
      exact ⟨.error g, t', bind_leads.mpr (Or.inr ⟨g, hact', rfl⟩), hrel, hst'⟩

/-- A first part that comes to the same value on both sides. -/
theorem Follows.bind_eq {act : Action σ α} {act' : Action τ α} {k : α → Action σ γ}
    {l : α → Action τ δ} (h : Follows R Eq act act') (hk : ∀ a, Follows R S (k a) (l a)) :
    Follows R S (act >>= k) (act' >>= l) := by
  apply h.bind
  rintro a _ rfl
  exact hk a

/-- A first part that does not look at the state. -/
theorem follows_lift_bind {k : α → Action σ γ} {l : α → Action τ δ} (x : Exec α)
    (hk : ∀ a, Follows R S (k a) (l a)) : Follows R S (lift x >>= k) (lift x >>= l) :=
  Follows.bind_eq (follows_lift (relates_refl x)) hk

/-- A value is the same on both sides. -/
theorem follows_pure (a : α) : Follows R Eq (pure a : Action σ α) (pure a : Action τ α) :=
  follows_lift (relates_ok.mpr rfl)

/-- Threads that come to the same from related states. -/
theorem follows_ofProg {p : Prog σ Fault α} {q : Prog τ Fault β}
    (h : ∀ s t, R s t → Relates Q (p.run s).1 (q.run t).1 ∧ R (p.run s).2 (q.run t).2) :
    Follows R Q (ofProg p) (ofProg q) := by
  intro s t x s' hst hp
  obtain ⟨hrel, hst'⟩ := h s t hst
  rw [ofProg_leads.mp hp] at hrel hst'
  exact ⟨(q.run t).1, (q.run t).2, ofProg_leads.mpr rfl, hrel, hst'⟩

/-- Actions on a part of the state. -/
theorem Follows.within {σ' τ' : Type} {R' : σ' → τ' → Prop} {get : σ → σ'} {get' : τ → τ'}
    {set : σ → σ' → σ} {set' : τ → τ' → τ} {act : Action σ' α} {act' : Action τ' β}
    (h : Follows R' Q act act') (hget : ∀ s t, R s t → R' (get s) (get' t))
    (hset : ∀ s t u v, R s t → R' u v → R (set s u) (set' t v)) :
    Follows R Q (within get set act) (within get' set' act') := by
  intro s t x s' hst hact
  obtain ⟨u, hu, rfl⟩ := within_leads.mp hact
  obtain ⟨y, v, hv, hrel, huv⟩ := h (hget s t hst) hu
  exact ⟨y, set' t v, within_leads.mpr ⟨v, hv, rfl⟩, hrel, hset s t u v hst huv⟩

end Follows

/-! ## What an action keeps -/

/-- Whatever the action comes to, it leaves a state that it may leave from where it began. -/
def Keeps (R : σ → σ → Prop) (act : Action σ α) : Prop := ∀ {s x s'}, act.Leads s x s' → R s s'

section Keeps

variable {R : σ → σ → Prop}

/-- What is lifted keeps the state. -/
theorem keeps_lift (hrefl : ∀ s, R s s) (x : Exec α) : Keeps R (lift x) := by
  intro s y s' h
  obtain ⟨-, rfl⟩ := lift_leads.mp h
  exact hrefl s

/-- A computation keeps the state. -/
theorem keeps_ofComp (hrefl : ∀ s, R s s) (c : Comp α) : Keeps R (ofComp c) := by
  intro s x s' h
  obtain ⟨-, rfl⟩ := ofComp_leads.mp h
  exact hrefl s

/-- What two actions keep, one after the other, their whole keeps. -/
theorem Keeps.bind (htrans : ∀ {s t u}, R s t → R t u → R s u) (h : Keeps R act)
    (hk : ∀ a, Keeps R (k a)) : Keeps R (act >>= k) := by
  intro s y s' hbind
  rcases bind_leads.mp hbind with ⟨a, t, hact, hrest⟩ | ⟨f, hact, -⟩
  · exact htrans (h hact) (hk a hrest)
  · exact h hact

end Keeps

end Action

end Machine
