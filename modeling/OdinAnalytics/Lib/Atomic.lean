import Mathlib.Logic.Function.Basic

/-!
# Threads of atomic sections

A `Prog` is what one thread does to a state it shares with others: sections under
a lock, each of which reads and changes the state and picks what comes next, and a
result or an error in the end. A `Pool` is a state with the threads that run on it,
and a schedule is the order in which threads take their next section.

`Sat` is rely-guarantee reasoning. A `Rely` is a preorder that every section of
every thread respects, so between two of its own sections a thread may rely on the
state having moved along it.

## Key results

- `Prog.Sat.bind`, `Prog.sat_atomically`: judgements follow the program text
- `Pool.Sat.run`: judgements about the threads hold under every schedule
-/

namespace Atomic

/-- A thread on a shared state `σ`, ending in a value of `α` or an error of `ε`. -/
inductive Prog (σ ε α : Type) where
  | done (r : Except ε α)
  /-- A section under the lock: the state it leaves, and what the thread does next. -/
  | locked (update : σ → σ) (next : σ → Prog σ ε α)

namespace Prog

variable {σ ε α β : Type}

/-- What a program that is done has come to. -/
def result? : Prog σ ε α → Option (Except ε α)
  | .done r => some r
  | .locked .. => none

/-- A program has a result exactly if it is done. -/
theorem result?_eq_some_iff {p : Prog σ ε α} {r : Except ε α} :
    p.result? = some r ↔ p = .done r := by
  cases p with
  | done r' => simp [result?]
  | locked update next => simp [result?]

/-- Run `p`, then `k` on its value; an error of `p` is the error of the whole. -/
def bind : Prog σ ε α → (α → Prog σ ε β) → Prog σ ε β
  | .done (.ok a), k => k a
  | .done (.error e), _ => .done (.error e)
  | .locked update next, k => .locked update fun s => bind (next s) k

instance : Monad (Prog σ ε) where
  pure a := .done (.ok a)
  bind := bind

instance : MonadLift (Except ε) (Prog σ ε) := ⟨.done⟩

/-- One section under the lock, with its outcome and the state it leaves. -/
def atomically (section_ : σ → Except ε α × σ) : Prog σ ε α :=
  .locked (fun s => (section_ s).2) fun s => .done (section_ s).1

/-- Run a thread on its own: its result, and the state it leaves. -/
def run : Prog σ ε α → σ → Except ε α × σ
  | .done r, s => (r, s)
  | .locked update next, s => (next s).run (update s)

/-- One section is run by itself. -/
@[simp] theorem run_atomically (section_ : σ → Except ε α × σ) (s : σ) :
    (atomically section_).run s = section_ s := rfl

/-- What is computed from a result is a result. -/
theorem done_bind_done (r : Except ε α) (g : α → β) :
    ((.done r : Prog σ ε α) >>= fun a => .done (.ok (g a))) = .done (r.map g) := by
  cases r with
  | ok a => rfl
  | error e => rfl

/-- Two programs in a row: the second one starts where the first one has returned. -/
theorem run_bind (p : Prog σ ε α) (k : α → Prog σ ε β) (s : σ) :
    (p >>= k).run s =
      match p.run s with
      | (.ok a, s') => (k a).run s'
      | (.error e, s') => (.error e, s') := by
  induction p generalizing s with
  | done r =>
    cases r with
    | ok a => rfl
    | error e => rfl
  | locked update next ih => exact ih s (update s)

/-- A thread that leaves the state as it is. -/
def ReadOnly (p : Prog σ ε α) : Prop := ∀ s, (p.run s).2 = s

/-- A program that is done writes nothing. -/
theorem readOnly_done (r : Except ε α) : ReadOnly (.done r : Prog σ ε α) := fun _ => rfl

/-- Programs that write nothing make a program that writes nothing. -/
theorem ReadOnly.bind {p : Prog σ ε α} {k : α → Prog σ ε β} (h : p.ReadOnly)
    (hk : ∀ a, (k a).ReadOnly) : (p >>= k).ReadOnly := by
  intro s
  have hp := h s
  rw [run_bind]
  -- the state after the first part is the one before it
  rcases hrun : p.run s with ⟨r, s'⟩
  rw [hrun] at hp
  cases r with
  | ok a => exact (hk a s').trans hp
  | error e => exact hp

end Prog

/-! ## Rely and guarantee -/

/-- How the sections of the threads may change the state. -/
structure Rely (σ : Type) where
  rel : σ → σ → Prop
  refl : ∀ s, rel s s
  trans : ∀ {s t u}, rel s t → rel t u → rel s u

/-- A claim about a result and a state that other threads cannot undo. -/
def Stable {σ ε α : Type} (R : Rely σ) (Q : Except ε α → σ → Prop) : Prop :=
  ∀ {r s t}, Q r s → R.rel s t → Q r t

namespace Prog

variable {σ ε α β : Type} {R : Rely σ}

/-- From a state `s` that the others may still change, every section of the thread
    respects `R`, and its result satisfies `Q`. -/
def Sat (R : Rely σ) (Q : Except ε α → σ → Prop) : Prog σ ε α → σ → Prop
  | .done r, s => Q r s
  | .locked update next, s => ∀ t, R.rel s t → R.rel t (update t) ∧ Sat R Q (next t) (update t)

variable {Q Q' : Except ε α → σ → Prop} {p : Prog σ ε α} {s t : σ}

@[simp] theorem sat_done {r : Except ε α} : Sat R Q (.done r) s ↔ Q r s := Iff.rfl

/-- What others do in between does not invalidate a judgement. -/
theorem Sat.mono (h : Sat R Q p s) (hQ : Stable R Q) (hst : R.rel s t) : Sat R Q p t := by
  cases p with
  | done r => exact hQ h hst
  | locked update next => exact fun u htu => h u (R.trans hst htu)

/-- A judgement about what the result satisfies implies any weaker one. -/
theorem Sat.imp (h : Sat R Q p s) (hQ : ∀ r t, R.rel s t → Q r t → Q' r t) : Sat R Q' p s := by
  induction p generalizing s with
  | done r => exact hQ r s (R.refl s) h
  | locked update next ih =>
    intro t hst
    obtain ⟨hupdate, hnext⟩ := h t hst
    exact ⟨hupdate, ih t hnext fun r u hu => hQ r u (R.trans (R.trans hst hupdate) hu)⟩

/-- Two programs in a row, from judgements about both of them. -/
theorem Sat.bind {k : α → Prog σ ε β} {Q' : Except ε β → σ → Prop} (h : Sat R Q p s)
    (hok : ∀ a t, R.rel s t → Q (.ok a) t → Sat R Q' (k a) t)
    (herror : ∀ e t, R.rel s t → Q (.error e) t → Q' (.error e) t) : Sat R Q' (p >>= k) s := by
  induction p generalizing s with
  | done r =>
    cases r with
    | ok a => exact hok a s (R.refl s) h
    | error e => exact herror e s (R.refl s) h
  | locked update next ih =>
    intro t hst
    obtain ⟨hupdate, hnext⟩ := h t hst
    -- the states after this section are reached along `R` from before it
    have hrel : ∀ u, R.rel (update t) u → R.rel s u := fun u hu =>
      R.trans (R.trans hst hupdate) hu
    exact ⟨hupdate, ih t hnext (fun a u hu => hok a u (hrel u hu))
      fun e u hu => herror e u (hrel u hu)⟩

/-- The case of a first part that is known to return. -/
theorem Sat.bind_ok {k : α → Prog σ ε β} {P : α → σ → Prop} {Q' : Except ε β → σ → Prop}
    (h : Sat R (fun r s => ∃ a, r = .ok a ∧ P a s) p s)
    (hok : ∀ a t, P a t → Sat R Q' (k a) t) : Sat R Q' (p >>= k) s := by
  apply h.bind
  · intro a t _ ha
    obtain ⟨a', heq, hP⟩ := ha
    cases heq
    exact hok a t hP
  · intro e t _ he
    obtain ⟨a, heq, -⟩ := he
    cases heq

/-- A single section, which may find any state that others have left. -/
theorem sat_atomically {section_ : σ → Except ε α × σ}
    (h : ∀ t, R.rel s t → R.rel t (section_ t).2 ∧ Q (section_ t).1 (section_ t).2) :
    Sat R Q (atomically section_) s := h

end Prog

/-! ## Interleavings -/

/-- A shared state and the threads that run on it, each with a result type of its own. -/
structure Pool (σ ε : Type) {ι : Type} (α : ι → Type) where
  state : σ
  threads : ∀ i, Prog σ ε (α i)

namespace Pool

variable {σ ε ι : Type} {α : ι → Type} [DecidableEq ι]

/-- Thread `i` takes its next section; a thread that is done does nothing. -/
def step (pool : Pool σ ε α) (i : ι) : Pool σ ε α :=
  match pool.threads i with
  | .done _ => pool
  | .locked update next =>
    ⟨update pool.state, Function.update pool.threads i (next pool.state)⟩

/-- The threads take their sections in the order of a schedule. -/
def run (pool : Pool σ ε α) (schedule : List ι) : Pool σ ε α := schedule.foldl step pool

variable {pool : Pool σ ε α} {schedule : List ι} {i j : ι}

@[simp] theorem run_cons : pool.run (i :: schedule) = (pool.step i).run schedule := rfl

/-- A schedule may be cut in two. -/
theorem run_append {schedule' : List ι} :
    pool.run (schedule ++ schedule') = (pool.run schedule).run schedule' := List.foldl_append

/-- A thread that is done leaves everything as it is. -/
theorem step_of_done {r : Except ε (α i)} (h : pool.threads i = .done r) : pool.step i = pool := by
  simp [step, h]

/-- What a thread does that is not done. -/
theorem step_of_locked {update : σ → σ} {next : σ → Prog σ ε (α i)}
    (h : pool.threads i = .locked update next) : pool.step i =
      ⟨update pool.state, Function.update pool.threads i (next pool.state)⟩ := by
  simp [step, h]

/-- A step of one thread is no step of another. -/
theorem step_threads_of_ne (h : j ≠ i) : (pool.step i).threads j = pool.threads j := by
  unfold step
  split
  · rfl
  · exact Function.update_of_ne h _ _

/-- A thread that is not scheduled stays where it is. -/
theorem run_threads_of_not_mem (h : i ∉ schedule) :
    (pool.run schedule).threads i = pool.threads i := by
  induction schedule generalizing pool with
  | nil => rfl
  | cons j schedule ih =>
    rw [List.mem_cons, not_or] at h
    rw [run_cons, ih h.2, step_threads_of_ne h.1]

/-- A thread stays in any set of programs that is closed under taking a section. -/
theorem run_thread_mem {P : Prog σ ε (α i) → Prop}
    (hnext : ∀ update next s, P (.locked update next) → P (next s)) (h : P (pool.threads i))
    (schedule : List ι) : P ((pool.run schedule).threads i) := by
  induction schedule generalizing pool with
  | nil => exact h
  | cons j schedule ih =>
    apply ih
    -- a step of another thread leaves this one where it is
    by_cases hj : i = j
    · subst hj
      cases hi : pool.threads i with
      | done r => rwa [step_of_done hi]
      | locked update next =>
        rw [step_of_locked hi]
        show P (Function.update pool.threads i (next pool.state) i)
        rw [Function.update_self]
        exact hnext update next pool.state (hi ▸ h)
    · rwa [step_threads_of_ne hj]

/-- A thread of one section has either not taken it or is done. -/
theorem run_atomically {section_ : σ → Except ε (α i) × σ}
    (h : pool.threads i = .atomically section_) (schedule : List ι) :
    (pool.run schedule).threads i = .atomically section_ ∨
      ∃ r, (pool.run schedule).threads i = .done r := by
  let P : Prog σ ε (α i) → Prop := fun p => p = .atomically section_ ∨ ∃ r, p = .done r
  have hnext : ∀ update next s, P (.locked update next) → P (next s) := by
    rintro update next s (heq | ⟨r, heq⟩)
    · cases heq
      exact Or.inr ⟨_, rfl⟩
    · cases heq
  exact run_thread_mem hnext (Or.inl h) schedule

/-- Every thread of the pool satisfies its judgement. -/
def Sat (R : Rely σ) (Q : ∀ i, Except ε (α i) → σ → Prop) (pool : Pool σ ε α) : Prop :=
  ∀ i, (pool.threads i).Sat R (Q i) pool.state

variable {R : Rely σ} {Q : ∀ i, Except ε (α i) → σ → Prop}

/-- One section moves the state along `R` and keeps every judgement. -/
theorem Sat.step (h : pool.Sat R Q) (hQ : ∀ i, Stable R (Q i)) (i : ι) :
    R.rel pool.state (pool.step i).state ∧ (pool.step i).Sat R Q := by
  cases hi : pool.threads i with
  | done r =>
    rw [step_of_done hi]
    exact ⟨R.refl _, h⟩
  | locked update next =>
    have hsat := h i
    rw [hi] at hsat
    -- the section keeps the relation and leaves its thread satisfied
    obtain ⟨hupdate, hnext⟩ := hsat pool.state (R.refl _)
    rw [step_of_locked hi]
    refine ⟨hupdate, fun j => ?_⟩
    show (Function.update pool.threads i (next pool.state) j).Sat R (Q j) (update pool.state)
    by_cases hj : j = i
    · subst hj
      rw [Function.update_self]
      exact hnext
    · rw [Function.update_of_ne hj]
      -- the other threads are satisfied by whatever the relation allows
      exact (h j).mono (hQ j) hupdate

/-- Every schedule keeps the judgements about the threads, and what they rely on. -/
theorem Sat.run (h : pool.Sat R Q) (hQ : ∀ i, Stable R (Q i)) (schedule : List ι) :
    R.rel pool.state (pool.run schedule).state ∧ (pool.run schedule).Sat R Q := by
  induction schedule generalizing pool with
  | nil => exact ⟨R.refl _, h⟩
  | cons i schedule ih =>
    obtain ⟨hstep, hsat⟩ := h.step hQ i
    obtain ⟨hrest, hsat'⟩ := ih hsat
    exact ⟨R.trans hstep hrest, hsat'⟩

/-- The result of a thread, under every schedule that lets it finish. -/
theorem Sat.result (h : pool.Sat R Q) (hQ : ∀ i, Stable R (Q i)) {r : Except ε (α i)}
    (hr : (pool.run schedule).threads i = .done r) : Q i r (pool.run schedule).state := by
  have hsat := (h.run hQ schedule).2 i
  rwa [hr] at hsat

end Pool

end Atomic
