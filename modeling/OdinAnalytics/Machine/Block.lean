import OdinAnalytics.Machine.Exec
import Mathlib.Tactic.Ring

/-!
# Counted loops over blocks of memory

A block of memory is the list of its elements. It is indexed without a check, so an
index outside of it is undefined behaviour. `forRange` is the loop
`for (i = 0; i < n; i++)`, whose rules are stated with an invariant that counts the
iterations; two nested loops count row by row.
-/

namespace Machine

/-! ## Blocks -/

namespace Block

variable {α : Type}

/-- `block[index]`. -/
def load (block : List α) (index : Nat) : Exec α :=
  match block[index]? with
  | some x => .ok x
  | none => .error (.undefined .indexOutOfRange)

/-- `block[index] = x`. -/
def store (block : List α) (index : Nat) (x : α) : Exec (List α) :=
  if index < block.length then .ok (block.set index x)
  else .error (.undefined .indexOutOfRange)

/-- Loading from an index in range. -/
theorem load_eq {block : List α} {index : Nat} {x : α} (h : block[index]? = some x) :
    load block index = .ok x := by
  rw [load, h]

/-- Storing at an index in range. -/
theorem store_eq {block : List α} {index : Nat} (h : index < block.length) (x : α) :
    store block index x = .ok (block.set index x) := if_pos h

/-- The elements up to an index that is written to. -/
theorem take_succ_set {block : List α} {index : Nat} (h : index < block.length) (x : α) :
    (block.set index x).take (index + 1) = block.take index ++ [x] := by
  rw [List.take_add_one, List.take_set_of_le (Nat.le_refl index), List.getElem?_set_self h]
  rfl

end Block

/-- The row and the column of an index, when an array is laid out row by row. -/
theorem rowMajor_inj {i j i' j' cols : Nat} (hj : j < cols) (hj' : j' < cols)
    (h : i * cols + j = i' * cols + j') : i = i' ∧ j = j' := by
  have hdiv : ∀ k l, l < cols → (k * cols + l) / cols = k := by
    intro k l hl
    rw [Nat.mul_comm, Nat.mul_add_div (by omega), Nat.div_eq_of_lt hl, Nat.add_zero]
  have hi : i = i' := by rw [← hdiv i j hj, h, hdiv i' j' hj']
  subst hi
  exact ⟨rfl, by omega⟩

/-- Rows and columns in range make an index in range. -/
theorem rowMajor_lt {i j rows cols : Nat} (hi : i < rows) (hj : j < cols) :
    i * cols + j < rows * cols := by
  calc i * cols + j < i * cols + cols := by omega
    _ = (i + 1) * cols := by ring
    _ ≤ rows * cols := Nat.mul_le_mul_right cols hi

/-! ## Loops -/

section Loops

variable {σ : Type} {E : Fault → Prop} {s : σ}

/-- The loop `for (i = 0; i < n; i++) s = body(i, s);`. -/
def forRange (n : Nat) (body : Nat → σ → Exec σ) (s : σ) : Exec σ :=
  (List.range n).foldlM (fun s i => body i s) s

@[simp] theorem forRange_zero (body : Nat → σ → Exec σ) (s : σ) : forRange 0 body s = .ok s := rfl

/-- The last iteration comes after the others. -/
theorem forRange_succ (n : Nat) (body : Nat → σ → Exec σ) (s : σ) :
    forRange (n + 1) body s = forRange n body s >>= body n := by
  unfold forRange
  rw [List.range_succ, List.foldlM_append]
  congr
  funext s
  rw [List.foldlM_cons]
  cases body n s with
  | error f => rfl
  | ok s' => rfl

/-- An invariant that every iteration preserves holds after the loop. -/
theorem forRange_post (I : Nat → σ → Prop) {n : Nat} {body : Nat → σ → Exec σ}
    (hbody : ∀ i < n, ∀ s, I i s → Post (body i s) E (I (i + 1))) (hs : I 0 s) :
    Post (forRange n body s) E (I n) := by
  induction n with
  | zero => exact post_ok.mpr hs
  | succ n ih =>
    rw [forRange_succ]
    apply Post.bind (ih fun i hi => hbody i (by omega))
    intro s' hs'
    exact hbody n (Nat.lt_succ_self n) s' hs'

/-- A loop that writes the elements of a block one after another, from the `k`-th one on. -/
theorem forRange_fill {α : Type} {n k : Nat} {body : Nat → List α → Exec (List α)} {f : Nat → α}
    {block : List α} (hlength : block.length = n + k)
    (hstart : block.take k = (List.range k).map f)
    (hbody : ∀ i < n, ∀ block, block.take (i + k) = (List.range (i + k)).map f →
      body i block = Block.store block (i + k) (f (i + k))) :
    forRange n body block = .ok ((List.range (n + k)).map f) := by
  have hpost : Post (forRange n body block) (fun _ => False) fun block =>
      block.length = n + k ∧ block.take (n + k) = (List.range (n + k)).map f := by
    -- the loop invariant: the elements written so far are the wanted ones
    refine forRange_post (fun i (block : List α) => block.length = n + k ∧
      block.take (i + k) = (List.range (i + k)).map f) ?_ ⟨hlength, by rwa [Nat.zero_add]⟩
    intro i hi block hblock
    have hlt : i + k < block.length := by omega
    rw [hbody i hi block hblock.2, Block.store_eq hlt, post_ok]
    constructor
    · rw [List.length_set, hblock.1]
    · rw [show i + 1 + k = i + k + 1 by omega, Block.take_succ_set hlt, hblock.2,
        List.range_succ, List.map_append, List.map_singleton]
  -- at the end the whole block is written
  obtain ⟨block', heq, hlen, htake⟩ := hpost.exists_ok fun _ _ => id
  rw [heq, ← htake, List.take_of_length_le (by omega)]

/-- A loop that writes the elements of a list to a block. -/
theorem forRange_copy {α : Type} {terms block : List α} {body : Nat → List α → Exec (List α)}
    (hlength : block.length = terms.length)
    (hbody : ∀ i term, terms[i]? = some term → ∀ block, body i block = Block.store block i term) :
    forRange terms.length body block = .ok terms := by
  have hpost : Post (forRange terms.length body block) (fun _ => False) fun block =>
      block.length = terms.length ∧ block.take terms.length = terms.take terms.length := by
    -- the loop invariant: the elements copied so far agree
    refine forRange_post (fun i (block : List α) => block.length = terms.length ∧
      block.take i = terms.take i) ?_ ⟨hlength, rfl⟩
    intro i hi block hblock
    have hterm : terms[i]? = some terms[i] := List.getElem?_eq_getElem hi
    have hlt : i < block.length := by omega
    rw [hbody i _ hterm, Block.store_eq hlt, post_ok]
    constructor
    · rw [List.length_set, hblock.1]
    · rw [Block.take_succ_set hlt, hblock.2, List.take_add_one, hterm]
      rfl
  obtain ⟨block', heq, hlen, htake⟩ := hpost.exists_ok fun _ _ => id
  rw [heq, ← List.take_length (l := terms), ← htake, List.take_of_length_le hlen.le]

/-- A loop over a list that counts the elements. -/
theorem zipIdx_post {α : Type} (I : Nat → σ → Prop) {l : List α} {body : σ → α × Nat → Exec σ}
    (hbody : ∀ i x, l[i]? = some x → ∀ s, I i s → Post (body s (x, i)) E (I (i + 1)))
    (hs : I 0 s) : Post (l.zipIdx.foldlM body s) E (I l.length) := by
  -- the loop from index `k` on, over what is left of the list
  have hfrom : ∀ (r : List α) (k : Nat) (s : σ), (∀ i, r[i]? = l[k + i]?) → I k s →
      Post ((r.zipIdx k).foldlM body s) E (I (k + r.length)) := by
    intro r
    induction r with
    | nil => exact fun k s _ hs => hs
    | cons x r ih =>
      intro k s hr hs
      rw [List.zipIdx_cons, List.foldlM_cons]
      apply Post.bind (hbody k x (by simpa using (hr 0).symm) s hs)
      intro s' hs'
      have hrest : ∀ i, r[i]? = l[k + 1 + i]? := by
        intro i
        rw [Nat.add_assoc, Nat.add_comm 1 i, ← hr (i + 1), List.getElem?_cons_succ]
      rw [List.length_cons, ← Nat.add_assoc, Nat.add_right_comm]
      exact ih (k + 1) s' hrest hs'
  simpa using hfrom l 0 s (by simp) hs

/-- Two nested loops, over the rows and the columns of an array. -/
theorem forRange_rows_post (I : Nat → σ → Prop) {rows cols : Nat}
    {body : Nat → Nat → σ → Exec σ} (hbody : ∀ i < rows, ∀ j < cols, ∀ s, I (i * cols + j) s →
      Post (body i j s) E (I (i * cols + j + 1))) (hs : I 0 s) :
    Post (forRange rows (fun i s => forRange cols (body i) s) s) E (I (rows * cols)) := by
  apply forRange_post fun i s => I (i * cols) s
  · intro i hi s hs
    rw [show (i + 1) * cols = i * cols + cols by ring]
    exact forRange_post (fun j s => I (i * cols + j) s) (hbody i hi) hs
  · simpa using hs

end Loops

end Machine
