import Mathlib.Data.List.Basic

/-!
  EncointerWorker.Lib.Positions — keeping the entries of a list at the positions a predicate
  allows, over an ARBITRARY element type.

  `keepFrom p n l` keeps the entries of `l` whose position, counted from `n`, satisfies `p`.
  Removing positions one by one with `List.eraseIdx`, highest first, is such a keep: each
  removal shifts only the entries above it, and those are kept by every later step.

  Main results:
    * `keepFrom_append`, `keepFrom_of_forall`, `keepFrom_congr` — how a keep splits, when it
      keeps everything, and that it reads `p` on the list's positions only.
    * `keepFrom_eraseIdx` — a removal above every position still to be decided.
    * `keepFrom_eq_filter` — a keep whose predicate reads the entry is a `List.filter`.
-/

namespace EncointerWorker.Lib

variable {α : Type}

/-- The entries of the list whose position, counted from `n`, satisfies `p`. -/
def keepFrom (p : Nat → Bool) : Nat → List α → List α
  | _, [] => []
  | n, x :: xs => if p n then x :: keepFrom p (n + 1) xs else keepFrom p (n + 1) xs

section Keep

variable (p : Nat → Bool)

@[simp] theorem keepFrom_nil (n : Nat) : keepFrom p n ([] : List α) = [] := rfl

theorem keepFrom_cons (n : Nat) (x : α) (xs : List α) :
    keepFrom p n (x :: xs) = if p n then x :: keepFrom p (n + 1) xs else keepFrom p (n + 1) xs :=
  rfl

/-- A keep over two lists: the second one's positions start after the first. -/
theorem keepFrom_append (xs ys : List α) :
    ∀ n, keepFrom p n (xs ++ ys) = keepFrom p n xs ++ keepFrom p (n + xs.length) ys := by
  induction xs with
  | nil => intro n; rfl
  | cons x xs ih =>
    intro n
    have hlen : n + 1 + xs.length = n + (x :: xs).length := by
      rw [List.length_cons]
      omega
    rw [List.cons_append, keepFrom_cons, keepFrom_cons, ih, hlen]
    split <;> rfl

/-- A predicate true from `n` on keeps everything. -/
theorem keepFrom_of_forall {n : Nat} (h : ∀ j, n ≤ j → p j = true) :
    ∀ l : List α, keepFrom p n l = l := by
  intro l
  induction l generalizing n with
  | nil => rfl
  | cons x xs ih =>
    rw [keepFrom_cons, if_pos (h n (Nat.le_refl n)),
      ih (fun j hj => h j (Nat.le_of_succ_le hj))]

/-- A keep reads its predicate on the list's positions only. -/
theorem keepFrom_congr {q : Nat → Bool} :
    ∀ (l : List α) {n : Nat}, (∀ j, n ≤ j → j < n + l.length → p j = q j) →
      keepFrom p n l = keepFrom q n l
  | [], _, _ => rfl
  | x :: xs, n, h => by
    have hn : p n = q n := h n (Nat.le_refl n) (by simp)
    have ih : keepFrom p (n + 1) xs = keepFrom q (n + 1) xs :=
      keepFrom_congr xs fun j hj hlt => h j (Nat.le_of_succ_le hj) (by simp at hlt ⊢; omega)
    rw [keepFrom_cons, keepFrom_cons, hn, ih]

/-- **One removal, highest first.**  Erasing position `i` when `p` keeps every position from
    `i` on is the keep that also drops `i`. -/
theorem keepFrom_eraseIdx {l : List α} {i : Nat} (hi : i < l.length)
    (habove : ∀ j, i ≤ j → p j = true) :
    keepFrom p 0 (l.eraseIdx i) = keepFrom (fun j => p j && j != i) 0 l := by
  -- split `l` at `i`: the entries below keep their positions, the ones above are all kept
  obtain ⟨pre, x, suf, rfl, rfl⟩ : ∃ pre x suf, l = pre ++ x :: suf ∧ pre.length = i :=
    ⟨l.take i, l[i], l.drop (i + 1), by simp, List.length_take_of_le (Nat.le_of_lt hi)⟩
  have herase : (pre ++ x :: suf).eraseIdx pre.length = pre ++ suf := by
    rw [List.eraseIdx_append_of_length_le (Nat.le_refl _)]
    simp
  have hbelow : keepFrom p 0 pre = keepFrom (fun j => p j && j != pre.length) 0 pre :=
    keepFrom_congr p pre fun j _ hj => by simp [Nat.ne_of_lt (by omega : j < pre.length)]
  have hsuf : keepFrom (fun j => p j && j != pre.length) (pre.length + 1) suf = suf :=
    keepFrom_of_forall _ (fun j hj => by simp [habove j (by omega), Nat.ne_of_gt hj]) suf
  rw [herase, keepFrom_append, keepFrom_append, Nat.zero_add, keepFrom_cons,
    keepFrom_of_forall p habove suf, hbelow]
  simp only [bne_self_eq_false, Bool.and_false, Bool.false_eq_true, if_false]
  rw [hsuf]

/-- **A keep that reads the entry is a filter.** -/
theorem keepFrom_eq_filter {q : α → Bool} :
    ∀ (l : List α) {n : Nat}, (∀ j (h : j < l.length), p (n + j) = q l[j]) →
      keepFrom p n l = l.filter q
  | [], _, _ => rfl
  | x :: xs, n, h => by
    have hx : p n = q x := h 0 (by simp)
    have ih : keepFrom p (n + 1) xs = xs.filter q :=
      keepFrom_eq_filter xs fun j hj => by
        have hj' := h (j + 1) (by simp; omega)
        rw [show n + (j + 1) = n + 1 + j by omega] at hj'
        simpa using hj'
    rw [keepFrom_cons, List.filter_cons, hx, ih]

end Keep

end EncointerWorker.Lib
