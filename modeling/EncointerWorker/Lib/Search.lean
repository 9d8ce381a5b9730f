import Mathlib.Data.List.Infix

/-!
  EncointerWorker.Lib.Search — where a pattern can begin inside a list built by concatenation.

  A scan for the first window equal to a pattern finds an occurrence planted after a prefix
  exactly when the pattern begins at no position of that prefix.  `NoStart pat xs ys` says
  so for the prefix `xs` of `xs ++ ys`.  It splits over a concatenated prefix
  (`noStart_append`), and three rules establish it for one piece:

    * `noStart_of_clash` — a fixed piece every suffix of which disagrees with the pattern at
      a position both have, whatever follows (decidable on a concrete piece);
    * `noStart_of_not_mem` — a piece that does not contain the pattern's first element;
    * `noStart_of_next` — a piece that does not contain the pattern, followed by an element
      that the pattern has nowhere but at its head.
-/

namespace EncointerWorker.Lib

variable {α : Type}

/-! ## §1. Starts inside a prefix. -/

/-- `pat` begins at no position of `xs` in `xs ++ ys`. -/
def NoStart (pat xs ys : List α) : Prop :=
  ∀ i < xs.length, ¬ pat <+: (xs ++ ys).drop i

theorem noStart_nil (pat ys : List α) : NoStart pat [] ys :=
  fun i hi => absurd hi (Nat.not_lt_zero i)

theorem noStart_cons {pat xs ys : List α} {x : α} :
    NoStart pat (x :: xs) ys ↔ ¬ pat <+: x :: (xs ++ ys) ∧ NoStart pat xs ys := by
  constructor
  · intro h
    exact ⟨h 0 (Nat.succ_pos _), fun i hi => h (i + 1) (Nat.succ_lt_succ hi)⟩
  · rintro ⟨h₀, h⟩ i hi
    cases i with
    | zero => exact h₀
    | succ i => exact h i (Nat.lt_of_succ_lt_succ hi)

/-- A concatenated prefix has no start exactly when neither part has one, the first part
    seen in front of the second. -/
theorem noStart_append {pat a b ys : List α} :
    NoStart pat (a ++ b) ys ↔ NoStart pat a (b ++ ys) ∧ NoStart pat b ys := by
  induction a with
  | nil => simp [noStart_nil]
  | cons x a ih =>
    simp only [List.cons_append, noStart_cons, ih, List.append_assoc, and_assoc]

/-! ## §2. Three rules for one piece. -/

/-- Every suffix of `xs` disagrees with `pat` at a position both have: neither is a prefix of
    the other. -/
def Clash (pat xs : List α) : Prop :=
  ∀ i < xs.length, ¬ pat <+: xs.drop i ∧ ¬ xs.drop i <+: pat

instance [DecidableEq α] (pat xs : List α) : Decidable (Clash pat xs) :=
  inferInstanceAs (Decidable (∀ i < xs.length, ¬ pat <+: xs.drop i ∧ ¬ xs.drop i <+: pat))

theorem noStart_of_clash {pat xs : List α} (h : Clash pat xs) (ys : List α) : NoStart pat xs ys := by
  intro i hi hpre
  rw [List.drop_append_of_le_length (Nat.le_of_lt hi)] at hpre
  obtain ⟨hnot, hnot'⟩ := h i hi
  -- two prefixes of one list: one is a prefix of the other
  rcases List.prefix_or_prefix_of_prefix hpre (List.prefix_append _ _) with h' | h'
  · exact hnot h'
  · exact hnot' h'

theorem noStart_of_not_mem {p : α} {ps xs ys : List α} (h : p ∉ xs) : NoStart (p :: ps) xs ys := by
  intro i hi hpre
  rw [List.drop_append_of_le_length (Nat.le_of_lt hi), List.drop_eq_getElem_cons hi,
    List.cons_append, List.cons_prefix_cons] at hpre
  exact h (hpre.1 ▸ List.getElem_mem hi)

/-- A piece that does not contain the pattern, followed by an element the pattern's tail does
    not contain: a start in the piece would run past its end onto that element. -/
theorem noStart_of_next {pat xs ys : List α} (hxs : ¬ pat <:+: xs)
    (hnext : ∀ t ∈ ys.head?, t ∉ pat.tail) : NoStart pat xs ys := by
  intro i hi hpre
  rw [List.drop_append_of_le_length (Nat.le_of_lt hi)] at hpre
  have hsuffix : xs.drop i <:+: xs := (List.drop_suffix i xs).isInfix
  rcases List.prefix_or_prefix_of_prefix hpre (List.prefix_append _ _) with h' | ⟨e, he⟩
  · exact hxs (h'.isInfix.trans hsuffix)
  · -- `pat = xs.drop i ++ e`, and `e` is a prefix of `ys`
    subst he
    have hne : xs.drop i ≠ [] := by simp; omega
    have he : e <+: ys := (List.prefix_append_right_inj _).mp hpre
    cases e with
    | nil => exact hxs (by simpa using hsuffix)
    | cons t e' =>
      obtain ⟨y, ys', rfl⟩ := List.exists_cons_of_ne_nil (List.ne_nil_of_length_pos
        (Nat.lt_of_lt_of_le (Nat.succ_pos e'.length) he.length_le))
      rw [List.cons_prefix_cons] at he
      obtain ⟨d, ds, hd⟩ := List.exists_cons_of_ne_nil hne
      rw [hd] at hnext
      exact hnext y rfl (by simp [he.1])

end EncointerWorker.Lib
