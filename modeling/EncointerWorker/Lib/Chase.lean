import Mathlib.Data.List.Nodup

/-!
  EncointerWorker.Lib.Chase — walks along a partial successor function, over an ARBITRARY
  type: from a start, while the current point is not the target, step to its successor, and
  stop where there is none.

  `Trail next stop a ps` says that `ps` is how the walk from `a` begins: `a` itself, then,
  while the point is not `stop` and has a successor, that successor.  A loop that chases
  pointers runs along one trail; what it returns is read off the trail where it ends.

  Main results:
    * `Trail.prefix_or` — the walk is deterministic: two trails from one point are prefixes
      of each other.
    * `Trail.reach_unique`, `Trail.not_reach_of_leave` — at most one trail reaches `stop`,
      and none does when one ends at a point without a successor.
    * `Trail.length_le` — a trail that does not revisit a point is at most one longer than
      any list holding the points with a successor (the pigeonhole bound of a loop's fuel).
    * `noRevisit_of_reach` — a walk seen to reach `stop` without a repeat never revisits.
-/

namespace EncointerWorker.Lib

variable {α : Type}

/-- `Trail next stop a ps`: `ps` begins the walk from `a`. -/
inductive Trail (next : α → Option α) (stop : α) : α → List α → Prop
  | here (a : α) : Trail next stop a [a]
  | step {a b : α} {ps : List α} : a ≠ stop → next a = some b → Trail next stop b ps →
      Trail next stop a (a :: ps)

/-- The walk from `a` does not come back to a point before it stops. -/
def NoRevisit (next : α → Option α) (stop a : α) : Prop :=
  ∀ ps, Trail next stop a ps → ps.Nodup

section Trail

variable {next : α → Option α} {stop : α}

theorem Trail.eq_cons {a : α} {ps : List α} (h : Trail next stop a ps) : ∃ qs, ps = a :: qs := by
  cases h with
  | here => exact ⟨[], rfl⟩
  | step _ _ _ => exact ⟨_, rfl⟩

/-- A trail that reaches `stop` from another point begins with that point. -/
theorem Trail.eq_cons_of_ne {a : α} {ps : List α} (h : Trail next stop a (ps ++ [stop]))
    (ha : a ≠ stop) : ps = a :: ps.tail := by
  obtain ⟨qs, hqs⟩ := h.eq_cons
  cases ps with
  | nil =>
    cases hqs
    exact absurd rfl ha
  | cons p ps =>
    cases hqs
    rfl

/-- Every point of a trail but its last is not `stop` and has a successor. -/
theorem Trail.of_mem_dropLast {a x : α} {ps : List α} (h : Trail next stop a ps)
    (hx : x ∈ ps.dropLast) : x ≠ stop ∧ ∃ y, next x = some y := by
  induction h with
  | here => simp at hx
  | @step a b ps hne hnext ht ih =>
    obtain ⟨qs, rfl⟩ := ht.eq_cons
    rw [List.dropLast_cons_cons, List.mem_cons] at hx
    rcases hx with rfl | hx
    · exact ⟨hne, b, hnext⟩
    · exact ih hx

theorem Trail.not_mem_stop {a x : α} {ps : List α} (h : Trail next stop a (ps ++ [x])) :
    stop ∉ ps := fun hs => (h.of_mem_dropLast (by rwa [List.dropLast_concat])).1 rfl

/-- From `stop` itself the walk reaches `stop` at once. -/
theorem Trail.eq_nil_of_stop {ps : List α} (h : Trail next stop stop (ps ++ [stop])) : ps = [] := by
  cases ps with
  | nil => rfl
  | cons p ps =>
    obtain ⟨qs, hqs⟩ := h.eq_cons
    cases hqs
    exact absurd List.mem_cons_self h.not_mem_stop

/-- **The walk is deterministic.** -/
theorem Trail.prefix_or {a : α} {ps qs : List α} (hp : Trail next stop a ps)
    (hq : Trail next stop a qs) : ps <+: qs ∨ qs <+: ps := by
  induction hp generalizing qs with
  | here a =>
    obtain ⟨qs', rfl⟩ := hq.eq_cons
    exact .inl (List.cons_prefix_cons.mpr ⟨rfl, List.nil_prefix⟩)
  | step hne hnext ht ih =>
    cases hq with
    | here => exact .inr (List.cons_prefix_cons.mpr ⟨rfl, List.nil_prefix⟩)
    | step _ hnext' hq' =>
      -- both trails take the one successor
      rw [hnext] at hnext'
      cases hnext'
      rcases ih hq' with h | h
      · exact .inl (List.cons_prefix_cons.mpr ⟨rfl, h⟩)
      · exact .inr (List.cons_prefix_cons.mpr ⟨rfl, h⟩)

/-- **One trail reaches `stop`.** -/
theorem Trail.reach_unique {a : α} {ps qs : List α} (hp : Trail next stop a (ps ++ [stop]))
    (hq : Trail next stop a (qs ++ [stop])) : ps = qs := by
  -- a shorter trail to `stop` would put `stop` inside the longer one
  have hshort : ∀ {ps qs : List α}, Trail next stop a (qs ++ [stop]) →
      ps ++ [stop] <+: qs ++ [stop] → ps = qs := by
    intro ps qs hq h
    rcases List.prefix_concat_iff.mp h with heq | hpre
    · exact List.append_cancel_right heq
    · exact absurd (hpre.subset (by simp)) hq.not_mem_stop
  rcases hp.prefix_or hq with h | h
  · exact hshort hq h
  · exact (hshort hp h).symm

/-- **No trail reaches `stop` when one ends at a point without a successor.** -/
theorem Trail.not_reach_of_leave {a x : α} {ps qs : List α}
    (hp : Trail next stop a (ps ++ [stop])) (hq : Trail next stop a (qs ++ [x])) (hx : x ≠ stop)
    (hnone : next x = none) : False := by
  rcases hp.prefix_or hq with h | h
  · -- `stop` would be a point of `qs`
    rcases List.prefix_concat_iff.mp h with heq | hpre
    · exact hx (List.singleton_inj.mp (List.append_inj_right' heq rfl)).symm
    · exact hq.not_mem_stop
        (hpre.subset (List.mem_append_right ps (List.mem_singleton_self stop)))
  · -- `x` would be a point of `ps`, which has a successor
    rcases List.prefix_concat_iff.mp h with heq | hpre
    · exact hx (List.singleton_inj.mp (List.append_inj_right' heq rfl))
    · have hmem : x ∈ (ps ++ [stop]).dropLast := by
        rw [List.dropLast_concat]
        exact hpre.subset (List.mem_append_right qs (List.mem_singleton_self x))
      obtain ⟨-, y, hy⟩ := hp.of_mem_dropLast hmem
      rw [hnone] at hy
      cases hy

/-- **The pigeonhole bound**: without a repeated point, the points before the last are
    distinct points with a successor. -/
theorem Trail.length_le {a : α} {ps : List α} (h : Trail next stop a ps) (hnd : ps.Nodup)
    {S : List α} (hS : ∀ x y, next x = some y → x ∈ S) : ps.length ≤ S.length + 1 := by
  have hsub : ps.dropLast ⊆ S := fun x hx => by
    obtain ⟨-, y, hy⟩ := h.of_mem_dropLast hx
    exact hS x y hy
  have hle := (hnd.sublist (List.dropLast_sublist ps)).length_le_of_subset hsub
  rw [List.length_dropLast] at hle
  omega

/-- **A walk that reaches `stop` without a repeated point does not revisit one**: every other
    trail from `a` is a prefix of it, since a longer one would step on from `stop`. -/
theorem noRevisit_of_reach {a : α} {ps : List α} (h : Trail next stop a (ps ++ [stop]))
    (hnd : (ps ++ [stop]).Nodup) : NoRevisit next stop a := by
  intro qs hq
  rcases hq.prefix_or h with hpre | hpre
  · exact hpre.sublist.nodup hnd
  · obtain ⟨t, rfl⟩ := hpre
    cases t with
    | nil => rwa [List.append_nil]
    | cons y t =>
      have hmem : stop ∈ (ps ++ [stop] ++ y :: t).dropLast := by
        rw [List.dropLast_append_of_ne_nil (List.cons_ne_nil y t)]
        exact List.mem_append_left _ (List.mem_append_right ps (List.mem_singleton_self stop))
      exact absurd rfl (hq.of_mem_dropLast hmem).1

end Trail

end EncointerWorker.Lib
