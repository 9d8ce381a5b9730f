import Mathlib.Data.List.Basic

/-!
  EncointerWorker.Lib.AssocMap — a finite map as an association list, the model of a
  `HashMap` whose iteration order nothing may depend on.

  `insert` replaces a present key's value in place and appends a new key, so a map built
  by `insert`s has each key once (`NodupKeys`); `ofList` inserts a list of entries in
  turn, so a later entry under a repeated key wins.  `applyAll` runs a list of updates
  (`some v` sets, `none` removes) over a map in turn.

  Main results:
    * `get_insert_self`, `get_insert_ne`, `get_remove_self`, `get_remove_ne` — the
      algebra of `get` against the updates.
    * `mem_keys_foldl_insert`, `get_foldl_insert` — what a fold of inserts holds: the
      keys of the accumulator and of the list, each with a value taken from one of them.
    * `get_applyAll` — with distinct update keys, an updated key reads its update and
      every other key reads what it read before.
-/

namespace EncointerWorker.Lib.AssocMap

variable {K V : Type}

/-- A finite map: one pair per live entry. -/
abbrev Map (K V : Type) := List (K × V)

/-- The keys of a map. -/
def keys (m : Map K V) : List K := m.map Prod.fst

/-- Each key occurs at most once. -/
def NodupKeys (m : Map K V) : Prop := (keys m).Nodup

@[simp] theorem keys_nil : keys ([] : Map K V) = [] := rfl

@[simp] theorem keys_cons (e : K × V) (m : Map K V) : keys (e :: m) = e.1 :: keys m := rfl

@[simp] theorem keys_append (m m' : Map K V) : keys (m ++ m') = keys m ++ keys m' := by
  simp [keys]

section Ops

variable [DecidableEq K]

/-- The value stored under `k`, if any (the first entry for it). -/
def get : Map K V → K → Option V
  | [], _ => none
  | (k', v) :: m, k => if k' = k then some v else get m k

/-- `HashMap::insert`: replace the value of a present key in place, else append. -/
def insert (m : Map K V) (k : K) (v : V) : Map K V :=
  if k ∈ keys m then m.map (fun e => if e.1 = k then (k, v) else e) else m ++ [(k, v)]

/-- `HashMap::remove`: drop every entry under `k`. -/
def remove (m : Map K V) (k : K) : Map K V := m.filter (fun e => e.1 ≠ k)

/-- Insert a list of entries in turn (`collect`, or a loop of `insert`s). -/
def ofList (es : List (K × V)) : Map K V := es.foldl (fun m e => insert m e.1 e.2) []

/-- Apply a list of updates in turn: `some v` sets the key, `none` removes it. -/
def applyAll (updates : List (K × Option V)) (m : Map K V) : Map K V :=
  updates.foldl (fun m e => match e.2 with
    | some v => insert m e.1 v
    | none => remove m e.1) m

/-! ## §1. `get` against `insert` and `remove`. -/

@[simp] theorem get_nil (k : K) : get ([] : Map K V) k = none := rfl

theorem get_cons (k' k : K) (v : V) (m : Map K V) :
    get ((k', v) :: m) k = if k' = k then some v else get m k := rfl

theorem get_eq_none_of_not_mem {m : Map K V} {k : K} (h : k ∉ keys m) : get m k = none := by
  induction m with
  | nil => rfl
  | cons e m ih =>
    obtain ⟨k', v⟩ := e
    have hne : k' ≠ k := fun heq => h (by simp [heq])
    have hm : k ∉ keys m := fun hk => h (by simp [hk])
    rw [get_cons, if_neg hne, ih hm]

theorem get_append_of_mem {m m' : Map K V} {k : K} (h : k ∈ keys m) :
    get (m ++ m') k = get m k := by
  induction m with
  | nil => simp at h
  | cons e m ih =>
    obtain ⟨k', v⟩ := e
    by_cases hk : k' = k
    · simp [get_cons, hk]
    · have hm : k ∈ keys m := by simpa [Ne.symm hk] using h
      simp only [List.cons_append, get_cons, if_neg hk]
      exact ih hm

theorem get_append_of_not_mem {m m' : Map K V} {k : K} (h : k ∉ keys m) :
    get (m ++ m') k = get m' k := by
  induction m with
  | nil => rfl
  | cons e m ih =>
    obtain ⟨k', v⟩ := e
    have hne : k' ≠ k := fun heq => h (by simp [heq])
    have hm : k ∉ keys m := fun hk => h (by simp [hk])
    simp only [List.cons_append, get_cons, if_neg hne]
    exact ih hm

/-- Replacing the value of every entry under `k` by `v`. -/
theorem get_map_replace (m : Map K V) (k k' : K) (v : V) :
    get (m.map (fun e => if e.1 = k then (k, v) else e)) k' =
      if k' = k ∧ k ∈ keys m then some v else get m k' := by
  induction m with
  | nil => simp
  | cons e m ih =>
    obtain ⟨k₀, v₀⟩ := e
    by_cases h₀ : k₀ = k
    · subst h₀
      by_cases hk' : k' = k₀
      · subst hk'
        simp [get_cons]
      · simp [get_cons, Ne.symm hk', ih, hk']
    · simp only [List.map_cons, if_neg h₀, get_cons, ih, keys_cons, List.mem_cons]
      by_cases hk' : k₀ = k'
      · have : k' ≠ k := fun h => h₀ (hk'.trans h)
        simp [hk', this]
      · simp [hk', Ne.symm h₀]

@[simp] theorem get_insert_self (m : Map K V) (k : K) (v : V) : get (insert m k v) k = some v := by
  unfold insert
  split
  · rename_i hk
    rw [get_map_replace]
    simp [hk]
  · rename_i hk
    rw [get_append_of_not_mem hk]
    simp [get_cons]

theorem get_insert_ne (m : Map K V) {k k' : K} (v : V) (h : k' ≠ k) :
    get (insert m k v) k' = get m k' := by
  unfold insert
  split
  · rw [get_map_replace]
    simp [h]
  · by_cases hk' : k' ∈ keys m
    · exact get_append_of_mem hk'
    · rw [get_append_of_not_mem hk', get_eq_none_of_not_mem hk']
      simp [get_cons, Ne.symm h]

theorem keys_insert (m : Map K V) (k : K) (v : V) :
    keys (insert m k v) = if k ∈ keys m then keys m else keys m ++ [k] := by
  unfold insert
  split
  · -- replacing keeps every key where it is
    simp only [keys, List.map_map]
    congr 1
    funext e
    by_cases he : e.1 = k <;> simp [he]
  · simp

theorem mem_keys_insert (m : Map K V) (k k' : K) (v : V) :
    k' ∈ keys (insert m k v) ↔ k' = k ∨ k' ∈ keys m := by
  rw [keys_insert]
  split
  · rename_i hk
    constructor
    · exact Or.inr
    · rintro (rfl | h)
      · exact hk
      · exact h
  · simp [or_comm]

theorem nodupKeys_insert {m : Map K V} (h : NodupKeys m) (k : K) (v : V) :
    NodupKeys (insert m k v) := by
  unfold NodupKeys
  rw [keys_insert]
  split
  · exact h
  · rename_i hk
    rw [List.nodup_append]
    refine ⟨h, by simp, ?_⟩
    intro a ha b hb
    rw [List.mem_singleton] at hb
    subst hb
    rintro rfl
    exact hk ha

@[simp] theorem get_remove_self (m : Map K V) (k : K) : get (remove m k) k = none := by
  apply get_eq_none_of_not_mem
  simp [remove, keys]

theorem get_remove_ne (m : Map K V) {k k' : K} (h : k' ≠ k) : get (remove m k) k' = get m k' := by
  induction m with
  | nil => rfl
  | cons e m ih =>
    obtain ⟨k₀, v₀⟩ := e
    by_cases h₀ : k₀ = k
    · -- the head entry is the one removed
      subst h₀
      simp only [remove, List.filter_cons, ne_eq, not_true_eq_false, decide_false,
        Bool.false_eq_true, ite_false] at ih ⊢
      rw [ih, get_cons, if_neg (Ne.symm h)]
    · simp only [remove, List.filter_cons, ne_eq, h₀, not_false_eq_true, decide_true,
        ite_true, get_cons] at ih ⊢
      rw [ih]

/-! ## §2. Folds of inserts. -/

/-- The keys of a fold of inserts are those of the accumulator and of the list. -/
theorem mem_keys_foldl_insert (es : List (K × V)) (m : Map K V) (k : K) :
    k ∈ keys (es.foldl (fun m e => insert m e.1 e.2) m) ↔ k ∈ keys m ∨ k ∈ es.map Prod.fst := by
  induction es generalizing m with
  | nil => simp
  | cons e es ih =>
    rw [List.foldl_cons, ih, mem_keys_insert]
    simp only [List.map_cons, List.mem_cons]
    tauto

/-- Every value a fold of inserts reads comes from the accumulator or from the list. -/
theorem get_foldl_insert {es : List (K × V)} {m : Map K V} {k : K} {v : V}
    (h : get (es.foldl (fun m e => insert m e.1 e.2) m) k = some v) :
    get m k = some v ∨ (k, v) ∈ es := by
  induction es generalizing m with
  | nil => exact .inl h
  | cons e es ih =>
    rcases ih h with hm | hes
    · -- the value was in the accumulator after inserting `e`
      by_cases hk : k = e.1
      · subst hk
        rw [get_insert_self] at hm
        cases hm
        exact .inr (by simp)
      · rw [get_insert_ne _ _ hk] at hm
        exact .inl hm
    · exact .inr (List.mem_cons_of_mem e hes)

theorem nodupKeys_foldl_insert {m : Map K V} (h : NodupKeys m) (es : List (K × V)) :
    NodupKeys (es.foldl (fun m e => insert m e.1 e.2) m) := by
  induction es generalizing m with
  | nil => exact h
  | cons e es ih => exact ih (nodupKeys_insert h e.1 e.2)

theorem exists_get_of_mem {m : Map K V} {k : K} (h : k ∈ keys m) : ∃ v, get m k = some v := by
  induction m with
  | nil => simp at h
  | cons e m ih =>
    obtain ⟨k', v⟩ := e
    by_cases hk : k' = k
    · exact ⟨v, by rw [get_cons, if_pos hk]⟩
    · rw [get_cons, if_neg hk]
      exact ih (by simpa [Ne.symm hk] using h)

/-- The map of the graph of `f` over `ks` has the keys `ks`. -/
theorem mem_keys_ofList_graph (f : K → V) (ks : List K) (k : K) :
    k ∈ keys (ofList (ks.map fun k => (k, f k))) ↔ k ∈ ks := by
  unfold ofList
  rw [mem_keys_foldl_insert]
  simp

/-- **The map of a graph** reads `f` on the listed keys and nothing elsewhere. -/
theorem get_ofList_graph (f : K → V) (ks : List K) (k : K) :
    get (ofList (ks.map fun k => (k, f k))) k = if k ∈ ks then some (f k) else none := by
  split
  · rename_i hk
    obtain ⟨v, hv⟩ := exists_get_of_mem ((mem_keys_ofList_graph f ks k).mpr hk)
    -- the value read comes from one entry of the graph, which is `(k, f k)`
    rcases get_foldl_insert hv with hnil | hgraph
    · simp at hnil
    · obtain ⟨k', -, hkv⟩ := List.mem_map.mp hgraph
      simp only [Prod.mk.injEq] at hkv
      obtain ⟨rfl, rfl⟩ := hkv
      exact hv
  · rename_i hk
    exact get_eq_none_of_not_mem (fun hmem => hk ((mem_keys_ofList_graph f ks k).mp hmem))

theorem nodupKeys_ofList (es : List (K × V)) : NodupKeys (ofList es) :=
  nodupKeys_foldl_insert (m := []) List.nodup_nil es

/-! ## §3. Applying a map of updates. -/

/-- One update: `some v` sets, `none` removes. -/
theorem get_applyOne (m : Map K V) (k₀ : K) (o : Option V) (k : K) :
    get (match o with | some v => insert m k₀ v | none => remove m k₀) k =
      if k = k₀ then o else get m k := by
  by_cases hk : k = k₀
  · subst hk
    cases o <;> simp
  · cases o <;> simp [hk, get_insert_ne, get_remove_ne]

/-- **Applying distinct updates.**  With each key updated once, an updated key reads its
    update and every other key reads what it read before. -/
theorem get_applyAll {updates : List (K × Option V)} (h : NodupKeys updates)
    (m : Map K V) (k : K) :
    get (applyAll updates m) k =
      if k ∈ keys updates then (get updates k).join else get m k := by
  induction updates generalizing m with
  | nil => simp [applyAll]
  | cons e updates ih =>
    obtain ⟨k₀, o⟩ := e
    have hrest : NodupKeys updates := (List.nodup_cons.mp h).2
    have hfresh : k₀ ∉ keys updates := (List.nodup_cons.mp h).1
    simp only [applyAll, List.foldl_cons] at ih ⊢
    rw [ih hrest, get_applyOne]
    by_cases hk : k = k₀
    · -- the key updated here is updated nowhere later
      subst hk
      simp [hfresh, get_cons]
    · simp [hk, get_cons, Ne.symm hk]

end Ops

end EncointerWorker.Lib.AssocMap
