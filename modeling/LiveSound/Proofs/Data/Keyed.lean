import Mathlib.Data.List.Nodup

/-!
# Lists with keys

Lists in which each item has a key of its own, and what comes of replacing or adding one item.
-/

namespace LiveSound.Keyed

variable {α κ : Type} {key : α → κ} {xs : List α} {k : Nat} {x x' u : α}

theorem eq_of_key (h : (xs.map key).Nodup) (hx : x ∈ xs) (hu : u ∈ xs) (same : key x = key u) :
    x = u :=
  List.inj_on_of_nodup_map h hx hu same

/-- What stands at a place after one of the items is replaced. -/
theorem getElem?_set_eq_some (hk : xs[k]? = some x) {j : Nat} :
    (xs.set k x')[j]? = some u ↔ (j = k ∧ u = x') ∨ (j ≠ k ∧ xs[j]? = some u) := by
  by_cases same : j = k
  · subst same
    rw [List.getElem?_set_self (List.getElem?_eq_some_iff.mp hk).1]
    simp [eq_comm]
  · rw [List.getElem?_set_ne (Ne.symm same)]
    simp [same]

/-- What stands at a place after an item is added. -/
theorem getElem?_concat_eq_some {j : Nat} :
    (xs ++ [x])[j]? = some u ↔ xs[j]? = some u ∨ (j = xs.length ∧ u = x) := by
  rcases Nat.lt_trichotomy j xs.length with old | rfl | beyond
  · rw [List.getElem?_append_left old]
    simp [Nat.ne_of_lt old]
  · rw [List.getElem?_concat_length]
    simp [eq_comm]
  · have long : (xs ++ [x]).length ≤ j := by simpa using Nat.succ_le_of_lt beyond
    rw [List.getElem?_eq_none (Nat.le_of_lt beyond), List.getElem?_eq_none long]
    simp [Nat.ne_of_gt beyond]

/-- The items after one of them is replaced: the new one, and all with other keys. -/
theorem mem_set (h : (xs.map key).Nodup) (hk : xs[k]? = some x) (hu : u ∈ xs.set k x') :
    u = x' ∨ (u ∈ xs ∧ key u ≠ key x) := by
  obtain ⟨l, hl⟩ := List.mem_iff_getElem?.mp hu
  rcases (getElem?_set_eq_some hk).mp hl with ⟨-, rfl⟩ | ⟨ne, hl⟩
  · exact .inl rfl
  · refine .inr ⟨List.mem_of_getElem? hl, fun same => ne ?_⟩
    obtain ⟨ltk, hk⟩ := List.getElem?_eq_some_iff.mp hk
    obtain ⟨ltl, hl⟩ := List.getElem?_eq_some_iff.mp hl
    have hi : l < (xs.map key).length := by simpa using ltl
    have hj : k < (xs.map key).length := by simpa using ltk
    have keys : (xs.map key)[l] = (xs.map key)[k] := by
      rw [List.getElem_map, List.getElem_map, hk, hl, same]
    exact h.getElem_inj_iff.mp keys

/-- The items that stay when one is replaced. -/
theorem mem_set_of_ne (hk : xs[k]? = some x) (hu : u ∈ xs) (other : key u ≠ key x) :
    u ∈ xs.set k x' := by
  obtain ⟨l, hl⟩ := List.mem_iff_getElem?.mp hu
  have ne : l ≠ k := by
    rintro rfl
    rw [Option.some.inj (hl.symm.trans hk)] at other
    exact other rfl
  exact List.mem_of_getElem? ((getElem?_set_eq_some hk).mpr (.inr ⟨ne, hl⟩))

/-- A map that sees no difference between the old item and the new one. -/
theorem map_set (hk : xs[k]? = some x) (same : key x' = key x) :
    (xs.set k x').map key = xs.map key := by
  obtain ⟨lt, hx⟩ := List.getElem?_eq_some_iff.mp hk
  have lt' : k < (xs.map key).length := by simpa using lt
  have old : key x = (xs.map key)[k] := by rw [List.getElem_map, hx]
  rw [List.map_set, same, old, List.set_getElem_self]

/-! ## Tables -/

section Tables

variable {κ ν : Type} [BEq κ] [LawfulBEq κ] {entries : List (κ × ν)} {k : κ}

theorem lookup_eq_none_iff : entries.lookup k = none ↔ k ∉ entries.map (·.1) := by
  rw [List.lookup_eq_none_iff, List.mem_map]
  constructor
  · rintro h ⟨e, he, rfl⟩
    have := h e he
    simp at this
  · intro h e he
    have hne : k ≠ e.1 := fun same => h ⟨e, he, same.symm⟩
    simpa using hne

theorem lookup_filter_self : (entries.filter (·.1 != k)).lookup k = none := by
  rw [lookup_eq_none_iff, List.mem_map]
  rintro ⟨e, he, rfl⟩
  have := (List.mem_filter.mp he).2
  simp at this

/-- What stands under other keys when one is taken out. -/
theorem lookup_filter_ne {k' : κ} (ne : k' ≠ k) :
    (entries.filter (·.1 != k)).lookup k' = entries.lookup k' := by
  induction entries with
  | nil => rfl
  | cons e rest ih =>
    by_cases h : e.1 = k
    · have other : (k' == e.1) = false := by simpa [h] using ne
      rw [List.filter_cons_of_neg (by simp [h]), List.lookup_cons, ih, other]
    · rw [List.filter_cons_of_pos (by simpa using h), List.lookup_cons, List.lookup_cons, ih]

/-- What stands under a key when only some keys are kept, and it is one of them. -/
theorem lookup_filter_key {kept : κ → Bool} (h : kept k = true) :
    (entries.filter fun e => kept e.1).lookup k = entries.lookup k := by
  induction entries with
  | nil => rfl
  | cons e rest ih =>
    by_cases here : kept e.1 = true
    · rw [List.filter_cons_of_pos (by exact here), List.lookup_cons, List.lookup_cons, ih]
    · have other : (k == e.1) = false := by
        rw [beq_eq_false_iff_ne]
        rintro rfl
        exact here h
      rw [List.filter_cons_of_neg (by exact here), List.lookup_cons, other, ih]

omit [LawfulBEq κ] in
theorem lookup_map_values {ν' : Type} (f : ν → ν') :
    (entries.map fun e => (e.1, f e.2)).lookup k = (entries.lookup k).map f := by
  induction entries with
  | nil => rfl
  | cons e rest ih =>
    rw [List.map_cons, List.lookup_cons, List.lookup_cons, ih]
    split <;> rfl

end Tables

section Replace

variable {κ ν : Type} [DecidableEq κ] {entries : List (κ × ν)} {k : κ} {v : ν}

/-- A table with another value under a key that is in it. -/
def replace (k : κ) (v : ν) (entries : List (κ × ν)) : List (κ × ν) :=
  entries.map fun e => if e.1 = k then (k, v) else e

theorem lookup_replace {old : ν} (h : entries.lookup k = some old) :
    (replace k v entries).lookup k = some v := by
  induction entries with
  | nil => cases h
  | cons e rest ih =>
    unfold replace at ih ⊢
    by_cases same : e.1 = k
    · rw [List.map_cons, if_pos same, List.lookup_cons_self]
    · have other : (k == e.1) = false := by simpa using Ne.symm same
      rw [List.lookup_cons, other] at h
      rw [List.map_cons, if_neg same, List.lookup_cons, other]
      exact ih h

theorem mem_replace {e : κ × ν} (h : e ∈ replace k v entries) : e = (k, v) ∨ e ∈ entries := by
  obtain ⟨old, mem, rfl⟩ := List.mem_map.mp h
  split
  · exact .inl rfl
  · exact .inr mem

theorem map_replace {ν' : Type} (f : ν → ν') :
    (replace k v entries).map (fun e => (e.1, f e.2)) =
      replace k (f v) (entries.map fun e => (e.1, f e.2)) := by
  unfold replace
  rw [List.map_map, List.map_map]
  refine List.map_congr_left fun e _ => ?_
  by_cases same : e.1 = k
  · simp only [Function.comp_apply, if_pos same]
  · simp only [Function.comp_apply, if_neg same]

theorem filter_replace (kept : κ → Bool) :
    (replace k v entries).filter (fun e => kept e.1) =
      replace k v (entries.filter fun e => kept e.1) := by
  unfold replace
  rw [List.filter_map]
  congr 2
  funext e
  by_cases same : e.1 = k
  · simp only [Function.comp_apply, same, ↓reduceIte]
  · simp only [Function.comp_apply, if_neg same]

/-- A table is not changed under keys that are not in it. -/
theorem replace_of_notMem (h : k ∉ entries.map (·.1)) : replace k v entries = entries := by
  unfold replace
  conv_rhs => rw [← List.map_id entries]
  refine List.map_congr_left fun e he => if_neg ?_
  rintro rfl
  exact h (List.mem_map_of_mem he)

end Replace

end LiveSound.Keyed
