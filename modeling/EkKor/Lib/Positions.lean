import Mathlib.Data.List.Induction

/-!
# Positions in a list

* `mapIdx_eq_self`, `mapIdx_eq_set`   a map by position that changes nothing, or one entry;
* `findIdx?_entry`    the first entry with a property, with its position;
* `filter_flatMap_zipIdx`  the part of a list made position by position that one position made;
* `filter_map_kept`   a filter after a map that leaves alone what the filter lets through;
* `rank p l k`        the position that the entry `k` of `l` has in `l.filter p`;
* `getElem?_filter_rank`   the entry is there;
* `findIdx?_filter_rank`   an entry that is the first with a property stays the first.
-/

namespace Positions
open List

variable {α : Type*}

/-! ## maps by position -/

variable {l : List α} {f : Nat → α → α} {k : Nat} {q : α → Bool}

theorem mapIdx_eq_self (h : ∀ k a, l[k]? = some a → f k a = a) : l.mapIdx f = l := by
  apply ext_getElem?
  intro k
  rw [getElem?_mapIdx]
  cases hk : l[k]? with
  | none => rfl
  | some a => exact congrArg some (h k a hk)

theorem mapIdx_eq_set {a : α} (hk : l[k]? = some a) (h : ∀ j b, l[j]? = some b → j ≠ k → f j b = b) :
    l.mapIdx f = l.set k (f k a) := by
  apply ext_getElem?
  intro j
  rw [getElem?_mapIdx, getElem?_set]
  by_cases hj : k = j
  · subst hj
    rw [if_pos rfl, hk, if_pos (List.getElem?_eq_some_iff.mp hk).1]
    rfl
  · rw [if_neg hj]
    cases hb : l[j]? with
    | none => rfl
    | some b => exact congrArg some (h j b hb fun he => hj he.symm)

theorem set_same {a : α} (hk : l[k]? = some a) : l.set k a = l := by
  obtain ⟨hlt, rfl⟩ := List.getElem?_eq_some_iff.mp hk
  exact set_getElem_self hlt

theorem findIdx?_entry {a : α} :
    ((l.findIdx? q).bind fun i => (l[i]?).map fun b => (i, b)) = some (k, a) ↔
      l.findIdx? q = some k ∧ l[k]? = some a := by
  constructor
  · intro h
    obtain ⟨i, hi, hm⟩ := Option.bind_eq_some_iff.mp h
    obtain ⟨b, hb, he⟩ := Option.map_eq_some_iff.mp hm
    obtain ⟨rfl, rfl⟩ := Prod.mk.inj he
    exact ⟨hi, hb⟩
  · rintro ⟨hk, ha⟩
    rw [hk, Option.bind_some, ha]
    rfl

/-- of lists made position by position, a filter that picks the position `k` finds one -/
theorem filter_flatMap_zipIdx {β : Type*} {f : α → Nat → List β} {q : β → Bool}
    (h : ∀ a j, (f a j).filter q = if j = k then f a j else []) (l : List α) :
    (l.zipIdx.flatMap fun x => f x.1 x.2).filter q = (l[k]?).elim [] fun a => f a k := by
  induction l using List.reverseRecOn with
  | nil => rfl
  | append_singleton l a ih =>
    rw [zipIdx_append, flatMap_append, filter_append, ih]
    show _ ++ ((f a (0 + l.length)) ++ []).filter q = _
    rw [append_nil, Nat.zero_add, h]
    rcases Nat.lt_trichotomy k l.length with hk | hk | hk
    · rw [getElem?_append_left hk, if_neg (by omega), append_nil]
    · subst hk
      rw [if_pos rfl, getElem?_concat_length, getElem?_eq_none (Nat.le_refl _)]
      rfl
    · rw [if_neg (by omega), getElem?_eq_none (by omega),
        getElem?_eq_none (by simp; omega)]
      rfl

/-! ## filters -/

theorem filter_map_kept {p : α → Bool} {f : α → α} (hp : ∀ a ∈ l, p (f a) = q a)
    (hf : ∀ a ∈ l, q a = true → f a = a) : (l.map f).filter p = l.filter q := by
  have hpf : ∀ a ∈ l, (p ∘ f) a = q a := hp
  rw [filter_map, filter_congr hpf]
  have hid : ∀ a ∈ l.filter q, f a = id a := fun a ha =>
    hf a (mem_filter.mp ha).1 (mem_filter.mp ha).2
  rw [map_congr_left hid, map_id]

variable (p : α → Bool)

/-- how many entries before the position `k` pass the filter -/
def rank (l : List α) (k : Nat) : Nat := (l.take k).countP p

variable {p} {a : α}

theorem filter_split (l : List α) (k : Nat) :
    l.filter p = (l.take k).filter p ++ (l.drop k).filter p := by
  rw [← filter_append, take_append_drop]

theorem take_filter_rank (l : List α) (k : Nat) :
    (l.filter p).take (rank p l k) = (l.take k).filter p := by
  rw [filter_split l k, rank, countP_eq_length_filter]
  exact take_left

theorem getElem?_filter_rank (h : l[k]? = some a) (ha : p a = true) :
    (l.filter p)[rank p l k]? = some a := by
  have hdrop : l.drop k = a :: l.drop (k + 1) := by
    obtain ⟨hk, rfl⟩ := List.getElem?_eq_some_iff.mp h
    exact drop_eq_getElem_cons hk
  rw [filter_split l k, rank, countP_eq_length_filter, hdrop,
    getElem?_append_right (Nat.le_refl _), Nat.sub_self, filter_cons_of_pos ha]
  rfl

theorem findIdx?_filter_rank (h : l.findIdx? q = some k) (hk : l[k]? = some a) (ha : p a = true) :
    (l.filter p).findIdx? q = some (rank p l k) := by
  obtain ⟨hlt, hq, hfirst⟩ := findIdx?_eq_some_iff_getElem.mp h
  have hget := List.getElem?_eq_some_iff.mp (getElem?_filter_rank hk ha)
  obtain ⟨hr, hra⟩ := hget
  have hka : l[k] = a := (List.getElem?_eq_some_iff.mp hk).2
  refine findIdx?_eq_some_iff_getElem.mpr ⟨hr, ?_, fun j hj hqj => ?_⟩
  · rw [hra, ← hka]
    exact hq
  · -- an entry before the rank of `k` was before `k`
    have hmem : (l.filter p)[j] ∈ (l.take k).filter p := by
      rw [← take_filter_rank l k]
      exact mem_take_iff_getElem.mpr ⟨j, by omega, rfl⟩
    obtain ⟨i, hi, hie⟩ := mem_take_iff_getElem.mp (mem_filter.mp hmem).1
    refine hfirst i (by omega) ?_
    rw [hie]
    exact hqj

end Positions
