import Mathlib.Data.List.Nodup
import Mathlib.Tactic.Common

/-!
# Lists of records with a key

A table that is kept as an array with its count: a record is found by its key, from the front.

* `index`, `lookup`   the place of the first record with a key, and the record;
* `lookup_concat`, `lookup_set`, `lookup_eraseIdx`, `lookup_map`   what the table holds after a
                      record is appended, overwritten or taken out, or all are changed;
* `set_eq_map`, `eraseIdx_eq_filter`   where keys are unique, the same by `map` and `filter`;
* `lookup_rel`        in two tables with related records, what is found is related;
* `upsert`            the record with a key is changed, or a new one is appended;
* `pairs_perm`        of pairs with unique keys, what is found in any order;
* `filter_flatMap`    of lists made record by record, the part that the record with a key made.
-/

namespace Keyed
open List

variable {α κ : Type*} [DecidableEq κ] {key : α → κ} {l : List α} {a : α} {k k' : κ} {i : Nat}

def index (key : α → κ) (l : List α) (k : κ) : Option Nat := l.findIdx? fun a => decide (key a = k)

def lookup (key : α → κ) (l : List α) (k : κ) : Option α := l.find? fun a => decide (key a = k)

theorem lookup_cons (key : α → κ) (a : α) (l : List α) (k : κ) :
    lookup key (a :: l) k = if key a = k then some a else lookup key l k := by
  unfold lookup
  rw [find?_cons]
  by_cases h : key a = k
  · rw [if_pos h, decide_eq_true h]
  · rw [if_neg h, decide_eq_false h]

theorem lookup_eq_none : lookup key l k = none ↔ k ∉ l.map key := by
  unfold lookup
  rw [find?_eq_none, mem_map]
  constructor
  · rintro h ⟨a, ha, rfl⟩
    exact h a ha (decide_eq_true rfl)
  · intro h a ha hk
    exact h ⟨a, ha, of_decide_eq_true hk⟩

theorem mem_of_lookup (h : lookup key l k = some a) : a ∈ l ∧ key a = k := by
  have hk := find?_some h
  exact ⟨mem_of_find?_eq_some h, of_decide_eq_true hk⟩

theorem lookup_of_mem (hn : (l.map key).Nodup) (ha : a ∈ l) : lookup key l (key a) = some a := by
  induction l with
  | nil => cases ha
  | cons b l ih =>
    rw [map_cons, nodup_cons] at hn
    rw [lookup_cons]
    rcases mem_cons.mp ha with rfl | ha
    · rw [if_pos rfl]
    · have hmem : key a ∈ l.map key := mem_map_of_mem ha
      rw [if_neg fun he : key b = key a => hn.1 (he ▸ hmem)]
      exact ih hn.2 ha

theorem index_eq_none : index key l k = none ↔ lookup key l k = none := by
  unfold index lookup
  rw [findIdx?_eq_none_iff, find?_eq_none]
  exact forall₂_congr fun a _ => by simp

theorem index_eq_some (h : index key l k = some i) :
    ∃ a, l[i]? = some a ∧ lookup key l k = some a := by
  obtain ⟨hi, hk, hbefore⟩ := findIdx?_eq_some_iff_getElem.mp h
  refine ⟨l[i], getElem?_eq_getElem hi, ?_⟩
  unfold lookup
  rw [find?_eq_some_iff_getElem]
  refine ⟨hk, i, hi, rfl, fun j hj => ?_⟩
  rw [Bool.not_eq_true']
  exact Bool.eq_false_iff.mpr (hbefore j hj)

/-! ## changes -/

theorem lookup_concat (hnew : lookup key l (key a) = none) (k : κ) :
    lookup key (l ++ [a]) k = if key a = k then some a else lookup key l k := by
  induction l with
  | nil => exact lookup_cons key a [] k
  | cons b l ih =>
    rw [lookup_cons] at hnew
    have hb : key b ≠ key a := fun h => by
      rw [if_pos h] at hnew
      cases hnew
    rw [if_neg hb] at hnew
    rw [cons_append, lookup_cons, lookup_cons, ih hnew]
    by_cases hk : key b = k
    · rw [if_pos hk, if_pos hk, if_neg fun h => hb (hk.trans h.symm)]
    · rw [if_neg hk, if_neg hk]

theorem lookup_set (hi : index key l (key a) = some i) (k : κ) :
    lookup key (l.set i a) k = if key a = k then some a else lookup key l k := by
  induction l generalizing i with
  | nil => cases hi
  | cons b l ih =>
    unfold index at hi
    rw [findIdx?_cons] at hi
    by_cases hb : key b = key a
    · rw [decide_eq_true hb, if_pos rfl] at hi
      obtain rfl := Option.some.inj hi
      rw [set_cons_zero, lookup_cons, lookup_cons, hb]
      by_cases hk : key a = k
      · rw [if_pos hk, if_pos hk]
      · rw [if_neg hk, if_neg hk, if_neg hk]
    · rw [decide_eq_false hb, if_neg (by decide)] at hi
      obtain ⟨j, hj, rfl⟩ := Option.map_eq_some_iff.mp hi
      rw [set_cons_succ, lookup_cons, lookup_cons, ih hj]
      by_cases hk : key b = k
      · rw [if_pos hk, if_pos hk, if_neg fun h => hb (hk.trans h.symm)]
      · rw [if_neg hk, if_neg hk]

theorem lookup_eraseIdx (hn : (l.map key).Nodup) (hi : index key l k = some i) (k' : κ) :
    lookup key (l.eraseIdx i) k' = if k = k' then none else lookup key l k' := by
  induction l generalizing i with
  | nil => cases hi
  | cons b l ih =>
    rw [map_cons, nodup_cons] at hn
    unfold index at hi
    rw [findIdx?_cons] at hi
    by_cases hb : key b = k
    · rw [decide_eq_true hb, if_pos rfl] at hi
      obtain rfl := Option.some.inj hi
      rw [eraseIdx_cons_zero, lookup_cons, hb]
      by_cases hk : k = k'
      · rw [if_pos hk]
        exact lookup_eq_none.mpr (hk ▸ hb ▸ hn.1)
      · rw [if_neg hk, if_neg hk]
    · rw [decide_eq_false hb, if_neg (by decide)] at hi
      obtain ⟨j, hj, rfl⟩ := Option.map_eq_some_iff.mp hi
      rw [eraseIdx_cons_succ, lookup_cons, lookup_cons, ih hn.2 hj]
      by_cases hk : key b = k'
      · rw [if_pos hk, if_pos hk, if_neg fun h => hb (hk.trans h.symm)]
      · rw [if_neg hk, if_neg hk]

theorem lookup_map {f : α → α} (hf : ∀ a, key (f a) = key a) (k : κ) :
    lookup key (l.map f) k = (lookup key l k).map f := by
  induction l with
  | nil => rfl
  | cons b l ih =>
    rw [map_cons, lookup_cons, lookup_cons, hf, ih]
    by_cases hk : key b = k
    · rw [if_pos hk, if_pos hk, Option.map_some]
    · rw [if_neg hk, if_neg hk]

theorem set_eq_map (hn : (l.map key).Nodup) (hi : index key l (key a) = some i) :
    l.set i a = l.map fun b => if key b = key a then a else b := by
  induction l generalizing i with
  | nil => cases hi
  | cons b l ih =>
    rw [map_cons, nodup_cons] at hn
    unfold index at hi
    rw [findIdx?_cons] at hi
    by_cases hb : key b = key a
    · rw [decide_eq_true hb, if_pos rfl] at hi
      obtain rfl := Option.some.inj hi
      rw [set_cons_zero, map_cons, if_pos hb]
      refine congrArg (a :: ·) ((map_id l).symm.trans (map_congr_left fun c hc => ?_))
      exact (if_neg fun hk : key c = key a =>
        hn.1 (hb.trans hk.symm ▸ mem_map_of_mem hc)).symm
    · rw [decide_eq_false hb, if_neg (by decide)] at hi
      obtain ⟨j, hj, rfl⟩ := Option.map_eq_some_iff.mp hi
      rw [set_cons_succ, map_cons, if_neg hb, ih hn.2 hj]

theorem filter_of_lookup (h : lookup key l k = none) :
    (l.filter fun b => decide (key b ≠ k)) = l := by
  refine filter_eq_self.mpr fun b hb => decide_eq_true fun hk => ?_
  exact lookup_eq_none.mp h (hk ▸ mem_map_of_mem hb)

theorem eraseIdx_eq_filter (hn : (l.map key).Nodup) (hi : index key l k = some i) :
    l.eraseIdx i = l.filter fun b => decide (key b ≠ k) := by
  induction l generalizing i with
  | nil => cases hi
  | cons b l ih =>
    rw [map_cons, nodup_cons] at hn
    unfold index at hi
    rw [findIdx?_cons] at hi
    by_cases hb : key b = k
    · rw [decide_eq_true hb, if_pos rfl] at hi
      obtain rfl := Option.some.inj hi
      rw [eraseIdx_cons_zero, filter_cons_of_neg (by simpa using hb)]
      exact (filter_of_lookup (lookup_eq_none.mpr (hb ▸ hn.1))).symm
    · rw [decide_eq_false hb, if_neg (by decide)] at hi
      obtain ⟨j, hj, rfl⟩ := Option.map_eq_some_iff.mp hi
      rw [eraseIdx_cons_succ, filter_cons_of_pos (by simpa using hb), ih hn.2 hj]

theorem lookup_filter (l : List α) (k k' : κ) :
    lookup key (l.filter fun b => decide (key b ≠ k)) k' =
      if k' = k then none else lookup key l k' := by
  induction l with
  | nil => exact (ite_self _).symm
  | cons b l ih =>
    by_cases hb : key b = k
    · rw [filter_cons_of_neg (by simpa using hb), ih, lookup_cons]
      split_ifs with hk hb'
      · rfl
      · exact absurd (hb'.symm.trans hb) hk
      · rfl
    · rw [filter_cons_of_pos (by simpa using hb), lookup_cons, lookup_cons, ih]
      split_ifs with hb' hk
      · exact absurd (hb'.trans hk) hb
      · rfl
      · rfl
      · rfl

theorem lookup_rel {β : Type*} {key' : β → κ} {R : α → β → Prop} {l' : List β}
    (hkey : ∀ a b, R a b → key a = key' b) (h : List.Forall₂ R l l') (k : κ) :
    Option.Rel R (lookup key l k) (lookup key' l' k) := by
  induction h with
  | nil => exact .none
  | cons hab _ ih =>
    rw [lookup_cons, lookup_cons, ← hkey _ _ hab]
    split_ifs
    · exact .some hab
    · exact ih

theorem filter_flatMap {β : Type*} {f : α → List β} {p : β → Bool} (hn : (l.map key).Nodup)
    (h : ∀ a, (f a).filter p = if key a = k then f a else []) :
    (l.flatMap f).filter p = (lookup key l k).elim [] f := by
  induction l with
  | nil => rfl
  | cons b l ih =>
    rw [map_cons, nodup_cons] at hn
    rw [flatMap_cons, filter_append, h, ih hn.2, lookup_cons]
    by_cases hk : key b = k
    · rw [if_pos hk, if_pos hk, lookup_eq_none.mpr (hk ▸ hn.1)]
      exact append_nil _
    · rw [if_neg hk, if_neg hk, nil_append]

/-! ## update or insert -/

theorem map_set (hi : index key l (key a) = some i) : (l.set i a).map key = l.map key := by
  obtain ⟨b, hb, hlookup⟩ := index_eq_some hi
  rw [List.map_set]
  refine ext_getElem? fun j => ?_
  rw [getElem?_set]
  by_cases hj : i = j
  · subst hj
    have hlen := (List.getElem?_eq_some_iff.mp hb).1
    rw [if_pos rfl, length_map, if_pos hlen, getElem?_map, hb,
      ← (mem_of_lookup hlookup).2]
    rfl
  · rw [if_neg hj]

/-- the record with key `k` changed by `f`, or a changed new one at the end -/
def upsert (key : α → κ) (fresh : κ → α) (f : α → α) (l : List α) (k : κ) : List α :=
  match index key l k with
  | some i => l.modify i f
  | none => l ++ [f (fresh k)]

theorem modify_eq_set (f : α → α) {l : List α} {i : Nat} (h : l[i]? = some a) :
    l.modify i f = l.set i (f a) := by
  refine ext_getElem? fun j => ?_
  rw [getElem?_modify, getElem?_set]
  by_cases hj : i = j
  · subst hj
    rw [if_pos rfl, h, if_pos (List.getElem?_eq_some_iff.mp h).1]
    exact congrArg some (if_pos rfl)
  · rw [if_neg hj]
    cases l[j]? with
    | none => rfl
    | some b => exact congrArg some (if_neg hj)

section
variable {fresh : κ → α} {f : α → α}

theorem upsert_found (fresh : κ → α) (hf : ∀ a, key (f a) = key a) (h : lookup key l k = some a) :
    ∃ i, index key l (key (f a)) = some i ∧ upsert key fresh f l k = l.set i (f a) := by
  cases hi : index key l k with
  | none =>
    rw [index_eq_none.mp hi] at h
    cases h
  | some i =>
    obtain ⟨b, hb, hlookup⟩ := index_eq_some hi
    obtain rfl := Option.some.inj (hlookup.symm.trans h)
    rw [hf, (mem_of_lookup h).2]
    refine ⟨i, hi, ?_⟩
    unfold upsert
    rw [hi]
    exact modify_eq_set f hb

theorem upsert_new (h : lookup key l k = none) :
    upsert key fresh f l k = l ++ [f (fresh k)] := by
  unfold upsert
  rw [index_eq_none.mpr h]

theorem lookup_upsert (hf : ∀ a, key (f a) = key a) (hfresh : ∀ k, key (fresh k) = k)
    (l : List α) (k k' : κ) : lookup key (upsert key fresh f l k) k' =
      if k = k' then some (f ((lookup key l k).getD (fresh k))) else lookup key l k' := by
  cases h : lookup key l k with
  | none =>
    have hk : key (f (fresh k)) = k := (hf _).trans (hfresh k)
    rw [upsert_new h, lookup_concat (hk.symm ▸ h), hk]
    rfl
  | some a =>
    obtain ⟨i, hi, heq⟩ := upsert_found fresh hf h
    rw [heq, lookup_set hi, hf, (mem_of_lookup h).2]
    rfl

theorem map_upsert (hf : ∀ a, key (f a) = key a) (hfresh : ∀ k, key (fresh k) = k)
    (l : List α) (k : κ) : (upsert key fresh f l k).map key =
      if k ∈ l.map key then l.map key else l.map key ++ [k] := by
  cases h : lookup key l k with
  | none =>
    rw [upsert_new h, if_neg (lookup_eq_none.mp h), map_append, map_singleton, hf,
      hfresh]
  | some a =>
    obtain ⟨i, hi, heq⟩ := upsert_found fresh hf h
    rw [heq, if_pos (by_contra fun hm => by rw [lookup_eq_none.mpr hm] at h; cases h)]
    exact map_set hi

end

/-! ## the keys stay unique -/

theorem nodup_concat (hn : (l.map key).Nodup) (hnew : lookup key l (key a) = none) :
    ((l ++ [a]).map key).Nodup := by
  rw [map_append, map_singleton, nodup_append_comm]
  exact nodup_cons.mpr ⟨lookup_eq_none.mp hnew, hn⟩

omit [DecidableEq κ] in
theorem nodup_eraseIdx (hn : (l.map key).Nodup) (i : Nat) : ((l.eraseIdx i).map key).Nodup :=
  hn.sublist ((eraseIdx_sublist l i).map key)

/-! ## pairs -/

section
variable {α β : Type*} [BEq α] [LawfulBEq α] {l l' : List (α × β)} {a : α} {b : β}

theorem mem_of_pairs (h : l.lookup a = some b) : (a, b) ∈ l := by
  obtain ⟨before, after, rfl, -⟩ := lookup_eq_some_iff.mp h
  exact mem_append_right _ mem_cons_self

theorem pairs_of_mem (hn : (l.map Prod.fst).Nodup) (h : (a, b) ∈ l) : l.lookup a = some b := by
  obtain ⟨before, after, rfl⟩ := append_of_mem h
  refine lookup_eq_some_iff.mpr ⟨before, after, rfl, fun p hp => ?_⟩
  rw [map_append, map_cons, nodup_middle, nodup_cons] at hn
  refine bne_iff_ne.mpr fun he => hn.1 (mem_append_left _ ?_)
  have hmem := mem_map_of_mem (f := Prod.fst) hp
  rwa [← he] at hmem

theorem pairs_filter (l : List (α × β)) (p : α → Bool) (a : α) :
    (l.filter fun c => p c.1).lookup a = if p a = true then l.lookup a else none := by
  induction l with
  | nil => rw [filter_nil, lookup_nil, ite_self]
  | cons c l ih =>
    obtain ⟨a', b⟩ := c
    rw [filter_cons, List.lookup_cons]
    by_cases ha : a = a'
    · subst ha
      rw [beq_self_eq_true]
      split_ifs with hp
      · rw [lookup_cons_self]
      · rw [ih, if_neg hp]
    · have hne : (a == a') = false := beq_eq_false_iff_ne.mpr ha
      rw [hne]
      rw [← ih]
      split_ifs
      · rw [List.lookup_cons, hne]
      · rfl

theorem pairs_perm (hn : (l.map Prod.fst).Nodup) (hp : l.Perm l') (a : α) :
    l.lookup a = l'.lookup a := by
  have hn' : (l'.map Prod.fst).Nodup := (hp.map Prod.fst).nodup_iff.mp hn
  refine Option.ext fun b => ⟨fun h => ?_, fun h => ?_⟩
  · exact pairs_of_mem hn' (hp.mem_iff.mp (mem_of_pairs h))
  · exact pairs_of_mem hn (hp.mem_iff.mpr (mem_of_pairs h))

end

end Keyed
