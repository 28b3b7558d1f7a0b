import Mathlib.Data.List.DropRight
import Mathlib.Data.List.Nodup
import Mathlib.Data.List.Pairwise
import Mathlib.Data.List.Perm.Subperm
import Mathlib.Data.Prod.Lex
import Mathlib.Logic.Function.Basic
import Mathlib.Order.Lattice
import Mathlib.Tactic.Common

/-!
# Sorted lists and their first elements

* `Least`      the elements with the least keys;
* `Foremost`   the first elements of two sorted lists.
-/

/-!
# The least elements of a list, by a key

* `insertRight`, `sort`   insertion sort, that looks for the place of an element from the right;
* `sorted_sort`           it sorts a list whose keys are different;
* `Least key k all l`     `l` are the `k` elements of `all` with the least keys, in order;
* `least_sort`            the first `k` of the sorted list are;
* `Least.unique`          and no other list is;
* `Least.update_iff`, `Least.concat_iff`   when a full list stays the least as one element gets
                          another key, or one is added.
-/

namespace Nearest
open List Function

variable {α β : Type*} [LinearOrder β] {key : α → β} {l l' all all' : List α} {a b : α} {k : Nat}

/-! ## insertion sort -/

def insertRight (less : α → α → Bool) (l : List α) (a : α) : List α :=
  l.rdropWhile (less a) ++ a :: l.rtakeWhile (less a)

def sort (less : α → α → Bool) (l : List α) : List α := l.foldl (insertRight less) []

theorem rdrop_append_rtake (p : α → Bool) (l : List α) :
    l.rdropWhile p ++ l.rtakeWhile p = l := by
  unfold List.rdropWhile List.rtakeWhile
  rw [← reverse_append, takeWhile_append_dropWhile, reverse_reverse]

theorem insertRight_perm (less : α → α → Bool) (l : List α) (a : α) :
    (insertRight less l a).Perm (l ++ [a]) := by
  refine perm_middle.trans ?_
  rw [rdrop_append_rtake]
  exact perm_append_singleton a l |>.symm

theorem sort_concat (less : α → α → Bool) (l : List α) (a : α) :
    sort less (l ++ [a]) = insertRight less (sort less l) a := foldl_concat ..

theorem sort_perm (less : α → α → Bool) (l : List α) : (sort less l).Perm l := by
  induction l using List.reverseRecOn with
  | nil => exact List.Perm.refl _
  | append_singleton l a ih =>
    rw [sort_concat]
    exact (insertRight_perm less _ a).trans (ih.append_right [a])

def byKey (key : α → β) (a b : α) : Bool := decide (key a < key b)

theorem sorted_insertRight (hl : l.Pairwise fun a b => key a < key b)
    (hnew : ∀ b ∈ l, key b ≠ key a) :
    (insertRight (byKey key) l a).Pairwise fun a b => key a < key b := by
  induction l using List.reverseRecOn with
  | nil => exact pairwise_singleton _ _
  | append_singleton l b ih =>
    obtain ⟨hl', -, hlast⟩ := pairwise_append.mp hl
    have hle (c : α) (hc : c ∈ l) : key c < key b := hlast c hc b mem_cons_self
    unfold insertRight
    by_cases hb : key a < key b
    · have hp : byKey key a b = true := decide_eq_true hb
      rw [rdropWhile_concat_pos _ _ _ hp, rtakeWhile_concat_pos _ _ _ hp, ← cons_append,
        ← append_assoc, pairwise_append]
      refine ⟨ih hl' fun c hc => hnew c (mem_append_left _ hc), pairwise_singleton _ _,
        fun c hc d hd => ?_⟩
      rw [mem_singleton.mp hd]
      rcases mem_append.mp ((insertRight_perm _ l a).mem_iff.mp hc) with hc | hc
      · exact hle c hc
      · rw [mem_singleton.mp hc]
        exact hb
    · have hp : ¬byKey key a b = true := fun h => hb (of_decide_eq_true h)
      have hlt : key b < key a := lt_of_le_of_ne (not_lt.mp hb)
        (hnew b (mem_append_right _ mem_cons_self))
      rw [rdropWhile_concat_neg _ _ _ hp, rtakeWhile_concat_neg _ _ _ hp]
      refine pairwise_append.mpr ⟨hl, pairwise_singleton _ _, fun c hc d hd => ?_⟩
      rw [mem_singleton.mp hd]
      rcases mem_append.mp hc with hc | hc
      · exact (hle c hc).trans hlt
      · rw [mem_singleton.mp hc]
        exact hlt

theorem sorted_sort (hl : (l.map key).Nodup) :
    (sort (byKey key) l).Pairwise fun a b => key a < key b := by
  induction l using List.reverseRecOn with
  | nil => exact List.Pairwise.nil
  | append_singleton l a ih =>
    rw [map_append, nodup_append] at hl
    rw [sort_concat]
    refine sorted_insertRight (ih hl.1) fun b hb => ?_
    exact hl.2.2 _ (mem_map_of_mem ((sort_perm _ l).mem_iff.mp hb)) _ mem_cons_self

theorem sort_map {γ : Type*} (f : α → γ) (less : γ → γ → Bool) (l : List α) :
    sort less (l.map f) = (sort (fun a b => less (f a) (f b)) l).map f := by
  induction l using List.reverseRecOn with
  | nil => rfl
  | append_singleton l a ih =>
    have hrdrop (p : γ → Bool) (l : List α) :
        (l.map f).rdropWhile p = (l.rdropWhile (p ∘ f)).map f := by
      unfold List.rdropWhile
      rw [← map_reverse, dropWhile_map, map_reverse]
    have hrtake (p : γ → Bool) (l : List α) :
        (l.map f).rtakeWhile p = (l.rtakeWhile (p ∘ f)).map f := by
      unfold List.rtakeWhile
      rw [← map_reverse, takeWhile_map, map_reverse]
    rw [map_append, map_singleton, sort_concat, sort_concat, ih]
    unfold insertRight
    rw [hrdrop, hrtake, map_append, map_cons]
    rfl

/-! ## the least -/

/-- the `k` elements with the least keys, in order -/
structure Least (key : α → β) (k : Nat) (all l : List α) : Prop where
  sorted : l.Pairwise fun a b => key a < key b
  subset : l ⊆ all
  length : l.length = min k all.length
  least : ∀ a ∈ l, ∀ b ∈ all, b ∉ l → key a < key b

theorem Least.nodup (h : Least key k all l) : l.Nodup := by
  refine h.sorted.imp fun {a b} hlt heq => ?_
  rw [heq] at hlt
  exact lt_irrefl _ hlt

theorem Least.congr {key' : α → β} (h : Least key k all l) (hkey : ∀ a ∈ all, key' a = key a) :
    Least key' k all l where
  sorted := by
    refine h.sorted.imp_of_mem fun {a b} ha hb hlt => ?_
    rw [hkey a (h.subset ha), hkey b (h.subset hb)]
    exact hlt
  subset := h.subset
  length := h.length
  least a ha b hb hnot := by
    rw [hkey a (h.subset ha), hkey b hb]
    exact h.least a ha b hb hnot

/-- the first `k` of a list in order -/
theorem least_take (hall : all.Pairwise fun a b => key a < key b) : Least key k all (all.take k) where
  sorted := hall.sublist (take_sublist k all)
  subset := (take_sublist k all).subset
  length := length_take
  least a ha b hb hnot := by
    rw [← take_append_drop k all] at hb hall
    exact (pairwise_append.mp hall).2.2 a ha b ((mem_append.mp hb).resolve_left hnot)

theorem Least.perm (h : Least key k all l) (hall : all.Perm all') : Least key k all' l where
  sorted := h.sorted
  subset := List.Subset.trans h.subset hall.subset
  length := hall.length_eq ▸ h.length
  least a ha b hb := h.least a ha b (hall.mem_iff.mpr hb)

theorem least_sort (hall : (all.map key).Nodup) (k : Nat) :
    Least key k all ((sort (byKey key) all).take k) :=
  (least_take (sorted_sort hall)).perm (sort_perm _ all)

theorem Least.unique (h : Least key k all l) (h' : Least key k all l') : l = l' := by
  have hlen : l'.length = l.length := h'.length.trans h.length.symm
  have hsub : l ⊆ l' := by
    intro a ha
    by_contra hnot
    -- then the elements of `l'` all come before `a`, and they are as many as the ones of `l`
    have hbefore (b : α) (hb : b ∈ l') : b ∈ l := by
      by_contra hb'
      exact lt_asymm (h'.least b hb a (h.subset ha) hnot) (h.least a ha b (h'.subset hb) hb')
    have hsubperm : (a :: l').Subperm l :=
      (nodup_cons.mpr ⟨hnot, h'.nodup⟩).subperm fun b hb => by
        rcases mem_cons.mp hb with rfl | hb
        · exact ha
        · exact hbefore b hb
    have hle := hsubperm.length_le
    rw [length_cons] at hle
    omega
  have hperm : l.Perm l' := (h.nodup.subperm hsub).perm_of_length_le (Nat.le_of_eq hlen)
  refine hperm.eq_of_pairwise (fun a b _ _ hab hba => ?_) h.sorted h'.sorted
  exact absurd hba (lt_asymm hab)

/-! ## changes -/

variable [DecidableEq α] {x : α} {c : β}

theorem Least.update_iff (h : Least key k all l) (hx : x ∈ all)
    (hc : ∀ a ∈ all, a ≠ x → key a ≠ c) :
    Least (update key x c) k all l ↔
      (x ∉ l → ∀ a ∈ l, key a < c) ∧
        (x ∈ l → (∀ a ∈ l, a ≠ x → (key a < c ↔ key a < key x)) ∧
          ∀ b ∈ all, b ∉ l → c < key b) := by
  have hother {a : α} (ha : a ≠ x) : update key x c a = key a :=
    update_of_ne ha ..
  have hself : update key x c x = c := update_self ..
  constructor
  · intro h'
    refine ⟨fun hnot a ha => ?_, fun hin => ⟨fun a ha hne => ?_, fun b hb hnot => ?_⟩⟩
    · have hlt := h'.least a ha x hx hnot
      rwa [hself, hother fun he => hnot (he ▸ ha)] at hlt
    · -- both orders are the one of the list
      have hboth := (h.sorted.and h'.sorted).imp (S := fun a b =>
        (key a < key b ∧ update key x c a < update key x c b) ∨
          (key b < key a ∧ update key x c b < update key x c a)) fun hab => .inl hab
      have hsymm : Std.Symm fun a b : α =>
          (key a < key b ∧ update key x c a < update key x c b) ∨
          (key b < key a ∧ update key x c b < update key x c a) :=
        ⟨fun a b => Or.symm⟩
      have hax := hboth.forall ha hin hne
      rw [hself, hother hne] at hax
      rcases hax with ⟨hlt, hlt'⟩ | ⟨hlt, hlt'⟩
      · exact ⟨fun _ => hlt, fun _ => hlt'⟩
      · exact ⟨fun h => absurd h (lt_asymm hlt'), fun h => absurd h (lt_asymm hlt)⟩
    · have hlt := h'.least x hin b hb hnot
      rwa [hself, hother fun he : b = x => hnot (he ▸ hin)] at hlt
  · rintro ⟨hout, hin⟩
    by_cases hmem : x ∈ l
    · obtain ⟨hsame, hrest⟩ := hin hmem
      refine ⟨h.sorted.imp_of_mem fun {a b} ha hb hlt => ?_, h.subset, h.length,
        fun a ha b hb hnot => ?_⟩
      · by_cases hax : a = x
        · subst hax
          have hbx : b ≠ a := fun he => lt_irrefl _ (he ▸ hlt)
          rw [hself, hother hbx]
          refine lt_of_le_of_ne (not_lt.mp fun hbc => ?_) (hc b (h.subset hb) hbx).symm
          exact lt_asymm hlt ((hsame b hb hbx).mp hbc)
        · by_cases hbx : b = x
          · subst hbx
            rw [hself, hother hax]
            exact (hsame a ha hax).mpr hlt
          · rw [hother hax, hother hbx]
            exact hlt
      · rw [hother fun he : b = x => hnot (he ▸ hmem)]
        by_cases hax : a = x
        · rw [hax, hself]
          exact hrest b hb hnot
        · rw [hother hax]
          exact h.least a ha b hb hnot
    · have hne {a : α} (ha : a ∈ l) : a ≠ x := fun he => hmem (he ▸ ha)
      refine ⟨h.sorted.imp_of_mem fun {a b} ha hb hlt => ?_, h.subset, h.length,
        fun a ha b hb hnot => ?_⟩
      · rw [hother (hne ha), hother (hne hb)]
        exact hlt
      · rw [hother (hne ha)]
        by_cases hbx : b = x
        · rw [hbx, hself]
          exact hout hmem a ha
        · rw [hother hbx]
          exact h.least a ha b hb hnot

theorem Least.concat_iff (h : Least key k all l) (hk : k ≤ l.length) (hx : x ∉ all) :
    Least (update key x c) k (all ++ [x]) l ↔ ∀ a ∈ l, key a < c := by
  have hne {a : α} (ha : a ∈ all) : a ≠ x := fun he => hx (he ▸ ha)
  have hother {a : α} (ha : a ∈ all) : update key x c a = key a :=
    update_of_ne (hne ha) ..
  have hself : update key x c x = c := update_self ..
  have hmem : x ∈ all ++ [x] := mem_append_right _ mem_cons_self
  constructor
  · intro h' a ha
    have hlt := h'.least a ha x hmem fun hin => hx (h.subset hin)
    rwa [hself, hother (h.subset ha)] at hlt
  · intro hlt
    refine ⟨h.sorted.imp_of_mem fun {a b} ha hb hlt => ?_,
      fun a ha => mem_append_left _ (h.subset ha), ?_, fun a ha b hb hnot => ?_⟩
    · rw [hother (h.subset ha), hother (h.subset hb)]
      exact hlt
    · have hlen := h.length
      rw [length_append, length_singleton]
      omega
    · rw [hother (h.subset ha)]
      rcases mem_append.mp hb with hb | hb
      · rw [hother hb]
        exact h.least a ha b hb hnot
      · rw [mem_singleton.mp hb, hself]
        exact hlt a ha

end Nearest

/-!
# The first elements of two sorted lists

* `sort_stable`       the sort keeps the order of equal keys: it sorts by the key and the place;
* `mem_take_iff`      the first `k` are those with less than `k` before them;
* `Foremost`          what comes first in one list comes first in another, by another key;
* `take_sort_eq_iff`  the first `k` of two sorted lists are the same exactly then.
-/

namespace Nearest
open List Function

variable {α β γ : Type*} [LinearOrder β] [LinearOrder γ] {key : α → β} {key' : α → γ}
  {l all all' : List α} {a b : α} {k : Nat}

/-! ## stable sorting -/

theorem insertRight_congr {less less' : α → α → Bool} (h : ∀ b ∈ l, less a b = less' a b) :
    insertRight less l a = insertRight less' l a := by
  have htake : l.reverse.takeWhile (less a) = l.reverse.takeWhile (less' a) ∧
      l.reverse.dropWhile (less a) = l.reverse.dropWhile (less' a) := by
    have hrev : ∀ b ∈ l.reverse, less a b = less' a b := fun b hb => h b (mem_reverse.mp hb)
    generalize l.reverse = l' at hrev
    induction l' with
    | nil => exact ⟨rfl, rfl⟩
    | cons b l' ih =>
      obtain ⟨htake, hdrop⟩ := ih fun c hc => hrev c (mem_cons_of_mem b hc)
      rw [takeWhile_cons, takeWhile_cons, dropWhile_cons, dropWhile_cons,
        ← hrev b mem_cons_self, htake, hdrop]
      exact ⟨rfl, rfl⟩
  unfold insertRight List.rdropWhile List.rtakeWhile
  rw [htake.1, htake.2]

theorem sort_congr {less less' : α → α → Bool} (h : l.Pairwise fun a b => less b a = less' b a) :
    sort less l = sort less' l := by
  induction l using List.reverseRecOn with
  | nil => rfl
  | append_singleton l a ih =>
    obtain ⟨hl, -, hlast⟩ := pairwise_append.mp h
    rw [sort_concat, sort_concat, ← ih hl]
    exact insertRight_congr fun b hb =>
      hlast b ((sort_perm less l).mem_iff.mp hb) a mem_cons_self

section
variable [BEq α]

def placed (key : α → β) (l : List α) (a : α) : β ×ₗ ℕ := toLex (key a, l.idxOf a)

theorem placed_lt {key : α → β} : placed key l a < placed key l b ↔
    key a < key b ∨ key a = key b ∧ l.idxOf a < l.idxOf b := Prod.Lex.toLex_lt_toLex

omit [LinearOrder β] in
theorem nodup_placed [LawfulBEq α] (key : α → β) (hl : l.Nodup) :
    (l.map (placed key l)).Nodup := by
  refine (nodup_map_iff_inj_on hl).mpr fun a ha b hb h => ?_
  exact idxOf_inj ha |>.mp (congrArg Prod.snd (toLex.injective h))

/-- **Stable.** The sort by a key sorts by the key and the place. -/
theorem sort_stable [LawfulBEq α] (key : α → β) (hl : l.Nodup) :
    sort (byKey key) l = sort (byKey (placed key l)) l := by
  have hplace : l.Pairwise fun a b => l.idxOf a < l.idxOf b := by
    rw [pairwise_iff_getElem]
    intro i j hi hj hij
    rw [hl.idxOf_getElem, hl.idxOf_getElem]
    exact hij
  refine sort_congr (hplace.imp fun {a b} hab => ?_)
  refine decide_eq_decide.mpr ?_
  rw [placed_lt, or_iff_left fun h => lt_asymm hab h.2]

end

/-! ## what comes first -/

/-- in a sorted list, the first `k` have less than `k` before them -/
theorem mem_take_iff (hl : l.Pairwise fun a b => key a < key b) :
    a ∈ l.take k ↔ a ∈ l ∧ (l.countP fun b => byKey key b a) < k := by
  by_cases ha : a ∈ l
  · rw [and_iff_right ha]
    obtain ⟨l₁, l₂, rfl⟩ := append_of_mem ha
    obtain ⟨-, htail, hcross⟩ := pairwise_append.mp hl
    have hbefore : ∀ b ∈ l₁, key b < key a := fun b hb => hcross b hb a mem_cons_self
    have hafter : ∀ b ∈ l₂, key a < key b := (pairwise_cons.mp htail).1
    have hcount : ((l₁ ++ a :: l₂).countP fun b => byKey key b a) = l₁.length := by
      have h₁ : (l₁.countP fun b => byKey key b a) = l₁.length :=
        countP_eq_length.mpr fun b hb => decide_eq_true (hbefore b hb)
      have h₂ : (l₂.countP fun b => byKey key b a) = 0 :=
        countP_eq_zero.mpr fun b hb h => lt_asymm (of_decide_eq_true h) (hafter b hb)
      have hself : ¬byKey key a a = true := fun h => lt_irrefl _ (of_decide_eq_true h)
      rw [countP_append, countP_cons_of_neg (p := fun b => byKey key b a) hself, h₁, h₂,
        Nat.add_zero]
    rw [hcount, take_append, mem_append]
    constructor
    · rintro (hin | hin)
      · exact absurd (hbefore a (mem_of_mem_take hin)) (lt_irrefl _)
      · by_contra hle
        rw [Nat.sub_eq_zero_of_le (Nat.le_of_not_lt hle), take_zero] at hin
        exact not_mem_nil hin
    · intro hlt
      obtain ⟨m, hm⟩ := Nat.exists_eq_succ_of_ne_zero (Nat.sub_ne_zero_of_lt hlt)
      rw [hm, take_succ_cons]
      exact .inr mem_cons_self
  · exact iff_of_false (fun hin => ha (mem_of_mem_take hin)) fun h => ha h.1

/-- what comes first in `all` by one key comes first in `all'` by another -/
structure Foremost (key : α → β) (key' : α → γ) (k : Nat) (all all' : List α) : Prop where
  before : ∀ a ∈ all, (all.countP fun b => byKey key b a) < k → ∀ b ∈ all', b ≠ a →
    ¬(b ∈ all ∧ key b < key a) → key' a < key' b
  /-- where there are fewer than `k`, there are no others -/
  none : all.length < k → all' ⊆ all

/-- **Main.** The first `k` of two sorted lists, of which one has the elements of the other. -/
theorem take_sort_eq_iff (hall : (all.map key).Nodup) (hall' : (all'.map key').Nodup)
    (hsub : all ⊆ all') :
    (sort (byKey key) all).take k = (sort (byKey key') all').take k ↔
      Foremost key key' k all all' := by
  have hsorted := sorted_sort hall
  have hperm := sort_perm (byKey key) all
  have hleast := least_sort hall k
  have hleast' := least_sort hall' k
  have hmem (a : α) : a ∈ (sort (byKey key) all).take k ↔
      a ∈ all ∧ (all.countP fun b => byKey key b a) < k := by
    rw [mem_take_iff hsorted, hperm.mem_iff, hperm.countP_eq]
  have hnodup : all.Nodup := hall.of_map key
  have hle : all.length ≤ all'.length := (hnodup.subperm hsub).length_le
  have hunique : (sort (byKey key) all).take k = (sort (byKey key') all').take k ↔
      Least key' k all' ((sort (byKey key) all).take k) :=
    ⟨fun h => h ▸ hleast', fun h => h.unique hleast'⟩
  rw [hunique]
  generalize (sort (byKey key) all).take k = l at *
  constructor
  · intro h
    refine ⟨fun a ha hcount b hb hne hnot => ?_, fun hfew => ?_⟩
    · have hal := (hmem a).mpr ⟨ha, hcount⟩
      by_cases hbl : b ∈ l
      · -- both orders are the one of the list
        have hboth := (hleast.sorted.and h.sorted).imp (S := fun a b =>
          (key a < key b ∧ key' a < key' b) ∨ (key b < key a ∧ key' b < key' a)) fun hab => .inl hab
        have hsymm : Std.Symm fun a b : α =>
            (key a < key b ∧ key' a < key' b) ∨ (key b < key a ∧ key' b < key' a) :=
          ⟨fun a b => Or.symm⟩
        rcases hboth.forall hal hbl hne.symm with hlt | hlt
        · exact hlt.2
        · exact absurd ⟨hleast.subset hbl, hlt.1⟩ hnot
      · exact h.least a hal b hb hbl
    · have hlength := h.length.symm.trans hleast.length
      have heq : all'.length ≤ all.length := by omega
      exact ((hnodup.subperm hsub).perm_of_length_le heq).symm.subset
  · intro h
    have hfirst {a : α} (ha : a ∈ l) : ∀ b ∈ all', b ≠ a → ¬(b ∈ all ∧ key b < key a) →
        key' a < key' b := h.before a ((hmem a).mp ha).1 ((hmem a).mp ha).2
    refine ⟨hleast.sorted.imp_of_mem fun {a b} ha hb hlt => ?_, fun a ha => hsub (hleast.subset ha),
      ?_, fun a ha b hb hnot => ?_⟩
    · refine hfirst ha b (hsub (hleast.subset hb)) (fun he => ?_) fun hlt' => lt_asymm hlt hlt'.2
      rw [he] at hlt
      exact lt_irrefl _ hlt
    · rw [hleast.length]
      by_cases hfew : all.length < k
      · have hle' := ((hall'.of_map key').subperm (h.none hfew)).length_le
        omega
      · omega
    · refine hfirst ha b hb (fun he => hnot (he ▸ ha)) fun hlt => ?_
      exact lt_asymm hlt.2 (hleast.least a ha b hlt.1 hnot)

end Nearest
