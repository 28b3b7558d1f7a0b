import EkKor.Lib.Scan
import EkKor.Gateway.Model

/-!
# Range queries of the index (`ekk_stream_index.c`)

* `searchSeq`, `findSeq`   `binary_search_seq` and `ekk_stream_index_find_seq`;
* `Finds`                  a query finds the entries in a range;
* `findSeq_eq`, `findTime_eq`   both queries are the search of `RangeSearch`;
* `ranges_exact_iff`       queries by sequence are exact; those by time are so exactly when the
                           entries are in the order of their times.
-/

namespace EkKor
namespace Gateway
open RangeSearch

/-! ## the queries -/

/-- the loop of `binary_search_seq` -/
def searchSeq (entries : List IndexEntry) (target : UInt32) (lo hi : Nat) : Nat :=
  if lo < hi then
    let mid := lo + (hi - lo) / 2
    match entries[mid]? with
    | some entry =>
      if entry.globalSeq < target then searchSeq entries target (mid + 1) hi
      else searchSeq entries target lo mid
    | none => lo
  else lo
termination_by hi - lo
decreasing_by all_goals omega

/-- `ekk_stream_index_find_seq`: the first place and the count -/
def findSeq (index : StreamIndex) (fromSeq toSeq : UInt32) : Except Err (Nat × Nat) :=
  if index.entries = [] then .error .notFound
  else
    let start := searchSeq index.entries fromSeq 0 index.entries.length
    if start ≥ index.entries.length then .error .notFound
    else
      let count :=
        ((index.entries.drop start).takeWhile fun entry => entry.globalSeq ≤ toSeq).length
      if count > 0 then .ok (start, count) else .error .notFound

/-- the index after entries were added; what `ekk_stream_index_add` returns is not looked at -/
def indexWith (capacity : Capacity) (es : List IndexEntry) : StreamIndex :=
  es.foldl (fun index entry => (streamIndexAdd index entry).2) (streamIndexInit capacity)

/-- a query finds the entries whose key is from `a` up to `b`, as one run of places, and nothing
when there are none -/
def Finds (entries : List IndexEntry) (key : IndexEntry → UInt32) (a b : UInt32) :
    Except Err (Nat × Nat) → Prop
  | .error e => e = .notFound ∧ ∀ entry ∈ entries, ¬ (a ≤ key entry ∧ key entry ≤ b)
  | .ok (first, count) => 0 < count ∧ first + count ≤ entries.length ∧
      ∀ i entry, entries[i]? = some entry →
        (a ≤ key entry ∧ key entry ≤ b ↔ first ≤ i ∧ i < first + count)

/-! ## the queries are searches -/

def below (key : IndexEntry → UInt32) (a : UInt32) (entry : IndexEntry) : Bool :=
  decide (key entry < a)

def within (key : IndexEntry → UInt32) (b : UInt32) (entry : IndexEntry) : Bool :=
  decide (key entry ≤ b)

variable (key : IndexEntry → UInt32) {a b : UInt32} {entries : List IndexEntry}

theorem inRange_iff (entry : IndexEntry) :
    (below key a entry = false ∧ within key b entry = true) ↔ a ≤ key entry ∧ key entry ≤ b := by
  unfold below within
  rw [decide_eq_false_iff_not, decide_eq_true_iff, UInt32.not_lt]

def asQuery : Option (Nat × Nat) → Except Err (Nat × Nat)
  | none => .error .notFound
  | some run => .ok run

theorem finds_iff (run : Option (Nat × Nat)) :
    Finds entries key a b (asQuery run) ↔ Exact (below key a) (within key b) entries run := by
  cases run with
  | none =>
    unfold asQuery Finds Exact
    simp only [inRange_iff, true_and]
  | some run =>
    unfold asQuery Finds Exact
    simp only [inRange_iff]

theorem searchSeq_eq (entries : List IndexEntry) (target : UInt32) (lo hi : Nat) :
    searchSeq entries target lo hi = lowerBound (below IndexEntry.globalSeq target) entries lo hi :=
  eq_lowerBound (fun lo hi => by
    rw [searchSeq]
    dsimp only
    cases entries[lo + (hi - lo) / 2]? with
    | none => rfl
    | some entry => simp only [below, decide_eq_true_iff]) lo hi

theorem searchTime_eq (entries : List IndexEntry) (target : UInt32) (lo hi : Nat) :
    searchTime entries target lo hi =
      lowerBound (below IndexEntry.timestampUs target) entries lo hi :=
  eq_lowerBound (fun lo hi => by
    rw [searchTime]
    dsimp only
    cases entries[lo + (hi - lo) / 2]? with
    | none => rfl
    | some entry => simp only [below, decide_eq_true_iff]) lo hi

theorem query_eq (entries : List IndexEntry) (start : Nat) (p : IndexEntry → Bool) :
    (if entries = [] then .error .notFound
      else if start ≥ entries.length then .error .notFound
      else if ((entries.drop start).takeWhile p).length > 0 then
        .ok (start, ((entries.drop start).takeWhile p).length)
      else .error .notFound) =
      asQuery (if ((entries.drop start).takeWhile p).length > 0 then
        some (start, ((entries.drop start).takeWhile p).length) else none) := by
  by_cases hend : start ≥ entries.length
  · rw [if_pos hend, ite_self, List.drop_eq_nil_of_le hend]
    rfl
  · have hne : entries ≠ [] := by
      rintro rfl
      exact hend (Nat.zero_le start)
    rw [if_neg hne, if_neg hend]
    split_ifs <;> rfl

theorem findSeq_eq (index : StreamIndex) (a b : UInt32) :
    findSeq index a b = asQuery
      (find (below IndexEntry.globalSeq a) (within IndexEntry.globalSeq b) index.entries) := by
  unfold findSeq find
  rw [searchSeq_eq]
  exact query_eq ..

theorem findTime_eq (index : StreamIndex) (a b : UInt32) :
    findTime index a b = asQuery
      (find (below IndexEntry.timestampUs a) (within IndexEntry.timestampUs b) index.entries) := by
  unfold findTime find
  rw [searchTime_eq]
  exact query_eq ..

/-! ## exactness -/

theorem initial_of_sorted (h : entries.Pairwise fun x y => key x ≤ key y) (a b : UInt32) :
    Initial (below key a) entries ∧ Initial (within key b) entries := by
  refine ⟨h.imp fun hle hy => ?_, h.imp fun hle hy => ?_⟩
  · exact decide_eq_true (UInt32.lt_of_le_of_lt hle (of_decide_eq_true hy))
  · exact decide_eq_true (UInt32.le_trans hle (of_decide_eq_true hy))

theorem finds_of_sorted (h : entries.Pairwise fun x y => key x ≤ key y) (a b : UInt32) :
    Finds entries key a b (asQuery (find (below key a) (within key b) entries)) := by
  obtain ⟨hbelow, hwithin⟩ := initial_of_sorted key h a b
  exact (finds_iff key _).mpr (find_exact hbelow hwithin)

theorem below_zero (entry : IndexEntry) : below key 0 entry = false :=
  decide_eq_false (UInt32.not_lt.mpr (UInt32.zero_le ..))

theorem sorted_of_finds
    (h : ∀ b, Finds entries key 0 b (asQuery (find (below key 0) (within key b) entries))) :
    entries.Pairwise fun x y => key x ≤ key y := by
  refine List.pairwise_iff_getElem.mpr fun i j hi hj hij => ?_
  have hinitial := within_of_exact (below_zero key) ((finds_iff key _).mp (h (key entries[j])))
  exact of_decide_eq_true (List.pairwise_iff_getElem.mp hinitial i j hi hj hij
    (decide_eq_true (UInt32.le_refl _)))

/-! ## the entries of the index -/

theorem entries_indexWith (capacity : Capacity) (es : List IndexEntry) :
    (indexWith capacity es).capacity = capacity ∧
      (indexWith capacity es).entries = es.take capacity.val.toNat := by
  induction es using List.reverseRecOn with
  | nil =>
    rw [List.take_nil]
    exact ⟨rfl, rfl⟩
  | append_singleton es entry ih =>
    obtain ⟨hcapacity, hentries⟩ := ih
    unfold indexWith at hcapacity hentries ⊢
    rw [List.foldl_concat]
    generalize es.foldl _ (streamIndexInit capacity) = index at hcapacity hentries ⊢
    unfold streamIndexAdd
    rw [hcapacity, hentries, List.length_take]
    by_cases hfull : capacity.val.toNat ≤ es.length
    · rw [if_pos (Nat.le_min.mpr ⟨Nat.le_refl _, hfull⟩), List.take_append_of_le_length hfull]
      exact ⟨hcapacity, hentries⟩
    · have hroom := Nat.lt_of_not_le hfull
      rw [if_neg fun h => hfull (Nat.le_min.mp h).2, List.take_of_length_le (Nat.le_of_lt hroom),
        List.take_of_length_le (by rw [List.length_append]; exact hroom)]
      exact ⟨rfl, rfl⟩

/-- **Range queries.** In every index of entries with increasing sequences, the queries by sequence
find the entries in their range, and all the queries by time do exactly when the entries are in the
order of their times. -/
theorem ranges_exact_iff {es : List IndexEntry} (capacity : Capacity)
    (hes : es.Pairwise fun x y => x.globalSeq < y.globalSeq) :
    (indexWith capacity es).entries = es.take capacity.val.toNat ∧
      (∀ a b, Finds (indexWith capacity es).entries IndexEntry.globalSeq a b
        (findSeq (indexWith capacity es) a b)) ∧
      ((∀ a b, Finds (indexWith capacity es).entries IndexEntry.timestampUs a b
        (findTime (indexWith capacity es) a b)) ↔
        (indexWith capacity es).entries.Pairwise fun x y => x.timestampUs ≤ y.timestampUs) := by
  have hentries := (entries_indexWith capacity es).2
  refine ⟨hentries, fun a b => ?_, fun h => ?_, fun h a b => ?_⟩
  · rw [findSeq_eq]
    refine finds_of_sorted _ ?_ a b
    rw [hentries]
    exact (hes.sublist (List.take_sublist ..)).imp UInt32.le_of_lt
  · refine sorted_of_finds _ fun b => ?_
    rw [← findTime_eq]
    exact h 0 b
  · rw [findTime_eq]
    exact finds_of_sorted _ h a b

def twoModules : List IndexEntry := [⟨0, 64, 10, 0, 1, 0⟩, ⟨1, 128, 5, 0, 2, 0⟩]

theorem ranges_exact_two : Finds (indexWith ⟨8, by decide⟩ twoModules).entries
    IndexEntry.globalSeq 1 2 (findSeq (indexWith ⟨8, by decide⟩ twoModules) 1 2) :=
  (ranges_exact_iff ⟨8, by decide⟩ (by decide)).2.1 1 2

/-- no event up to time 5 is found, although there is one -/
theorem time_not_found :
    findTime (indexWith ⟨8, by decide⟩ twoModules) 0 5 = .error .notFound ∧
      ¬ Finds (indexWith ⟨8, by decide⟩ twoModules).entries IndexEntry.timestampUs 0 5
        (findTime (indexWith ⟨8, by decide⟩ twoModules) 0 5) := by
  have hnone : findTime (indexWith ⟨8, by decide⟩ twoModules) 0 5 = .error .notFound := by
    rw [findTime_eq]
    unfold find
    rw [lowerBound_none (below_zero _)]
    rfl
  refine ⟨hnone, fun h => ?_⟩
  rw [hnone] at h
  exact h.2 ⟨1, 128, 5, 0, 2, 0⟩ (by decide) ⟨by decide, by decide⟩

end Gateway
end EkKor
