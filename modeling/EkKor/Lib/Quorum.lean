import Mathlib.Data.Finset.Card
import Mathlib.Data.Finset.Insert
import Mathlib.Tactic.Common

/-!
# Votes

* `Quorum`       majorities of the voters;
* `FirstVotes`   the first vote of each voter.
-/

/-!
# Majority elections

`Won S V c`: a majority of the voters `S` supports the candidate `c`, where `V v c` says that
the voter `v` supports `c`.  Two majorities share a voter, so if no voter supports two
candidates there is at most one winner.
-/

namespace Quorum

variable {ν : Type*} [DecidableEq ν]

/-- a majority of `S` supports `c` -/
def Won (S : Finset ν) (V : ν → ν → Prop) (c : ν) : Prop :=
  ∃ Q ⊆ S, S.card / 2 + 1 ≤ Q.card ∧ ∀ v ∈ Q, V v c

theorem majorities_meet {S Q Q' : Finset ν} (hQ : Q ⊆ S) (hQ' : Q' ⊆ S)
    (h : S.card / 2 + 1 ≤ Q.card) (h' : S.card / 2 + 1 ≤ Q'.card) : (Q ∩ Q').Nonempty := by
  apply Finset.inter_nonempty_of_card_lt_card_add_card hQ hQ'
  omega

omit [DecidableEq ν] in
theorem Won.mono {S : Finset ν} {V V' : ν → ν → Prop} {c : ν} (h : Won S V c)
    (hV : ∀ v, V v c → V' v c) : Won S V' c := by
  obtain ⟨Q, hQ, hcard, hsup⟩ := h
  exact ⟨Q, hQ, hcard, fun v hv => hV v (hsup v hv)⟩

/-- **At most one winner** when no voter supports two candidates. -/
theorem Won.unique {S : Finset ν} {V : ν → ν → Prop} {c c' : ν} (h : Won S V c)
    (h' : Won S V c') (hV : ∀ v, V v c → V v c' → c = c') : c = c' := by
  obtain ⟨Q, hQ, hcard, hsup⟩ := h
  obtain ⟨Q', hQ', hcard', hsup'⟩ := h'
  obtain ⟨v, hv⟩ := majorities_meet hQ hQ' hcard hcard'
  obtain ⟨h1, h2⟩ := Finset.mem_inter.mp hv
  exact hV v (hsup v h1) (hsup' v h2)

end Quorum

/-!
# First votes

A list of votes, each a voter with a value, in the order they were cast.  Only the first vote of
a voter counts.

* `voters vs`        who voted;
* `firstVoters vs x` whose first vote is `x`;
* `card_voters_new`, `card_firstVoters_new`    the vote of a new voter counts;
* `voters_again`, `firstVoters_again`          another vote of a voter changes nothing.
-/

namespace FirstVotes

variable {ν β : Type*} [DecidableEq ν] [DecidableEq β]

def voters (vs : List (ν × β)) : Finset ν := (vs.map Prod.fst).toFinset

def firstVoters (vs : List (ν × β)) (x : β) : Finset ν :=
  (voters vs).filter fun m => vs.lookup m = some x

variable {vs : List (ν × β)} {m v : ν} {x y : β}

omit [DecidableEq β] in
theorem mem_voters : m ∈ voters vs ↔ ∃ x, (m, x) ∈ vs := by
  simp [voters]

omit [DecidableEq β] in
theorem voters_concat : voters (vs ++ [(m, x)]) = insert m (voters vs) := by
  ext u
  simp [mem_voters, or_comm, exists_or]

omit [DecidableEq β] in
theorem lookup_eq_none (h : m ∉ voters vs) : vs.lookup m = none := by
  rw [List.lookup_eq_none_iff]
  rintro ⟨u, z⟩ hp
  have hne : m ≠ u := fun he => h (mem_voters.mpr ⟨z, he ▸ hp⟩)
  exact bne_iff_ne.mpr hne

omit [DecidableEq β] in
theorem voters_again (h : m ∈ voters vs) : voters (vs ++ [(m, x)]) = voters vs := by
  rw [voters_concat, Finset.insert_eq_of_mem h]

omit [DecidableEq β] in
theorem card_voters_new (h : m ∉ voters vs) :
    (voters (vs ++ [(m, x)])).card = (voters vs).card + 1 := by
  rw [voters_concat, Finset.card_insert_of_notMem h]

omit [DecidableEq β] in
theorem lookup_concat_of_mem (h : v ∈ voters vs) : (vs ++ [(m, x)]).lookup v = vs.lookup v := by
  rw [List.lookup_append]
  cases hv : vs.lookup v with
  | none =>
    obtain ⟨z, hz⟩ := mem_voters.mp h
    exact absurd (List.lookup_eq_none_iff.mp hv (v, z) hz) (by simp)
  | some z => rfl

omit [DecidableEq β] in
theorem lookup_concat_new (h : m ∉ voters vs) : (vs ++ [(m, x)]).lookup m = some x := by
  rw [List.lookup_append, lookup_eq_none h, Option.none_or, List.lookup_cons_self]

theorem firstVoters_again (h : m ∈ voters vs) :
    firstVoters (vs ++ [(m, x)]) y = firstVoters vs y := by
  unfold firstVoters
  rw [voters_again h]
  exact Finset.filter_congr fun v hv => by rw [lookup_concat_of_mem hv]

theorem card_firstVoters_new (h : m ∉ voters vs) :
    (firstVoters (vs ++ [(m, x)]) y).card
      = (firstVoters vs y).card + if x = y then 1 else 0 := by
  have hold : (voters vs).filter (fun v => (vs ++ [(m, x)]).lookup v = some y)
      = firstVoters vs y :=
    Finset.filter_congr fun v hv => by rw [lookup_concat_of_mem hv]
  unfold firstVoters
  rw [voters_concat, Finset.filter_insert, lookup_concat_new h, hold]
  by_cases hxy : x = y
  · rw [if_pos (congrArg some hxy), if_pos hxy, Finset.card_insert_of_notMem]
    · rfl
    · exact fun hm => h (Finset.mem_filter.mp hm).1
  · rw [if_neg fun he => hxy (Option.some.inj he), if_neg hxy]
    rfl

theorem firstVoters_subset : firstVoters vs x ⊆ voters vs := Finset.filter_subset _ _

end FirstVotes
