import EkKor.Gossip.Vector
import Mathlib.Data.Finset.Card
import Mathlib.Order.Lattice

/-!
# The order of version vectors

A version vector says how many events of each module were seen.

* `seen`            the vector as a function on all module ids, 0 where it has no entry;
* `vvCompare_*_iff` `ekk_vv_compare` is the pointwise order of these functions;
* `seen_vvMerge`    `ekk_vv_merge` is their pointwise maximum, while the ids fit;
* `compare_order`, `merge_sup`   the two together with what follows from them.
-/

namespace EkKor
namespace Gossip
open List hiding Vector

/-! ## vectors as functions -/

def Distinct (vv : VersionVector) : Prop := (vv.map VvEntry.moduleId).Nodup

def ids (vv : VersionVector) : Finset ModuleId := (vv.map VvEntry.moduleId).toFinset

def seen (vv : VersionVector) : ModuleId → Nat := fun m => (vvGet vv m).toNat

instance (vv : VersionVector) : Decidable (Distinct vv) :=
  inferInstanceAs (Decidable (List.Nodup _))

variable {m : ModuleId}

theorem mem_ids {vv : VersionVector} : m ∈ ids vv ↔ ∃ entry ∈ vv, entry.moduleId = m := by
  rw [ids, mem_toFinset, mem_map]

theorem vvGet_noId {vv : VersionVector} (h : m ∉ ids vv) : vvGet vv m = 0 :=
  vvGet_noEntry fun entry hmem hid => h (mem_ids.mpr ⟨entry, hmem, hid⟩)

theorem vvGet_entry {vv : VersionVector} (h : Distinct vv) {entry : VvEntry} (hmem : entry ∈ vv) :
    vvGet vv entry.moduleId = entry.sequence := by
  induction vv with
  | nil => cases hmem
  | cons first rest ih =>
    obtain ⟨hnew, hrest⟩ := nodup_cons.mp h
    rw [vvGet]
    rcases mem_cons.mp hmem with rfl | hmem
    · exact if_pos rfl
    · have hne : first.moduleId ≠ entry.moduleId :=
        fun heq => hnew (heq ▸ mem_map_of_mem hmem)
      rw [if_neg hne]
      exact ih hrest hmem

theorem seen_eq_iff {a b : VersionVector} : seen a = seen b ↔ ∀ m, vvGet a m = vvGet b m :=
  ⟨fun h m => UInt32.toNat_inj.mp (congrFun h m), fun h => funext fun m => by rw [seen, seen, h m]⟩

/-! ## comparing -/

section
variable (s t : VvEntry → UInt32) (entries : List VvEntry) (flags : Dominance)

/-- one loop of `ekk_vv_compare` -/
theorem observe_all :
    ((entries.foldl (fun flags entry => Dominance.observe flags (s entry) (t entry)) flags).aDominates = true ↔
      flags.aDominates = true ∧ ∀ entry ∈ entries, t entry ≤ s entry) ∧
    ((entries.foldl (fun flags entry => Dominance.observe flags (s entry) (t entry)) flags).bDominates = true ↔
      flags.bDominates = true ∧ ∀ entry ∈ entries, s entry ≤ t entry) := by
  induction entries generalizing flags with
  | nil => exact ⟨by simp, by simp⟩
  | cons entry rest ih =>
    have hone : ((flags.observe (s entry) (t entry)).aDominates = true ↔
          flags.aDominates = true ∧ t entry ≤ s entry) ∧
        ((flags.observe (s entry) (t entry)).bDominates = true ↔
          flags.bDominates = true ∧ s entry ≤ t entry) := by
      refine ⟨?_, ?_⟩
      · show (if s entry < t entry then false else flags.aDominates) = true ↔ _
        split_ifs with h
        · exact iff_of_false id fun hle => UInt32.not_lt.mpr hle.2 h
        · exact ⟨fun hf => ⟨hf, UInt32.not_lt.mp h⟩, fun hf => hf.1⟩
      · show (if t entry < s entry then false else flags.bDominates) = true ↔ _
        split_ifs with h
        · exact iff_of_false id fun hle => UInt32.not_lt.mpr hle.2 h
        · exact ⟨fun hf => ⟨hf, UInt32.not_lt.mp h⟩, fun hf => hf.1⟩
    obtain ⟨ha, hb⟩ := ih (flags.observe (s entry) (t entry))
    rw [foldl_cons, ha, hb, hone.1, hone.2, forall_mem_cons, forall_mem_cons]
    exact ⟨and_assoc, and_assoc⟩

end

theorem dominates_iff {a b : VersionVector} (ha : Distinct a) (hb : Distinct b) :
    ((∀ entry ∈ a, vvGet b entry.moduleId ≤ entry.sequence) ∧
      ∀ entry ∈ b, entry.sequence ≤ vvGet a entry.moduleId) ↔ seen b ≤ seen a := by
  constructor
  · rintro ⟨hleft, hright⟩ m
    by_cases hm : m ∈ ids b
    · obtain ⟨entry, hmem, rfl⟩ := mem_ids.mp hm
      have hle := hright entry hmem
      rw [← vvGet_entry hb hmem] at hle
      exact UInt32.le_iff_toNat_le.mp hle
    · rw [seen, vvGet_noId hm]
      exact Nat.zero_le _
  · intro h
    refine ⟨fun entry hmem => ?_, fun entry hmem => ?_⟩
    · rw [← vvGet_entry ha hmem]
      exact UInt32.le_iff_toNat_le.mpr (h entry.moduleId)
    · rw [← vvGet_entry hb hmem]
      exact UInt32.le_iff_toNat_le.mpr (h entry.moduleId)

/-- the flags of `ekk_vv_compare` at its end -/
theorem vvCompare_flags {a b : VersionVector} (ha : Distinct a) (hb : Distinct b) :
    ∃ flags : Dominance, vvCompare a b = flags.order ∧
      (flags.aDominates = true ↔ seen b ≤ seen a) ∧
      (flags.bDominates = true ↔ seen a ≤ seen b) := by
  obtain ⟨h1a, h1b⟩ := observe_all VvEntry.sequence (fun e => vvGet b e.moduleId) a ⟨true, true⟩
  refine ⟨_, rfl, ?_, ?_⟩
  · rw [(observe_all (fun e => vvGet a e.moduleId) VvEntry.sequence b _).1, h1a,
      ← dominates_iff ha hb]
    simp only [true_and]
  · rw [(observe_all (fun e => vvGet a e.moduleId) VvEntry.sequence b _).2, h1b,
      ← dominates_iff hb ha]
    simp only [true_and]
    exact And.comm

theorem Dominance.order_iff (flags : Dominance) :
    (flags.order = .equal ↔ flags.aDominates = true ∧ flags.bDominates = true) ∧
    (flags.order = .after ↔ flags.aDominates = true ∧ ¬ flags.bDominates = true) ∧
    (flags.order = .before ↔ flags.bDominates = true ∧ ¬ flags.aDominates = true) ∧
    (flags.order = .concurrent ↔ ¬ flags.aDominates = true ∧ ¬ flags.bDominates = true) := by
  obtain ⟨fa, fb⟩ := flags
  cases fa <;> cases fb <;> decide

section
variable {a b : VersionVector}

theorem vvCompare_equal_iff (ha : Distinct a) (hb : Distinct b) :
    vvCompare a b = .equal ↔ seen a = seen b := by
  obtain ⟨flags, heq, hfa, hfb⟩ := vvCompare_flags ha hb
  rw [heq, flags.order_iff.1, hfa, hfb]
  exact ⟨fun h => le_antisymm h.2 h.1, fun h => ⟨h.ge, h.le⟩⟩

theorem vvCompare_after_iff (ha : Distinct a) (hb : Distinct b) :
    vvCompare a b = .after ↔ seen b < seen a := by
  obtain ⟨flags, heq, hfa, hfb⟩ := vvCompare_flags ha hb
  rw [heq, flags.order_iff.2.1, hfa, hfb]
  exact lt_iff_le_not_ge.symm

theorem vvCompare_before_iff (ha : Distinct a) (hb : Distinct b) :
    vvCompare a b = .before ↔ seen a < seen b := by
  obtain ⟨flags, heq, hfa, hfb⟩ := vvCompare_flags ha hb
  rw [heq, flags.order_iff.2.2.1, hfa, hfb]
  exact lt_iff_le_not_ge.symm

theorem vvCompare_concurrent_iff (ha : Distinct a) (hb : Distinct b) :
    vvCompare a b = .concurrent ↔ ¬ seen b ≤ seen a ∧ ¬ seen a ≤ seen b := by
  obtain ⟨flags, heq, hfa, hfb⟩ := vvCompare_flags ha hb
  rw [heq, flags.order_iff.2.2.2, hfa, hfb]

theorem seen_lt_iff : seen a < seen b ↔
    (∀ m, vvGet a m ≤ vvGet b m) ∧ ∃ m, vvGet a m ≠ vvGet b m := by
  rw [lt_iff_le_and_ne, Ne, seen_eq_iff, not_forall]
  exact and_congr_left' (forall_congr' fun m => UInt32.le_iff_toNat_le.symm)

end

def VvOrder.mirror : VvOrder → VvOrder
  | .equal => .equal
  | .before => .after
  | .after => .before
  | .concurrent => .concurrent

theorem vvCompare_mirror {a b : VersionVector} (ha : Distinct a) (hb : Distinct b) :
    vvCompare b a = (vvCompare a b).mirror := by
  cases h : vvCompare a b with
  | equal => exact (vvCompare_equal_iff hb ha).mpr ((vvCompare_equal_iff ha hb).mp h).symm
  | before => exact (vvCompare_after_iff hb ha).mpr ((vvCompare_before_iff ha hb).mp h)
  | after => exact (vvCompare_before_iff hb ha).mpr ((vvCompare_after_iff ha hb).mp h)
  | concurrent =>
    exact (vvCompare_concurrent_iff hb ha).mpr ((vvCompare_concurrent_iff ha hb).mp h).symm

/-- **Comparison.**  `ekk_vv_compare` is the pointwise order of two version vectors with distinct
ids; the other way round it is the mirror image, and AFTER is transitive. -/
theorem compare_order (a b : VersionVector) (ha : Distinct a) (hb : Distinct b) :
    (vvCompare a b = .equal ↔ ∀ m, vvGet a m = vvGet b m) ∧
    (vvCompare a b = .after ↔ (∀ m, vvGet b m ≤ vvGet a m) ∧ ∃ m, vvGet b m ≠ vvGet a m) ∧
    (vvCompare a b = .before ↔ (∀ m, vvGet a m ≤ vvGet b m) ∧ ∃ m, vvGet a m ≠ vvGet b m) ∧
    (vvCompare a b = .concurrent ↔
      (¬ ∀ m, vvGet b m ≤ vvGet a m) ∧ ¬ ∀ m, vvGet a m ≤ vvGet b m) ∧
    vvCompare b a = (vvCompare a b).mirror ∧
    ∀ c, Distinct c → vvCompare a b = .after → vvCompare b c = .after →
      vvCompare a c = .after := by
  have hle : ∀ {a b : VersionVector}, seen a ≤ seen b ↔ ∀ m, vvGet a m ≤ vvGet b m :=
    forall_congr' fun m => UInt32.le_iff_toNat_le.symm
  refine ⟨?_, ?_, ?_, ?_, vvCompare_mirror ha hb, fun c hc hab hbc => ?_⟩
  · rw [vvCompare_equal_iff ha hb, seen_eq_iff]
  · rw [vvCompare_after_iff ha hb, seen_lt_iff]
  · rw [vvCompare_before_iff ha hb, seen_lt_iff]
  · rw [vvCompare_concurrent_iff ha hb, hle, hle]
  · rw [vvCompare_after_iff ha hb] at hab
    rw [vvCompare_after_iff hb hc] at hbc
    exact (vvCompare_after_iff ha hc).mpr (lt_trans hbc hab)

/-- two vectors in different order; the second does not know module 3 -/
theorem compare_order_two :
    vvCompare [⟨1, 5⟩, ⟨2, 1⟩, ⟨3, 0⟩] [⟨2, 1⟩, ⟨1, 4⟩] = .after :=
  (compare_order [⟨1, 5⟩, ⟨2, 1⟩, ⟨3, 0⟩] [⟨2, 1⟩, ⟨1, 4⟩] (by decide) (by decide)).2.1.mpr
    ⟨fun m => by
      show (if 2 = m then (1 : UInt32) else if 1 = m then 4 else 0)
        ≤ if 1 = m then 5 else if 2 = m then 1 else if 3 = m then 0 else 0
      split_ifs <;> simp_all, 1, by decide⟩

/-! ## merging -/

/-- the ids of the vector are distinct and in `S` -/
structure Within (S : Finset ModuleId) (vv : VersionVector) : Prop where
  distinct : Distinct vv
  ids_subset : ids vv ⊆ S

namespace Within
variable {S : Finset ModuleId} {vv : VersionVector}

theorem length_le (h : Within S vv) : vv.length ≤ S.card := by
  have hcard := toFinset_card_of_nodup h.distinct
  rw [length_map] at hcard
  rw [← hcard]
  exact Finset.card_le_card h.ids_subset

theorem hasRoom (h : Within S vv) (hS : S.card ≤ kNeighbors + 1) (hm : m ∈ S) : HasRoom vv m := by
  by_cases hid : m ∈ ids vv
  · exact .inl (mem_ids.mp hid)
  · have herase : Within (S.erase m) vv :=
      ⟨h.distinct, fun m' hm' => Finset.mem_erase.mpr
        ⟨fun heq => hid (heq ▸ hm'), h.ids_subset hm'⟩⟩
    have hlt := Finset.card_erase_lt_of_mem hm
    exact .inr (lt_of_le_of_lt herase.length_le (lt_of_lt_of_le hlt hS))

theorem vvPut (h : Within S vv) (hm : m ∈ S) (s : UInt32) : Within S (vvPut vv m s) := by
  rcases vvPut_cases vv m s with ⟨vv', hw, heq⟩ | ⟨hno, -, heq⟩ | ⟨-, heq⟩ <;> rw [heq]
  · obtain ⟨-, hids⟩ := vvWrite_some hw
    refine ⟨?_, ?_⟩
    · rw [Distinct, hids]
      exact h.distinct
    · rw [ids, hids]
      exact h.ids_subset
  · refine ⟨?_, ?_⟩
    · rw [Distinct, map_append]
      refine nodup_append.mpr ⟨h.distinct, nodup_singleton m, ?_⟩
      rintro _ hmem _ hm' rfl
      obtain ⟨entry, hentry, hid⟩ := mem_map.mp hmem
      exact hno entry hentry (hid.trans (mem_singleton.mp hm'))
    · intro m' hm'
      rw [ids, map_append, mem_toFinset, mem_append] at hm'
      rcases hm' with hold | hnew
      · exact h.ids_subset (mem_toFinset.mpr hold)
      · rw [mem_singleton.mp hnew]
        exact hm
  · exact h

end Within

/-- one round of the loop of `ekk_vv_merge` -/
theorem merge_step {S : Finset ModuleId} {vv : VersionVector} (h : Within S vv)
    (hS : S.card ≤ kNeighbors + 1) {entry : VvEntry} (hm : entry.moduleId ∈ S) (m : ModuleId) :
    seen (if entry.sequence > vvGet vv entry.moduleId
        then vvPut vv entry.moduleId entry.sequence else vv) m
      = if m = entry.moduleId then max (seen vv m) entry.sequence.toNat else seen vv m := by
  by_cases hgt : entry.sequence > vvGet vv entry.moduleId
  · rw [if_pos hgt, seen, vvGet_vvPut (h.hasRoom hS hm)]
    split_ifs with heq
    · rw [heq]
      exact (max_eq_right (le_of_lt (UInt32.lt_iff_toNat_lt.mp hgt))).symm
    · rfl
  · split_ifs with heq
    · rw [heq]
      exact (max_eq_left (UInt32.le_iff_toNat_le.mp (UInt32.not_lt.mp hgt))).symm
    · rfl

theorem seen_vvMerge {S : Finset ModuleId} (hS : S.card ≤ kNeighbors + 1)
    {vv remote : VersionVector} (h : Within S vv) (hr : Within S remote) :
    Within S (vvMerge vv remote) ∧ seen (vvMerge vv remote) = seen vv ⊔ seen remote := by
  induction remote generalizing vv with
  | nil =>
    refine ⟨h, funext fun m => ?_⟩
    exact (max_eq_left (Nat.zero_le _)).symm
  | cons entry rest ih =>
    obtain ⟨hnew, hrest⟩ := nodup_cons.mp hr.distinct
    have hm : entry.moduleId ∈ S :=
      hr.ids_subset (mem_ids.mpr ⟨entry, mem_cons_self, rfl⟩)
    have htail : Within S rest := ⟨hrest, fun m' hm' => by
      obtain ⟨e, he, rfl⟩ := mem_ids.mp hm'
      exact hr.ids_subset (mem_ids.mpr ⟨e, mem_cons_of_mem entry he, rfl⟩)⟩
    have hstep : Within S (if entry.sequence > vvGet vv entry.moduleId
        then vvPut vv entry.moduleId entry.sequence else vv) := by
      split
      next => exact h.vvPut hm _
      next => exact h
    obtain ⟨hwithin, hseen⟩ := ih hstep htail
    refine ⟨hwithin, hseen.trans (funext fun m => ?_)⟩
    rw [Pi.sup_apply, Pi.sup_apply, merge_step h hS hm]
    show _ = max (seen vv m) (if entry.moduleId = m then entry.sequence else vvGet rest m).toNat
    by_cases heq : m = entry.moduleId
    · have hzero : seen rest m = 0 := by
        rw [seen, vvGet_noId fun hid => ?_]
        · rfl
        · obtain ⟨e, he, hid'⟩ := mem_ids.mp hid
          exact hnew (heq ▸ hid' ▸ mem_map_of_mem he)
      rw [if_pos heq, if_pos heq.symm, hzero]
      exact max_eq_left (Nat.zero_le _)
    · rw [if_neg heq, if_neg (Ne.symm heq)]
      rfl

theorem toNat_max (x y : UInt32) : (max x y).toNat = max x.toNat y.toNat := by
  show (if x ≤ y then y else x).toNat = _
  split_ifs with h
  · exact (max_eq_right (UInt32.le_iff_toNat_le.mp h)).symm
  · exact (max_eq_left (le_of_lt (UInt32.lt_iff_toNat_lt.mp (UInt32.not_le.mp h)))).symm

/-- **Merge.**  For two version vectors with distinct ids, at most eight together: the merged
vector has the larger sequence of every module, its ids are distinct and at most eight; so merging
is commutative, associative and idempotent, and the result is never behind either vector. -/
theorem merge_sup (a b : VersionVector) (ha : Distinct a) (hb : Distinct b)
    (hroom : (ids a ∪ ids b).card ≤ kNeighbors + 1) :
    (∀ m, vvGet (vvMerge a b) m = max (vvGet a m) (vvGet b m)) ∧
    Distinct (vvMerge a b) ∧ (vvMerge a b).length ≤ kNeighbors + 1 ∧
    (∀ m, vvGet (vvMerge a b) m = vvGet (vvMerge b a) m) ∧
    (∀ m, vvGet (vvMerge a a) m = vvGet a m) ∧
    (∀ c, Distinct c → (ids a ∪ ids b ∪ ids c).card ≤ kNeighbors + 1 →
      ∀ m, vvGet (vvMerge (vvMerge a b) c) m = vvGet (vvMerge a (vvMerge b c)) m) ∧
    (vvCompare (vvMerge a b) a ≠ .before ∧ vvCompare (vvMerge a b) a ≠ .concurrent) ∧
    (vvCompare (vvMerge a b) b ≠ .before ∧ vvCompare (vvMerge a b) b ≠ .concurrent) := by
  have hwa : Within (ids a ∪ ids b) a := ⟨ha, Finset.subset_union_left⟩
  have hwb : Within (ids a ∪ ids b) b := ⟨hb, Finset.subset_union_right⟩
  obtain ⟨hw, hseen⟩ := seen_vvMerge hroom hwa hwb
  have hbehind : ∀ {c : VersionVector}, Distinct c → seen c ≤ seen (vvMerge a b) →
      vvCompare (vvMerge a b) c ≠ .before ∧ vvCompare (vvMerge a b) c ≠ .concurrent :=
    fun hc hle => ⟨fun h => not_lt_of_ge hle ((vvCompare_before_iff hw.distinct hc).mp h),
      fun h => ((vvCompare_concurrent_iff hw.distinct hc).mp h).1 hle⟩
  refine ⟨fun m => ?_, hw.distinct, le_trans hw.length_le hroom, ?_, ?_, fun c hc hall => ?_,
    hbehind ha (hseen ▸ le_sup_left), hbehind hb (hseen ▸ le_sup_right)⟩
  · refine UInt32.toNat_inj.mp ?_
    rw [toNat_max]
    exact congrFun hseen m
  · rw [← seen_eq_iff, hseen, (seen_vvMerge hroom hwb hwa).2, sup_comm]
  · rw [← seen_eq_iff, (seen_vvMerge hroom hwa hwa).2, sup_idem]
  · have hla : Within (ids a ∪ ids b ∪ ids c) a :=
      ⟨ha, Finset.subset_union_left.trans Finset.subset_union_left⟩
    have hlb : Within (ids a ∪ ids b ∪ ids c) b :=
      ⟨hb, Finset.subset_union_right.trans Finset.subset_union_left⟩
    have hlc : Within (ids a ∪ ids b ∪ ids c) c := ⟨hc, Finset.subset_union_right⟩
    obtain ⟨hab, hsab⟩ := seen_vvMerge hall hla hlb
    obtain ⟨hbc, hsbc⟩ := seen_vvMerge hall hlb hlc
    rw [← seen_eq_iff, (seen_vvMerge hall hab hlc).2, (seen_vvMerge hall hla hbc).2, hsab, hsbc,
      sup_assoc]

/-- module 2 is behind in the first vector, module 3 unknown to it -/
theorem merge_sup_two :
    vvGet (vvMerge [⟨1, 5⟩, ⟨2, 1⟩] [⟨3, 2⟩, ⟨2, 4⟩]) 2
      = max (vvGet [⟨1, 5⟩, ⟨2, 1⟩] 2) (vvGet [⟨3, 2⟩, ⟨2, 4⟩] 2) :=
  (merge_sup [⟨1, 5⟩, ⟨2, 1⟩] [⟨3, 2⟩, ⟨2, 4⟩] (by decide) (by decide) (by decide)).1 2

end Gossip
end EkKor
