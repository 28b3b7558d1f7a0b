import EkKor.Gossip.Model

/-!
# Version vectors

A version vector is a map from module ids to sequences that has room for eight ids.

* `HasRoom`         the id has an entry or one can be added;
* `vvGet_vvPut`     with room, writing is a map update;
* `vvPut_noRoom`    without room, writing does nothing, and it never will.
-/

namespace EkKor
namespace Gossip

def HasRoom (vv : VersionVector) (moduleId : ModuleId) : Prop :=
  (∃ entry ∈ vv, entry.moduleId = moduleId) ∨ vv.length < kNeighbors + 1

instance (vv : VersionVector) (moduleId : ModuleId) : Decidable (HasRoom vv moduleId) :=
  inferInstanceAs (Decidable (_ ∨ _))

/-! ## reading and writing -/

variable {vv : VersionVector} {m : ModuleId}

theorem vvGet_noEntry (h : ∀ entry ∈ vv, entry.moduleId ≠ m) : vvGet vv m = 0 := by
  induction vv with
  | nil => rfl
  | cons entry rest ih =>
    rw [vvGet, if_neg (h entry List.mem_cons_self)]
    exact ih fun e he => h e (List.mem_cons_of_mem entry he)

theorem vvGet_append (vv : VersionVector) (m : ModuleId) (s : UInt32) (m' : ModuleId)
    (h : ∀ entry ∈ vv, entry.moduleId ≠ m) :
    vvGet (vv ++ [⟨m, s⟩]) m' = if m' = m then s else vvGet vv m' := by
  induction vv with
  | nil =>
    show (if m = m' then s else 0) = if m' = m then s else 0
    simp only [eq_comm]
  | cons entry rest ih =>
    have hrest := ih fun e he => h e (List.mem_cons_of_mem entry he)
    show (if entry.moduleId = m' then _ else vvGet (rest ++ [⟨m, s⟩]) m') =
      if m' = m then s else if entry.moduleId = m' then _ else vvGet rest m'
    rw [hrest]
    by_cases hm : m' = m
    · have hne : entry.moduleId ≠ m' := by
        rw [hm]
        exact h entry List.mem_cons_self
      rw [if_neg hne, if_pos hm, if_pos hm]
    · rw [if_neg hm, if_neg hm]

theorem vvWrite_eq_none {s : UInt32} :
    vvWrite vv m s = none ↔ ∀ entry ∈ vv, entry.moduleId ≠ m := by
  induction vv with
  | nil => simp [vvWrite]
  | cons entry rest ih =>
    rw [vvWrite]
    split_ifs with h
    · simp [h]
    · rw [Option.map_eq_none_iff, ih, List.forall_mem_cons]
      exact ⟨fun hr => ⟨h, hr⟩, fun hr => hr.2⟩

theorem vvWrite_some {vv' : VersionVector} {s : UInt32} (h : vvWrite vv m s = some vv') :
    (∀ m', vvGet vv' m' = if m' = m then s else vvGet vv m') ∧
      vv'.map VvEntry.moduleId = vv.map VvEntry.moduleId := by
  induction vv generalizing vv' with
  | nil => exact absurd h.symm (Option.some_ne_none _)
  | cons entry rest ih =>
    rw [vvWrite] at h
    split_ifs at h with hm
    · obtain rfl := Option.some.inj h
      refine ⟨fun m' => ?_, rfl⟩
      rw [vvGet, vvGet]
      rw [hm]
      by_cases hm' : m' = m
      · rw [if_pos hm'.symm, if_pos hm']
      · rw [if_neg (Ne.symm hm'), if_neg hm', if_neg (Ne.symm hm')]
    · obtain ⟨rest', hr, rfl⟩ := Option.map_eq_some_iff.mp h
      obtain ⟨hget, hids⟩ := ih hr
      refine ⟨fun m' => ?_, by rw [List.map_cons, List.map_cons, hids]⟩
      rw [vvGet, vvGet, hget m']
      by_cases hm' : m' = m
      · rw [if_pos hm', if_pos hm', if_neg (fun hh => hm (hh.trans hm'))]
      · rw [if_neg hm', if_neg hm']

/-! ## writes whose result is dropped -/

theorem vvPut_cases (vv : VersionVector) (m : ModuleId) (s : UInt32) :
    (∃ vv', vvWrite vv m s = some vv' ∧ vvPut vv m s = vv') ∨
      (∀ entry ∈ vv, entry.moduleId ≠ m) ∧ vv.length < kNeighbors + 1 ∧
        vvPut vv m s = vv ++ [⟨m, s⟩] ∨
      ¬ HasRoom vv m ∧ vvPut vv m s = vv := by
  unfold vvPut vvSet
  cases hw : vvWrite vv m s with
  | some vv' => exact .inl ⟨vv', rfl, rfl⟩
  | none =>
    have hno := vvWrite_eq_none.mp hw
    split_ifs with hfull
    · refine .inr (.inr ⟨?_, rfl⟩)
      rintro (⟨entry, hmem, heq⟩ | hlt)
      · exact hno entry hmem heq
      · omega
    · exact .inr (.inl ⟨hno, by omega, rfl⟩)

/-- with room, `ekk_vv_set` is a map update -/
theorem vvGet_vvPut (h : HasRoom vv m) (s : UInt32) (m' : ModuleId) :
    vvGet (vvPut vv m s) m' = if m' = m then s else vvGet vv m' := by
  rcases vvPut_cases vv m s with ⟨vv', hw, heq⟩ | ⟨hno, _, heq⟩ | ⟨hfull, _⟩
  · rw [heq]
    exact (vvWrite_some hw).1 m'
  · rw [heq]
    exact vvGet_append vv m s m' hno
  · exact absurd h hfull

theorem vvPut_noRoom (h : ¬ HasRoom vv m) (s : UInt32) : vvPut vv m s = vv := by
  rcases vvPut_cases vv m s with ⟨vv', hw, _⟩ | ⟨_, hlen, _⟩ | ⟨_, heq⟩
  · refine absurd (.inl ?_) h
    by_contra hno
    push Not at hno
    rw [vvWrite_eq_none.mpr hno] at hw
    cases hw
  · exact absurd (.inr hlen) h
  · exact heq

theorem vvGet_vvPut_of_ne (vv : VersionVector) {m' : ModuleId} (s : UInt32) (h : m' ≠ m) :
    vvGet (vvPut vv m s) m' = vvGet vv m' := by
  by_cases hroom : HasRoom vv m
  · rw [vvGet_vvPut hroom, if_neg h]
  · rw [vvPut_noRoom hroom]

theorem hasRoom_of_pos (h : 0 < vvGet vv m) : HasRoom vv m := by
  by_contra hno
  have hzero : vvGet vv m = 0 := vvGet_noEntry fun entry hmem heq => hno (.inl ⟨entry, hmem, heq⟩)
  rw [hzero] at h
  exact absurd h (by decide)

theorem vvGet_noRoom (h : ¬ HasRoom vv m) : vvGet vv m = 0 :=
  vvGet_noEntry fun entry hmem heq => h (.inl ⟨entry, hmem, heq⟩)

theorem noRoom_vvPut (h : ¬ HasRoom vv m) (m' : ModuleId) (s : UInt32) :
    ¬ HasRoom (vvPut vv m' s) m := by
  rcases vvPut_cases vv m' s with ⟨vv', hw, heq⟩ | ⟨_, hlen, _⟩ | ⟨_, heq⟩
  · obtain ⟨_, hids⟩ := vvWrite_some hw
    rw [heq]
    rintro (⟨entry, hmem, hid⟩ | hlen)
    · have hmem' : m ∈ vv.map VvEntry.moduleId := by
        rw [← hids, ← hid]
        exact List.mem_map_of_mem hmem
      obtain ⟨entry', hmem'', hid'⟩ := List.mem_map.mp hmem'
      exact h (.inl ⟨entry', hmem'', hid'⟩)
    · have hlen' := congrArg List.length hids
      rw [List.length_map, List.length_map] at hlen'
      exact h (.inr (by omega))
  · exact absurd (.inr hlen) h
  · rw [heq]
    exact h

end Gossip
end EkKor
