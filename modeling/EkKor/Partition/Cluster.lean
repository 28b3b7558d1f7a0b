import Mathlib.Data.List.FinRange
import EkKor.Partition.Invariants

/-!
# A cluster that splits and heals

`n` modules, each with a partition context, on a network that can split.

* `Cluster`          the contexts, and which module hears which;
* `ClusterEvent`     the network changes, a module counts whom it sees, ticks, syncs, or receives
                     the epoch of a module that it and the other both see;
* `Healed`           all modules see `n` again, and each has received every other's epoch;
* `heals_iff`        in a healed cluster every minority module starts to reconcile at its next tick
                     exactly when some module has a higher epoch than it;
* `frozen_forever`   where no module has a higher epoch, a minority cluster stays one;
* `split_in_two`     two modules that lose each other and never leave the minority again.
-/

namespace EkKor
namespace Partition
open Runs

/-! ## the cluster -/

/-- the contexts of `n` modules, and the network: `sees i j` when `i` hears `j` -/
structure Cluster (n : Nat) where
  nodes : Fin n → Ctx
  sees : Fin n → Fin n → Bool

inductive ClusterEvent (n : Nat) where
  /-- the network splits or heals -/
  | network (sees : Fin n → Fin n → Bool)
  /-- module `i` is told how many modules it sees, itself included -/
  | count (i : Fin n)
  | tick (i : Fin n) (now : TimeUs)
  | sync (i : Fin n)
  /-- the epoch of `source` reaches `dest`, if the two see each other -/
  | exchange (source dest : Fin n)

namespace Cluster
variable {n : Nat}

/-- how many modules `i` sees, itself included -/
def visible (c : Cluster n) (i : Fin n) : UInt32 :=
  UInt32.ofNat ((List.finRange n).countP fun j => j = i ∨ c.sees i j = true)

/-- `i` and `j` hear each other -/
def Mutual (c : Cluster n) (i j : Fin n) : Prop := c.sees i j = true ∧ c.sees j i = true

instance (c : Cluster n) (i j : Fin n) : Decidable (c.Mutual i j) :=
  inferInstanceAs (Decidable (_ ∧ _))

def update (c : Cluster n) (i : Fin n) (ctx : Ctx) : Cluster n :=
  { c with nodes := Function.update c.nodes i ctx }

def step (c : Cluster n) : ClusterEvent n → Cluster n
  | .network sees => { c with sees := sees }
  | .count i => c.update i (onVisibilityChange (c.nodes i) (c.visible i))
  | .tick i now => c.update i (Partition.tick (c.nodes i) now)
  | .sync i => c.update i (onSyncReceived (c.nodes i))
  | .exchange source dest =>
    if c.Mutual source dest then
      c.update dest (onEpochReceived (c.nodes dest) (c.nodes source).epoch)
    else c

end Cluster

variable {n : Nat}

/-- all contexts start as `start`, on a network where all see all -/
def cluster (n : Nat) (start : Ctx) : Machine (Cluster n) (ClusterEvent n) Unit :=
  ⟨⟨fun _ => start, fun _ _ => true⟩, fun c e => (c.step e, [])⟩

/-! ## the properties -/

/-- the epoch that `source` has at the end of the run has reached `dest` -/
def Delivered (start : Ctx) (es : List (ClusterEvent n)) (source dest : Fin n) : Prop :=
  ∃ pre post, es = pre ++ .exchange source dest :: post ∧
    ((cluster n start).run pre).Mutual source dest ∧
    (((cluster n start).run pre).nodes source).epoch = (((cluster n start).run es).nodes source).epoch

/-- all modules see the whole cluster, and every epoch has reached every other module -/
structure Healed (start : Ctx) (es : List (ClusterEvent n)) : Prop where
  visible : ∀ i, (((cluster n start).run es).nodes i).visibleCount = UInt32.ofNat n
  delivered : ∀ i j, i ≠ j → Delivered start es i j

def LeavesMinority (c : Cluster n) : Prop :=
  ∀ i now, (c.nodes i).state = .minority → (tick (c.nodes i) now).state = .reconciling

def SomeoneAhead (c : Cluster n) : Prop :=
  ∀ i, (c.nodes i).state = .minority → ∃ j, (c.nodes i).epoch < (c.nodes j).epoch

def EpochsRoomy (start : Ctx) (es : List (ClusterEvent n)) : Prop :=
  EveryStep (fun pre e => ∀ i now, e = .tick i now →
    RoomForEpoch (((cluster n start).run pre).nodes i) (.tick now)) es

/-! ## what a step does to the epochs -/

variable {ctx : Ctx} {c : Cluster n} {i : Fin n} {e : ClusterEvent n} {epoch : UInt32}

theorem tick_minority_iff (now : TimeUs) (hs : ctx.state = .minority) :
    (tick ctx now).state = .reconciling ↔ ctx.epoch < ctx.maxObservedEpoch := by
  rw [tick_minority now hs]
  split_ifs with h
  · exact iff_of_true (transition_state _ _ _) h
  · refine iff_of_false (fun hh => ?_) h
    exact State.noConfusion (hs.symm.trans hh)

theorem onEpochReceived_observed (ctx : Ctx) (remoteEpoch : UInt32) :
    ctx.maxObservedEpoch ≤ (onEpochReceived ctx remoteEpoch).maxObservedEpoch ∧
      remoteEpoch ≤ (onEpochReceived ctx remoteEpoch).maxObservedEpoch ∧
      ((onEpochReceived ctx remoteEpoch).maxObservedEpoch = ctx.maxObservedEpoch ∨
        (onEpochReceived ctx remoteEpoch).maxObservedEpoch = remoteEpoch) := by
  unfold onEpochReceived
  split_ifs with hhigher
  · exact ⟨UInt32.le_of_lt hhigher, UInt32.le_refl _, .inr rfl⟩
  · exact ⟨UInt32.le_refl _, UInt32.not_lt.mp hhigher, .inl rfl⟩

theorem onEpochReceived_other (ctx : Ctx) (remoteEpoch : UInt32) :
    (onEpochReceived ctx remoteEpoch).state = ctx.state ∧
      (onEpochReceived ctx remoteEpoch).epoch = ctx.epoch := by
  unfold onEpochReceived
  split_ifs <;> exact ⟨rfl, rfl⟩

theorem onSyncReceived_epochs (ctx : Ctx) :
    (onSyncReceived ctx).epoch = ctx.epoch ∧
      (onSyncReceived ctx).maxObservedEpoch = ctx.maxObservedEpoch := by
  unfold onSyncReceived
  dsimp only
  split_ifs <;> exact ⟨rfl, rfl⟩

namespace Cluster

theorem update_self (c : Cluster n) (i : Fin n) (ctx : Ctx) : (c.update i ctx).nodes i = ctx := by
  exact Function.update_self i ctx c.nodes

theorem update_other (c : Cluster n) {j : Fin n} (ctx : Ctx) (hj : j ≠ i) :
    (c.update i ctx).nodes j = c.nodes j := by
  exact Function.update_of_ne hj ctx c.nodes

theorem update_lift {R : Ctx → Ctx → Prop} (hrefl : ∀ ctx, R ctx ctx) (h : R (c.nodes i) ctx)
    (j : Fin n) : R (c.nodes j) ((c.update i ctx).nodes j) := by
  by_cases hj : j = i
  · rw [hj, update_self]
    exact h
  · rw [update_other c ctx hj]
    exact hrefl _

theorem step_observed (c : Cluster n) (e : ClusterEvent n) (i : Fin n) :
    (c.nodes i).maxObservedEpoch ≤ ((c.step e).nodes i).maxObservedEpoch := by
  have hlift : ∀ {j : Fin n} {ctx : Ctx}, (c.nodes j).maxObservedEpoch ≤ ctx.maxObservedEpoch →
      (c.nodes i).maxObservedEpoch ≤ ((c.update j ctx).nodes i).maxObservedEpoch := fun h =>
    update_lift (R := fun a b => a.maxObservedEpoch ≤ b.maxObservedEpoch)
      (fun _ => UInt32.le_refl _) h i
  cases e with
  | network sees => exact UInt32.le_refl _
  | count j => exact hlift (UInt32.le_refl _)
  | tick j now => exact hlift (UInt32.le_of_eq (tick_observed _ now).symm)
  | sync j => exact hlift (UInt32.le_of_eq (onSyncReceived_epochs _).2.symm)
  | exchange source dest =>
    unfold step
    dsimp only
    split_ifs
    · exact hlift (onEpochReceived_observed _ _).1
    · exact UInt32.le_refl _

theorem step_epoch (c : Cluster n)
    (hroom : ∀ i now, e = .tick i now → RoomForEpoch (c.nodes i) (.tick now)) (i : Fin n) :
    (c.nodes i).epoch ≤ ((c.step e).nodes i).epoch := by
  have hlift : ∀ {j : Fin n} {ctx : Ctx}, (c.nodes j).epoch ≤ ctx.epoch →
      (c.nodes i).epoch ≤ ((c.update j ctx).nodes i).epoch := fun h =>
    update_lift (R := fun a b => a.epoch ≤ b.epoch) (fun _ => UInt32.le_refl _) h i
  cases e with
  | network sees => exact UInt32.le_refl _
  | count j => exact hlift (UInt32.le_refl _)
  | tick j now => exact hlift ((tick_epoch _ now).mpr (hroom j now rfl))
  | sync j => exact hlift (UInt32.le_of_eq (onSyncReceived_epochs _).1.symm)
  | exchange source dest =>
    unfold step
    dsimp only
    split_ifs
    · exact hlift (UInt32.le_of_eq (onEpochReceived_other _ _).2.symm)
    · exact UInt32.le_refl _

def Observed (c : Cluster n) : Prop :=
  ∀ i, ∃ j, (c.nodes i).maxObservedEpoch ≤ (c.nodes j).epoch

theorem step_bounded (h : c.Observed)
    (hroom : ∀ i now, e = .tick i now → RoomForEpoch (c.nodes i) (.tick now)) :
    (c.step e).Observed := by
  have hgrow := step_epoch c hroom
  -- the observed epoch of `i` is one it had observed before, or the epoch of some module
  have hsource : ∀ i, ((c.step e).nodes i).maxObservedEpoch = (c.nodes i).maxObservedEpoch ∨
      ∃ j, ((c.step e).nodes i).maxObservedEpoch = (c.nodes j).epoch := by
    intro i
    have hlift : ∀ {k : Fin n} {ctx : Ctx},
        (ctx.maxObservedEpoch = (c.nodes k).maxObservedEpoch ∨
          ∃ j, ctx.maxObservedEpoch = (c.nodes j).epoch) →
        ((c.update k ctx).nodes i).maxObservedEpoch = (c.nodes i).maxObservedEpoch ∨
          ∃ j, ((c.update k ctx).nodes i).maxObservedEpoch = (c.nodes j).epoch := fun hk =>
      update_lift (R := fun a b => b.maxObservedEpoch = a.maxObservedEpoch ∨
        ∃ j, b.maxObservedEpoch = (c.nodes j).epoch) (fun _ => .inl rfl) hk i
    cases e with
    | network sees => exact .inl rfl
    | count j => exact hlift (.inl rfl)
    | tick j now => exact hlift (.inl (tick_observed _ now))
    | sync j => exact hlift (.inl (onSyncReceived_epochs _).2)
    | exchange source dest =>
      unfold step
      dsimp only
      split_ifs
      · refine hlift ?_
        rcases (onEpochReceived_observed (c.nodes dest) (c.nodes source).epoch).2.2 with hh | hh
        · exact .inl hh
        · exact .inr ⟨source, hh⟩
      · exact .inl rfl
  intro i
  rcases hsource i with hi | ⟨j, hj⟩
  · obtain ⟨j, hj⟩ := h i
    exact ⟨j, UInt32.le_trans (UInt32.le_of_eq hi) (UInt32.le_trans hj (hgrow j))⟩
  · exact ⟨j, UInt32.le_trans (UInt32.le_of_eq hj) (hgrow j)⟩

end Cluster

/-! ## runs -/

variable {start : Ctx}

theorem cluster_next (c : Cluster n) (e : ClusterEvent n) : (cluster n start).next c e = c.step e :=
  rfl

theorem run_cluster_concat (es : List (ClusterEvent n)) (e : ClusterEvent n) :
    (cluster n start).run (es ++ [e]) = ((cluster n start).run es).step e := by
  rw [Machine.run_concat, cluster_next]

theorem run_observed (es more : List (ClusterEvent n)) (i : Fin n) :
    (((cluster n start).run es).nodes i).maxObservedEpoch ≤
      (((cluster n start).run (es ++ more)).nodes i).maxObservedEpoch := by
  induction more using List.reverseRecOn with
  | nil =>
    rw [List.append_nil]
    exact UInt32.le_refl _
  | append_singleton more e ih =>
    rw [← List.append_assoc, run_cluster_concat]
    exact UInt32.le_trans ih (Cluster.step_observed _ e i)

theorem Delivered.observed {es : List (ClusterEvent n)} {source dest : Fin n}
    (h : Delivered start es source dest) :
    (((cluster n start).run es).nodes source).epoch ≤
      (((cluster n start).run es).nodes dest).maxObservedEpoch := by
  obtain ⟨pre, post, rfl, hmutual, hepoch⟩ := h
  rw [← hepoch, ← List.singleton_append, ← List.append_assoc]
  refine UInt32.le_trans ?_ (run_observed (pre ++ [.exchange source dest]) post dest)
  rw [run_cluster_concat, Cluster.step, if_pos hmutual, Cluster.update_self]
  exact (onEpochReceived_observed _ _).2.1

theorem run_bounded {totalModules : UInt32} (hinit : init totalModules = .ok start)
    (es : List (ClusterEvent n)) (hroom : EpochsRoomy start es) :
    ((cluster n start).run es).Observed := by
  refine history_induction (I := fun es => ((cluster n start).run es).Observed) ?_ ?_ es hroom
  · intro i
    refine ⟨i, ?_⟩
    unfold init at hinit
    split at hinit
    · cases hinit
    · cases hinit
      exact UInt32.le_refl _
  · intro es e ih hstep
    rw [run_cluster_concat]
    exact Cluster.step_bounded ih hstep

/-- **Main.** In a healed cluster of any size and history: where some module is ahead of every
minority module, each of these starts to reconcile at its next tick. In a run in which no epoch
wraps, that is also the only way. -/
theorem heals_iff (hinit : init (UInt32.ofNat n) = .ok start) (es : List (ClusterEvent n))
    (h : Healed start es) :
    (SomeoneAhead ((cluster n start).run es) → LeavesMinority ((cluster n start).run es)) ∧
      (EpochsRoomy start es →
        LeavesMinority ((cluster n start).run es) → SomeoneAhead ((cluster n start).run es)) := by
  constructor
  · intro hahead i now hs
    obtain ⟨j, hj⟩ := hahead i hs
    have hne : j ≠ i := fun hh => absurd hj (by rw [hh]; exact UInt32.lt_irrefl _)
    exact (tick_minority_iff now hs).mpr
      (UInt32.lt_of_lt_of_le hj (h.delivered j i hne).observed)
  · intro hroom hleaves i hs
    obtain ⟨j, hj⟩ := run_bounded hinit es hroom i
    exact ⟨j, UInt32.lt_of_lt_of_le ((tick_minority_iff 0 hs).mp (hleaves i 0 hs)) hj⟩

/-! ## a minority with nobody ahead -/

def ClusterEvent.Routine : ClusterEvent n → Prop
  | .tick _ _ => True
  | .exchange _ _ => True
  | _ => False

/-- every module is in the minority, and none has or knows of an epoch above `epoch` -/
structure Frozen (epoch : UInt32) (c : Cluster n) : Prop where
  minority : ∀ i, (c.nodes i).state = .minority
  same : ∀ i, (c.nodes i).epoch = epoch
  observed : ∀ i, (c.nodes i).maxObservedEpoch ≤ epoch

theorem Frozen.update (h : Frozen epoch c) (hs : ctx.state = .minority) (he : ctx.epoch = epoch)
    (ho : ctx.maxObservedEpoch ≤ epoch) : Frozen epoch (c.update i ctx) := by
  have hall : ∀ j, ((c.update i ctx).nodes j).state = .minority ∧
      ((c.update i ctx).nodes j).epoch = epoch ∧
      ((c.update i ctx).nodes j).maxObservedEpoch ≤ epoch := by
    intro j
    by_cases hj : j = i
    · rw [hj, Cluster.update_self]
      exact ⟨hs, he, ho⟩
    · rw [Cluster.update_other c ctx hj]
      exact ⟨h.minority j, h.same j, h.observed j⟩
  exact ⟨fun j => (hall j).1, fun j => (hall j).2.1, fun j => (hall j).2.2⟩

theorem Frozen.step (h : Frozen epoch c) (he : e.Routine) : Frozen epoch (c.step e) := by
  cases e with
  | network sees => exact he.elim
  | count i => exact he.elim
  | sync i => exact he.elim
  | tick i now =>
    have hstay : ¬ (c.nodes i).maxObservedEpoch > (c.nodes i).epoch := by
      rw [h.same i]
      exact UInt32.not_lt.mpr (h.observed i)
    have htick := tick_minority now (h.minority i)
    rw [if_neg hstay] at htick
    rw [Cluster.step, htick]
    exact h.update (h.minority i) (h.same i) (h.observed i)
  | exchange source dest =>
    unfold Cluster.step
    dsimp only
    split_ifs
    · obtain ⟨hs, he'⟩ := onEpochReceived_other (c.nodes dest) (c.nodes source).epoch
      refine h.update (hs.trans (h.minority dest)) (he'.trans (h.same dest)) ?_
      rcases (onEpochReceived_observed (c.nodes dest) (c.nodes source).epoch).2.2 with ho | ho
      · rw [ho]
        exact h.observed dest
      · rw [ho]
        exact UInt32.le_of_eq (h.same source)
    · exact h

theorem frozen_forever (h : Frozen epoch c) (es : List (ClusterEvent n)) (hes : ∀ e ∈ es, e.Routine) :
    Frozen epoch ((cluster n start).runFrom c es) := by
  induction es generalizing c with
  | nil => exact h
  | cons e es ih =>
    exact ih (h.step (hes e List.mem_cons_self)) fun e' he' => hes e' (List.mem_cons_of_mem e he')

/-! ## two modules -/

theorem two_pairs : ∀ {i j : Fin 2}, i ≠ j → i = 0 ∧ j = 1 ∨ i = 1 ∧ j = 0 := by decide

/-- two modules lose each other until both are in the minority, and then see each other again and
exchange their epochs -/
def splitInTwo : List (ClusterEvent 2) :=
  [.network fun _ _ => false, .count 0, .count 1, .tick 0 1, .tick 1 1, .tick 0 100001,
    .tick 1 100001, .network fun _ _ => true, .count 0, .count 1, .exchange 0 1, .exchange 1 0]

/-- after it both modules stay in the minority whatever ticks and exchanges follow -/
theorem split_in_two : ∃ start, init (UInt32.ofNat 2) = .ok start ∧ Healed start splitInTwo ∧
    ∀ es : List (ClusterEvent 2), (∀ e ∈ es, e.Routine) →
      ∀ i, (((cluster 2 start).run (splitInTwo ++ es)).nodes i).state = .minority := by
  refine ⟨_, rfl, ⟨by decide, fun i j hij => ?_⟩, fun es hes i => ?_⟩
  · rcases two_pairs hij with ⟨rfl, rfl⟩ | ⟨rfl, rfl⟩
    · exact ⟨splitInTwo.take 10, [.exchange 1 0], rfl, by decide, by decide⟩
    · exact ⟨splitInTwo.take 11, [], rfl, by decide, by decide⟩
  · rw [Machine.run_append]
    refine (frozen_forever (?_ : Frozen 1 _) es hes).minority i
    exact ⟨by decide, by decide, by decide⟩

/-- two modules lose each other, and see each other again when only module 0 has given up, so that
module 1 confirms a majority -/
def lateMajority : List (ClusterEvent 2) :=
  [.network fun _ _ => false, .count 0, .count 1, .tick 0 1, .tick 1 1, .tick 0 100001,
    .network fun _ _ => true, .count 0, .count 1, .tick 1 100002, .exchange 0 1, .exchange 1 0]

/-- the higher epoch of module 1 takes module 0 out of the minority -/
theorem heals_iff_two : ∃ start, init (UInt32.ofNat 2) = .ok start ∧
    LeavesMinority ((cluster 2 start).run lateMajority) := by
  refine ⟨_, rfl, (heals_iff rfl lateMajority ⟨by decide, fun i j hij => ?_⟩).1 ?_⟩
  · rcases two_pairs hij with ⟨rfl, rfl⟩ | ⟨rfl, rfl⟩
    · exact ⟨lateMajority.take 10, [.exchange 1 0], rfl, by decide, by decide⟩
    · exact ⟨lateMajority.take 11, [], rfl, by decide, by decide⟩
  · unfold SomeoneAhead
    decide

end Partition
end EkKor
