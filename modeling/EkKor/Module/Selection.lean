import EkKor.Module.Model

/-!
# The choice of a task (`ekk_module_select_task`)

The loop starts with the priority 255 and takes a task only for a priority below the best one, so
that a task of priority 255 has no chance unless it is critical.

* `addTask`, `taskReady`, `taskBlock`, `setTaskDeadline`, `clearTaskDeadline`,
  `setTaskCapabilities`   the calls about tasks;
* `Numbered`, `numbered_run`   the ids are the places in the list: all calls keep this;
* `Eligible`, `Before`   which tasks can be chosen, and which of them comes first;
* `SelectsBest`       the result is the id of the first of them, and 255 if there is none;
* `selects_best_iff`  exactly if one of them is critical or has another priority.
-/

namespace EkKor
namespace Module
open Runs List

/-! ## tasks -/

/-- `EKK_MAX_TASKS_PER_MODULE` -/
abbrev maxTasks : Nat := 8

/-- `ekk_module_add_task`; the memory of the task has not been used before -/
def addTask (mod : Module) (hasFunction : Bool) (priority : UInt8) (period : TimeUs) :
    Except Err UInt8 × Module :=
  if !hasFunction then (.error .invalidArg, mod)
  else if mod.tasks.length ≥ maxTasks then (.error .noMemory, mod)
  else
    let task : Task :=
      { id := UInt8.ofNat mod.tasks.length
        state := .idle
        priority := priority
        period := period
        nextRun := 0
        runCount := 0
        totalRuntime := 0
        hasDeadline := false
        critical := false
        requiredCaps := 0 }
    (.ok task.id, { mod with tasks := mod.tasks ++ [task] })

def setTask (mod : Module) (taskId : UInt8) (f : Task → Task) : Except Err Unit × Module :=
  if taskId.toNat ≥ mod.tasks.length then (.error .invalidArg, mod)
  else (.ok (), { mod with tasks := mod.tasks.modify taskId.toNat f })

/-- `ekk_module_task_ready` -/
def taskReady (mod : Module) (taskId : UInt8) : Except Err Unit × Module :=
  setTask mod taskId fun task => { task with state := .ready }

/-- the ids of the tasks are their places -/
structure Numbered (mod : Module) : Prop where
  ids : mod.tasks.map (fun task => task.id.toNat) = List.range mod.tasks.length
  room : mod.tasks.length ≤ maxTasks

variable {mod : Module}

variable {mod' : Module} {position : Topology.Position} (time : ModuleId → TimeUs)
  {s : Statics × Module}

theorem Numbered.addTask (h : Numbered mod) (hasFunction : Bool) (priority : UInt8)
    (period : TimeUs) : Numbered (addTask mod hasFunction priority period).2 := by
  unfold Module.addTask
  split_ifs with hfunction hfull
  · exact h
  · exact h
  · have hsmall := Nat.not_le.mp hfull
    refine ⟨?_, ?_⟩
    · rw [map_append, h.ids, length_append, length_singleton, range_succ]
      refine congrArg (List.range mod.tasks.length ++ ·) ?_
      show [(UInt8.ofNat mod.tasks.length).toNat] = _
      rw [UInt8.toNat_ofNat_of_lt' (Nat.lt_trans hsmall (by decide))]
    · rw [length_append]
      exact hsmall

theorem Numbered.congr (h : Numbered mod) (hids : mod'.tasks.map Task.id = mod.tasks.map Task.id) :
    Numbered mod' := by
  have hlength : mod'.tasks.length = mod.tasks.length := by
    have hlen := congrArg List.length hids
    rwa [length_map, length_map] at hlen
  have hnumbers : mod'.tasks.map (fun task => task.id.toNat) =
      mod.tasks.map fun task => task.id.toNat := by
    have hmap := congrArg (List.map UInt8.toNat) hids
    rwa [map_map, map_map] at hmap
  exact ⟨by rw [hnumbers, hlength, h.ids], hlength ▸ h.room⟩

theorem Numbered.setTask (h : Numbered mod) (taskId : UInt8) {f : Task → Task}
    (hf : ∀ task, (f task).id = task.id) : Numbered (setTask mod taskId f).2 := by
  unfold Module.setTask
  split_ifs
  · exact h
  · refine h.congr (ext_getElem? fun j => ?_)
    rw [getElem?_map, getElem?_map, getElem?_modify]
    cases mod.tasks[j]? with
    | none => rfl
    | some task =>
      show some ((if taskId.toNat = j then f task else task).id) = _
      split_ifs
      · rw [hf]
        rfl
      · rfl

theorem Numbered.runTask (h : Numbered mod) (now : TimeUs) (hal : Hal) (taskId : UInt8) :
    Numbered (runTask now hal mod taskId).1 := by
  unfold Module.runTask
  cases htask : mod.tasks[taskId.toNat]? with
  | none => exact h
  | some task =>
    dsimp only
    split_ifs
    · exact h
    all_goals
      obtain ⟨hlt, hget⟩ := List.getElem?_eq_some_iff.mp htask
      refine h.congr (ext_getElem? fun j => ?_)
      rw [getElem?_map, getElem?_map, getElem?_set]
      split_ifs with hj
      · rw [← hj, htask]
        rfl
      · rfl

theorem callback_tasks (s : Statics × Module) (out : Heartbeat.Out) :
    (callback time s out).1.2.tasks = s.2.tasks := by
  cases out <;> rfl

theorem callbacks_tasks (s : Statics × Module) (outs : List Heartbeat.Out) :
    ((callbacks time s).run outs).2.tasks = s.2.tasks :=
  (callbacks time s).invariant (I := fun s' => s'.2.tasks = s.2.tasks) rfl
    (fun s' out h => (callback_tasks time s' out).trans h) outs

theorem receive_tasks (now : TimeUs) (s : Statics × Module) (rx : Rx) :
    (receive now s rx).1.2.tasks = s.2.tasks := by
  unfold receive
  cases rx.message with
  | heartbeat senderId sequence => exact callbacks_tasks ..
  | _ => rfl

theorem Numbered.schedule (h : Numbered s.2) (now : TimeUs) (hal : Hal) :
    Numbered (schedule now hal s).1.2 := by
  unfold Module.schedule
  dsimp only
  split_ifs
  · exact h.runTask ..
  · exact h

theorem publishField_tasks (now : TimeUs) (hal : Hal) (s : Statics × Module) :
    (publishField now hal s).2.tasks = s.2.tasks := by
  unfold publishField
  dsimp only
  split <;> rfl

theorem updateTopology_tasks (now : TimeUs) (s : Statics × Module) :
    (updateTopology now s).1.2.tasks = s.2.tasks := by
  rfl

theorem updateConsensus_tasks (now : TimeUs) (s : Statics × Module) :
    (updateConsensus now s).1.2.tasks = s.2.tasks := by
  rfl

theorem updateModuleState_tasks (mod : Module) : (updateModuleState mod).1.tasks = mod.tasks := by
  rfl

theorem Numbered.finish (h : Numbered s.2) (now : TimeUs) (hal : Hal) :
    Numbered (finish now hal s).1.2 := by
  have hbefore : Numbered (updateConsensus now (sampleFields hal (updateTopology now s).1)).1.2 :=
    h.congr (congrArg (List.map Task.id)
      ((updateConsensus_tasks ..).trans (updateTopology_tasks now s)))
  unfold Module.finish
  dsimp only
  generalize updateConsensus now (sampleFields hal (updateTopology now s).1) = voted at hbefore ⊢
  have hafter := hbefore.schedule now hal
  generalize Module.schedule now hal voted.1 = run at hafter ⊢
  exact hafter.congr (congrArg (List.map Task.id)
    ((updateModuleState_tasks _).trans (publishField_tasks now hal run.1)))

theorem Numbered.tick (h : Numbered s.2) (now : TimeUs) (rxs : List Rx) (hal : Hal) :
    Numbered (tick s now rxs hal).1.2 := by
  unfold Module.tick
  split_ifs
  · exact h
  · dsimp only
    have hreceived : ((processRxMessages now (s.1, counted s.2)).run
        (rxs.take maxMessages)).2.tasks = s.2.tasks :=
      (processRxMessages now (s.1, counted s.2)).invariant
        (I := fun s' => s'.2.tasks = s.2.tasks) rfl
        (fun s' rx hs => (receive_tasks now s' rx).trans hs) _
    generalize (processRxMessages now (s.1, counted s.2)).run (rxs.take maxMessages) = heard
      at hreceived ⊢
    have hbeaten : ((callbacks hal.callback (beat now hal heard).1).run
        (beat now hal heard).2).2.tasks = s.2.tasks := (callbacks_tasks ..).trans hreceived
    generalize (callbacks hal.callback (beat now hal heard).1).run (beat now hal heard).2 = called
      at hbeaten ⊢
    have hcalled : Numbered called.2 := h.congr (congrArg (List.map Task.id) hbeaten)
    exact hcalled.finish now hal

/-- `is_critical` -/
def Task.isCritical (task : Task) : Bool := task.hasDeadline && task.critical

def Eligible (mod : Module) (now : TimeUs) (task : Task) : Prop :=
  task.state = .ready ∧ (task.period = 0 ∨ task.nextRun ≤ now) ∧
    canPerform mod.capabilities task.requiredCaps = true

instance decidableEligible (mod : Module) (now : TimeUs) (task : Task) :
    Decidable (Eligible mod now task) := inferInstanceAs (Decidable (_ ∧ _))

def Before (t u : Task) : Prop :=
  (t.isCritical = true ∧ u.isCritical = false) ∨
    (t.isCritical = u.isCritical ∧
      (t.priority < u.priority ∨ (t.priority = u.priority ∧ t.id ≤ u.id)))

/-- the result is the first of the tasks that can be chosen, and 255 exactly if there is none -/
structure SelectsBest (mod : Module) (now : TimeUs) : Prop where
  best : selectTask mod now ≠ 0xFF → ∃ task ∈ mod.tasks, task.id = selectTask mod now ∧
    Eligible mod now task ∧ ∀ u ∈ mod.tasks, Eligible mod now u → Before task u
  none : selectTask mod now = 0xFF ↔ ∀ task ∈ mod.tasks, ¬Eligible mod now task

def HasChance (mod : Module) (now : TimeUs) : Prop :=
  ∃ task ∈ mod.tasks, Eligible mod now task ∧ (task.isCritical = true ∨ task.priority < 0xFF)

/-! ## the loop -/

variable {now : TimeUs} {best : Choice} {task : Task} {seen : List Task}

def noChoice : Choice := ⟨0xFF, 0xFF, false⟩

theorem consider_of_not_eligible (h : ¬Eligible mod now task) :
    consider mod.capabilities now best task = best := by
  unfold consider
  split_ifs with hstate hdue hcaps
  all_goals first
    | rfl
    | exfalso
      refine h ⟨not_not.mp hstate, ?_, ?_⟩
      · by_contra hnot
        rw [not_or, UInt64.not_le] at hnot
        exact hdue ⟨UInt64.pos_iff_ne_zero.mpr hnot.1, hnot.2⟩
      · by_contra hnot
        refine hcaps ⟨fun hzero => hnot ?_, eq_false_of_ne_true hnot⟩
        unfold canPerform
        rw [hzero, UInt16.and_zero]
        rfl

theorem consider_of_eligible (h : Eligible mod now task) :
    consider mod.capabilities now best task =
      if (task.isCritical = true ∧ best.critical = false) ∨
          (task.isCritical = best.critical ∧ task.priority < best.priority) then
        ⟨task.id, task.priority, task.isCritical⟩
      else best := by
  obtain ⟨hstate, hdue, hcaps⟩ := h
  have hwait : ¬(task.period > 0 ∧ task.nextRun > now) := by
    rintro ⟨hperiod, hnext⟩
    rcases hdue with hzero | hle
    · exact absurd hperiod (hzero ▸ UInt64.lt_irrefl 0)
    · exact absurd hnext (UInt64.not_lt.mpr hle)
  have hcan : ¬(task.requiredCaps ≠ 0 ∧ canPerform mod.capabilities task.requiredCaps = false) :=
    fun hnot => Bool.false_ne_true (hnot.2.symm.trans hcaps)
  unfold consider
  rw [if_neg (not_not.mpr hstate), if_neg hwait, if_neg hcan]
  show (if task.isCritical = true ∧ best.critical = false then _ else
    if task.isCritical = best.critical ∧ task.priority < best.priority then _ else _) = _
  by_cases hfirst : task.isCritical = true ∧ best.critical = false
  · rw [if_pos hfirst, if_pos (.inl hfirst)]
    rfl
  · rw [if_neg hfirst]
    refine if_congr ?_ rfl rfl
    exact ⟨.inr, fun hor => hor.resolve_left hfirst⟩

def Chosen (mod : Module) (now : TimeUs) (seen : List Task) (best : Choice) : Prop :=
  (best = noChoice ∧
      ∀ u ∈ seen, Eligible mod now u → u.isCritical = false ∧ u.priority = 0xFF) ∨
    ∃ t ∈ seen, Eligible mod now t ∧ best = ⟨t.id, t.priority, t.isCritical⟩ ∧
      (t.isCritical = true ∨ t.priority < 0xFF) ∧ ∀ u ∈ seen, Eligible mod now u → Before t u

/-- **One round.** The ids grow from task to task. -/
theorem Chosen.consider (h : Chosen mod now seen best) (hids : ∀ u ∈ seen, u.id ≤ task.id) :
    Chosen mod now (seen ++ [task]) (consider mod.capabilities now best task) := by
  by_cases hel : Eligible mod now task
  · rw [consider_of_eligible hel]
    have hlast (P : Task → Prop) (hseen : ∀ u ∈ seen, Eligible mod now u → P u) (htask : P task) :
        ∀ u ∈ seen ++ [task], Eligible mod now u → P u := by
      intro u hu hue
      rcases mem_append.mp hu with hu | hu
      · exact hseen u hu hue
      · rwa [mem_singleton.mp hu]
    have hself : Before task task := .inr ⟨rfl, .inr ⟨rfl, UInt8.le_refl _⟩⟩
    have hmem : task ∈ seen ++ [task] := mem_append_right _ (mem_singleton_self _)
    rcases h with ⟨rfl, hnone⟩ | ⟨t, ht, htel, rfl, hchance, hbefore⟩
    · split_ifs with hbetter
      · refine .inr ⟨task, hmem, hel, rfl, ?_, hlast _ (fun u hu hue => ?_) hself⟩
        · exact hbetter.imp And.left And.right
        · obtain ⟨hcritical, hpriority⟩ := hnone u hu hue
          rcases hbetter with ⟨hcrit, -⟩ | ⟨hsame, hlt⟩
          · exact .inl ⟨hcrit, hcritical⟩
          · exact .inr ⟨hsame.trans hcritical.symm, .inl (hpriority ▸ hlt)⟩
      · rw [not_or, not_and, not_and] at hbetter
        have hcritical : task.isCritical = false :=
          eq_false_of_ne_true fun hcrit => hbetter.1 hcrit rfl
        have hle : (0xFF : UInt8) ≤ task.priority := UInt8.not_lt.mp (hbetter.2 hcritical)
        have hpriority : task.priority = 0xFF := by
          refine UInt8.le_antisymm ?_ hle
          exact Nat.le_of_lt_succ task.priority.toNat_lt
        exact .inl ⟨rfl, hlast _ hnone ⟨hcritical, hpriority⟩⟩
    · split_ifs with hbetter
      · have hpass (u : Task) (hu : Before t u) : Before task u := by
          rcases hbetter with ⟨hcrit, hnot⟩ | ⟨hsame, hlt⟩
          · rcases hu with ⟨htcrit, -⟩ | ⟨htsame, -⟩
            · exact absurd htcrit (ne_true_of_eq_false hnot)
            · exact .inl ⟨hcrit, htsame ▸ hnot⟩
          · rcases hu with ⟨htcrit, hucrit⟩ | ⟨htsame, hule⟩
            · exact .inl ⟨hsame.trans htcrit, hucrit⟩
            · refine .inr ⟨hsame.trans htsame, .inl ?_⟩
              rcases hule with hult | ⟨hueq, -⟩
              · exact UInt8.lt_trans hlt hult
              · exact hueq ▸ hlt
        refine .inr ⟨task, hmem, hel, rfl, ?_, hlast _ (fun u hu hue => hpass u (hbefore u hu hue))
          hself⟩
        rcases hbetter with ⟨hcrit, -⟩ | ⟨hsame, hlt⟩
        · exact .inl hcrit
        · refine .inr (UInt8.lt_of_lt_of_le hlt ?_)
          exact Nat.le_of_lt_succ t.priority.toNat_lt
      · refine .inr ⟨t, mem_append_left _ ht, htel, rfl, hchance, hlast _ hbefore ?_⟩
        rw [not_or, not_and, not_and] at hbetter
        by_cases hsame : task.isCritical = t.isCritical
        · have hle := UInt8.not_lt.mp (hbetter.2 hsame)
          refine .inr ⟨hsame.symm, ?_⟩
          rcases UInt8.lt_or_eq_of_le hle with hlt | heq
          · exact .inl hlt
          · exact .inr ⟨heq, hids t ht⟩
        · cases htask : task.isCritical with
          | true => 
            have htcrit := ne_false_of_eq_true (Bool.of_not_eq_false (hbetter.1 htask))
            exact absurd (htask.trans (Bool.of_not_eq_false htcrit).symm) hsame
          | false =>
            rw [htask] at hsame
            exact .inl ⟨Bool.of_not_eq_false fun heq => hsame heq.symm, htask⟩
  · rw [consider_of_not_eligible hel]
    have hlast (P : Task → Prop) (hseen : ∀ u ∈ seen, Eligible mod now u → P u) :
        ∀ u ∈ seen ++ [task], Eligible mod now u → P u := by
      intro u hu hue
      rcases mem_append.mp hu with hu | hu
      · exact hseen u hu hue
      · exact absurd (mem_singleton.mp hu ▸ hue) hel
    rcases h with ⟨rfl, hnone⟩ | ⟨t, ht, htel, rfl, hchance, hbefore⟩
    · exact .inl ⟨rfl, hlast _ hnone⟩
    · exact .inr ⟨t, mem_append_left _ ht, htel, rfl, hchance, hlast _ hbefore⟩

/-- **The loop.** -/
theorem chosen_foldl {tasks : List Task} (h : tasks.Pairwise fun t u => t.id ≤ u.id) :
    Chosen mod now tasks (tasks.foldl (consider mod.capabilities now) noChoice) := by
  induction tasks using List.reverseRecOn with
  | nil => exact .inl ⟨rfl, fun u hu => absurd hu not_mem_nil⟩
  | append_singleton tasks task ih =>
    obtain ⟨hbefore, -, hids⟩ := pairwise_append.mp h
    rw [foldl_concat]
    exact (ih hbefore).consider fun u hu => hids u hu task (mem_singleton_self _)

theorem Numbered.pairwise (h : Numbered mod) : mod.tasks.Pairwise fun t u => t.id ≤ u.id := by
  have hrange := pairwise_lt_range (n := mod.tasks.length)
  rw [← h.ids, pairwise_map] at hrange
  exact hrange.imp fun hlt => UInt8.le_iff_toNat_le.mpr (Nat.le_of_lt hlt)

theorem Numbered.id_ne (h : Numbered mod) (hmem : task ∈ mod.tasks) : task.id ≠ 0xFF := by
  intro heq
  have hid : task.id.toNat ∈ List.range mod.tasks.length := by
    rw [← h.ids]
    exact mem_map_of_mem hmem
  rw [heq] at hid
  exact absurd (Nat.lt_of_lt_of_le (mem_range.mp hid) h.room) (by decide)

/-- **Main.** The choice is right exactly if no task can be chosen, or one that can be chosen is
critical or has another priority than 255. -/
theorem selects_best_iff (h : Numbered mod) (now : TimeUs) :
    SelectsBest mod now ↔
      HasChance mod now ∨ ∀ task ∈ mod.tasks, ¬Eligible mod now task := by
  have hchosen : Chosen mod now mod.tasks _ := chosen_foldl h.pairwise
  rcases hchosen with ⟨hbest, hnone⟩ | ⟨t, ht, hel, hbest, hchance, hbefore⟩
  · have hresult : selectTask mod now = 0xFF := congrArg Choice.task hbest
    constructor
    · exact fun hs => .inr (hs.none.mp hresult)
    · rintro (⟨task, hmem, hel, hchance⟩ | hempty)
      · obtain ⟨hcritical, hpriority⟩ := hnone task hmem hel
        rcases hchance with hcrit | hlt
        · exact absurd hcrit (ne_true_of_eq_false hcritical)
        · exact absurd hlt (hpriority ▸ UInt8.lt_irrefl _)
      · exact ⟨fun hne => absurd hresult hne, fun _ => hempty, fun _ => hresult⟩
  · have hresult : selectTask mod now = t.id := congrArg Choice.task hbest
    refine ⟨fun _ => .inl ⟨t, ht, hel, hchance⟩, fun _ => ⟨fun _ => ⟨t, ht, hresult.symm, hel,
      hbefore⟩, fun heq => ?_, fun hempty => absurd hel (hempty t ht)⟩⟩
    exact absurd (hresult.symm.trans heq) (h.id_ne ht)

def oneTask (priority : UInt8) : Module :=
  (taskReady (addTask zero true priority 0).2 0).2

theorem numbered_oneTask (priority : UInt8) : Numbered (oneTask priority) :=
  ⟨rfl, show 1 ≤ maxTasks by decide⟩

theorem selects_best_low :
    SelectsBest (oneTask 10) 0 ↔
      HasChance (oneTask 10) 0 ∨ ∀ task ∈ (oneTask 10).tasks, ¬Eligible (oneTask 10) 0 task :=
  selects_best_iff (numbered_oneTask 10) 0

/-- a task of priority 255 does not run -/
theorem last_priority_starves : selectTask (oneTask 255) 0 = 0xFF ∧
    (∃ task ∈ (oneTask 255).tasks, Eligible (oneTask 255) 0 task) ∧
    ¬SelectsBest (oneTask 255) 0 := by
  have heligible : ∃ task ∈ (oneTask 255).tasks, Eligible (oneTask 255) 0 task :=
    ⟨_, mem_singleton_self _, by decide⟩
  refine ⟨by decide, heligible, fun h => ?_⟩
  obtain ⟨task, hmem, hel⟩ := heligible
  exact h.none.mp (by decide) task hmem hel

end Module
end EkKor
