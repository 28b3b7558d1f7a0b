import EkKor.Hal.MsgQueue
import EkKor.Hal.MultiProducer
import EkKor.Lib.Merge

/-!
# Waiting takes messages

A core that waits for a reply takes every message from its queue and drops those that are not the
reply.  No message is lost if and only if each time the loop looks, the queue is empty or its oldest
message is the reply.

* `Kept`        what arrived is what was taken and what is in the queue;
* `kept_step`   a step, and when it drops a message;
* `Lossless`    every message but the replies is received, in order;
* `lossless_iff`   when the runs are.
-/

namespace EkKor
namespace Client
open MsgQueue (Message Slot Queue Loaded msgQueueSend msgQueueRecv msgQueueSize msgMaxLen)
open List
open Runs (Machine EveryStep)
open Merge (Merge)

/-! ## the queue -/

def first (q : Queue) : Option Message :=
  if q.marks.tail = q.marks.head then none else some (q.slots q.marks.tail).content

variable {q : Queue} {ls : List Slot} {msg : Message}

theorem first_nil (h : Loaded q []) : first q = none := if_pos h.holds.nil_eq

variable {slot : Slot} {s' : State} (es : List Event)

theorem first_cons (h : Loaded q (slot :: ls)) : first q = some slot.content := by
  obtain ⟨hne, hslot, _⟩ := h.holds.uncons
  unfold first
  rw [if_neg hne, hslot]

theorem recv_nil (h : Loaded q []) : msgQueueRecv q = (q, none) := if_pos h.holds.nil_eq

theorem length_unique {ls' : List Slot} (h : Loaded q ls) (h' : Loaded q ls') :
    ls.length = ls'.length := by
  rw [← h.holds.length_eq, h'.holds.length_eq]

theorem loaded_send (h : Loaded q ls) (hmsg : msg.data.length ≤ msgMaxLen) :
    msgQueueSend q msg = (q, false) ∨
      ∃ q', msgQueueSend q msg = (q', true) ∧ Loaded q' (ls ++ [⟨msg, true⟩]) := by
  by_cases hfull : (q.marks.head + 1) % msgQueueSize = q.marks.tail
  · exact Or.inl (if_pos hfull)
  · refine Or.inr ⟨_, if_neg hfull, ?_⟩
    have hroom : ls.length + 1 < msgQueueSize :=
      Nat.lt_of_le_of_ne h.holds.free fun heq => hfull (h.holds.full_iff.mpr heq)
    have hstored : ((q.store q.marks.head msg).setValid q.marks.head true).slots q.marks.head =
        ⟨msg, true⟩ := by
      show Function.update (Function.update q.slots _ _) _ _ _ = _
      rw [Function.update_self]
      show Slot.mk (Function.update q.slots q.marks.head _ q.marks.head).content true = _
      rw [Function.update_self]
    have hpublish := ((h.holds.write ⟨msg, (q.slots q.marks.head).valid⟩).write
      ⟨((q.store q.marks.head msg).slots q.marks.head).content, true⟩).publish hroom
    refine ⟨hstored ▸ hpublish, fun slot hslot => ?_, fun slot hslot => ?_⟩
    · rcases mem_append.mp hslot with hold | hnew
      · exact h.valid slot hold
      · rw [mem_singleton.mp hnew]
    · rcases mem_append.mp hslot with hold | hnew
      · exact h.short slot hold
      · rw [mem_singleton.mp hnew]
        exact hmsg

/-! ## steps -/

/-- `taken` was taken from the queue, `lost` of it for nobody -/
structure Kept (s : State) (outs : List Out) (lost : Nat) (taken : List Message) (ls : List Slot) :
    Prop where
  loaded : Loaded s.queue ls
  arrived : arrived outs = taken ++ ls.map Slot.content
  count : (received outs).length + (replies outs).length + lost = taken.length
  merge : lost = 0 → Merge (received outs) (replies outs) taken

def Clean (s : State) : Event → Prop
  | .poll => ∀ w msg, s.waiting = some w → first s.queue = some msg → w.matches msg = true
  | _ => True

variable {s : State} {outs : List Out} {lost : Nat} {taken : List Message}

theorem arrived_append (outs outs' : List Out) :
    arrived (outs ++ outs') = arrived outs ++ arrived outs' := filterMap_append

theorem received_append (outs outs' : List Out) :
    received (outs ++ outs') = received outs ++ received outs' := filterMap_append

theorem replies_append (outs outs' : List Out) :
    replies (outs ++ outs') = replies outs ++ replies outs' := filterMap_append

theorem Kept.quiet (h : Kept s outs lost taken ls) {outs' : List Out} (hqueue : Loaded s'.queue ls)
    (harr : Client.arrived outs' = []) (hrecv : received outs' = []) (hrep : replies outs' = []) :
    Kept s' (outs ++ outs') lost taken ls := by
  refine ⟨hqueue, ?_, ?_, ?_⟩
  · rw [arrived_append, harr, append_nil]
    exact h.arrived
  · rw [received_append, replies_append, hrecv, hrep, append_nil, append_nil]
    exact h.count
  · rw [received_append, replies_append, hrecv, hrep, append_nil, append_nil]
    exact h.merge

theorem Kept.first (h : Kept s outs lost taken (slot :: ls)) {outs' : List Out}
    (hqueue : Loaded s'.queue ls) (harr : Client.arrived outs' = []) (hout : received outs' =
    [slot.content] ∧ replies outs' = [] ∨ received outs' = [] ∧ replies outs' = [slot.content]) :
    Kept s' (outs ++ outs') lost (taken ++ [slot.content]) ls := by
  refine ⟨hqueue, ?_, ?_, fun hlost => ?_⟩
  · rw [arrived_append, harr, append_nil, h.arrived, append_assoc]
    rfl
  · have hcount := h.count
    rw [received_append, replies_append, length_append, length_append, length_append]
    rcases hout with ⟨hr, hp⟩ | ⟨hr, hp⟩ <;> rw [hr, hp] <;>
      simp only [length_nil, length_singleton] <;> omega
  · rw [received_append, replies_append]
    rcases hout with ⟨hr, hp⟩ | ⟨hr, hp⟩
    · rw [hr, hp, append_nil]
      exact (h.merge hlost).left _
    · rw [hr, hp, append_nil]
      exact (h.merge hlost).right _

theorem Kept.drop (h : Kept s outs lost taken (slot :: ls)) (hqueue : Loaded s'.queue ls) :
    Kept s' (outs ++ []) (lost + 1) (taken ++ [slot.content]) ls := by
  rw [append_nil]
  refine ⟨hqueue, ?_, ?_, nofun⟩
  · rw [h.arrived, append_assoc]
    rfl
  · rw [length_append, length_singleton, ← h.count]
    rfl

/-- **A step.** It drops a message when it is not clean. -/
theorem kept_step (e : Event) (h : Kept s outs lost taken ls) :
    ∃ lost' taken' ls', Kept (step s e).1 (outs ++ (step s e).2) lost' taken' ls' ∧ lost ≤ lost' ∧
      (lost' = lost ↔ Clean s e) := by
  have hquiet {s' : State} {outs' : List Out} (hclean : Clean s e) (hqueue : s'.queue = s.queue)
      (harr : arrived outs' = []) (hrecv : received outs' = []) (hrep : replies outs' = []) :
      ∃ lost' taken' ls', Kept s' (outs ++ outs') lost' taken' ls' ∧ lost ≤ lost' ∧
        (lost' = lost ↔ Clean s e) :=
    ⟨lost, taken, ls, h.quiet (hqueue ▸ h.loaded) harr hrecv hrep, Nat.le_refl _,
      iff_of_true rfl hclean⟩
  cases e with
  | arrive msg =>
    unfold step
    dsimp only
    by_cases hlong : msgMaxLen < msg.data.length
    · rw [if_pos hlong]
      exact hquiet trivial rfl rfl rfl rfl
    · rw [if_neg hlong]
      rcases loaded_send h.loaded (Nat.le_of_not_lt hlong) with heq | ⟨q', heq, hq'⟩
      · rw [heq]
        exact hquiet trivial rfl rfl rfl rfl
      · rw [heq]
        refine ⟨lost, taken, ls ++ [⟨msg, true⟩], ⟨hq', ?_, ?_, ?_⟩, Nat.le_refl _,
          iff_of_true rfl trivial⟩
        · rw [arrived_append, h.arrived, map_append, append_assoc]
          rfl
        · rw [received_append, replies_append]
          show (_ ++ []).length + (_ ++ []).length + _ = _
          rw [append_nil, append_nil]
          exact h.count
        · rw [received_append, replies_append]
          show _ → Merge (_ ++ []) (_ ++ []) _
          rw [append_nil, append_nil]
          exact h.merge
  | recv len =>
    unfold step
    dsimp only
    split
    · cases ls with
      | nil =>
        rw [recv_nil h.loaded]
        exact hquiet trivial rfl rfl rfl rfl
      | cons slot ls =>
        obtain ⟨hout, hqueue⟩ := h.loaded.first
        generalize msgQueueRecv s.queue = res at hout hqueue ⊢
        obtain ⟨q, out⟩ := res
        cases hout
        exact ⟨lost, taken ++ [slot.content], ls,
          h.first hqueue rfl (Or.inl ⟨rfl, rfl⟩), Nat.le_refl _, iff_of_true rfl trivial⟩
    · exact hquiet trivial rfl rfl rfl rfl
  | request service sent resp =>
    unfold step
    dsimp only
    split
    · split_ifs
      · exact hquiet trivial rfl rfl rfl rfl
      · exact hquiet trivial rfl rfl rfl rfl
    · exact hquiet trivial rfl rfl rfl rfl
  | poll =>
    unfold step
    cases hw : s.waiting with
    | none =>
      refine hquiet (fun w msg hsome => ?_) rfl rfl rfl rfl
      rw [hw] at hsome
      cases hsome
    | some w =>
      cases ls with
      | nil =>
        rw [recv_nil h.loaded]
        refine hquiet (fun w msg _ hfirst => ?_) rfl rfl rfl rfl
        rw [first_nil h.loaded] at hfirst
        cases hfirst
      | cons slot ls =>
        obtain ⟨hout, hqueue⟩ := h.loaded.first
        have hfirst := first_cons h.loaded
        generalize msgQueueRecv s.queue = res at hout hqueue ⊢
        obtain ⟨q, out⟩ := res
        cases hout
        dsimp only at hqueue ⊢
        split_ifs with hmatch
        · refine ⟨lost, taken ++ [slot.content], ls, h.first hqueue rfl (Or.inr ⟨rfl, rfl⟩),
            Nat.le_refl _, iff_of_true rfl fun w' msg hw' hmsg => ?_⟩
          rw [hw] at hw'
          rw [hfirst] at hmsg
          cases hw'
          cases hmsg
          exact hmatch
        · refine ⟨lost + 1, taken ++ [slot.content], ls, h.drop hqueue, Nat.le_succ _,
            iff_of_false (Nat.succ_ne_self _) fun hclean => hmatch (hclean w _ hw hfirst)⟩
  | timeout =>
    unfold step
    dsimp only
    split <;> exact hquiet trivial rfl rfl rfl rfl
  | otherRequest service => exact hquiet trivial rfl rfl rfl rfl

/-! ## runs -/

theorem kept_run :
    ∃ lost taken ls, Kept (client.run es) (client.trace es) lost taken ls ∧
      (lost = 0 ↔ EveryStep (fun pre e => Clean (client.run pre) e) es) := by
  induction es using List.reverseRecOn with
  | nil =>
    have hempty : Loaded Queue.zero [] :=
      ⟨⟨Nat.zero_lt_succ _, Nat.zero_lt_succ _, rfl, fun _ hj => absurd hj (Nat.not_lt_zero _)⟩,
        nofun, nofun⟩
    exact ⟨0, [], [], ⟨hempty, rfl, rfl, fun _ => .nil⟩, iff_of_true rfl (Runs.everyStep_nil _)⟩
  | append_singleton es e ih =>
    obtain ⟨lost, taken, ls, hkept, hlost⟩ := ih
    obtain ⟨lost', taken', ls', hkept', hle, hclean⟩ := kept_step e hkept
    rw [Machine.run_concat, Machine.trace_concat]
    refine ⟨lost', taken', ls', hkept', ?_⟩
    rw [Runs.everyStep_concat, ← hlost, ← hclean]
    omega

theorem step_timeout (s : State) :
    (step s .timeout).1 = { s with waiting := none } := by
  obtain ⟨queue, waiting, requestId⟩ := s
  cases waiting <;> rfl

theorem loaded_drain (n : Nat) {s : State} {ls : List Slot} (h : Loaded s.queue ls)
    (hwait : s.waiting = none) (hlen : ls.length ≤ n) :
    Loaded (client.runFrom s (List.replicate n (.recv msgMaxLen))).queue [] := by
  induction n generalizing s ls with
  | zero =>
    rw [length_eq_zero_iff.mp (Nat.le_zero.mp hlen)] at h
    exact h
  | succ n ih =>
    have hnext : client.next s (.recv msgMaxLen) = { s with queue := (msgQueueRecv s.queue).1 } := by
      show (step s (.recv msgMaxLen)).1 = _
      unfold step
      rw [hwait]
      generalize msgQueueRecv s.queue = res
      obtain ⟨q, _ | msg⟩ := res <;> rfl
    rw [replicate_succ, Machine.runFrom_cons, hnext]
    cases ls with
    | nil =>
      rw [recv_nil h]
      exact ih h hwait (Nat.zero_le n)
    | cons slot ls => exact ih h.first.2 hwait (Nat.le_of_succ_le_succ hlen)

def settle : List Event := .timeout :: List.replicate msgQueueSize (.recv msgMaxLen)

def Lossless (es : List Event) : Prop :=
  Merge (received (client.trace (es ++ settle))) (replies (client.trace (es ++ settle)))
    (arrived (client.trace (es ++ settle)))

theorem everyStep_settle :
    EveryStep (fun pre e => Clean (client.run pre) e) (es ++ settle) ↔
      EveryStep (fun pre e => Clean (client.run pre) e) es := by
  rw [Runs.everyStep_append]
  refine and_iff_left fun pre e hp => ?_
  have hmem : e ∈ settle := hp.subset mem_concat_self
  rcases mem_cons.mp hmem with rfl | hrecv
  · trivial
  · rw [eq_of_mem_replicate hrecv]
    trivial

theorem loaded_settle : Loaded (client.run (es ++ settle)).queue [] := by
  obtain ⟨_, _, ls, hkept, _⟩ := kept_run es
  have hnext : client.next (client.run es) .timeout = { client.run es with waiting := none } :=
    step_timeout _
  rw [Machine.run_append, settle, Machine.runFrom_cons, hnext]
  exact loaded_drain _ hkept.loaded rfl (Nat.le_of_lt hkept.loaded.holds.free)

/-- **Main.** A run loses no message if and only if each time the loop looks, the queue is empty or
its oldest message is the reply. -/
theorem lossless_iff (es : List Event) :
    Lossless es ↔ EveryStep (fun pre e => Clean (client.run pre) e) es := by
  obtain ⟨lost, taken, ls, hkept, hlost⟩ := kept_run (es ++ settle)
  have hempty : ls = [] := length_eq_zero_iff.mp (length_unique hkept.loaded (loaded_settle es))
  subst hempty
  have harr := hkept.arrived
  rw [map_nil, append_nil] at harr
  rw [← everyStep_settle, ← hlost]
  unfold Lossless
  rw [harr]
  refine ⟨fun hmerge => ?_, hkept.merge⟩
  have hlen := hmerge.length_eq
  have hcount := hkept.count
  omega

def heartbeatWhileWaiting : List Event := [.request .fs true fun _ => 0, .arrive ⟨2, 1, [2, 7]⟩, .poll]

/-- the heartbeat is dropped -/
theorem not_lossless : ¬∀ es, Lossless es := by
  intro h
  exact absurd (h heartbeatWhileWaiting).length_eq (by decide)

end Client
end EkKor
