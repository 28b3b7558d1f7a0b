import Mathlib.Data.List.Infix

/-!
# Runs of a deterministic machine with outputs

A machine reads events; each event moves the state and produces a list of outputs.

* `Machine.run`        the state after a list of events, from the start state;
* `EveryStep P es`     every step of `es` meets `P`, a condition on the events before the step
                       and the event of the step;
* `Machine.invariant`  an invariant of the start state and of every step holds in every run;
* `history_induction`  the same for a property of the whole history, in the runs whose steps
                       all meet a condition;
* `everyPrefix_iff`    a property of all histories so far, as a condition on the steps.
-/

namespace Runs
open List

variable {σ ι ω : Type*}

/-! ## histories -/

/-- every step of the history `es` meets `P`: `pre` is what came before, `e` the event -/
def EveryStep (P : List ι → ι → Prop) (es : List ι) : Prop :=
  ∀ pre e, pre ++ [e] <+: es → P pre e

theorem everyStep_nil (P : List ι → ι → Prop) : EveryStep P [] := by
  intro pre e h
  simp at h

theorem everyStep_concat (P : List ι → ι → Prop) (es : List ι) (e : ι) :
    EveryStep P (es ++ [e]) ↔ EveryStep P es ∧ P es e := by
  constructor
  · intro h
    exact ⟨fun pre e' h' => h pre e' (h'.trans (prefix_append es [e])),
      h es e (prefix_refl _)⟩
  · rintro ⟨h, he⟩ pre e' h'
    rcases prefix_concat_iff.mp h' with heq | hpre
    · obtain ⟨rfl, h2⟩ := append_inj' heq rfl
      rw [singleton_inj.mp h2]
      exact he
    · exact h pre e' hpre

theorem everyStep_cons (P : List ι → ι → Prop) (e : ι) (es : List ι) :
    EveryStep P (e :: es) ↔ P [] e ∧ EveryStep (fun pre => P (e :: pre)) es := by
  constructor
  · intro h
    exact ⟨h [] e (prefix_append [e] es), fun pre e' h' => h (e :: pre) e'
      (prefix_cons_inj e |>.mpr h')⟩
  · rintro ⟨h0, h⟩ pre e' h'
    cases pre with
    | nil =>
      rw [(cons_prefix_cons.mp h').1]
      exact h0
    | cons e₁ pre =>
      obtain ⟨rfl, h''⟩ := cons_prefix_cons.mp h'
      exact h pre e' h''

variable {P Q : List ι → ι → Prop} {es es' : List ι} {I V : List ι → Prop}

theorem EveryStep.suffix (h : EveryStep P (es ++ es')) :
    EveryStep (fun pre => P (es ++ pre)) es' :=
  fun pre e h' => h (es ++ pre) e (by
    rw [append_assoc]
    exact (prefix_append_right_inj es).mpr h')

theorem everyStep_append (P : List ι → ι → Prop) (es es' : List ι) :
    EveryStep P (es ++ es') ↔ EveryStep P es ∧ EveryStep (fun pre => P (es ++ pre)) es' := by
  induction es' using List.reverseRecOn with
  | nil =>
    rw [append_nil]
    exact (and_iff_left (everyStep_nil _)).symm
  | append_singleton es' e ih =>
    rw [← append_assoc, everyStep_concat, everyStep_concat, ih, and_assoc]

theorem EveryStep.initial (h : EveryStep P es) (hp : es' <+: es) : EveryStep P es' :=
  fun pre e h' => h pre e (h'.trans hp)

theorem EveryStep.mono (h : EveryStep P es) (hPQ : ∀ pre e, P pre e → Q pre e) :
    EveryStep Q es :=
  fun pre e h' => hPQ pre e (h pre e h')

theorem everyStep_iff (P : List ι → ι → Prop) (es : List ι) :
    EveryStep P es ↔ ∀ k : Fin es.length, P (es.take k) (es.get k) := by
  constructor
  · intro h k
    refine h _ _ ?_
    rw [get_eq_getElem, ← take_succ_eq_append_getElem k.isLt]
    exact take_prefix _ es
  · rintro h pre e ⟨rest, rfl⟩
    have hk := h ⟨pre.length, by simp⟩
    simpa using hk

theorem prefix_of_map {ι' : Type*} {f : ι → ι'} {pre' : List ι'} (h : pre' <+: es.map f) :
    ∃ pre, pre <+: es ∧ pre.map f = pre' := by
  obtain ⟨rest, hrest⟩ := h
  obtain ⟨pre, back, rfl, hpre, _⟩ := map_eq_append_iff.mp hrest.symm
  exact ⟨pre, prefix_append pre back, hpre⟩

/-- the steps of a history that is read through `f` -/
theorem everyStep_map {ι' : Type*} (f : ι → ι') (P : List ι' → ι' → Prop) (es : List ι) :
    EveryStep P (es.map f) ↔ EveryStep (fun pre e => P (pre.map f) (f e)) es := by
  constructor
  · intro h pre e hp
    refine h _ _ ?_
    have hmap := hp.map f
    rw [map_append] at hmap
    exact hmap
  · intro h pre' e' hp
    obtain ⟨front, hfront, hmap⟩ := prefix_of_map hp
    obtain ⟨pre, last, rfl, rfl, hlast⟩ := map_eq_append_iff.mp hmap
    obtain ⟨e, rfl, rfl⟩ := map_eq_singleton_iff.mp hlast
    exact h pre e hfront

theorem history_induction (h0 : I []) (hstep : ∀ es e, I es → P es e → I (es ++ [e])) (es : List ι)
    (hes : EveryStep P es) : I es := by
  induction es using List.reverseRecOn with
  | nil => exact h0
  | append_singleton es e ih =>
    obtain ⟨h1, h2⟩ := (everyStep_concat P es e).mp hes
    exact hstep es e (ih h1) h2

theorem everyStep_congr_where (hV : ∀ es e, V (es ++ [e]) → V es)
    (h : ∀ es e, V (es ++ [e]) → EveryStep P es → (P es e ↔ Q es e)) (es : List ι) (hes : V es) :
    EveryStep P es ↔ EveryStep Q es := by
  induction es using List.reverseRecOn with
  | nil => exact iff_of_true (everyStep_nil P) (everyStep_nil Q)
  | append_singleton es e ih =>
    rw [everyStep_concat, everyStep_concat, ← ih (hV es e hes)]
    exact and_congr_right (h es e hes)

theorem everyStep_congr (h : ∀ es e, EveryStep P es → (P es e ↔ Q es e)) (es : List ι) :
    EveryStep P es ↔ EveryStep Q es :=
  everyStep_congr_where (V := fun _ => True) (fun _ _ _ => trivial) (fun es e _ => h es e) es
    trivial

theorem everyPrefix_iff_where (hV : ∀ es e, V (es ++ [e]) → V es) (h0 : I [])
    (hstep : ∀ es e, V (es ++ [e]) → (∀ pre, pre <+: es → I pre) → (I (es ++ [e]) ↔ P es e))
    (es : List ι) (hes : V es) : (∀ pre, pre <+: es → I pre) ↔ EveryStep P es := by
  induction es using List.reverseRecOn with
  | nil =>
    refine iff_of_true (fun pre hpre => ?_) (everyStep_nil P)
    rw [prefix_nil.mp hpre]
    exact h0
  | append_singleton es e ih =>
    rw [everyStep_concat, ← ih (hV es e hes)]
    constructor
    · intro hall
      have hbefore : ∀ pre, pre <+: es → I pre :=
        fun pre hpre => hall pre (hpre.trans (prefix_append es [e]))
      exact ⟨hbefore, (hstep es e hes hbefore).mp (hall _ (prefix_refl _))⟩
    · rintro ⟨hbefore, he⟩ pre hpre
      rcases prefix_concat_iff.mp hpre with rfl | hpre
      · exact (hstep es e hes hbefore).mpr he
      · exact hbefore pre hpre

theorem everyPrefix_iff (h0 : I [])
    (hstep : ∀ es e, (∀ pre, pre <+: es → I pre) → (I (es ++ [e]) ↔ P es e)) (es : List ι) :
    (∀ pre, pre <+: es → I pre) ↔ EveryStep P es :=
  everyPrefix_iff_where (V := fun _ => True) (fun _ _ _ => trivial) h0
    (fun es e _ => hstep es e) es trivial

/-! ## machines -/

/-- a start state and, for each state and event, the next state and the outputs -/
structure Machine (σ ι ω : Type*) where
  start : σ
  step : σ → ι → σ × List ω

namespace Machine
variable (M : Machine σ ι ω)

def next (s : σ) (e : ι) : σ := (M.step s e).1

def outs (s : σ) (e : ι) : List ω := (M.step s e).2

def runFrom (s : σ) (es : List ι) : σ := es.foldl M.next s

def run (es : List ι) : σ := M.runFrom M.start es

theorem runFrom_cons (s : σ) (e : ι) (es : List ι) :
    M.runFrom s (e :: es) = M.runFrom (M.next s e) es := rfl

theorem runFrom_append (s : σ) (es es' : List ι) :
    M.runFrom s (es ++ es') = M.runFrom (M.runFrom s es) es' := by
  simp [runFrom, foldl_append]

theorem run_append (es es' : List ι) : M.run (es ++ es') = M.runFrom (M.run es) es' :=
  M.runFrom_append _ _ _

@[simp] theorem run_concat (es : List ι) (e : ι) : M.run (es ++ [e]) = M.next (M.run es) e :=
  M.run_append es [e]

def trace (es : List ι) : List ω :=
  (es.foldl (fun (acc : σ × List ω) e => (M.next acc.1 e, acc.2 ++ M.outs acc.1 e))
    (M.start, [])).2

theorem trace_fst (es : List ι) :
    (es.foldl (fun (acc : σ × List ω) e => (M.next acc.1 e, acc.2 ++ M.outs acc.1 e))
      (M.start, [])).1 = M.run es := by
  induction es using List.reverseRecOn with
  | nil => rfl
  | append_singleton es e ih => rw [foldl_concat, run_concat, ih]

@[simp] theorem trace_concat (es : List ι) (e : ι) :
    M.trace (es ++ [e]) = M.trace es ++ M.outs (M.run es) e := by
  rw [← M.trace_fst es, trace, trace, foldl_concat]

def traceFrom (s : σ) : List ι → List ω
  | [] => []
  | e :: es => M.outs s e ++ traceFrom (M.next s e) es

theorem traceFrom_append (s : σ) (es es' : List ι) :
    M.traceFrom s (es ++ es') = M.traceFrom s es ++ M.traceFrom (M.runFrom s es) es' := by
  induction es generalizing s with
  | nil => rfl
  | cons e es ih =>
    rw [cons_append, traceFrom, traceFrom, ih, append_assoc]
    rfl

theorem trace_append (es es' : List ι) :
    M.trace (es ++ es') = M.trace es ++ M.traceFrom (M.run es) es' := by
  induction es' generalizing es with
  | nil => rw [append_nil, traceFrom, append_nil]
  | cons e es' ih =>
    rw [← singleton_append, ← append_assoc, ih, trace_concat, run_concat,
      append_assoc]
    rfl

theorem trace_initial (h : es <+: es') : M.trace es <+: M.trace es' := by
  obtain ⟨rest, rfl⟩ := h
  induction rest using List.reverseRecOn with
  | nil => rw [append_nil]
  | append_singleton rest e ih =>
    rw [← append_assoc, trace_concat]
    exact ih.trans (prefix_append _ _)

theorem invariant {I : σ → Prop} (h0 : I M.start) (hstep : ∀ s e, I s → I (M.next s e))
    (es : List ι) : I (M.run es) := by
  induction es using List.reverseRecOn with
  | nil => exact h0
  | append_singleton es e ih =>
    rw [run_concat]
    exact hstep _ _ ih

theorem run_related {σ' ω' : Type*} {N : Machine σ' ι ω'} {R : σ → σ' → Prop}
    (h0 : R M.start N.start) (es : List ι)
    (hstep : ∀ e ∈ es, ∀ s s', R s s' → R (M.next s e) (N.next s' e)) :
    R (M.run es) (N.run es) := by
  induction es using List.reverseRecOn with
  | nil => exact h0
  | append_singleton es e ih =>
    rw [run_concat, run_concat]
    exact hstep e mem_concat_self _ _
      (ih fun e' he' => hstep e' (mem_append_left _ he'))

end Machine
end Runs
