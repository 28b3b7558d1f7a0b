import EkKor.Ekkl.Related
import EkKor.Ekkl.Statements

/-!
# Nested assignment

An assignment reads the values that its target lies in, changes them from the inside out, and puts the
outermost one back into its variable.

* `Step`, `readAt`, `writeAt`   a value inside of a value, the last step first;
* `readAt_writeAt`, `readAt_writeAt_parts`   what a change leaves there, and elsewhere;
* `Settles`, `Located`          index expressions without side effects, and the place that they give;
* `assign_lens`                 what an assignment does.
-/

namespace EkKor
namespace Ekkl
open Value

/-! ## a value inside of a value -/

/-- a step into a value -/
inductive Step where
  | field (name : String)
  | index (i : Nat)

def Step.read (base : Value) : Step → Result Value
  | .field name => base.getField name
  | .index i => do Builtins.entry (← base.asArray) i

def Step.write (base : Value) (v : Value) : Step → Result Value
  | .field name => base.setField name v
  | .index i => do
    let arr ← base.asArray
    if arr.length ≤ i then .error (.indexOutOfBounds i arr.length)
    else return array (arr.set i v)

def readAt (base : Value) : List Step → Result Value
  | [] => .ok base
  | st :: steps => do st.read (← readAt base steps)

def writeAt (base : Value) : List Step → Value → Result Value
  | [], v => .ok v
  | st :: steps, v => do writeAt base steps (← st.write (← readAt base steps) v)

def Parts (steps steps' : List Step) : Prop :=
  ∃ common st st' rest rest', steps = rest ++ st :: common ∧ steps' = rest' ++ st' :: common ∧ st ≠ st'

variable {base base' v w : Value} {st st' : Step} {steps steps' : List Step}

theorem Step.read_write (h : st.write base v = .ok base') : st.read base' = .ok v := by
  cases st with
  | field name =>
    cases base <;> cases h
    simp only [Step.read, Value.getField, List.lookup_cons_self]
  | index i =>
    obtain ⟨arr, -, hset⟩ := Outcome.bind_eq_ok h
    split_ifs at hset with hlen
    · cases hset
      show Builtins.entry (arr.set i v) i = _
      unfold Builtins.entry
      rw [List.getElem?_set_self (Nat.lt_of_not_le hlen)]

theorem Step.read_write_ne (h : st.write base v = .ok base') (hne : st ≠ st') :
    st'.read base' = st'.read base := by
  cases st with
  | field name =>
    cases base <;> cases h
    cases st' with
    | field name' =>
      have hname : (name' == name) = false := beq_eq_false_iff_ne.mpr fun he => hne (by rw [he])
      simp only [Step.read, Value.getField, List.lookup_cons, hname]
    | index i => rfl
  | index i =>
    obtain ⟨arr, harr, hset⟩ := Outcome.bind_eq_ok h
    cases base <;> cases harr
    split_ifs at hset
    cases hset
    cases st' with
    | field name => rfl
    | index j =>
      show Builtins.entry (arr.set i v) j = Builtins.entry arr j
      unfold Builtins.entry
      rw [List.getElem?_set_ne fun he => hne (by rw [he]), List.length_set]

/-- **Put and get.** -/
theorem readAt_writeAt (h : writeAt base steps v = .ok base') : readAt base' steps = .ok v := by
  induction steps generalizing v with
  | nil =>
    cases h
    rfl
  | cons st steps ih =>
    obtain ⟨part, -, hpart⟩ := Outcome.bind_eq_ok h
    obtain ⟨part', hwrite, hrest⟩ := Outcome.bind_eq_ok hpart
    show (readAt base' steps >>= fun part => st.read part) = _
    rw [ih hrest]
    exact st.read_write hwrite

theorem writeAt_append {rest : List Step} (h : writeAt base (rest ++ steps) v = .ok base') :
    ∃ w, writeAt base steps w = .ok base' := by
  induction rest generalizing v with
  | nil => exact ⟨v, h⟩
  | cons st rest ih =>
    obtain ⟨_, -, hpart⟩ := Outcome.bind_eq_ok h
    obtain ⟨_, -, hrest⟩ := Outcome.bind_eq_ok hpart
    exact ih hrest

theorem readAt_append {rest : List Step} (h : readAt base' steps = readAt base steps) :
    readAt base' (rest ++ steps) = readAt base (rest ++ steps) := by
  induction rest with
  | nil => exact h
  | cons st rest ih =>
    show (readAt base' (rest ++ steps) >>= fun part => st.read part) = _
    rw [ih]
    rfl

/-- **Elsewhere.** What is read on another way does not change. -/
theorem readAt_writeAt_parts (h : writeAt base steps v = .ok base') (hparts : Parts steps steps') :
    readAt base' steps' = readAt base steps' := by
  obtain ⟨common, st, st', rest, rest', rfl, rfl, hne⟩ := hparts
  obtain ⟨w, hw⟩ := writeAt_append h
  obtain ⟨part, hread, hpart⟩ := Outcome.bind_eq_ok hw
  obtain ⟨part', hwrite, hcommon⟩ := Outcome.bind_eq_ok hpart
  refine readAt_append ?_
  show (readAt base' common >>= fun part => st'.read part) = readAt base common >>= fun part => st'.read part
  rw [readAt_writeAt hcommon, hread]
  exact st.read_write_ne hwrite hne

/-! ## index expressions -/

/-- the states are the same but for the operations that were performed -/
structure Alike (s t : Evaluator) : Prop where
  callStack : s.callStack = t.callStack
  items : SameItems t s

theorem Alike.refl (s : Evaluator) : Alike s s := ⟨rfl, rfl, rfl, rfl⟩

def Settles (s : Evaluator) (e : Expr) (r : Result Value) : Prop :=
  r ≠ .outOfFuel ∧ ∃ fuel s', evalExpr fuel e s = (r, s') ∧ s'.callStack = s.callStack

def Kept {α : Type} (s : Evaluator) (out : Result α × Evaluator) : Prop :=
  match out.1 with
  | .ok _ | .error _ => Alike s out.2
  | .panic | .outOfFuel => True

variable {s t : Evaluator} {e : Expr} {r : Result Value}

theorem Alike.symm (h : Alike s t) : Alike t s :=
  ⟨h.callStack.symm, h.items.enums.symm, h.items.functions.symm, h.items.globals.symm⟩

theorem Alike.trans {s₁ : Evaluator} (h : Alike s t) (h' : Alike t s₁) : Alike s s₁ :=
  ⟨h.callStack.trans h'.callStack, h'.items.enums.trans h.items.enums,
    h'.items.functions.trans h.items.functions, h'.items.globals.trans h.items.globals⟩

theorem Alike.knows (h : Alike s t) : Knows anyUses (fun _ => False) (fun _ => False) s t := by
  refine ⟨fun name _ _ => .inl (h.items.global name).symm, fun name => .inl ?_,
    fun _ f _ => blockWithin_any f.body⟩
  rw [h.items.functions]

variable {fuel : Nat} {target : AssignTarget} {t' : Evaluator}

theorem evalExpr_alike (h : Alike s t) {fuel' : Nat} (hle : fuel ≤ fuel') (e : Expr) :
    (evalExpr fuel e s).1 = .outOfFuel ∨
      Eff.Agree (Beside s t s.callStack.length) (Beside s t s.callStack.length) (evalExpr fuel e s)
        (evalExpr fuel' e t) := by
  have hfollows := (followsAt True h.knows hle (.inr trivial)).expr (exprWithin_any e) s t
    ⟨h.callStack, rfl, ⟨rfl, rfl, rfl⟩, ⟨rfl, rfl, rfl⟩⟩
  refine hfollows.imp_left fun hskip => ?_
  generalize evalExpr fuel e s = out at hskip
  obtain ⟨_ | err | _ | _, _⟩ := out
  · exact hskip.elim
  · cases err <;> exact hskip.elim
  · exact hskip.elim
  · rfl

def Fine {α : Type} (small : Prop) (s : Evaluator) (r : Result α) (out : Result α × Evaluator) : Prop :=
  (out.1 = .outOfFuel ∧ small) ∨ (out.1 = r ∧ Kept s out)

section
variable {α β : Type} {small small' : Prop}

theorem Fine.mono {r : Result α} {out : Result α × Evaluator} (h : Fine small s r out)
    (hsmall : small → small') : Fine small' s r out :=
  h.imp_left fun h => ⟨h.1, hsmall h.2⟩

theorem Fine.bind {m : Eval α} {f : α → Eval β} {r : Result α} {f' : α → Result β}
    (h : Fine small s r (m t))
    (hf : ∀ a t', r = .ok a → Alike s t' → Fine small s (f' a) (f a t')) :
    Fine small s (r >>= f') ((m >>= f) t) := by
  show Fine small s (r >>= f') (Eff.bind m f t)
  unfold Eff.bind
  generalize m t = out at h ⊢
  obtain ⟨r', t'⟩ := out
  rcases h with ⟨rfl, hsmall⟩ | ⟨rfl, hkept⟩
  · exact .inl ⟨rfl, hsmall⟩
  · cases r' with
    | ok a => exact hf a t' rfl hkept
    | error err => exact .inr ⟨rfl, hkept⟩
    | panic => exact .inr ⟨rfl, trivial⟩
    | outOfFuel => exact .inr ⟨rfl, trivial⟩

theorem Fine.lift (h : Alike s t) (r : Result α) : Fine small s r (Eff.lift r t) := by
  refine .inr ⟨rfl, ?_⟩
  cases r with
  | ok a => exact h
  | error err => exact h
  | panic => trivial
  | outOfFuel => trivial

theorem Fine.perform (h : Alike s t) (op : Operation) : Fine small s op.run (perform op t) :=
  Fine.lift (t := { t with performed := t.performed ++ [op] })
    ⟨h.callStack, h.items.enums, h.items.functions, h.items.globals⟩ op.run

end

theorem Settles.eval (h : Settles s e r) : ∃ enough, ∀ fuel t, Alike s t →
    Fine (fuel < enough) s r (evalExpr fuel e t) := by
  obtain ⟨hends, fuel', s', heval, hstack⟩ := h
  refine ⟨fuel', fun fuel t hst => ?_⟩
  -- the state after the run in `t`, from the one after the run in `s`
  have hkept {t' : Evaluator} (hcall : t'.callStack = s'.callStack) (hitems : SameItems t' t) :
      Alike s t' :=
    hst.trans ⟨hst.callStack.symm.trans (hstack.symm.trans hcall.symm), hitems⟩
  rcases Nat.lt_or_ge fuel fuel' with hlt | hle
  · refine (evalExpr_alike hst.symm (Nat.le_of_lt hlt) e).imp (fun hnone => ⟨hnone, hlt⟩)
      fun hagree => ?_
    rw [heval] at hagree
    refine ⟨hagree.fst, ?_⟩
    generalize evalExpr fuel e t = out at hagree
    obtain ⟨_ | _ | _ | _, t'⟩ := out <;> cases r <;>
      first | exact hagree.elim | trivial | exact hkept hagree.2.callStack hagree.2.left
  · rcases evalExpr_alike hst hle e with hnone | hagree
    · rw [heval] at hnone
      exact absurd hnone hends
    · rw [heval] at hagree
      refine .inr ⟨hagree.fst.symm, ?_⟩
      generalize evalExpr fuel e t = out at hagree
      obtain ⟨_ | _ | _ | _, t'⟩ := out <;> cases r <;>
        first | exact hagree.elim | trivial | exact hkept hagree.2.callStack.symm hagree.2.right

/-! ## places -/

def Quiet (s : Evaluator) : AssignTarget → Prop
  | .ident _ => True
  | .field base _ => Quiet s base
  | .index base index => Quiet s base ∧ ∃ r, Settles s index r

/-- the steps of the target, with its indices evaluated, the last one first -/
inductive Located (s : Evaluator) : AssignTarget → List Step → Prop
  | ident (name : String) : Located s (.ident name) []
  | field {base : AssignTarget} {steps : List Step} (name : String) : Located s base steps →
    Located s (.field base name) (.field name :: steps)
  | index {base : AssignTarget} {steps : List Step} {index : Expr} {v : Value} {n : Int64} :
    Located s base steps → Settles s index (.ok v) → v.asI64 = .ok n →
    Located s (.index base index) (.index n.toUInt64.toNat :: steps)

def rootValue (s : Evaluator) (name : String) : Result Value := (getVar name s).1

def readPlace (s : Evaluator) (name : String) (steps : List Step) : Result Value := do
  readAt (← rootValue s name) steps

theorem evalExpr_targetExpr (fuel : Nat) (target : AssignTarget) :
    evalExpr fuel (Parser.targetExpr target) = getAssignTargetValue fuel target := by
  induction fuel generalizing target with
  | zero => rfl
  | succ fuel ih =>
    cases target with
    | ident name => rfl
    | field base name =>
      show (evalExpr fuel (Parser.targetExpr base) >>= fun v => Eff.lift (v.getField name)) = _
      rw [ih]
      rfl
    | index base index =>
      show (evalExpr fuel (Parser.targetExpr base) >>= fun arr => evalExpr fuel index >>= fun i =>
        perform (.index arr i)) = _
      rw [ih]
      rfl

theorem getVar_alike (h : Alike s t) (name : String) : getVar name t = (rootValue s name, t) := by
  have hglobal : t.global name = s.global name := h.items.global name
  unfold rootValue
  rw [getVar_eq]
  cases splitPath name.toList with
  | some p => rfl
  | none =>
    show getBound name t = ((getBound name s).1, t)
    unfold getBound
    rw [Eff.get_bind, Eff.get_bind]
    unfold Evaluator.find
    rw [h.callStack, hglobal]
    cases (t.callStack.head?.bind fun frame => frame.locals.lookup name).or (s.global name) <;> rfl

theorem rootValue_kept (h : Alike s t) (name : String) : Kept s (rootValue s name, t) := by
  unfold Kept
  split
  · exact h
  · exact h
  · trivial
  · trivial

/-- **The value of a target** is what is at its place. -/
theorem Located.value (h : Located s target steps) :
    ∃ enough, ∀ fuel t, Alike s t → Fine (fuel < enough) s (readPlace s target.root steps)
      (getAssignTargetValue fuel target t) := by
  induction h with
  | ident name =>
    refine ⟨1, fun fuel t hst => ?_⟩
    cases fuel with
    | zero => exact .inl ⟨rfl, Nat.zero_lt_one⟩
    | succ fuel =>
      refine .inr ?_
      show (getVar name t).1 = (rootValue s name >>= Outcome.ok) ∧ Kept s (getVar name t)
      rw [getVar_alike hst]
      exact ⟨(bind_pure _).symm, rootValue_kept hst name⟩
  | @field base steps name _ ih =>
    obtain ⟨enough, hvalue⟩ := ih
    refine ⟨enough + 1, fun fuel t hst => ?_⟩
    cases fuel with
    | zero => exact .inl ⟨rfl, Nat.succ_pos _⟩
    | succ fuel =>
      refine Fine.mono ?_ Nat.succ_lt_succ
      have hread : readPlace s base.root (.field name :: steps) =
          readPlace s base.root steps >>= fun v => v.getField name := (bind_assoc ..).symm
      show Fine _ s (readPlace s base.root (.field name :: steps)) _
      rw [hread]
      exact (hvalue fuel t hst).bind fun v t' _ ht' => .lift ht' _
  | @index base steps index v n _ hsettles hn ih =>
    obtain ⟨enough, hvalue⟩ := ih
    obtain ⟨enough', hindex⟩ := hsettles.eval
    refine ⟨max enough enough' + 1, fun fuel t hst => ?_⟩
    cases fuel with
    | zero => exact .inl ⟨rfl, Nat.succ_pos _⟩
    | succ fuel =>
      have hread : readPlace s base.root (.index n.toUInt64.toNat :: steps) =
          readPlace s base.root steps >>= fun arr => Outcome.ok v >>= fun i => indexValue arr i := by
        refine (bind_assoc ..).symm.trans (congrArg _ (funext fun arr => ?_))
        show _ = indexValue arr v
        unfold indexValue
        rw [hn]
        rfl
      show Fine _ s (readPlace s base.root (.index n.toUInt64.toNat :: steps)) _
      rw [hread]
      refine Fine.bind ((hvalue fuel t hst).mono fun h => ?_) fun arr t' _ ht' => ?_
      · exact Nat.succ_lt_succ (Nat.lt_of_lt_of_le h (Nat.le_max_left _ _))
      · refine Fine.bind ((hindex fuel t' ht').mono fun h => ?_) fun i t'' _ ht'' => .perform ht'' _
        exact Nat.succ_lt_succ (Nat.lt_of_lt_of_le h (Nat.le_max_right _ _))

/-! ## assignments -/

/-- a run that keeps the state unless it ends with a value, panics or runs out of fuel -/
def KeptOnError {α : Type} (s : Evaluator) (out : Result α × Evaluator) : Prop :=
  ∀ err, out.1 = .error err → Alike s out.2

theorem Kept.bind {α β : Type} {m : Eval α} {f : α → Eval β} (h : Kept s (m t))
    (hf : ∀ a t', (m t) = (.ok a, t') → Alike s t' → Kept s (f a t')) : Kept s ((m >>= f) t) := by
  show Kept s (Eff.bind m f t)
  unfold Eff.bind
  generalize m t = out at h hf ⊢
  obtain ⟨a | _ | _ | _, t'⟩ := out
  · exact hf a t' rfl h
  · exact h
  · trivial
  · trivial

theorem KeptOnError.bind {α β : Type} {m : Eval α} {f : α → Eval β} (h : Kept s (m t))
    (hf : ∀ a t', Alike s t' → KeptOnError s (f a t')) : KeptOnError s ((m >>= f) t) := by
  show KeptOnError s (Eff.bind m f t)
  unfold Eff.bind
  generalize m t = out at h ⊢
  obtain ⟨a | _ | _ | _, t'⟩ := out
  · exact hf a t' h
  · exact fun _ _ => h
  · exact fun _ h => nomatch h
  · exact fun _ h => nomatch h

theorem Kept.of_fine {α : Type} {small : Prop} {r : Result α} {out : Result α × Evaluator}
    (h : Fine small s r out) : Kept s out := by
  rcases h with ⟨h, -⟩ | ⟨-, h⟩
  · unfold Kept
    rw [h]
    trivial
  · exact h

theorem kept_lift {α : Type} (h : Alike s t) (r : Result α) : Kept s (Eff.lift r t) :=
  .of_fine (Fine.lift h r : Fine False s r _)

theorem kept_perform (h : Alike s t) (op : Operation) : Kept s (perform op t) :=
  .of_fine (Fine.perform h op : Fine False s op.run _)

theorem kept_index {index : Expr} (h : ∃ r, Settles s index r) (hst : Alike s t) (fuel : Nat) :
    Kept s (evalExpr fuel index t) := by
  obtain ⟨r, hr⟩ := h
  obtain ⟨enough, hfine⟩ := hr.eval
  exact .of_fine (hfine fuel t hst)

theorem Quiet.value (h : Quiet s target) (hst : Alike s t) (fuel : Nat) :
    Kept s (getAssignTargetValue fuel target t) := by
  induction fuel generalizing target t with
  | zero => trivial
  | succ fuel ih =>
    cases target with
    | ident name =>
      show Kept s (getVar name t)
      rw [getVar_alike hst]
      exact rootValue_kept hst name
    | field base name =>
      exact Kept.bind (ih (show Quiet s base from h) hst) fun v t' _ ht' => kept_lift ht' _
    | index base index =>
      refine Kept.bind (ih (show Quiet s base from h.1) hst) fun arr t' _ ht' => ?_
      exact (kept_index h.2 ht' fuel).bind fun i t'' _ ht'' => kept_perform ht'' _

theorem Quiet.assign (h : Quiet s target) (hst : Alike s t) (fuel : Nat) (v : Value) :
    KeptOnError s (assignTarget fuel target v t) := by
  induction fuel generalizing target t v with
  | zero => exact fun _ h => nomatch h
  | succ fuel ih =>
    cases target with
    | ident name => exact fun _ h => nomatch h
    | field base name =>
      refine KeptOnError.bind (Quiet.value (show Quiet s base from h) hst fuel) fun b t' ht' => ?_
      exact KeptOnError.bind (kept_lift ht' _) fun new t'' ht'' => ih (show Quiet s base from h) ht'' new
    | index base index =>
      refine KeptOnError.bind (kept_index h.2 hst fuel) fun i t₁ h₁ => ?_
      refine KeptOnError.bind (kept_lift h₁ _) fun _ t₂ h₂ => ?_
      refine KeptOnError.bind (Quiet.value (show Quiet s base from h.1) h₂ fuel) fun b t₃ h₃ => ?_
      exact KeptOnError.bind (kept_perform h₃ _) fun new t₄ h₄ => ih (show Quiet s base from h.1) h₄ new

/-- what an assignment that ends with a value has done: the value that the variable has now -/
structure Assigned (s : Evaluator) (target : AssignTarget) (v : Value) (steps : List Step)
    (new : Value) (t' : Evaluator) : Prop where
  located : Located s target steps
  written : (steps = [] ∧ new = v) ∨
    ∃ base, rootValue s target.root = .ok base ∧ writeAt base steps v = .ok new
  state : ∃ t, Alike s t ∧ (setLocal target.root new t).2 = t'

theorem Located.read_eq (h : Located s target steps) (hst : Alike s t)
    (hv : getAssignTargetValue fuel target t = (.ok v, t')) :
    readPlace s target.root steps = .ok v ∧ Alike s t' := by
  obtain ⟨enough, hfine⟩ := h.value
  rcases hfine fuel t hst with ⟨hnone, -⟩ | ⟨hread, hkept⟩
  · rw [hv] at hnone
    cases hnone
  · rw [hv] at hread hkept
    exact ⟨hread.symm, hkept⟩

theorem Assigned.step {target' : AssignTarget} {part new : Value}
    (h : Assigned s target part steps new t') (hread : readPlace s target.root steps = .ok base)
    (hwrite : st.write base v = .ok part) (hlocated : Located s target' (st :: steps))
    (hroot : target'.root = target.root) : Assigned s target' v (st :: steps) new t' := by
  refine ⟨hlocated, .inr ?_, by rw [hroot]; exact h.state⟩
  rw [hroot]
  obtain ⟨root, hvalue, hpart⟩ := Outcome.bind_eq_ok hread
  refine ⟨root, hvalue, ?_⟩
  show (readAt root steps >>= fun b => st.write b v >>= fun part => writeAt root steps part) = _
  rw [hpart]
  show (st.write base v >>= fun part => writeAt root steps part) = _
  rw [hwrite]
  rcases h.written with ⟨rfl, rfl⟩ | ⟨root', hvalue', hwritten⟩
  · rfl
  · rw [hvalue] at hvalue'
    cases hvalue'
    exact hwritten

theorem Quiet.assigned (h : Quiet s target) (hst : Alike s t) {v : Value}
    (hok : assignTarget fuel target v t = (.ok (), t')) :
    ∃ steps new, Assigned s target v steps new t' := by
  induction fuel generalizing target t v with
  | zero => cases hok
  | succ fuel ih =>
    cases target with
    | ident name => exact ⟨[], v, .ident name, .inl ⟨rfl, rfl⟩, t, hst, congrArg Prod.snd hok⟩
    | field base name =>
      obtain ⟨b, t₁, hb, hrest⟩ := Eff.bind_eq_ok hok
      obtain ⟨part, t₂, hset, hassign⟩ := Eff.bind_eq_ok hrest
      obtain ⟨hpart, rfl⟩ := Prod.mk.inj hset
      have hkept := Quiet.value (show Quiet s base from h) hst fuel
      rw [hb] at hkept
      obtain ⟨steps, new, hassigned⟩ := ih (show Quiet s base from h) hkept hassign
      exact ⟨.field name :: steps, new, hassigned.step (hassigned.located.read_eq hst hb).1 hpart
        (.field name hassigned.located) rfl⟩
    | index base index =>
      obtain ⟨i, t₁, hi, hrest⟩ := Eff.bind_eq_ok hok
      obtain ⟨n, t₂, hn, hrest⟩ := Eff.bind_eq_ok hrest
      obtain ⟨hint, rfl⟩ := Prod.mk.inj hn
      obtain ⟨b, t₃, hb, hrest⟩ := Eff.bind_eq_ok hrest
      obtain ⟨part, t₄, hset, hassign⟩ := Eff.bind_eq_ok hrest
      obtain ⟨hbase, r, hr⟩ := h
      have hsettles : Settles s index (.ok i) := by
        obtain ⟨enough, hfine⟩ := hr.eval
        rcases hfine fuel t hst with ⟨hnone, -⟩ | ⟨hsame, -⟩
        · rw [hi] at hnone
          cases hnone
        · rw [hi] at hsame
          change Outcome.ok i = r at hsame
          rwa [hsame]
      have hkept := kept_index ⟨_, hsettles⟩ hst fuel
      rw [hi] at hkept
      have hkept' := hbase.value hkept fuel
      rw [hb] at hkept'
      have hkept'' := kept_perform hkept' (.setIndex b i v)
      rw [hset] at hkept''
      obtain ⟨steps, new, hassigned⟩ := ih hbase hkept'' hassign
      refine ⟨.index n.toUInt64.toNat :: steps, new, hassigned.step
        (hassigned.located.read_eq hkept hb).1 ?_ (.index hassigned.located hsettles hint) rfl⟩
      refine Eq.trans ?_ (congrArg Prod.fst hset)
      show _ = setIndex b i v
      unfold setIndex
      rw [hint]
      rfl

/-! ## the law -/

def Reads (s : Evaluator) (e : Expr) (r : Result Value) : Prop :=
  ∃ enough, ∀ fuel, enough ≤ fuel → (evalExpr fuel e s).1 = r

theorem Located.reads (h : Located s target steps) :
    Reads s (Parser.targetExpr target) (readPlace s target.root steps) := by
  obtain ⟨enough, hfine⟩ := h.value
  refine ⟨enough, fun fuel hle => ?_⟩
  rw [evalExpr_targetExpr]
  rcases hfine fuel s (.refl s) with ⟨-, hlt⟩ | ⟨hread, -⟩
  · exact absurd hlt (Nat.not_lt.mpr hle)
  · exact hread

def Elsewhere (root : String) (steps : List Step) (root' : String) (steps' : List Step) : Prop :=
  root' ≠ root ∨ Parts steps steps'

variable {name name' : String} {new : Value}

theorem rootValue_alike (h : Alike s t) (name : String) : rootValue t name = rootValue s name := by
  show (getVar name t).1 = _
  rw [getVar_alike h]

theorem rootValue_eq (s : Evaluator) (hpath : splitPath name.toList = none) : rootValue s name =
    match s.find name with
    | some v => .ok v
    | none => .error (.undefinedVariable name) := by
  unfold rootValue
  rw [getVar_eq, hpath]
  show (getBound name s).1 = _
  unfold getBound
  rw [Eff.get_bind]
  cases s.find name <;> rfl

theorem rootValue_setLocal (hcall : t.callStack ≠ []) (hpath : splitPath name.toList = none) :
    rootValue (setLocal name new t).2 name = .ok new := by
  obtain ⟨frame, frames, hstack⟩ := List.exists_cons_of_ne_nil hcall
  rw [rootValue_eq _ hpath]
  have hfind : (setLocal name new t).2.find name = some new := by
    simp only [setLocal, Eff.modify, hstack]
    show ((((name, new) :: frame.locals).lookup name).or _) = _
    rw [List.lookup_cons_self]
    rfl
  rw [hfind]

theorem rootValue_setLocal_ne (hne : name' ≠ name) :
    rootValue (setLocal name new t).2 name' = rootValue t name' := by
  cases hpath : splitPath name'.toList with
  | some p =>
    unfold rootValue
    rw [getVar_eq, hpath]
    rfl
  | none =>
    rw [rootValue_eq _ hpath, rootValue_eq _ hpath]
    have hfind : (setLocal name new t).2.find name' = t.find name' := by
      cases hstack : t.callStack with
      | nil => simp only [setLocal, Eff.modify, hstack]
      | cons frame frames =>
        simp only [setLocal, Eff.modify, hstack]
        have hkey : (name' == name) = false := beq_eq_false_iff_ne.mpr hne
        unfold Evaluator.find
        rw [hstack]
        show ((((name, new) :: frame.locals).lookup name').or _) = _
        rw [List.lookup_cons, hkey]
        rfl
    rw [hfind]

/-- what a successful assignment leaves -/
structure Updates (s s' : Evaluator) (target : AssignTarget) (steps : List Step) (v : Value) : Prop where
  located : Located s target steps
  put : readPlace s' target.root steps = .ok v
  frame : ∀ root' steps', Elsewhere target.root steps root' steps' →
    readPlace s' root' steps' = readPlace s root' steps'

theorem Assigned.updates {s' : Evaluator} (h : Assigned s target v steps new s')
    (hcall : s.callStack ≠ []) (hpath : splitPath target.root.toList = none) :
    Updates s s' target steps v := by
  obtain ⟨t, hst, rfl⟩ := h.state
  have hroot : rootValue (setLocal target.root new t).2 target.root = .ok new :=
    rootValue_setLocal (by rwa [← hst.callStack]) hpath
  refine ⟨h.located, ?_, fun root' steps' helse => ?_⟩
  · show (rootValue _ target.root >>= fun b => readAt b steps) = _
    rw [hroot]
    rcases h.written with ⟨rfl, rfl⟩ | ⟨base, -, hwritten⟩
    · rfl
    · exact readAt_writeAt hwritten
  · by_cases hname : root' = target.root
    · have hparts := helse.resolve_left fun hne => hne hname
      obtain ⟨base, hbase, hwritten⟩ := h.written.resolve_left fun hnil => by
        obtain ⟨common, st, st', rest, rest', hsteps, -⟩ := hparts
        rw [hnil.1] at hsteps
        exact absurd hsteps.symm (List.append_ne_nil_of_right_ne_nil _ (List.cons_ne_nil _ _))
      show (rootValue _ root' >>= fun b => readAt b steps') =
        rootValue s root' >>= fun b => readAt b steps'
      rw [hname, hroot, hbase]
      exact readAt_writeAt_parts hwritten hparts
    · show (rootValue _ root' >>= fun b => readAt b steps') =
        rootValue s root' >>= fun b => readAt b steps'
      rw [rootValue_setLocal_ne hname, rootValue_alike hst]

/-- **Main.** Once its value is there, an assignment to a variable of the call, whose index expressions have
no side effects, leaves the state if it returns an error.  If it does not, the path has a place, where
the value is now, and nothing has changed elsewhere; so a path is read as before if its index
expressions still give a place elsewhere, and the path that was assigned has the value if they still
give its place. -/
theorem assign_lens {s₀ s : Evaluator} {fuel : Nat} {value : Expr} {v : Value} {target : AssignTarget}
    (hvalue : evalExpr fuel value s₀ = (.ok v, s)) (hcall : s.callStack ≠ [])
    (hpath : splitPath target.root.toList = none) (hquiet : Quiet s target) :
    (∀ err s', evalStmt (fuel + 1) (.assign target value) s₀ = (.error err, s') → Alike s s') ∧
      ∀ u s', evalStmt (fuel + 1) (.assign target value) s₀ = (.ok u, s') →
        ∃ steps, Updates s s' target steps v ∧
          (Located s' target steps → Reads s' (Parser.targetExpr target) (.ok v)) ∧
          ∀ target' steps', Located s target' steps' → Located s' target' steps' →
            Elsewhere target.root steps target'.root steps' →
              ∃ r, Reads s (Parser.targetExpr target') r ∧ Reads s' (Parser.targetExpr target') r := by
  have hstmt : evalStmt (fuel + 1) (.assign target value) s₀ =
      (assignTarget fuel target v >>= fun _ => Pure.pure Value.unit) s := Eff.bind_ok hvalue
  rw [hstmt]
  refine ⟨fun err s' herr => ?_, fun u s' hok => ?_⟩
  · have hkept := hquiet.assign (.refl s) fuel v
    change Eff.bind (assignTarget fuel target v) _ s = _ at herr
    unfold Eff.bind at herr
    generalize assignTarget fuel target v s = out at hkept herr
    obtain ⟨_ | _ | _ | _, t⟩ := out <;> cases herr
    exact hkept _ rfl
  · obtain ⟨_, s₁, hassign, hpure⟩ := Eff.bind_eq_ok hok
    obtain ⟨-, rfl⟩ := Prod.mk.inj hpure
    obtain ⟨steps, new, hassigned⟩ := hquiet.assigned (.refl s) hassign
    have hupdates := hassigned.updates hcall hpath
    refine ⟨steps, hupdates, fun hlocated => ?_, fun target' steps' hs hs' helse => ?_⟩
    · have hreads := hlocated.reads
      rwa [hupdates.put] at hreads
    · have hreads := hs'.reads
      rw [hupdates.frame _ _ helse] at hreads
      exact ⟨_, hs.reads, hreads⟩

def calling (locals : List (String × Value)) : Evaluator :=
  { Evaluator.new [] with callStack := [⟨locals, "f"⟩] }

/-- the entry of `a` at this index -/
def entryOf (index : Expr) : AssignTarget := .index (.ident "a") index

/-- `a[1] = 7` -/
theorem assign_lens_entry : ∃ s' steps,
    evalStmt 3 (.assign (entryOf (.literal (.int 1))) (.literal (.int 7)))
      (calling [("a", array [i64 0, i64 5])]) = (.ok unit, s') ∧
    Updates (calling [("a", array [i64 0, i64 5])]) s' (entryOf (.literal (.int 1))) steps (i64 7) := by
  have hquiet : Quiet (calling [("a", array [i64 0, i64 5])]) (entryOf (.literal (.int 1))) :=
    ⟨trivial, .ok (i64 1), by rintro ⟨⟩, 1, _, rfl, rfl⟩
  have hvalue : evalExpr 2 (.literal (.int 7)) (calling [("a", array [i64 0, i64 5])]) =
      (.ok (i64 7), calling [("a", array [i64 0, i64 5])]) := rfl
  have hlens := assign_lens hvalue (List.cons_ne_nil _ _) (by decide) hquiet
  obtain ⟨steps, hupdates, -⟩ := hlens.2 unit _ rfl
  exact ⟨_, steps, rfl, hupdates⟩

/-- an index that is read from the array itself; a constant, outside of a call; a variant; a value that
changes the variable before the assignment returns an error -/
theorem not_assign_lens :
    (let s := calling [("a", array [i64 0, i64 5])]
     let target := entryOf (.index (.ident "a") (.literal (.int 0)))
     let out := evalStmt 6 (.assign target (.literal (.int 1))) s
     Quiet s target ∧ (evalExpr 6 (Parser.targetExpr target) s).1 = .ok (i64 0) ∧ out.1 = .ok unit ∧
       (evalExpr 6 (Parser.targetExpr target) out.2).1 = .ok (i64 5)) ∧
    (let out := evalStmt 6 (.assign (.ident "K_NEIGHBORS") (.literal (.int 1))) (Evaluator.new [])
     out.1 = .ok unit ∧ (evalExpr 6 (.ident "K_NEIGHBORS") out.2).1 = .ok (u8 7)) ∧
    (let out := evalStmt 6 (.assign (.ident "E::V") (.literal (.int 1))) (calling [])
     out.1 = .ok unit ∧ (evalExpr 6 (.ident "E::V") out.2).1 = .ok (enum "E" "V")) ∧
    (let s := calling [("a", array [i64 5])]
     let value := Expr.block [.assign (.ident "a") (.arrayInit []), .expr (.literal (.int 1))]
     let target := entryOf (.literal (.int 0))
     let out := evalStmt 6 (.assign target value) s
     (evalExpr 6 (Parser.targetExpr target) s).1 = .ok (i64 5) ∧
       out.1 = .error (.indexOutOfBounds 0 0) ∧ ¬ Alike s out.2) := by
  refine ⟨⟨⟨trivial, .ok (i64 0), by rintro ⟨⟩, 3, _, rfl, rfl⟩, rfl, rfl, rfl⟩, ⟨rfl, rfl⟩, ⟨rfl, rfl⟩, rfl, rfl,
    fun h => ?_⟩
  exact absurd (congrArg (fun frames => frames.length) (congrArg Frame.locals (List.cons.inj h.callStack).1))
    (by decide)

end Ekkl
end EkKor
