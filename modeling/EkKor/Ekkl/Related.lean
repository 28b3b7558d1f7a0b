import EkKor.Ekkl.Eval

/-!
# Two runs of the evaluator

What an evaluation reads of the constants, of the enumerations and of the functions is what it finds
under a name.

* `Respects.at`         relations that the steps of an evaluation keep;
* `Evaluator.global`    what a name stands for outside of a call;
* `Knows`               a state that knows what another one knows, but for some names;
* `followsAt`           an evaluation that needs none of these names ends in the same way in the
                        second state, and with more fuel.
-/

namespace EkKor
namespace Ekkl

/-! ## names in a tree -/

/-- what holds of the names that are read, declared and assigned -/
structure Uses where
  reads : String → Prop
  declares : String → Prop
  assigns : String → Prop

def AssignTarget.root : AssignTarget → String
  | .ident name => name
  | .field base _ => base.root
  | .index base _ => base.root

section
variable (u : Uses)

mutual

def exprWithin : Expr → Prop
  | .literal _ => True
  | .ident name => u.reads name
  | .binary _ left right => exprWithin left ∧ exprWithin right
  | .unary _ e | .fieldAccess e _ | .cast e _ => exprWithin e
  | .call _ args | .arrayInit args => exprsWithin args
  | .methodCall e _ args => exprWithin e ∧ exprsWithin args
  | .index e index => exprWithin e ∧ exprWithin index
  | .structInit _ fields => fieldsWithin fields
  | .ifExpr cond thenExpr elseExpr => exprWithin cond ∧ exprWithin thenExpr ∧ exprWithin elseExpr
  | .block stmts => blockWithin stmts

def exprsWithin : List Expr → Prop
  | [] => True
  | e :: es => exprWithin e ∧ exprsWithin es

def fieldsWithin : List (String × Expr) → Prop
  | [] => True
  | (_, e) :: fields => exprWithin e ∧ fieldsWithin fields

def stmtWithin : Stmt → Prop
  | .letStmt name _ _ init => u.declares name ∧ exprWithin init
  | .assign target value => u.assigns target.root ∧ targetWithin target ∧ exprWithin value
  | .ret none => True
  | .ret (some value) => exprWithin value
  | .ifStmt cond thenBlock elseBlock => exprWithin cond ∧ blockWithin thenBlock ∧ elseWithin elseBlock
  | .matchStmt e arms => exprWithin e ∧ armsWithin arms
  | .forStmt var start stop body =>
    u.declares var ∧ exprWithin start ∧ exprWithin stop ∧ blockWithin body
  | .whileStmt cond body => exprWithin cond ∧ blockWithin body
  | .expr e => exprWithin e

def blockWithin : List Stmt → Prop
  | [] => True
  | s :: stmts => stmtWithin s ∧ blockWithin stmts

def elseWithin : Option (List Stmt) → Prop
  | none => True
  | some block => blockWithin block

def armsWithin : List (Pattern × Expr) → Prop
  | [] => True
  | (_, body) :: arms => exprWithin body ∧ armsWithin arms

def targetWithin : AssignTarget → Prop
  | .ident name => u.reads name
  | .field base _ => targetWithin base
  | .index base index => targetWithin base ∧ exprWithin index

end

variable {u}

theorem exprsWithin_iff (es : List Expr) : exprsWithin u es ↔ ∀ e ∈ es, exprWithin u e := by
  induction es with
  | nil => exact iff_of_true trivial fun e he => absurd he List.not_mem_nil
  | cons e es ih => rw [exprsWithin, ih, List.forall_mem_cons]

theorem fieldsWithin_iff (fields : List (String × Expr)) :
    fieldsWithin u fields ↔ ∀ f ∈ fields, exprWithin u f.2 := by
  induction fields with
  | nil => exact iff_of_true trivial fun f hf => absurd hf List.not_mem_nil
  | cons f fields ih => rw [fieldsWithin, ih, List.forall_mem_cons]

theorem armsWithin_iff (arms : List (Pattern × Expr)) :
    armsWithin u arms ↔ ∀ arm ∈ arms, exprWithin u arm.2 := by
  induction arms with
  | nil => exact iff_of_true trivial fun arm harm => absurd harm List.not_mem_nil
  | cons arm arms ih => rw [armsWithin, ih, List.forall_mem_cons]

theorem blockWithin_iff (stmts : List Stmt) : blockWithin u stmts ↔ ∀ s ∈ stmts, stmtWithin u s := by
  induction stmts with
  | nil => exact iff_of_true trivial fun s hs => absurd hs List.not_mem_nil
  | cons s stmts ih => rw [blockWithin, ih, List.forall_mem_cons]

end

def anyUses : Uses := ⟨fun _ => True, fun _ => True, fun _ => True⟩

mutual

theorem exprWithin_any : ∀ e, exprWithin anyUses e
  | .literal _ | .ident _ => trivial
  | .binary _ left right => ⟨exprWithin_any left, exprWithin_any right⟩
  | .unary _ e | .fieldAccess e _ | .cast e _ => exprWithin_any e
  | .call _ args | .arrayInit args => exprsWithin_any args
  | .methodCall e _ args => ⟨exprWithin_any e, exprsWithin_any args⟩
  | .index e index => ⟨exprWithin_any e, exprWithin_any index⟩
  | .structInit _ fields => fieldsWithin_any fields
  | .ifExpr cond thenExpr elseExpr =>
    ⟨exprWithin_any cond, exprWithin_any thenExpr, exprWithin_any elseExpr⟩
  | .block stmts => blockWithin_any stmts

theorem exprsWithin_any : ∀ es, exprsWithin anyUses es
  | [] => trivial
  | e :: es => ⟨exprWithin_any e, exprsWithin_any es⟩

theorem fieldsWithin_any : ∀ fields, fieldsWithin anyUses fields
  | [] => trivial
  | (_, e) :: fields => ⟨exprWithin_any e, fieldsWithin_any fields⟩

theorem stmtWithin_any : ∀ s, stmtWithin anyUses s
  | .letStmt _ _ _ init => ⟨trivial, exprWithin_any init⟩
  | .assign target value => ⟨trivial, targetWithin_any target, exprWithin_any value⟩
  | .ret none => trivial
  | .ret (some value) => exprWithin_any value
  | .ifStmt cond thenBlock elseBlock =>
    ⟨exprWithin_any cond, blockWithin_any thenBlock, elseWithin_any elseBlock⟩
  | .matchStmt e arms => ⟨exprWithin_any e, armsWithin_any arms⟩
  | .forStmt _ start stop body =>
    ⟨trivial, exprWithin_any start, exprWithin_any stop, blockWithin_any body⟩
  | .whileStmt cond body => ⟨exprWithin_any cond, blockWithin_any body⟩
  | .expr e => exprWithin_any e

theorem blockWithin_any : ∀ stmts, blockWithin anyUses stmts
  | [] => trivial
  | s :: stmts => ⟨stmtWithin_any s, blockWithin_any stmts⟩

theorem elseWithin_any : ∀ block, elseWithin anyUses block
  | none => trivial
  | some block => blockWithin_any block

theorem armsWithin_any : ∀ arms, armsWithin anyUses arms
  | [] => trivial
  | (_, body) :: arms => ⟨exprWithin_any body, armsWithin_any arms⟩

theorem targetWithin_any : ∀ target, targetWithin anyUses target
  | .ident _ => trivial
  | .field base _ => targetWithin_any base
  | .index base index => ⟨targetWithin_any base, exprWithin_any index⟩

end

/-! ## what a state knows -/

def Evaluator.global (s : Evaluator) (name : String) : Option Value :=
  (s.globals.lookup name).or ((isEnumVariant s.enums name).map fun p => .enum p.1 name)

theorem isEnumVariant_plain {enums : List (String × List String)} {name : String}
    (h : splitPath name.toList = none) : isEnumVariant enums name =
      (enums.find? fun e => e.2.contains name).map fun e => (e.1, name) := by
  unfold isEnumVariant
  rw [h]

def Lacks (vars fns : String → Prop) : EvalError → Prop
  | .undefinedVariable name => vars name
  | .undefinedFunction name => fns name
  | _ => False

/-- what `e` does not know as `e'` does are some variables and functions, of which it knows nothing; this
is about the names that the functions of `e` use -/
structure Knows (u : Uses) (vars fns : String → Prop) (e e' : Evaluator) : Prop where
  global : ∀ name, u.reads name → splitPath name.toList = none →
    e.global name = e'.global name ∨ e.global name = none ∧ vars name
  function : ∀ name, e.functions.lookup name = e'.functions.lookup name ∨
    e.functions.lookup name = none ∧ fns name
  body : ∀ name f, e.functions.lookup name = some f → blockWithin u f.body

/-- the enumerations, functions and constants are the same -/
structure SameItems (s e : Evaluator) : Prop where
  enums : s.enums = e.enums
  functions : s.functions = e.functions
  globals : s.globals = e.globals

/-- the same calls are running, `n` of them, with the items of `e` and of `e'` -/
structure Beside (e e' : Evaluator) (n : Nat) (s t : Evaluator) : Prop where
  callStack : s.callStack = t.callStack
  depth : s.callStack.length = n
  left : SameItems s e
  right : SameItems t e'

theorem SameItems.global {s e : Evaluator} (h : SameItems s e) (name : String) :
    s.global name = e.global name := by
  unfold Evaluator.global
  rw [h.enums, h.globals]

/-! ## evaluations that are related -/

section
variable {ι α β : Type} {u : ι → Uses} {W : ι → String → Prop} {Bad : EvalError → Prop} {loose : Prop}

/-- from related states both end in the same way, in related states -/
def Parallel (Bad : EvalError → Prop) (loose : Prop) (R : Evaluator → Evaluator → Prop)
    (m m' : Eval α) : Prop :=
  Eff.Simulates Bad loose R R R m m'

section
variable {R : Evaluator → Evaluator → Prop}

theorem Parallel.pure (a : α) : Parallel Bad loose R (Pure.pure a : Eval α) (Pure.pure a) :=
  Eff.Simulates.pure a fun _ _ => id

theorem Parallel.throw (err : EvalError) :
    Parallel Bad loose R (Eff.throw err : Eval α) (Eff.throw err) :=
  Eff.Simulates.throw err fun _ _ => id

theorem Parallel.lift (r : Result α) : Parallel Bad loose R (Eff.lift r) (Eff.lift r) :=
  Eff.Simulates.lift r (fun _ _ => id) fun _ _ => id

theorem Parallel.bind {m m' : Eval α} {f f' : α → Eval β} (h : Parallel Bad loose R m m')
    (hf : ∀ a, Parallel Bad loose R (f a) (f' a)) : Parallel Bad loose R (m >>= f) (m' >>= f') :=
  Eff.Simulates.bind h hf

theorem Parallel.mapM {f f' : α → Eval β} (l : List α) (h : ∀ a ∈ l, Parallel Bad loose R (f a) (f' a)) :
    Parallel Bad loose R (l.mapM f) (l.mapM f') :=
  Eff.Simulates.mapM l h

theorem Parallel.perform (h : ∀ s t, R s t → ∀ op, R { s with performed := s.performed ++ [op] }
    { t with performed := t.performed ++ [op] }) (op : Operation) :
    Parallel Bad loose R (Ekkl.perform op) (Ekkl.perform op) :=
  Eff.Simulates.bind (Eff.Simulates.modify fun s t hst => h s t hst op) fun _ => Parallel.lift op.run

theorem Parallel.forRange {body body' : Int64 → Eval Unit}
    (h : ∀ i, Parallel Bad loose R (body i) (body' i)) (start : Int64) (rounds : Nat) :
    Parallel Bad loose R (Ekkl.forRange body start rounds) (Ekkl.forRange body' start rounds) := by
  induction rounds generalizing start with
  | zero => exact .pure _
  | succ rounds ih => exact (h start).bind fun _ => ih _

end

/-- relations that the steps of an evaluation keep; it reads some names, writes to others, and its
calls go from one relation to another and back -/
structure Respects (u : ι → Uses) (W : ι → String → Prop) (Bad : EvalError → Prop) (loose : Prop)
    (R : ι → Evaluator → Evaluator → Prop) : Prop where
  declares : ∀ i name, (u i).declares name → W i name
  assigns : ∀ i name, (u i).assigns name → W i name
  perform : ∀ i op, Parallel Bad loose (R i) (perform op) (perform op)
  getVar : ∀ i name, (u i).reads name → Parallel Bad loose (R i) (getVar name) (getVar name)
  setLocal : ∀ i name value, W i name →
    Parallel Bad loose (R i) (setLocal name value) (setLocal name value)
  depth : ∀ {i s t}, R i s t → s.callStack.length = t.callStack.length
  function : ∀ {i s t}, R i s t → ∀ name, s.functions.lookup name = t.functions.lookup name ∨
    s.functions.lookup name = none ∧ Bad (.undefinedFunction name)
  body : ∀ {i s t}, R i s t → ∀ {name f}, s.functions.lookup name = some f →
    ∃ j, blockWithin (u j) f.body ∧
      (∀ frame : Frame, R j { s with callStack := frame :: s.callStack }
        { t with callStack := frame :: t.callStack }) ∧
      ∀ s' t', R j s' t' → R i { s' with callStack := s'.callStack.tail }
        { t' with callStack := t'.callStack.tail }
  ret : ∀ value, ¬Bad (.ret value)

/-- the evaluations with an amount of fuel and with another amount are parallel -/
structure ParallelAt (u : ι → Uses) (W : ι → String → Prop) (Bad : EvalError → Prop)
    (loose : Prop) (R : ι → Evaluator → Evaluator → Prop) (fuel fuel' : Nat) : Prop where
  call : ∀ {i} name args, Parallel Bad loose (R i) (call fuel name args) (call fuel' name args)
  block : ∀ i stmts, blockWithin (u i) stmts →
    Parallel Bad loose (R i) (evalBlock fuel stmts) (evalBlock fuel' stmts)
  stmt : ∀ {i stmt}, stmtWithin (u i) stmt →
    Parallel Bad loose (R i) (evalStmt fuel stmt) (evalStmt fuel' stmt)
  loop : ∀ {i cond body}, exprWithin (u i) cond → blockWithin (u i) body →
    Parallel Bad loose (R i) (whileLoop fuel cond body) (whileLoop fuel' cond body)
  expr : ∀ {i expr}, exprWithin (u i) expr →
    Parallel Bad loose (R i) (evalExpr fuel expr) (evalExpr fuel' expr)
  assign : ∀ {i target value}, W i target.root → targetWithin (u i) target →
    Parallel Bad loose (R i) (assignTarget fuel target value) (assignTarget fuel' target value)
  value : ∀ {i target}, targetWithin (u i) target →
    Parallel Bad loose (R i) (getAssignTargetValue fuel target) (getAssignTargetValue fuel' target)

variable {R : ι → Evaluator → Evaluator → Prop} {i : ι} {fuel fuel' : Nat}

theorem ParallelAt.zero (h : 0 = fuel' ∨ loose) : ParallelAt u W Bad loose R 0 fuel' := by
  rcases h with rfl | h
  · have hout {α : Type} {i : ι} : Parallel Bad loose (R i) (Eff.outOfFuel : Eval α) Eff.outOfFuel :=
      Eff.Simulates.outOfFuel
    exact ⟨fun _ _ => hout, fun _ _ _ => hout, fun _ => hout, fun _ _ => hout, fun _ => hout,
      fun _ _ => hout, fun _ => hout⟩
  · have hout {α : Type} {i : ι} {m : Eval α} : Parallel Bad loose (R i) Eff.outOfFuel m :=
      Eff.Simulates.starved h
    exact ⟨fun _ _ => hout, fun _ _ _ => hout, fun _ => hout, fun _ _ => hout, fun _ => hout,
      fun _ _ => hout, fun _ => hout⟩

theorem ParallelAt.call_succ (hR : Respects u W Bad loose R)
    (h : ParallelAt u W Bad loose R fuel fuel') (name : String) (args : List Value) :
    Parallel Bad loose (R i) (Ekkl.call (fuel + 1) name args) (Ekkl.call (fuel' + 1) name args) := by
  unfold Ekkl.call
  split_ifs
  · exact hR.perform i _
  · refine Eff.Simulates.get fun s t hst => ?_
    rcases hR.function hst name with hsame | ⟨hnone, hbad⟩
    · rw [← hsame, ← hR.depth hst]
      cases hfunc : s.functions.lookup name with
      | none => exact .inr ⟨rfl, hst⟩
      | some func =>
        dsimp only
        split_ifs
        · exact .inr ⟨rfl, hst⟩
        · obtain ⟨j, hbody, hpush, hpop⟩ := hR.body hst hfunc
          refine Eff.Simulates.bind (P := fun s' t' => s' = s ∧ t' = t) (Q := R j)
            (Eff.Simulates.modify ?_) (fun _ => ?_) s t ⟨rfl, rfl⟩
          · rintro _ _ ⟨rfl, rfl⟩
            exact hpush _
          refine (h.block j _ hbody).attempt (fun _ _ => id) (fun _ _ => id) (fun err s he => ?_)
            fun result => (Eff.Simulates.modify hpop).bind fun _ => ?_
          · cases err with
            | ret value => exact absurd he (hR.ret value)
            | _ => exact he
          · split
            · exact Parallel.pure _
            · exact Parallel.pure _
            · exact Parallel.throw _
    · rw [hnone]
      exact .inl hbad

theorem ParallelAt.stmt_succ (hR : Respects u W Bad loose R)
    (h : ParallelAt u W Bad loose R fuel fuel') {stmt : Stmt} (hstmt : stmtWithin (u i) stmt) :
    Parallel Bad loose (R i) (evalStmt (fuel + 1) stmt) (evalStmt (fuel' + 1) stmt) := by
  cases stmt with
  | letStmt name isMut ty init =>
    refine (h.expr hstmt.2).bind fun _ => ?_
    exact (hR.setLocal _ _ _ (hR.declares _ _ hstmt.1)).bind fun _ => .pure _
  | assign target value =>
    exact (h.expr hstmt.2.2).bind fun _ => (h.assign (hR.assigns _ _ hstmt.1) hstmt.2.1).bind fun _ =>
      .pure _
  | ret value =>
    cases value with
    | some expr => exact (h.expr hstmt).bind fun _ => .throw _
    | none => exact (Parallel.pure _).bind fun _ => .throw _
  | ifStmt cond thenBlock elseBlock =>
    obtain ⟨hcond, hthen, helse⟩ := hstmt
    refine (h.expr hcond).bind fun _ => (Parallel.lift _).bind fun _ => ?_
    split_ifs
    · exact h.block _ _ hthen
    · cases elseBlock with
      | some elseBlock => exact h.block _ _ helse
      | none => exact .pure _
  | matchStmt expr arms =>
    refine (h.expr hstmt.1).bind fun value => ?_
    cases hfind : arms.find? fun arm => patternMatches arm.1 value with
    | some arm => exact h.expr ((armsWithin_iff arms).mp hstmt.2 arm (List.mem_of_find?_eq_some hfind))
    | none => exact .pure _
  | forStmt var start stop body =>
    obtain ⟨hvar, hstart, hstop, hbody⟩ := hstmt
    refine (h.expr hstart).bind fun _ => (Parallel.lift _).bind fun _ => ?_
    refine (h.expr hstop).bind fun _ => (Parallel.lift _).bind fun _ => ?_
    refine (Parallel.forRange (fun i => ?_) _ _).bind fun _ => .pure _
    exact (hR.setLocal _ _ _ (hR.declares _ _ hvar)).bind fun _ =>
      (h.block _ _ hbody).bind fun _ => .pure _
  | whileStmt cond body => exact h.loop hstmt.1 hstmt.2
  | expr expr => exact h.expr hstmt

theorem ParallelAt.loop_succ (h : ParallelAt u W Bad loose R fuel fuel') {cond : Expr}
    {body : List Stmt} (hcond : exprWithin (u i) cond) (hbody : blockWithin (u i) body) :
    Parallel Bad loose (R i) (whileLoop (fuel + 1) cond body)
      (whileLoop (fuel' + 1) cond body) := by
  refine (h.expr hcond).bind fun _ => (Parallel.lift _).bind fun _ => ?_
  split_ifs
  · exact (h.block _ _ hbody).bind fun _ => h.loop hcond hbody
  · exact .pure _

theorem ParallelAt.expr_succ (hR : Respects u W Bad loose R)
    (h : ParallelAt u W Bad loose R fuel fuel') {expr : Expr} (hexpr : exprWithin (u i) expr) :
    Parallel Bad loose (R i) (evalExpr (fuel + 1) expr) (evalExpr (fuel' + 1) expr) := by
  have hargs {args : List Expr} (hwithin : exprsWithin (u i) args) : Parallel Bad loose (R i)
      (args.mapM fun a => evalExpr fuel a) (args.mapM fun a => evalExpr fuel' a) :=
    Parallel.mapM args fun a ha => h.expr ((exprsWithin_iff args).mp hwithin a ha)
  cases expr with
  | literal value => exact .pure _
  | ident name => exact hR.getVar _ _ hexpr
  | binary op left right =>
    exact (h.expr hexpr.1).bind fun _ => (h.expr hexpr.2).bind fun _ => hR.perform _ _
  | unary op inner => exact (Parallel.bind (h.expr hexpr) fun _ => hR.perform _ _)
  | call func args => exact (hargs hexpr).bind fun _ => h.call func _
  | methodCall receiver method args =>
    exact (h.expr hexpr.1).bind fun _ => (hargs hexpr.2).bind fun _ => hR.perform _ _
  | fieldAccess inner field => exact Parallel.bind (h.expr hexpr) fun _ => .lift _
  | index inner index =>
    exact (h.expr hexpr.1).bind fun _ => (h.expr hexpr.2).bind fun _ => hR.perform _ _
  | structInit name fields =>
    refine (Parallel.mapM fields fun f hf => ?_).bind fun _ => .pure _
    exact (h.expr ((fieldsWithin_iff fields).mp hexpr f hf)).bind fun _ => .pure _
  | arrayInit elements => exact (hargs hexpr).bind fun _ => .pure _
  | cast inner ty => exact Parallel.bind (h.expr hexpr) fun _ => hR.perform _ _
  | ifExpr cond thenExpr elseExpr =>
    obtain ⟨hcond, hthen, helse⟩ := hexpr
    refine (h.expr hcond).bind fun _ => (Parallel.lift _).bind fun _ => ?_
    split_ifs
    · exact h.expr hthen
    · exact h.expr helse
  | block stmts => exact h.block _ _ hexpr

theorem ParallelAt.assign_succ (hR : Respects u W Bad loose R)
    (h : ParallelAt u W Bad loose R fuel fuel') {target : AssignTarget} {value : Value}
    (hroot : W i target.root) (htarget : targetWithin (u i) target) :
    Parallel Bad loose (R i) (assignTarget (fuel + 1) target value)
      (assignTarget (fuel' + 1) target value) := by
  cases target with
  | ident name => exact hR.setLocal _ _ _ hroot
  | field base field =>
    refine Parallel.bind (h.value htarget) fun _ => ?_
    exact (Parallel.lift _).bind fun _ => h.assign hroot htarget
  | index base index =>
    refine (h.expr htarget.2).bind fun _ => (Parallel.lift _).bind fun _ => ?_
    exact (h.value htarget.1).bind fun _ => (hR.perform _ _).bind fun _ => h.assign hroot htarget.1

theorem ParallelAt.value_succ (hR : Respects u W Bad loose R)
    (h : ParallelAt u W Bad loose R fuel fuel') {target : AssignTarget}
    (htarget : targetWithin (u i) target) :
    Parallel Bad loose (R i) (getAssignTargetValue (fuel + 1) target)
      (getAssignTargetValue (fuel' + 1) target) := by
  cases target with
  | ident name => exact hR.getVar _ _ htarget
  | field base field => exact Parallel.bind (h.value htarget) fun _ => .lift _
  | index base index =>
    exact (h.value htarget.1).bind fun _ => (h.expr htarget.2).bind fun _ => hR.perform _ _

/-- **Main.** What an evaluation reads and writes decides which relations it keeps. -/
theorem Respects.at (hR : Respects u W Bad loose R) (hle : fuel ≤ fuel')
    (hloose : fuel = fuel' ∨ loose) : ParallelAt u W Bad loose R fuel fuel' := by
  induction fuel generalizing fuel' with
  | zero => exact .zero hloose
  | succ fuel ih =>
    obtain ⟨fuel', rfl⟩ := Nat.exists_eq_succ_of_ne_zero (Nat.ne_zero_of_lt hle)
    have hnext := ih (Nat.le_of_succ_le_succ hle) (hloose.imp_left Nat.succ.inj)
    refine ⟨hnext.call_succ hR, fun i stmts hstmts => ?_, hnext.stmt_succ hR, hnext.loop_succ,
      hnext.expr_succ hR, hnext.assign_succ hR, hnext.value_succ hR⟩
    exact Eff.Simulates.foldlM stmts
      (fun _ stmt hs => hnext.stmt ((blockWithin_iff stmts).mp hstmts stmt hs)) _

end

/-! ## a state that knows more -/

variable {u : Uses} {vars fns : String → Prop} {loose : Prop} {e e' : Evaluator} {n : Nat} {α β : Type}

def Follows (vars fns : String → Prop) (loose : Prop) (e e' : Evaluator) (n : Nat) (m m' : Eval α) :
    Prop :=
  Eff.Simulates (Lacks vars fns) loose (Beside e e' n) (Beside e e' n) (Beside e e' n) m m'

theorem follows_perform (op : Operation) :
    Follows vars fns loose e e' n (perform op) (perform op) :=
  Parallel.perform (fun _ _ h _ => ⟨h.callStack, h.depth, ⟨h.left.enums, h.left.functions,
    h.left.globals⟩, ⟨h.right.enums, h.right.functions, h.right.globals⟩⟩) op

def Evaluator.find (s : Evaluator) (name : String) : Option Value :=
  (s.callStack.head?.bind fun frame => frame.locals.lookup name).or (s.global name)

def getBound (name : String) : Eval Value := do
  match (← Eff.get).find name with
  | some val => return val
  | none => Eff.throw (.undefinedVariable name)

theorem getVar_eq (name : String) : getVar name =
    ((splitPath name.toList).elim (getBound name) fun p =>
      Pure.pure (.enum (String.ofList p.1) (String.ofList p.2))) := by
  unfold getVar
  cases splitPath name.toList with
  | some p => rfl
  | none =>
    funext s
    show (Eff.get >>= _) s = getBound name s
    unfold getBound
    rw [Eff.get_bind, Eff.get_bind]
    unfold Evaluator.find Evaluator.global
    rw [← Option.or_assoc]
    cases (s.callStack.head?.bind fun frame => frame.locals.lookup name).or (s.globals.lookup name) with
    | some val => rfl
    | none =>
      cases isEnumVariant s.enums name with
      | some p => rfl
      | none => rfl

theorem follows_getVar (hknows : Knows u vars fns e e') {name : String} (hname : u.reads name) :
    Follows vars fns loose e e' n (getVar name) (getVar name) := by
  rw [getVar_eq]
  cases hpath : splitPath name.toList with
  | some p => exact Parallel.pure _
  | none =>
    refine Eff.Simulates.get fun s t h => ?_
    have hfind : s.find name = t.find name ∨ s.find name = none ∧ vars name := by
      unfold Evaluator.find
      rw [← h.callStack, h.left.global, h.right.global]
      cases s.callStack.head?.bind fun frame => frame.locals.lookup name with
      | some val => exact .inl rfl
      | none => exact hknows.global name hname hpath
    rcases hfind with hfind | ⟨hnone, hlacks⟩
    · rw [← hfind]
      cases s.find name with
      | some val => exact .inr ⟨rfl, h⟩
      | none => exact .inr ⟨rfl, h⟩
    · rw [hnone]
      exact .inl hlacks

theorem follows_setLocal (name : String) (value : Value) :
    Follows vars fns loose e e' n (setLocal name value) (setLocal name value) := by
  refine Eff.Simulates.modify fun s t h => ?_
  have hdepth := h.depth
  rw [← h.callStack]
  cases hstack : s.callStack with
  | nil => exact h
  | cons frame frames =>
    rw [hstack] at hdepth
    exact ⟨rfl, hdepth, ⟨h.left.enums, h.left.functions, h.left.globals⟩,
      ⟨h.right.enums, h.right.functions, h.right.globals⟩⟩

variable {fuel fuel' : Nat}

theorem SameItems.of_stack {s : Evaluator} (h : SameItems s e) (frames : List Frame) :
    SameItems { s with callStack := frames } e :=
  ⟨h.enums, h.functions, h.globals⟩

theorem respects_beside (hknows : Knows u vars fns e e') :
    Respects (fun _ => u) (fun _ _ => True) (Lacks vars fns) loose (Beside e e') where
  declares _ _ _ := trivial
  assigns _ _ _ := trivial
  perform _ := follows_perform
  getVar _ _ := follows_getVar hknows
  setLocal _ name value _ := follows_setLocal name value
  depth h := congrArg List.length h.callStack
  function h name := by
    rw [h.left.functions, h.right.functions]
    exact hknows.function name
  body {n s t} h {name f} hf := by
    rw [h.left.functions] at hf
    exact ⟨n + 1, hknows.body name f hf, fun frame => ⟨congrArg (frame :: ·) h.callStack,
        congrArg (· + 1) h.depth, h.left.of_stack _, h.right.of_stack _⟩,
      fun s' t' h' => ⟨congrArg List.tail h'.callStack, List.length_tail.trans
        (congrArg (· - 1) h'.depth), h'.left.of_stack _, h'.right.of_stack _⟩⟩
  ret _ h := h

/-- **Main.** What an evaluation gives in a state is what it gives in a state that knows more, and with
more fuel, unless it runs out of fuel or lacks a name. -/
theorem followsAt (loose : Prop) (hknows : Knows u vars fns e e') (hle : fuel ≤ fuel')
    (hloose : fuel = fuel' ∨ loose) :
    ParallelAt (fun _ => u) (fun _ _ => True) (Lacks vars fns) loose (Beside e e') fuel fuel' :=
  (respects_beside hknows).at hle hloose

end Ekkl
end EkKor
