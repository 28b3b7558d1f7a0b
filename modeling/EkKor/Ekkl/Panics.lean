import EkKor.Ekkl.Operands

/-!
# When the evaluator panics

An evaluation panics if and only if one of its operations does not exist for its operands.

* `Clear`          the panics of an evaluation are those of its operations;
* `ClearAt`        all evaluations with an amount of fuel are clear;
* `total_iff`      when an operation and a call do not panic.
-/

namespace EkKor
namespace Ekkl

/-- the evaluation panics if and only if it performs an operation that does not exist -/
def Clear {α : Type} (m : Eval α) : Prop :=
  Eff.Traced Evaluator.performed (fun op => ¬op.Defined) m

variable {α β : Type}

theorem Clear.bind {m : Eval α} {f : α → Eval β} (h : Clear m) (hf : ∀ a, Clear (f a)) :
    Clear (m >>= f) := Eff.Traced.bind h hf

theorem Clear.pure (a : α) : Clear (Pure.pure a : Eval α) := Eff.Traced.pure a

theorem Clear.lift {r : Result α} (h : r ≠ .panic) : Clear (Eff.lift r) := Eff.Traced.lift h

theorem clear_perform (op : Operation) : Clear (perform op) := by
  intro s
  refine ⟨[op], rfl, ?_⟩
  show op.run = .panic ↔ _
  rw [run_panic_iff]
  simp

theorem clear_getVar (name : String) : Clear (getVar name) := by
  unfold getVar
  split
  · exact .pure _
  · refine Clear.bind Eff.Traced.get fun s => ?_
    split
    · exact .pure _
    · split
      · exact .pure _
      · exact Eff.Traced.throw _

theorem clear_setLocal (name : String) (value : Value) : Clear (setLocal name value) := by
  refine Eff.Traced.modify fun s => ?_
  split <;> rfl

theorem clear_forRange {body : Int64 → Eval Unit} (h : ∀ i, Clear (body i)) (start : Int64) (n : Nat) :
    Clear (forRange body start n) := by
  induction n generalizing start with
  | zero => exact .pure _
  | succ n ih => exact (h start).bind fun _ => ih _

theorem clear_asBool (v : Value) : Clear (Eff.lift v.asBool) := by
  refine .lift ?_
  cases v <;> exact nofun

theorem clear_asI64 (v : Value) : Clear (Eff.lift v.asI64) := by
  refine .lift ?_
  unfold Value.asI64 Value.asInteger
  split <;> exact nofun

theorem clear_getField (v : Value) (field : String) : Clear (Eff.lift (v.getField field)) := by
  refine .lift ?_
  unfold Value.getField
  split
  · split <;> exact nofun
  · exact nofun

theorem clear_setField (v : Value) (field : String) (value : Value) :
    Clear (Eff.lift (v.setField field value)) := by
  refine .lift ?_
  unfold Value.setField
  split <;> exact nofun

/-- the evaluations with an amount of fuel are clear -/
structure ClearAt (fuel : Nat) : Prop where
  call : ∀ name args, Clear (call fuel name args)
  block : ∀ stmts, Clear (evalBlock fuel stmts)
  stmt : ∀ stmt, Clear (evalStmt fuel stmt)
  loop : ∀ cond body, Clear (whileLoop fuel cond body)
  expr : ∀ expr, Clear (evalExpr fuel expr)
  assign : ∀ target value, Clear (assignTarget fuel target value)
  value : ∀ target, Clear (getAssignTargetValue fuel target)

variable {fuel : Nat}

theorem ClearAt.zero : ClearAt 0 :=
  ⟨fun _ _ => Eff.Traced.outOfFuel, fun _ => Eff.Traced.outOfFuel, fun _ => Eff.Traced.outOfFuel,
    fun _ _ => Eff.Traced.outOfFuel, fun _ => Eff.Traced.outOfFuel, fun _ _ => Eff.Traced.outOfFuel,
    fun _ => Eff.Traced.outOfFuel⟩

theorem ClearAt.call_succ (h : ClearAt fuel) (name : String) (args : List Value) :
    Clear (Ekkl.call (fuel + 1) name args) := by
  unfold Ekkl.call
  split_ifs
  · exact clear_perform _
  · refine Clear.bind Eff.Traced.get fun s => ?_
    split
    · exact Eff.Traced.throw _
    · next func _ =>
      split_ifs
      · exact Eff.Traced.throw _
      · refine Clear.bind (Eff.Traced.modify fun _ => rfl) fun _ => ?_
        refine Clear.bind (Eff.Traced.attempt (h.block func.body)) fun result => ?_
        refine Clear.bind (Eff.Traced.modify fun _ => rfl) fun _ => ?_
        split
        · exact .pure _
        · exact .pure _
        · exact Eff.Traced.throw _

theorem ClearAt.stmt_succ (h : ClearAt fuel) (stmt : Stmt) : Clear (evalStmt (fuel + 1) stmt) := by
  cases stmt with
  | letStmt name isMut ty init =>
    exact (h.expr init).bind fun _ => (clear_setLocal _ _).bind fun _ => .pure _
  | assign target value =>
    exact (h.expr value).bind fun _ => (h.assign target _).bind fun _ => .pure _
  | ret value =>
    cases value with
    | some expr => exact (h.expr expr).bind fun _ => Eff.Traced.throw _
    | none => exact Clear.bind (.pure _) fun _ => Eff.Traced.throw _
  | ifStmt cond thenBlock elseBlock =>
    refine (h.expr cond).bind fun _ => (clear_asBool _).bind fun _ => ?_
    split_ifs
    · exact h.block _
    · cases elseBlock with
      | some elseBlock => exact h.block _
      | none => exact .pure _
  | matchStmt expr arms =>
    refine (h.expr expr).bind fun value => ?_
    split
    · exact h.expr _
    · exact .pure _
  | forStmt var start stop body =>
    refine (h.expr start).bind fun _ => (clear_asI64 _).bind fun _ => ?_
    refine (h.expr stop).bind fun _ => (clear_asI64 _).bind fun _ => ?_
    refine Clear.bind (clear_forRange (fun i => ?_) _ _) fun _ => .pure _
    exact (clear_setLocal _ _).bind fun _ => (h.block body).bind fun _ => .pure _
  | whileStmt cond body => exact h.loop cond body
  | expr expr => exact h.expr expr

theorem ClearAt.loop_succ (h : ClearAt fuel) (cond : Expr) (body : List Stmt) :
    Clear (whileLoop (fuel + 1) cond body) := by
  refine (h.expr cond).bind fun _ => (clear_asBool _).bind fun _ => ?_
  split_ifs
  · exact (h.block body).bind fun _ => h.loop cond body
  · exact .pure _

theorem ClearAt.expr_succ (h : ClearAt fuel) (expr : Expr) : Clear (evalExpr (fuel + 1) expr) := by
  have hargs (args : List Expr) : Clear (args.mapM fun a => evalExpr fuel a) :=
    Eff.Traced.mapM h.expr args
  cases expr with
  | literal value => exact .pure _
  | ident name => exact clear_getVar name
  | binary op left right =>
    exact (h.expr left).bind fun _ => (h.expr right).bind fun _ => clear_perform _
  | unary op inner => exact (h.expr inner).bind fun _ => clear_perform _
  | call func args => exact (hargs args).bind fun _ => h.call func _
  | methodCall receiver method args =>
    exact (h.expr receiver).bind fun _ => (hargs args).bind fun _ => clear_perform _
  | fieldAccess inner field => exact (h.expr inner).bind fun _ => clear_getField _ _
  | index inner index =>
    exact (h.expr inner).bind fun _ => (h.expr index).bind fun _ => clear_perform _
  | structInit name fields =>
    refine Clear.bind (Eff.Traced.mapM (fun f => ?_) fields) fun _ => .pure _
    exact (h.expr f.2).bind fun _ => .pure _
  | arrayInit elements => exact (hargs elements).bind fun _ => .pure _
  | cast inner ty => exact (h.expr inner).bind fun _ => clear_perform _
  | ifExpr cond thenExpr elseExpr =>
    refine (h.expr cond).bind fun _ => (clear_asBool _).bind fun _ => ?_
    split_ifs
    · exact h.expr thenExpr
    · exact h.expr elseExpr
  | block stmts => exact h.block stmts

theorem ClearAt.assign_succ (h : ClearAt fuel) (target : AssignTarget) (value : Value) :
    Clear (assignTarget (fuel + 1) target value) := by
  cases target with
  | ident name => exact clear_setLocal _ _
  | field base field =>
    refine (h.value base).bind fun _ => ?_
    exact (clear_setField _ _ _).bind fun _ => h.assign base _
  | index base index =>
    refine (h.expr index).bind fun _ => (clear_asI64 _).bind fun _ => ?_
    exact (h.value base).bind fun _ => (clear_perform _).bind fun _ => h.assign base _

theorem ClearAt.value_succ (h : ClearAt fuel) (target : AssignTarget) :
    Clear (getAssignTargetValue (fuel + 1) target) := by
  cases target with
  | ident name => exact clear_getVar name
  | field base field => exact (h.value base).bind fun _ => clear_getField _ _
  | index base index =>
    exact (h.value base).bind fun _ => (h.expr index).bind fun _ => clear_perform _

theorem clearAt (fuel : Nat) : ClearAt fuel := by
  induction fuel with
  | zero => exact ClearAt.zero
  | succ fuel ih =>
    exact ⟨ih.call_succ, fun stmts => Eff.Traced.foldlM (fun _ stmt => ih.stmt stmt) _ stmts,
      ih.stmt_succ, ih.loop_succ, ih.expr_succ, ih.assign_succ, ih.value_succ⟩

theorem call_ne_panic_iff (fuel : Nat) (name : String) (args : List Value) (s : Evaluator) :
    (call fuel name args s).1 ≠ .panic ↔
      ∀ op ∈ (call fuel name args s).2.performed.drop s.performed.length, op.Defined := by
  obtain ⟨new, hlog, hpanic⟩ := (clearAt fuel).call name args s
  rw [hlog, List.drop_left, Ne, hpanic]
  simp

/-- **Main.** An operation does not panic if and only if it exists for its operands, and a call does
not panic if and only if this holds of every operation that it performs. -/
theorem total_iff (op : Operation) (fuel : Nat) (name : String) (args : List Value)
    (s : Evaluator) :
    (op.run ≠ .panic ↔ op.Defined) ∧
      ((call fuel name args s).1 ≠ .panic ↔
        ∀ op ∈ (call fuel name args s).2.performed.drop s.performed.length, op.Defined) :=
  ⟨not_iff_comm.mp (run_panic_iff op).symm, call_ne_panic_iff fuel name args s⟩

/-- `fn quotient(a: i64, b: i64) -> i64` that returns `a / b` -/
def quotientProgram : Program :=
  ⟨[.fnDef ⟨"quotient", [⟨"a", .i64⟩, ⟨"b", .i64⟩], some .i64,
    [.ret (some (.binary .div (.ident "a") (.ident "b")))]⟩]⟩

/-- the least number divided by -1 -/
theorem not_total : ¬∀ (enums : List (String × List String)) (program : Program) (fuel : Nat)
    (name : String) (args : List Value),
    (call fuel name args (loadProgram fuel program (Evaluator.new enums)).2).1 ≠ .panic := by
  intro h
  exact h [] quotientProgram 10 "quotient" [.i64 i64Min, .i64 (-1)] rfl

end Ekkl
end EkKor
