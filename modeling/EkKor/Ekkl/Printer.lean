import EkKor.Ekkl.Ast

/-!
# EKKL: printing a tree as tokens

What a reader of the language would write for a tree.  An operand gets parentheses only where its own
level is below the level at which the parser reads it: the left operand of a binary operator is read at
the level of the operator, the right one above it.

* `BinOp.level`, `Expr.level`   the levels of the parser, the loosest first;
* `tokensAt`        an expression at a level, in parentheses where they are needed;
* `exprTokens`, `stmtTokens`    trees.
-/

namespace EkKor
namespace Ekkl

/-! ## words -/

def BinOp.token : BinOp → Token
  | .add => .plus
  | .sub => .minus
  | .mul => .star
  | .div => .slash
  | .mod => .percent
  | .eq => .eq
  | .ne => .ne
  | .lt => .lt
  | .le => .le
  | .gt => .gt
  | .ge => .ge
  | .and => .and
  | .or => .or
  | .bitAnd => .ampersand
  | .bitOr => .pipe
  | .bitXor => .caret
  | .shl => .shl
  | .shr => .shr

/-- `parse_or_expr` is level 0, `parse_multiplicative_expr` is level 9 -/
def BinOp.level : BinOp → Nat
  | .or => 0
  | .and => 1
  | .eq | .ne => 2
  | .lt | .le | .gt | .ge => 3
  | .bitOr => 4
  | .bitXor => 5
  | .bitAnd => 6
  | .shl | .shr => 7
  | .add | .sub => 8
  | .mul | .div | .mod => 9

theorem BinOp.level_le (op : BinOp) : op.level ≤ 9 := by
  cases op <;> decide

def UnOp.token : UnOp → Token
  | .not => .not
  | .neg => .minus
  | .bitNot => .tilde

def Literal.tokens : Literal → List Token
  | .int n => [.intLit n]
  | .fixed bits => [.fixedLit bits]
  | .bool true => [.trueKw]
  | .bool false => [.falseKw]
  | .string s => [.stringLit s]
  | .unit => [.lParen, .rParen]

def Ty.tokens : Ty → List Token
  | .i8 => [.i8]
  | .i16 => [.i16]
  | .i32 => [.i32]
  | .i64 => [.i64]
  | .u8 => [.u8]
  | .u16 => [.u16]
  | .u32 => [.u32]
  | .u64 => [.u64]
  | .bool => [.bool]
  | .q16_16 => [.q16_16]
  | .unit => [.lParen, .rParen]
  | .array elem size => .lBracket :: elem.tokens ++ [.semicolon, .intLit (Int64.ofNat size), .rBracket]
  | .named name => [.ident name]
  | .result ok err =>
    .ident "Result" :: .lt :: ok.tokens ++ .comma :: err.tokens ++ [.gt]
  | .option inner => .ident "Option" :: .lt :: inner.tokens ++ [.gt]
  | .infer => [.underscore]

def nameTokens (name : String) : List Token :=
  match splitPath name.toList with
  | some (enumName, variant) =>
    [.ident (String.ofList enumName), .colonColon, .ident (String.ofList variant)]
  | none => [.ident name]

def Pattern.tokens : Pattern → List Token
  | .wildcard => [.underscore]
  | .ident name => [.ident name]
  | .variant (some enumName) name => [.ident enumName, .colonColon, .ident name]
  | .variant none name => [.ident name]
  | .literal lit => lit.tokens

/-- a block that an `else` takes without braces -/
def isElseIf : List Stmt → Bool
  | [.ifStmt _ _ _] => true
  | _ => false

def separated : List (List Token) → List Token
  | [] => []
  | [part] => part
  | part :: parts => part ++ .comma :: separated parts

/-! ## trees -/

/-- the level at which the parser reads an expression without parentheses: 10 is
`parse_unary_expr`, 13 is `parse_primary_expr` -/
def Expr.level : Expr → Nat
  | .binary op _ _ => op.level
  | .unary _ _ => 10
  | .cast _ _ => 11
  | .methodCall _ _ _ | .fieldAccess _ _ | .index _ _ => 12
  | .literal _ | .ident _ | .call _ _ | .structInit _ _ | .arrayInit _ | .ifExpr _ _ _ | .block _ => 13

def parens (level own : Nat) (ts : List Token) : List Token :=
  if own < level then .lParen :: ts ++ [.rParen] else ts

mutual

def exprTokens : Expr → List Token
  | .literal value => value.tokens
  | .ident name => nameTokens name
  | .binary op left right =>
    parens op.level left.level (exprTokens left) ++
      op.token :: parens (op.level + 1) right.level (exprTokens right)
  | .unary op expr => op.token :: parens 10 expr.level (exprTokens expr)
  | .call func args => .ident func :: .lParen :: separated (exprsTokens args) ++ [.rParen]
  | .methodCall receiver method args =>
    parens 12 receiver.level (exprTokens receiver) ++
      .dot :: .ident method :: .lParen :: separated (exprsTokens args) ++ [.rParen]
  | .fieldAccess expr field => parens 12 expr.level (exprTokens expr) ++ [.dot, .ident field]
  | .index expr index =>
    parens 12 expr.level (exprTokens expr) ++ .lBracket :: exprTokens index ++ [.rBracket]
  | .structInit name fields =>
    .ident name :: .lBrace :: separated (fieldsTokens fields) ++ [.rBrace]
  | .arrayInit elements => .lBracket :: separated (exprsTokens elements) ++ [.rBracket]
  | .cast expr ty => parens 11 expr.level (exprTokens expr) ++ .asKw :: ty.tokens
  | .ifExpr cond thenExpr elseExpr =>
    .ifKw :: exprTokens cond ++ .lBrace :: exprTokens thenExpr ++
      .rBrace :: .elseKw :: .lBrace :: exprTokens elseExpr ++ [.rBrace]
  | .block stmts => .lBrace :: stmtsTokens stmts ++ [.rBrace]

def exprsTokens : List Expr → List (List Token)
  | [] => []
  | e :: es => exprTokens e :: exprsTokens es

def fieldsTokens : List (String × Expr) → List (List Token)
  | [] => []
  | (name, e) :: fields => (.ident name :: .colon :: exprTokens e) :: fieldsTokens fields

def stmtTokens : Stmt → List Token
  | .letStmt name isMut ty init =>
    .letKw :: (if isMut then [.mutKw] else []) ++ .ident name ::
      (ty.elim [] fun ty => .colon :: ty.tokens) ++ .assign :: exprTokens init
  | .assign target value => targetTokens target ++ .assign :: exprTokens value
  | .ret none => [.returnKw]
  | .ret (some value) => .returnKw :: exprTokens value
  | .ifStmt cond thenBlock elseBlock =>
    .ifKw :: exprTokens cond ++ .lBrace :: stmtsTokens thenBlock ++ .rBrace :: elseTokens elseBlock
  | .matchStmt expr arms =>
    .matchKw :: exprTokens expr ++ .lBrace :: armsTokens arms ++ [.rBrace]
  | .forStmt var start stop body =>
    .forKw :: .ident var :: .inKw :: exprTokens start ++ .dotDot :: exprTokens stop ++
      .lBrace :: stmtsTokens body ++ [.rBrace]
  | .whileStmt cond body =>
    .whileKw :: exprTokens cond ++ .lBrace :: stmtsTokens body ++ [.rBrace]
  | .expr expr => exprTokens expr

def stmtsTokens : List Stmt → List Token
  | [] => []
  | stmt :: stmts => stmtTokens stmt ++ stmtsTokens stmts

/-- the part of an `if` after its block -/
def elseTokens : Option (List Stmt) → List Token
  | none => []
  | some block =>
    .elseKw :: (if isElseIf block then stmtsTokens block
      else .lBrace :: stmtsTokens block ++ [.rBrace])

def armsTokens : List (Pattern × Expr) → List Token
  | [] => []
  | (pattern, body) :: arms =>
    pattern.tokens ++ .fatArrow :: exprTokens body ++ .comma :: armsTokens arms

def targetTokens : AssignTarget → List Token
  | .ident name => nameTokens name
  | .field base field => targetTokens base ++ [.dot, .ident field]
  | .index base index => targetTokens base ++ .lBracket :: exprTokens index ++ [.rBracket]

end

def tokensAt (level : Nat) (e : Expr) : List Token := parens level e.level (exprTokens e)

variable {l : Nat} {e : Expr} {parts : List (List Token)}

theorem tokensAt_of_le (h : l ≤ e.level) : tokensAt l e = exprTokens e :=
  if_neg (Nat.not_lt.mpr h)

theorem tokensAt_of_lt (h : e.level < l) : tokensAt l e = .lParen :: exprTokens e ++ [.rParen] :=
  if_pos h

theorem tokensAt_succ (h : e.level ≠ l) : tokensAt (l + 1) e = tokensAt l e := by
  rcases Nat.lt_or_gt_of_ne h with hlt | hgt
  · rw [tokensAt_of_lt hlt, tokensAt_of_lt (Nat.lt_succ_of_lt hlt)]
  · rw [tokensAt_of_le hgt, tokensAt_of_le (Nat.le_of_lt hgt)]

theorem exprsTokens_eq (es : List Expr) : exprsTokens es = es.map exprTokens := by
  induction es with
  | nil => rfl
  | cons e es ih => rw [exprsTokens, ih, List.map_cons]

def fieldTokens (f : String × Expr) : List Token := .ident f.1 :: .colon :: exprTokens f.2

theorem fieldsTokens_eq (fields : List (String × Expr)) :
    fieldsTokens fields = fields.map fieldTokens := by
  induction fields with
  | nil => rfl
  | cons f fields ih => rw [fieldsTokens, ih, List.map_cons, fieldTokens]

/-! ## the end of an expression -/

/-- what an expression ends with: a name, which may go on as a call, a path or a struct
initialization, a field, which may go on as the call of a method, the name of a type, which may go on
with arguments, another type, or something else; only a type does not go on with a field or an index -/
inductive Edge where
  | name
  | field
  | typeName
  | type
  | closed
  deriving DecidableEq

def tyEdge : Ty → Edge
  | .named _ => .typeName
  | _ => .type

def exprEdge : Expr → Edge
  | .ident name => if splitPath name.toList = none then .name else .closed
  | .fieldAccess _ _ => .field
  | .cast _ ty => tyEdge ty
  | .binary op _ right => if right.level < op.level + 1 then .closed else exprEdge right
  | .unary _ expr => if expr.level < 10 then .closed else exprEdge expr
  | _ => .closed

def edgeAt (level : Nat) (e : Expr) : Edge := if e.level < level then .closed else exprEdge e

theorem edgeAt_of_le (h : l ≤ e.level) : edgeAt l e = exprEdge e :=
  if_neg (Nat.not_lt.mpr h)

theorem edgeAt_postfix (e : Expr) : edgeAt 12 e ≠ .typeName ∧ edgeAt 12 e ≠ .type := by
  unfold edgeAt
  split_ifs with hlt
  · exact ⟨nofun, nofun⟩
  · cases e with
    | ident name =>
      unfold exprEdge
      split_ifs <;> exact ⟨nofun, nofun⟩
    | binary op left right => exact absurd (Nat.lt_of_le_of_lt op.level_le (by decide)) hlt
    | unary op e => exact absurd (show 10 < 12 by decide) hlt
    | cast e ty => exact absurd (show 11 < 12 by decide) hlt
    | _ => exact ⟨nofun, nofun⟩

theorem edgeAt_succ (h : e.level ≠ l) : edgeAt (l + 1) e = edgeAt l e := by
  rcases Nat.lt_or_gt_of_ne h with hlt | hgt
  · exact (if_pos (Nat.lt_succ_of_lt hlt)).trans (if_pos hlt).symm
  · exact (edgeAt_of_le hgt).trans (edgeAt_of_le (Nat.le_of_lt hgt)).symm

/-! ## lengths -/

theorem length_separated (part q : List Token) (parts : List (List Token)) :
    (separated (part :: q :: parts)).length =
      part.length + (separated (q :: parts)).length + 1 := by
  show (part ++ .comma :: separated (q :: parts)).length = _
  rw [List.length_append, List.length_cons]
  omega

theorem length_separated_cons (part : List Token) (parts : List (List Token)) :
    part.length ≤ (separated (part :: parts)).length ∧
      (separated parts).length ≤ (separated (part :: parts)).length := by
  cases parts with
  | nil => exact ⟨Nat.le_refl _, Nat.zero_le _⟩
  | cons q parts =>
    rw [length_separated]
    omega

theorem length_le_separated {part : List Token} (h : part ∈ parts) :
    part.length ≤ (separated parts).length := by
  induction parts with
  | nil => exact absurd h List.not_mem_nil
  | cons q parts ih =>
    obtain ⟨hq, hparts⟩ := length_separated_cons q parts
    rcases List.mem_cons.mp h with rfl | h
    · exact hq
    · exact Nat.le_trans (ih h) hparts

theorem count_le_separated (h : ∀ part ∈ parts, part ≠ []) :
    parts.length ≤ (separated parts).length := by
  induction parts with
  | nil => exact Nat.zero_le _
  | cons q parts ih =>
    have hq := List.length_pos_iff.mpr (h q List.mem_cons_self)
    have hrest := ih fun part hpart => h part (List.mem_cons_of_mem _ hpart)
    cases parts with
    | nil => exact hq
    | cons r parts =>
      rw [length_separated, List.length_cons]
      omega

end Ekkl
end EkKor
