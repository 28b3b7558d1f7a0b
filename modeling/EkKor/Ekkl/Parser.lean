import EkKor.Ekkl.Ast
import EkKor.Lib.Eff

/-!
# EKKL: the parser (`parser.rs`)

The state is the position in the vector of tokens; an index outside the vector panics.  Spans are left
out, but the span of the last token is read where the source reads it.

A function that calls itself takes its calls from a `Parsers`; `parsers n` allows them to a depth of `n`,
and loops of `n` rounds.

* `peekToken`, `advance`, `check`, `consume`   one token;
* `parseType`;
* `parseBlock`, `parseStmt`                    statements;
* `parseExpr`, …, `parsePrimaryExpr`           expressions, by levels;
* `parseItem`, `parseProgram`.
-/

namespace EkKor
namespace Ekkl

/-- `ParseError`, without the spans -/
inductive ParseError where
  | unexpectedToken (expected : String) (found : Token)
  | invalidExpr
  | invalidType

abbrev Parse : Type → Type := Eff Nat ParseError

namespace Parser

/-- the functions that are called again from inside themselves, and the rounds of a loop -/
structure Parsers where
  fuel : Nat
  parseType : Parse Ty
  parseExpr : Parse Expr
  parseUnaryExpr : Parse Expr
  parseBlock : Parse (List Stmt)
  parseIfStmt : Parse Stmt

section
variable (tokens : List Token)

/-! ## one token -/

/-- `peek_token` -/
def peekToken : Parse Token := do
  match tokens[← Eff.get]? with
  | some t => return t
  | none => Eff.panic

/-- `peek_ahead` -/
def peekAhead (n : Nat) : Parse (Option Token) := do return tokens[(← Eff.get) + n]?

/-- `is_at_end` -/
def isAtEnd : Parse Bool := do return decide ((← peekToken tokens) = .eof)

/-- `advance` -/
def advance : Parse Token := do
  let token ← peekToken tokens
  if (← isAtEnd tokens) = true then return token
  else do
    Eff.modify fun pos => pos + 1
    return token

/-- `tokens[pos - 1]` -/
def lastToken : Parse Token := do
  match (← Eff.get) with
  | 0 => Eff.panic
  | pos + 1 =>
    match tokens[pos]? with
    | some t => return t
    | none => Eff.panic

def node {α : Type} (a : α) : Parse α := do
  let _ ← lastToken tokens
  return a

/-- `check`: the same kind of token -/
def check (token : Token) : Parse Bool := do
  return decide ((← peekToken tokens).ctorIdx = token.ctorIdx)

/-- `if check(token) { advance() }` -/
def advanceIf (token : Token) : Parse Bool := do
  if (← check tokens token) = true then do
    let _ ← advance tokens
    return true
  else return false

/-- `consume` -/
def consume (expected : Token) (msg : String) : Parse Token := do
  if (← check tokens expected) = true then advance tokens
  else Eff.throw (.unexpectedToken msg (← peekToken tokens))

/-- `looks_like_struct_init` -/
def looksLikeStructInit : Parse Bool := do
  match (← peekAhead tokens 1) with
  | some .rBrace => return true
  | some (.ident _) =>
    match (← peekAhead tokens 2) with
    | some .colon => return true
    | _ => return false
  | _ => return false

/-- `parse_ident` -/
def parseIdent : Parse String := do
  match (← peekToken tokens) with
  | .ident name => do
    let _ ← advance tokens
    return name
  | t => Eff.throw (.unexpectedToken "identifier" t)

/-- `parse_int_literal` -/
def parseIntLiteral : Parse Int64 := do
  match (← peekToken tokens) with
  | .intLit n => do
    let _ ← advance tokens
    return n
  | t => Eff.throw (.unexpectedToken "integer literal" t)

/-- `while !check(close)`: elements, each with a comma unless `close` follows -/
def elements {α : Type} (close : Token) (element : Parse α) : Nat → Parse (List α)
  | 0 => Eff.outOfFuel
  | fuel + 1 => do
    if (← check tokens close) = true then return []
    else do
      let a ← element
      if (← check tokens close) = true then return [a]
      else do
        let _ ← consume tokens .comma ","
        let as ← elements close element fuel
        return a :: as

variable (p : Parsers)

/-! ## types -/

def wordType : Token → Option Ty
  | .i8 => some .i8
  | .i16 => some .i16
  | .i32 => some .i32
  | .i64 => some .i64
  | .u8 => some .u8
  | .u16 => some .u16
  | .u32 => some .u32
  | .u64 => some .u64
  | .bool => some .bool
  | .q16_16 => some .q16_16
  | _ => none

/-- `while check(",")`: the arguments of a generic type, which are left out -/
def moreTypes : Nat → Parse Unit
  | 0 => Eff.outOfFuel
  | fuel + 1 => do
    if (← advanceIf tokens .comma) = true then do
      let _ ← p.parseType
      moreTypes fuel
    else return ()

/-- the arguments of the type `name`, after `<` -/
def typeArguments (name : String) : Parse Ty := do
  if name = "Result" then do
    let ok ← p.parseType
    let _ ← consume tokens .comma ","
    let err ← p.parseType
    let _ ← consume tokens .gt ">"
    return .result ok err
  else if name = "Option" then do
    let inner ← p.parseType
    let _ ← consume tokens .gt ">"
    return .option inner
  else do
    let _ ← p.parseType
    moreTypes tokens p p.fuel
    let _ ← consume tokens .gt ">"
    return .named name

/-- `parse_type` -/
def parseType : Parse Ty := do
  let t ← peekToken tokens
  match wordType t with
  | some ty => do
    let _ ← advance tokens
    return ty
  | none =>
    match t with
    | .lParen => do
      let _ ← advance tokens
      let _ ← consume tokens .rParen ")"
      return .unit
    | .lBracket => do
      let _ ← advance tokens
      let elem ← p.parseType
      let _ ← consume tokens .semicolon ";"
      let size ← parseIntLiteral tokens
      let _ ← consume tokens .rBracket "]"
      return .array elem size.toUInt64.toNat
    | .ident name => do
      let _ ← advance tokens
      if (← advanceIf tokens .lt) = true then typeArguments tokens p name
      else return .named name
    | _ => Eff.throw .invalidType

/-! ## statements -/

/-- the type in a `let` -/
def letType : Parse (Option Ty) := do
  if (← advanceIf tokens .colon) = true then do
    let ty ← p.parseType
    return some ty
  else return none

/-- `parse_let_stmt` -/
def parseLetStmt : Parse Stmt := do
  let _ ← consume tokens .letKw "let"
  let isMut ← advanceIf tokens .mutKw
  let name ← parseIdent tokens
  let ty ← letType tokens p
  let _ ← consume tokens .assign "="
  let init ← p.parseExpr
  node tokens (.letStmt name isMut ty init)

/-- the value of a `return` -/
def returnValue : Parse (Option Expr) := do
  if ((← check tokens .rBrace) || (← check tokens .semicolon)) = true then return none
  else do
    let value ← p.parseExpr
    return some value

/-- `parse_return_stmt` -/
def parseReturnStmt : Parse Stmt := do
  let _ ← consume tokens .returnKw "return"
  let value ← returnValue tokens p
  node tokens (.ret value)

/-- the part of an `if` after its block -/
def elseBlock : Parse (Option (List Stmt)) := do
  if (← advanceIf tokens .elseKw) = true then
    if (← check tokens .ifKw) = true then do
      let ifStmt ← p.parseIfStmt
      node tokens (some [ifStmt])
    else do
      let block ← p.parseBlock
      return some block
  else return none

/-- `parse_if_stmt` -/
def parseIfStmt : Parse Stmt := do
  let _ ← consume tokens .ifKw "if"
  let cond ← p.parseExpr
  let thenBlock ← p.parseBlock
  let elseBlock ← elseBlock tokens p
  node tokens (.ifStmt cond thenBlock elseBlock)

def literalOf : Token → Option Literal
  | .trueKw => some (.bool true)
  | .falseKw => some (.bool false)
  | .intLit n => some (.int n)
  | .fixedLit bits => some (.fixed bits)
  | .stringLit s => some (.string s)
  | _ => none

variable (isUppercase : Char → Bool)

/-- `parse_pattern` -/
def parsePattern : Parse Pattern := do
  let t ← peekToken tokens
  match literalOf t with
  | some literal => do
    let _ ← advance tokens
    return .literal literal
  | none =>
    match t with
    | .underscore => do
      let _ ← advance tokens
      return .wildcard
    | .ident name => do
      let _ ← advance tokens
      if (← advanceIf tokens .colonColon) = true then do
        let variant ← parseIdent tokens
        return .variant (some name) variant
      else if name.toList.head?.any isUppercase = true then return .variant none name
      else return .ident name
    | _ => Eff.throw .invalidExpr

/-- `parse_match_arm` -/
def parseMatchArm : Parse (Pattern × Expr) := do
  let pattern ← parsePattern tokens isUppercase
  let _ ← consume tokens .fatArrow "=>"
  let body ← p.parseExpr
  node tokens (pattern, body)

/-- `parse_match_stmt` -/
def parseMatchStmt : Parse Stmt := do
  let _ ← consume tokens .matchKw "match"
  let expr ← p.parseExpr
  let _ ← consume tokens .lBrace "\x7b"
  let arms ← elements tokens .rBrace (parseMatchArm tokens p isUppercase) p.fuel
  let _ ← consume tokens .rBrace "\x7d"
  node tokens (.matchStmt expr arms)

/-- `parse_for_stmt` -/
def parseForStmt : Parse Stmt := do
  let _ ← consume tokens .forKw "for"
  let var ← parseIdent tokens
  let _ ← consume tokens .inKw "in"
  let start ← p.parseExpr
  let _ ← consume tokens .dotDot ".."
  let stop ← p.parseExpr
  let body ← p.parseBlock
  node tokens (.forStmt var start stop body)

/-- `parse_while_stmt` -/
def parseWhileStmt : Parse Stmt := do
  let _ ← consume tokens .whileKw "while"
  let cond ← p.parseExpr
  let body ← p.parseBlock
  node tokens (.whileStmt cond body)

/-- `expr_to_assign_target` -/
def exprToAssignTarget : Expr → Outcome ParseError AssignTarget
  | .ident name => .ok (.ident name)
  | .fieldAccess expr field => do
    let base ← exprToAssignTarget expr
    return .field base field
  | .index expr index => do
    let base ← exprToAssignTarget expr
    return .index base index
  | _ => .error .invalidExpr

/-- `parse_expr_or_assign_stmt` -/
def parseExprOrAssignStmt : Parse Stmt := do
  let expr ← p.parseExpr
  if (← advanceIf tokens .assign) = true then do
    let value ← p.parseExpr
    let target ← Eff.lift (exprToAssignTarget expr)
    node tokens (.assign target value)
  else node tokens (.expr expr)

/-- `parse_stmt` -/
def parseStmt : Parse Stmt := do
  match (← peekToken tokens) with
  | .letKw => parseLetStmt tokens p
  | .returnKw => parseReturnStmt tokens p
  | .ifKw => parseIfStmt tokens p
  | .matchKw => parseMatchStmt tokens p isUppercase
  | .forKw => parseForStmt tokens p
  | .whileKw => parseWhileStmt tokens p
  | _ => parseExprOrAssignStmt tokens p

/-- `while !check("\x7d")`: the statements of a block -/
def statements : Nat → Parse (List Stmt)
  | 0 => Eff.outOfFuel
  | fuel + 1 => do
    if (← check tokens .rBrace) = true then return []
    else do
      let stmt ← parseStmt tokens p isUppercase
      let stmts ← statements fuel
      return stmt :: stmts

/-- `parse_block` -/
def parseBlock : Parse (List Stmt) := do
  let _ ← consume tokens .lBrace "\x7b"
  let stmts ← statements tokens p isUppercase p.fuel
  let _ ← consume tokens .rBrace "\x7d"
  node tokens stmts

/-! ## expressions -/

def binaryLoop (ops : Token → Option BinOp) (operand : Parse Expr) : Nat → Expr → Parse Expr
  | 0, _ => Eff.outOfFuel
  | fuel + 1, left => do
    match ops (← peekToken tokens) with
    | some op => do
      let _ ← advance tokens
      let right ← operand
      let expr ← node tokens (.binary op left right)
      binaryLoop ops operand fuel expr
    | none => return left

def binaryLevel (ops : Token → Option BinOp) (operand : Parse Expr) : Parse Expr := do
  let left ← operand
  binaryLoop tokens ops operand p.fuel left

/-- `parse_call_args` -/
def parseCallArgs : Parse (List Expr) := elements tokens .rParen p.parseExpr p.fuel

def fieldInit : Parse (String × Expr) := do
  let name ← parseIdent tokens
  let _ ← consume tokens .colon ":"
  let value ← p.parseExpr
  return (name, value)

def structInit (name : String) : Parse Expr := do
  let _ ← advance tokens
  let fields ← elements tokens .rBrace (fieldInit tokens p) p.fuel
  let _ ← consume tokens .rBrace "\x7d"
  node tokens (.structInit name fields)

def afterIdent (name : String) : Parse Expr := do
  if ((← check tokens .lBrace) && (← looksLikeStructInit tokens)) = true then
    structInit tokens p name
  else if (← advanceIf tokens .lParen) = true then do
    let args ← parseCallArgs tokens p
    let _ ← consume tokens .rParen ")"
    node tokens (.call name args)
  else if (← advanceIf tokens .colonColon) = true then do
    let variant ← parseIdent tokens
    node tokens (.ident (name ++ "::" ++ variant))
  else return .ident name

def parenthesized : Parse Expr := do
  if (← advanceIf tokens .rParen) = true then node tokens (.literal .unit)
  else do
    let expr ← p.parseExpr
    let _ ← consume tokens .rParen ")"
    return expr

def arrayInit : Parse Expr := do
  let es ← elements tokens .rBracket p.parseExpr p.fuel
  let _ ← consume tokens .rBracket "]"
  node tokens (.arrayInit es)

/-- a conditional expression, after `if` -/
def ifExpr : Parse Expr := do
  let cond ← p.parseExpr
  let _ ← consume tokens .lBrace "\x7b"
  let thenExpr ← p.parseExpr
  let _ ← consume tokens .rBrace "\x7d"
  let _ ← consume tokens .elseKw "else"
  let _ ← consume tokens .lBrace "\x7b"
  let elseExpr ← p.parseExpr
  let _ ← consume tokens .rBrace "\x7d"
  node tokens (.ifExpr cond thenExpr elseExpr)

/-- `parse_primary_expr` -/
def parsePrimaryExpr : Parse Expr := do
  let t ← peekToken tokens
  match literalOf t with
  | some literal => do
    let _ ← advance tokens
    return .literal literal
  | none =>
    match t with
    | .ident name => do
      let _ ← advance tokens
      afterIdent tokens p name
    | .lParen => do
      let _ ← advance tokens
      parenthesized tokens p
    | .lBracket => do
      let _ ← advance tokens
      arrayInit tokens p
    | .ifKw => do
      let _ ← advance tokens
      ifExpr tokens p
    | .lBrace => do
      let block ← parseBlock tokens p isUppercase
      node tokens (.block block)
    | _ => Eff.throw .invalidExpr

def afterDot (expr : Expr) : Parse Expr := do
  let field ← parseIdent tokens
  if (← advanceIf tokens .lParen) = true then do
    let args ← parseCallArgs tokens p
    let _ ← consume tokens .rParen ")"
    node tokens (.methodCall expr field args)
  else node tokens (.fieldAccess expr field)

def afterBracket (expr : Expr) : Parse Expr := do
  let index ← p.parseExpr
  let _ ← consume tokens .rBracket "]"
  node tokens (.index expr index)

/-- the loop of `parse_postfix_expr` -/
def postfixLoop : Nat → Expr → Parse Expr
  | 0, _ => Eff.outOfFuel
  | fuel + 1, expr => do
    match (← peekToken tokens) with
    | .dot => do
      let _ ← advance tokens
      let expr ← afterDot tokens p expr
      postfixLoop fuel expr
    | .lBracket => do
      let _ ← advance tokens
      let expr ← afterBracket tokens p expr
      postfixLoop fuel expr
    | _ => return expr

/-- `parse_postfix_expr` -/
def parsePostfixExpr : Parse Expr := do
  let expr ← parsePrimaryExpr tokens p isUppercase
  postfixLoop tokens p p.fuel expr

/-- the loop of `parse_cast_expr` -/
def castLoop : Nat → Expr → Parse Expr
  | 0, _ => Eff.outOfFuel
  | fuel + 1, expr => do
    if (← advanceIf tokens .asKw) = true then do
      let ty ← p.parseType
      let expr ← node tokens (.cast expr ty)
      castLoop fuel expr
    else return expr

/-- `parse_cast_expr` -/
def parseCastExpr : Parse Expr := do
  let expr ← parsePostfixExpr tokens p isUppercase
  castLoop tokens p p.fuel expr

def unaryOp : Token → Option UnOp
  | .not => some .not
  | .minus => some .neg
  | .tilde => some .bitNot
  | _ => none

/-- `parse_unary_expr` -/
def parseUnaryExpr : Parse Expr := do
  match unaryOp (← peekToken tokens) with
  | some op => do
    let _ ← advance tokens
    let expr ← p.parseUnaryExpr
    node tokens (.unary op expr)
  | none => parseCastExpr tokens p isUppercase

def multiplicativeOp : Token → Option BinOp
  | .star => some .mul
  | .slash => some .div
  | .percent => some .mod
  | _ => none

/-- `parse_multiplicative_expr` -/
def parseMultiplicativeExpr : Parse Expr :=
  binaryLevel tokens p multiplicativeOp (parseUnaryExpr tokens p isUppercase)

def additiveOp : Token → Option BinOp
  | .plus => some .add
  | .minus => some .sub
  | _ => none

/-- `parse_additive_expr` -/
def parseAdditiveExpr : Parse Expr :=
  binaryLevel tokens p additiveOp (parseMultiplicativeExpr tokens p isUppercase)

def shiftOp : Token → Option BinOp
  | .shl => some .shl
  | .shr => some .shr
  | _ => none

/-- `parse_shift_expr` -/
def parseShiftExpr : Parse Expr :=
  binaryLevel tokens p shiftOp (parseAdditiveExpr tokens p isUppercase)

def bitwiseAndOp : Token → Option BinOp
  | .ampersand => some .bitAnd
  | _ => none

/-- `parse_bitwise_and_expr` -/
def parseBitwiseAndExpr : Parse Expr :=
  binaryLevel tokens p bitwiseAndOp (parseShiftExpr tokens p isUppercase)

def bitwiseXorOp : Token → Option BinOp
  | .caret => some .bitXor
  | _ => none

/-- `parse_bitwise_xor_expr` -/
def parseBitwiseXorExpr : Parse Expr :=
  binaryLevel tokens p bitwiseXorOp (parseBitwiseAndExpr tokens p isUppercase)

def bitwiseOrOp : Token → Option BinOp
  | .pipe => some .bitOr
  | _ => none

/-- `parse_bitwise_or_expr` -/
def parseBitwiseOrExpr : Parse Expr :=
  binaryLevel tokens p bitwiseOrOp (parseBitwiseXorExpr tokens p isUppercase)

def comparisonOp : Token → Option BinOp
  | .lt => some .lt
  | .le => some .le
  | .gt => some .gt
  | .ge => some .ge
  | _ => none

/-- `parse_comparison_expr` -/
def parseComparisonExpr : Parse Expr :=
  binaryLevel tokens p comparisonOp (parseBitwiseOrExpr tokens p isUppercase)

def equalityOp : Token → Option BinOp
  | .eq => some .eq
  | .ne => some .ne
  | _ => none

/-- `parse_equality_expr` -/
def parseEqualityExpr : Parse Expr :=
  binaryLevel tokens p equalityOp (parseComparisonExpr tokens p isUppercase)

def andOp : Token → Option BinOp
  | .and => some .and
  | _ => none

/-- `parse_and_expr` -/
def parseAndExpr : Parse Expr :=
  binaryLevel tokens p andOp (parseEqualityExpr tokens p isUppercase)

def orOp : Token → Option BinOp
  | .or => some .or
  | _ => none

/-- `parse_or_expr` -/
def parseOrExpr : Parse Expr := binaryLevel tokens p orOp (parseAndExpr tokens p isUppercase)

/-- `parse_expr` -/
def parseExpr : Parse Expr := parseOrExpr tokens p isUppercase

/-! ## items -/

/-- `parse_param` -/
def parseParam : Parse Param := do
  let name ← parseIdent tokens
  let _ ← consume tokens .colon ":"
  let ty ← p.parseType
  node tokens ⟨name, ty⟩

/-- `parse_struct_field` -/
def parseStructField : Parse (String × Ty) := do
  let name ← parseIdent tokens
  let _ ← consume tokens .colon ":"
  let ty ← p.parseType
  node tokens (name, ty)

def commaUnless (first : Bool) : Parse Unit :=
  if first = true then return () else do
    let _ ← consume tokens .comma ","
    return ()

def params : Nat → Bool → Parse (List Param)
  | 0, _ => Eff.outOfFuel
  | fuel + 1, first => do
    if (← check tokens .rParen) = true then return []
    else do
      commaUnless tokens first
      if (← check tokens .rParen) = true then return []
      else do
        let param ← parseParam tokens p
        let rest ← params fuel false
        return param :: rest

def returnType : Parse (Option Ty) := do
  if (← advanceIf tokens .arrow) = true then do
    let ty ← p.parseType
    return some ty
  else return none

/-- `parse_fn_def` -/
def parseFnDef : Parse FnDef := do
  let _ ← consume tokens .fnKw "fn"
  let name ← parseIdent tokens
  let _ ← consume tokens .lParen "("
  let params ← params tokens p p.fuel true
  let _ ← consume tokens .rParen ")"
  let returnType ← returnType tokens p
  let body ← p.parseBlock
  node tokens ⟨name, params, returnType, body⟩

/-- `parse_struct_def` -/
def parseStructDef : Parse StructDef := do
  let _ ← consume tokens .structKw "struct"
  let name ← parseIdent tokens
  let _ ← consume tokens .lBrace "\x7b"
  let fields ← elements tokens .rBrace (parseStructField tokens p) p.fuel
  let _ ← consume tokens .rBrace "\x7d"
  node tokens ⟨name, fields⟩

/-- `parse_enum_def` -/
def parseEnumDef : Parse EnumDef := do
  let _ ← consume tokens .enumKw "enum"
  let name ← parseIdent tokens
  let _ ← consume tokens .lBrace "\x7b"
  let variants ← elements tokens .rBrace (parseIdent tokens) p.fuel
  let _ ← consume tokens .rBrace "\x7d"
  node tokens ⟨name, variants⟩

/-- `parse_const_def` -/
def parseConstDef : Parse ConstDef := do
  let _ ← consume tokens .constKw "const"
  let name ← parseIdent tokens
  let _ ← consume tokens .colon ":"
  let ty ← p.parseType
  let _ ← consume tokens .assign "="
  let value ← p.parseExpr
  node tokens ⟨name, ty, value⟩

/-- `parse_item` -/
def parseItem : Parse Item := do
  let t ← peekToken tokens
  match t with
  | .fnKw => do
    let f ← parseFnDef tokens p
    return .fnDef f
  | .structKw => do
    let s ← parseStructDef tokens p
    return .structDef s
  | .enumKw => do
    let e ← parseEnumDef tokens p
    return .enumDef e
  | .constKw => do
    let c ← parseConstDef tokens p
    return .constDef c
  | t => Eff.throw (.unexpectedToken "fn, struct, enum, or const" t)

/-- `while !is_at_end()`: the items of a program -/
def items : Nat → Parse (List Item)
  | 0 => Eff.outOfFuel
  | fuel + 1 => do
    if (← isAtEnd tokens) = true then return []
    else do
      let item ← parseItem tokens p
      let rest ← items fuel
      return item :: rest

end

section
variable (isUppercase : Char → Bool) (tokens : List Token)

/-- the functions with calls to a depth of `n` -/
def parsers : Nat → Parsers
  | 0 => ⟨0, Eff.outOfFuel, Eff.outOfFuel, Eff.outOfFuel, Eff.outOfFuel, Eff.outOfFuel⟩
  | n + 1 =>
    let p := parsers n
    { fuel := n + 1
      parseType := parseType tokens p
      parseExpr := parseExpr tokens p isUppercase
      parseUnaryExpr := parseUnaryExpr tokens p isUppercase
      parseBlock := parseBlock tokens p isUppercase
      parseIfStmt := parseIfStmt tokens p }

/-- `parse_program` -/
def parseProgram (fuel : Nat) : Outcome ParseError Program := do
  let items ← (items tokens (parsers isUppercase tokens fuel) fuel 0).1
  return ⟨items⟩

end

end Parser

end Ekkl
end EkKor
