import Mathlib.Tactic.Common

/-!
# EKKL: tokens and trees

* `Token`           what the lexer makes of a text;
* `Expr`, `Stmt`, `Item`   what the parser makes of the tokens.
-/

/-!
# EKKL: tokens (`lexer.rs`, `error.rs`)

* `Span`, `Token`, `SpannedToken`;
* `keywords`, `pairTokens`, `charTokens`   the tokens with a fixed text;
* `LexError`.
-/

namespace EkKor
namespace Ekkl

/-- the bytes from `start` up to `stop`, and where they begin -/
structure Span where
  start : Nat
  stop : Nat
  line : Nat
  column : Nat
  deriving DecidableEq

inductive Token where
  | fnKw
  | letKw
  | mutKw
  | ifKw
  | elseKw
  | matchKw
  | forKw
  | inKw
  | whileKw
  | returnKw
  | structKw
  | enumKw
  | constKw
  | trueKw
  | falseKw
  | asKw
  | i8
  | i16
  | i32
  | i64
  | u8
  | u16
  | u32
  | u64
  | bool
  | q16_16
  | intLit (n : Int64)
  /-- the bits of a Q16.16 number -/
  | fixedLit (bits : Int32)
  | stringLit (s : String)
  | ident (name : String)
  | plus
  | minus
  | star
  | slash
  | percent
  | ampersand
  | pipe
  | caret
  | tilde
  | shl
  | shr
  | eq
  | ne
  | lt
  | le
  | gt
  | ge
  | and
  | or
  | not
  | assign
  | arrow
  | fatArrow
  | colon
  | semicolon
  | comma
  | dot
  | dotDot
  | colonColon
  | lParen
  | rParen
  | lBrace
  | rBrace
  | lBracket
  | rBracket
  | underscore
  | eof
  deriving DecidableEq

structure SpannedToken where
  token : Token
  span : Span
  deriving DecidableEq

inductive LexError where
  | unexpectedChar (c : Char) (span : Span)
  | unterminatedString (span : Span)
  | invalidNumber (span : Span)
  | invalidFixed (span : Span)

def keywords : List (String × Token) :=
  [("fn", .fnKw), ("let", .letKw), ("mut", .mutKw), ("if", .ifKw), ("else", .elseKw),
    ("match", .matchKw), ("for", .forKw), ("in", .inKw), ("while", .whileKw),
    ("return", .returnKw), ("struct", .structKw), ("enum", .enumKw), ("const", .constKw),
    ("true", .trueKw), ("false", .falseKw), ("as", .asKw), ("i8", .i8), ("i16", .i16),
    ("i32", .i32), ("i64", .i64), ("u8", .u8), ("u16", .u16), ("u32", .u32), ("u64", .u64),
    ("bool", .bool), ("q16_16", .q16_16)]

def pairTokens : List (Char × Char × Token) :=
  [('=', '=', .eq), ('!', '=', .ne), ('<', '=', .le), ('>', '=', .ge), ('&', '&', .and),
    ('|', '|', .or), ('<', '<', .shl), ('>', '>', .shr), ('-', '>', .arrow),
    ('=', '>', .fatArrow), ('.', '.', .dotDot), (':', ':', .colonColon)]

def charTokens : List (Char × Token) :=
  [('+', .plus), ('-', .minus), ('*', .star), ('/', .slash), ('%', .percent), ('&', .ampersand),
    ('|', .pipe), ('^', .caret), ('~', .tilde), ('<', .lt), ('>', .gt), ('!', .not),
    ('=', .assign), (':', .colon), (';', .semicolon), (',', .comma), ('.', .dot),
    ('(', .lParen), (')', .rParen), ('\x7b', .lBrace), ('\x7d', .rBrace), ('[', .lBracket),
    (']', .rBracket)]

end Ekkl
end EkKor

/-!
# EKKL: abstract syntax (`ast.rs`)

The nodes without their spans.

* `Ty`, `Literal`, `BinOp`, `UnOp`, `Pattern`;
* `Expr`, `Stmt`, `AssignTarget`   expressions and statements; a block is a list of statements;
* `Item`, `Program`.
-/

namespace EkKor
namespace Ekkl

/-- `Type` -/
inductive Ty where
  | i8
  | i16
  | i32
  | i64
  | u8
  | u16
  | u32
  | u64
  | bool
  | q16_16
  | unit
  | array (elem : Ty) (size : Nat)
  | named (name : String)
  | result (ok err : Ty)
  | option (inner : Ty)
  | infer
  deriving DecidableEq

/-- `Type::is_integer` -/
def Ty.isInteger : Ty → Bool
  | .i8 | .i16 | .i32 | .i64 | .u8 | .u16 | .u32 | .u64 => true
  | _ => false

/-- `Type::is_numeric` -/
def Ty.isNumeric : Ty → Bool
  | .i8 | .i16 | .i32 | .i64 | .u8 | .u16 | .u32 | .u64 | .q16_16 => true
  | _ => false

def Ty.display : Ty → String
  | .i8 => "i8"
  | .i16 => "i16"
  | .i32 => "i32"
  | .i64 => "i64"
  | .u8 => "u8"
  | .u16 => "u16"
  | .u32 => "u32"
  | .u64 => "u64"
  | .bool => "bool"
  | .q16_16 => "q16_16"
  | .unit => "()"
  | .array elem size => "[" ++ elem.display ++ "; " ++ toString size ++ "]"
  | .named name => name
  | .result ok err => "Result<" ++ ok.display ++ ", " ++ err.display ++ ">"
  | .option inner => "Option<" ++ inner.display ++ ">"
  | .infer => "_"

inductive Literal where
  | int (n : Int64)
  /-- the bits of a Q16.16 number -/
  | fixed (bits : Int32)
  | bool (b : Bool)
  | string (s : String)
  | unit
  deriving DecidableEq

inductive BinOp where
  | add
  | sub
  | mul
  | div
  | mod
  | eq
  | ne
  | lt
  | le
  | gt
  | ge
  | and
  | or
  | bitAnd
  | bitOr
  | bitXor
  | shl
  | shr
  deriving DecidableEq

/-- the name of an operator in a text (`Debug`) -/
def BinOp.debug : BinOp → String
  | .add => "Add"
  | .sub => "Sub"
  | .mul => "Mul"
  | .div => "Div"
  | .mod => "Mod"
  | .eq => "Eq"
  | .ne => "Ne"
  | .lt => "Lt"
  | .le => "Le"
  | .gt => "Gt"
  | .ge => "Ge"
  | .and => "And"
  | .or => "Or"
  | .bitAnd => "BitAnd"
  | .bitOr => "BitOr"
  | .bitXor => "BitXor"
  | .shl => "Shl"
  | .shr => "Shr"

inductive UnOp where
  | not
  | neg
  | bitNot
  deriving DecidableEq

inductive Pattern where
  | wildcard
  | ident (name : String)
  | variant (enumName : Option String) (variant : String)
  | literal (lit : Literal)
  deriving DecidableEq

mutual

inductive Expr where
  | literal (value : Literal)
  | ident (name : String)
  | binary (op : BinOp) (left right : Expr)
  | unary (op : UnOp) (expr : Expr)
  | call (func : String) (args : List Expr)
  | methodCall (receiver : Expr) (method : String) (args : List Expr)
  | fieldAccess (expr : Expr) (field : String)
  | index (expr index : Expr)
  | structInit (name : String) (fields : List (String × Expr))
  | arrayInit (elements : List Expr)
  | cast (expr : Expr) (ty : Ty)
  | ifExpr (cond thenExpr elseExpr : Expr)
  | block (stmts : List Stmt)

inductive Stmt where
  | letStmt (name : String) (isMut : Bool) (ty : Option Ty) (init : Expr)
  | assign (target : AssignTarget) (value : Expr)
  | ret (value : Option Expr)
  | ifStmt (cond : Expr) (thenBlock : List Stmt) (elseBlock : Option (List Stmt))
  | matchStmt (expr : Expr) (arms : List (Pattern × Expr))
  | forStmt (var : String) (start stop : Expr) (body : List Stmt)
  | whileStmt (cond : Expr) (body : List Stmt)
  | expr (expr : Expr)

inductive AssignTarget where
  | ident (name : String)
  | field (base : AssignTarget) (field : String)
  | index (base : AssignTarget) (index : Expr)

end

/-- the text before and after the first `::` -/
def splitPath : List Char → Option (List Char × List Char)
  | [] => none
  | c :: cs =>
    match c, cs with
    | ':', ':' :: rest => some ([], rest)
    | c, cs => (splitPath cs).map fun p => (c :: p.1, p.2)

structure Param where
  name : String
  ty : Ty

structure FnDef where
  name : String
  params : List Param
  returnType : Option Ty
  body : List Stmt

structure StructDef where
  name : String
  fields : List (String × Ty)

structure EnumDef where
  name : String
  variants : List String

structure ConstDef where
  name : String
  ty : Ty
  value : Expr

inductive Item where
  | fnDef (f : FnDef)
  | structDef (s : StructDef)
  | enumDef (e : EnumDef)
  | constDef (c : ConstDef)

structure Program where
  items : List Item

end Ekkl
end EkKor
