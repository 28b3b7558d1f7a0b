import EkKor.Ekkl.Ast
import EkKor.Lib.Eff
import EkKor.Lib.Utf8

/-!
# EKKL: the lexer (`lexer.rs`)

The lexer reads a text by byte positions; to cut the text inside a character or past its end panics.
The loops take fuel.

* `Std`          what the lexer takes from the standard library: the classes of Unicode characters
                 and the numbers with a decimal point;
* `remaining`, `nextChar`, `advance`   the text from the position on;
* `skipWhitespaceAndComments`, `nextToken`, `lexString`, `lexNumber`, `lexIdentOrKeyword`;
* `tokenize`     the tokens of a text.
-/

namespace EkKor
namespace Ekkl
open Utf8

/-- what the lexer takes from the standard library -/
structure Std where
  isWhitespace : Char → Bool
  isAlphabetic : Char → Bool
  isNumeric : Char → Bool
  isUppercase : Char → Bool
  /-- `parse::<f64>`, times 65536, as an `i32` -/
  fixedBits : List Char → Option Int32

/-- `is_alphanumeric` -/
def Std.isAlphanumeric (std : Std) (c : Char) : Bool := std.isAlphabetic c || std.isNumeric c

/-! ## numbers -/

/-- `is_ascii_digit` -/
def isAsciiDigit (c : Char) : Bool := decide (48 ≤ c.toNat ∧ c.toNat ≤ 57)

/-- `is_ascii_hexdigit` -/
def isAsciiHexdigit (c : Char) : Bool :=
  isAsciiDigit c || decide (65 ≤ c.toNat ∧ c.toNat ≤ 70) || decide (97 ≤ c.toNat ∧ c.toNat ≤ 102)

/-- `to_digit` -/
def toDigit (radix : Nat) (c : Char) : Option Nat :=
  let n :=
    if 48 ≤ c.toNat ∧ c.toNat ≤ 57 then c.toNat - 48
    else if 65 ≤ c.toNat ∧ c.toNat ≤ 90 then c.toNat - 55
    else if 97 ≤ c.toNat ∧ c.toNat ≤ 122 then c.toNat - 87
    else radix
  if n < radix then some n else none

def digits (radix : Nat) (cs : List Char) : Option Nat :=
  cs.foldlM (fun n c => (toDigit radix c).map fun d => radix * n + d) 0

/-- `i64::from_str_radix`, and `parse::<i64>` with radix ten -/
def fromStrRadix (radix : Nat) (cs : List Char) : Option Int64 :=
  let signed : Option Int :=
    match cs with
    | [] | ['-'] | ['+'] => none
    | '-' :: cs => (digits radix cs).map fun n => -(n : Int)
    | '+' :: cs => (digits radix cs).map fun n => (n : Int)
    | cs => (digits radix cs).map fun n => (n : Int)
  match signed with
  | some n =>
    if -9223372036854775808 ≤ n ∧ n ≤ 9223372036854775807 then some (Int64.ofInt n) else none
  | none => none

/-! ## state -/

/-- `Lexer`, without its text -/
structure Lexer where
  pos : Nat
  line : Nat
  column : Nat
  deriving DecidableEq

/-- `Lexer::new` -/
def Lexer.new : Lexer := ⟨0, 1, 1⟩

def Lexer.count (s : Lexer) (c : Char) : Lexer :=
  if c = '\n' then { s with line := s.line + 1, column := 1 } else { s with column := s.column + 1 }

abbrev Lex : Type → Type := Eff Lexer LexError

section
variable (std : Std) (input : List Char)

/-- `remaining` -/
def remaining : Lex (List Char) := do
  match splitBytes input (← Eff.get).pos with
  | some (_, rest) => return rest
  | none => Eff.panic

/-- `is_at_end` -/
def isAtEnd : Lex Bool := do return decide (byteLen input ≤ (← Eff.get).pos)

/-- `remaining().chars().next().unwrap()` -/
def nextChar : Lex Char := do
  match (← remaining input).head? with
  | some c => return c
  | none => Eff.panic

/-- `remaining().starts_with` -/
def startsWith (cs : List Char) : Lex Bool := do return cs.isPrefixOf (← remaining input)

/-- `advance` -/
def advance (n : Nat) : Lex Unit := do
  match splitBytes (← remaining input) n with
  | some (taken, _) => Eff.modify fun s => { taken.foldl Lexer.count s with pos := s.pos + n }
  | none => Eff.panic

def spanFrom (start : Lexer) : Lex Span := do
  return ⟨start.pos, (← Eff.get).pos, start.line, start.column⟩

/-- `while !is_at_end()`: the characters on which `width` says how far to advance -/
def readWhile (width : Char → Option Nat) : Nat → Lex (List Char)
  | 0 => Eff.outOfFuel
  | fuel + 1 => do
    if (← isAtEnd input) = true then return []
    else
      let c ← nextChar input
      match width c with
      | some n => do
        advance input n
        let cs ← readWhile width fuel
        return c :: cs
      | none => return []

/-! ## whitespace and comments -/

def skipLine : Nat → Lex Unit
  | 0 => Eff.outOfFuel
  | fuel + 1 => do
    if (← isAtEnd input) = true then return ()
    else
      let c ← nextChar input
      advance input c.utf8Size
      if c = '\n' then return () else skipLine fuel

def skipBlock : Nat → Lex Unit
  | 0 => Eff.outOfFuel
  | fuel + 1 => do
    if (← isAtEnd input) = true then return ()
    else if (← startsWith input ['*', '/']) = true then return ()
    else
      let c ← nextChar input
      advance input c.utf8Size
      skipBlock fuel

def skipSpace (fuel : Nat) : Lex Unit := do
  let _ ← readWhile input (fun c => if std.isWhitespace c = true then some c.utf8Size else none) fuel
  return ()

/-- `if remaining().starts_with("//")` -/
def lineComment (fuel : Nat) : Lex Unit := do
  if (← startsWith input ['/', '/']) = true then skipLine input fuel else return ()

/-- `if remaining().starts_with("/*")` -/
def blockComment (fuel : Nat) : Lex Unit := do
  if (← startsWith input ['/', '*']) = true then do
    advance input 2
    skipBlock input fuel
    if (← startsWith input ['*', '/']) = true then advance input 2 else return ()
  else return ()

/-- the body of the loop of `skip_whitespace_and_comments` -/
def skipRound (fuel : Nat) : Lex Unit := do
  skipSpace std input fuel
  lineComment input fuel
  blockComment input fuel

/-- `skip_whitespace_and_comments` -/
def skipWhitespaceAndComments : Nat → Lex Unit
  | 0 => Eff.outOfFuel
  | fuel + 1 => do
    let start ← Eff.get
    skipRound std input fuel
    if (← Eff.get).pos = start.pos then return () else skipWhitespaceAndComments fuel

/-! ## tokens -/

def unescape (c : Char) : Char :=
  match c with
  | 'n' => '\n'
  | 'r' => '\r'
  | 't' => '\t'
  | c => c

/-- the loop of `lex_string` -/
def lexStringLoop (start : Lexer) : Nat → List Char → Bool → Lex SpannedToken
  | 0, _, _ => Eff.outOfFuel
  | fuel + 1, value, escape => do
    if (← isAtEnd input) = true then Eff.throw (.unterminatedString (← spanFrom start))
    else
      let c ← nextChar input
      if escape = true then do
        advance input c.utf8Size
        lexStringLoop start fuel (value ++ [unescape c]) false
      else if c = '\\' then do
        advance input 1
        lexStringLoop start fuel value true
      else if c = '"' then do
        advance input 1
        return ⟨.stringLit (String.ofList value), ← spanFrom start⟩
      else if c = '\n' then Eff.throw (.unterminatedString (← spanFrom start))
      else do
        advance input c.utf8Size
        lexStringLoop start fuel (value ++ [c]) false

/-- `lex_string` -/
def lexString (fuel : Nat) : Lex SpannedToken := do
  let start ← Eff.get
  advance input 1
  lexStringLoop input start fuel [] false

def lexDigits (isDigit : Char → Bool) (fuel : Nat) : Lex (List Char) := do
  let cs ← readWhile input (fun c => if (isDigit c || c == '_') = true then some 1 else none) fuel
  return cs.filter isDigit

def lexMark (c : Char) : Lex Bool := do
  if (← startsWith input [c]) = true then do
    advance input 1
    return true
  else return false

/-- whether a number begins with `0x` or `0X`; then that is read -/
def lexHexPrefix : Lex Bool := do
  if ((← startsWith input ['0', 'x']) || (← startsWith input ['0', 'X'])) = true then do
    advance input 2
    return true
  else return false

def lexFraction (isHex : Bool) (fuel : Nat) : Lex (Option (List Char)) := do
  if (!isHex && (← startsWith input ['.'])) = true then do
    if (← remaining input).tail.head?.any isAsciiDigit = true then do
      advance input 1
      let fraction ← lexDigits input isAsciiDigit fuel
      return some fraction
    else return none
  else return none

/-- the end of `lex_number`: the token of the characters that were read -/
def lexNumberToken (isNegative isHex : Bool) (ds : List Char) (decimal : Option (List Char))
    (isFixed : Bool) (span : Span) : Lex SpannedToken :=
  let sign := if isNegative = true then ['-'] else []
  if (isFixed || decimal.isSome) = true then
    match std.fixedBits (sign ++ ds ++ (decimal.map fun f => '.' :: f).getD []) with
    | some bits => return ⟨.fixedLit bits, span⟩
    | none => Eff.throw (.invalidFixed span)
  else if isHex = true then
    match fromStrRadix 16 (sign ++ ds) with
    | some n =>
      if isNegative = true then
        if n = -9223372036854775808 then Eff.panic else return ⟨.intLit (-n), span⟩
      else return ⟨.intLit n, span⟩
    | none => Eff.throw (.invalidNumber span)
  else
    match fromStrRadix 10 (sign ++ ds) with
    | some n => return ⟨.intLit n, span⟩
    | none => Eff.throw (.invalidNumber span)

/-- `lex_number` -/
def lexNumber (fuel : Nat) : Lex SpannedToken := do
  let start ← Eff.get
  let isNegative ← lexMark input '-'
  let isHex ← lexHexPrefix input
  let ds ← lexDigits input (if isHex = true then isAsciiHexdigit else isAsciiDigit) fuel
  let decimal ← lexFraction input isHex fuel
  let isFixed ← lexMark input 'q'
  lexNumberToken std isNegative isHex ds decimal isFixed (← spanFrom start)

/-- `lex_ident_or_keyword` -/
def lexIdentOrKeyword (fuel : Nat) : Lex SpannedToken := do
  let start ← Eff.get
  let ident ← readWhile input
    (fun c => if (std.isAlphanumeric c || c == '_') = true then some c.utf8Size else none) fuel
  let name := String.ofList ident
  return ⟨(keywords.lookup name).getD (.ident name), ← spanFrom start⟩

/-- a token of `len` bytes -/
def fixedToken (token : Token) (len : Nat) : Lex SpannedToken := do
  let start ← Eff.get
  advance input len
  return ⟨token, ← spanFrom start⟩

/-- whether a text that begins with `c` is an underscore that begins no identifier -/
def isUnderscore (c : Char) (rest : List Char) : Lex Bool :=
  if c = '_' then
    match splitBytes rest 1 with
    | some (_, after) => return !(after.head?.any fun c => std.isAlphanumeric c || c == '_')
    | none => Eff.panic
  else return false

/-- `next_token` -/
def nextToken (fuel : Nat) : Lex SpannedToken := do
  let rest ← remaining input
  match pairTokens.find? fun p => [p.1, p.2.1].isPrefixOf rest with
  | some p => fixedToken input p.2.2 2
  | none =>
    let c ← nextChar input
    match charTokens.lookup c with
    | some token => fixedToken input token 1
    | none =>
      if (← isUnderscore std c rest) = true then fixedToken input .underscore 1
      else if c = '"' then lexString input fuel
      else if isAsciiDigit c = true then lexNumber std input fuel
      else if (std.isAlphabetic c || c == '_') = true then lexIdentOrKeyword std input fuel
      else
        let s ← Eff.get
        Eff.throw (.unexpectedChar c ⟨s.pos, s.pos + 1, s.line, s.column⟩)

/-- the loop of `Lexer::tokenize` -/
def tokenizeLoop : Nat → Lex (List SpannedToken)
  | 0 => Eff.outOfFuel
  | fuel + 1 => do
    skipWhitespaceAndComments std input fuel
    if (← isAtEnd input) = true then return [⟨.eof, ← spanFrom (← Eff.get)⟩]
    else
      let token ← nextToken std input fuel
      let tokens ← tokenizeLoop fuel
      return token :: tokens

/-- `tokenize` -/
def tokenize (fuel : Nat) : Outcome LexError (List SpannedToken) :=
  (tokenizeLoop std input fuel Lexer.new).1

end

end Ekkl
end EkKor
