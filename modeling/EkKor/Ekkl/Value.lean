import EkKor.Ekkl.Ast
import EkKor.Lib.Eff

/-!
# EKKL: values and what is built in

* `Value`      runtime values and errors;
* `Builtins`   functions and methods.
-/

/-!
# EKKL: values (`value.rs`)

* `Fixed`       a Q16.16 number (`I16F16`); what overflows panics;
* `Value`       runtime values;
* `EvalError`   the errors of an evaluation, and the value of a `return`;
* `Value.asI64`, `Value.asFixed`, ...   the conversions.
-/

namespace EkKor
namespace Ekkl

/-! ## fixed-point numbers -/

/-- `I16F16`: a number of 65536ths -/
structure Fixed where
  bits : Int32
  deriving DecidableEq

namespace Fixed

/-- `Fixed::ZERO` -/
def zero : Fixed := ⟨0⟩

/-- `Fixed::ONE` -/
def one : Fixed := ⟨65536⟩

def Fits (n : Int) : Prop := -2147483648 ≤ n ∧ n ≤ 2147483647

instance instDecidableFits (n : Int) : Decidable (Fits n) :=
  inferInstanceAs (Decidable (_ ∧ _))

def checked {ε : Type} (n : Int) : Outcome ε Fixed :=
  if Fits n then .ok ⟨Int32.ofInt n⟩ else .panic

def saturated (n : Int) : Fixed :=
  if n < -2147483648 then ⟨-2147483648⟩
  else if 2147483647 < n then ⟨2147483647⟩
  else ⟨Int32.ofInt n⟩

def toInt (a : Fixed) : Int := a.bits.toInt

/-- the sum, difference, product and quotient, in 65536ths; a product is rounded down and a quotient
towards zero -/
def addInt (a b : Fixed) : Int := a.toInt + b.toInt

def subInt (a b : Fixed) : Int := a.toInt - b.toInt

def mulInt (a b : Fixed) : Int := (a.toInt * b.toInt).fdiv 65536

def divInt (a b : Fixed) : Int := (a.toInt * 65536).tdiv b.toInt

def ceilInt (a : Fixed) : Int := -((-a.toInt).fdiv 65536) * 65536

def roundInt (a : Fixed) : Int :=
  if 0 ≤ a.toInt then (a.toInt + 32768).fdiv 65536 * 65536
  else -((-a.toInt + 32768).fdiv 65536 * 65536)

/-- `floor` -/
def floor (a : Fixed) : Fixed := ⟨Int32.ofInt (a.toInt.fdiv 65536 * 65536)⟩

/-- `frac` -/
def frac (a : Fixed) : Fixed := ⟨Int32.ofInt (a.toInt.fmod 65536)⟩

/-- `to_num::<i32>` -/
def toNum (a : Fixed) : Int32 := Int32.ofInt (a.toInt.fdiv 65536)

/-- `<` -/
def lt (a b : Fixed) : Bool := a.bits.toBitVec.slt b.bits.toBitVec

/-- `<=` -/
def le (a b : Fixed) : Bool := a.bits.toBitVec.sle b.bits.toBitVec

/-- `max` -/
def max (a b : Fixed) : Fixed := if a.le b = true then b else a

/-- `min` -/
def min (a b : Fixed) : Fixed := if a.le b = true then a else b

end Fixed

/-! ## values -/

inductive Value where
  | i8 (v : Int8)
  | i16 (v : Int16)
  | i32 (v : Int32)
  | i64 (v : Int64)
  | u8 (v : UInt8)
  | u16 (v : UInt16)
  | u32 (v : UInt32)
  | u64 (v : UInt64)
  | bool (b : Bool)
  | fixed (f : Fixed)
  | string (s : String)
  | array (arr : List Value)
  | struct (name : String) (fields : List (String × Value))
  | enum (enumName variant : String)
  | unit

/-- the errors of an evaluation; `ret` is the value of a `return` -/
inductive EvalError where
  | undefinedVariable (name : String)
  | undefinedFunction (name : String)
  | typeError (text : String)
  | divisionByZero
  | overflow
  | indexOutOfBounds (index len : Nat)
  /-- `assert`, or `assert_eq` of the two values -/
  | assertionFailed (operands : Option (Value × Value))
  | stackOverflow
  | ret (value : Value)
  | invalidCast (source target : String)

abbrev Result : Type → Type := Outcome EvalError

namespace Value

/-- `type_name` -/
def typeName : Value → String
  | i8 _ => "i8"
  | i16 _ => "i16"
  | i32 _ => "i32"
  | i64 _ => "i64"
  | u8 _ => "u8"
  | u16 _ => "u16"
  | u32 _ => "u32"
  | u64 _ => "u64"
  | bool _ => "bool"
  | fixed _ => "q16_16"
  | string _ => "String"
  | array _ => "array"
  | struct _ _ => "struct"
  | enum _ _ => "enum"
  | unit => "()"

def int? : Value → Option Int
  | i8 v => some v.toInt
  | i16 v => some v.toInt
  | i32 v => some v.toInt
  | i64 v => some v.toInt
  | u8 v => some v.toNat
  | u16 v => some v.toNat
  | u32 v => some v.toNat
  | u64 v => some v.toNat
  | _ => none

/-- `is_integer` -/
def isInteger (v : Value) : Bool := v.int?.isSome

/-! ## conversions -/

/-- a conversion of the integer values, `what` in its error -/
def asInteger {α : Type} (what : String) (ofInt : Int → α) (v : Value) : Result α :=
  match v.int? with
  | some n => .ok (ofInt n)
  | none => .error (.typeError ("expected " ++ what ++ ", got " ++ v.typeName))

/-- `as_i8` -/
def asI8 : Value → Result Int8 := asInteger "i8" Int8.ofInt

/-- `as_i16` -/
def asI16 : Value → Result Int16 := asInteger "i16" Int16.ofInt

/-- `as_i32`: also the bits of a fixed-point number -/
def asI32 : Value → Result Int32
  | fixed f => .ok f.bits
  | v => asInteger "i32" Int32.ofInt v

/-- `as_i64` -/
def asI64 : Value → Result Int64 := asInteger "i64" Int64.ofInt

/-- `as_u8` -/
def asU8 : Value → Result UInt8 := asInteger "u8" UInt8.ofInt

/-- `as_u16` -/
def asU16 : Value → Result UInt16 := asInteger "u16" UInt16.ofInt

/-- `as_u32` -/
def asU32 : Value → Result UInt32 := asInteger "u32" UInt32.ofInt

/-- `as_u64` -/
def asU64 : Value → Result UInt64 := asInteger "u64" UInt64.ofInt

/-- `as_bool` -/
def asBool : Value → Result Bool
  | bool b => .ok b
  | v => .error (.typeError ("expected bool, got " ++ v.typeName))

/-- `Fixed::from_num` of a whole number -/
def fixedFromNum (n : Int) : Result Fixed := Fixed.checked (n * 65536)

/-- `as_fixed`: the wide integers are cut to 32 bits first -/
def asFixed : Value → Result Fixed
  | fixed f => .ok f
  | i8 v => fixedFromNum v.toInt
  | i16 v => fixedFromNum v.toInt
  | i32 v => fixedFromNum v.toInt
  | i64 v => fixedFromNum (Int32.ofInt v.toInt).toInt
  | u8 v => fixedFromNum v.toNat
  | u16 v => fixedFromNum v.toNat
  | u32 v => fixedFromNum (Int32.ofInt v.toNat).toInt
  | u64 v => fixedFromNum (Int32.ofInt v.toNat).toInt
  | v => .error (.typeError ("expected q16_16, got " ++ v.typeName))

/-- `as_array` -/
def asArray : Value → Result (List Value)
  | array arr => .ok arr
  | v => .error (.typeError ("expected array, got " ++ v.typeName))

/-- `get_field` -/
def getField (v : Value) (field : String) : Result Value :=
  match v with
  | struct _ fields =>
    match fields.lookup field with
    | some value => .ok value
    | none => .error (.typeError ("field '" ++ field ++ "' not found"))
  | v => .error (.typeError ("expected struct, got " ++ v.typeName))

/-- `set_field`: the entry in front is the one that counts -/
def setField (v : Value) (field : String) (value : Value) : Result Value :=
  match v with
  | struct name fields => .ok (struct name ((field, value) :: fields))
  | v => .error (.typeError ("expected struct, got " ++ v.typeName))

/-- `==`: integers are compared as `i64`; arrays and structs are never equal -/
def eq : Value → Value → Bool
  | i8 a, i8 b => a == b
  | i16 a, i16 b => a == b
  | i32 a, i32 b => a == b
  | i64 a, i64 b => a == b
  | u8 a, u8 b => a == b
  | u16 a, u16 b => a == b
  | u32 a, u32 b => a == b
  | u64 a, u64 b => a == b
  | bool a, bool b => a == b
  | fixed a, fixed b => a.bits == b.bits
  | string a, string b => a == b
  | unit, unit => true
  | enum e1 v1, enum e2 v2 => e1 == e2 && v1 == v2
  | a, b =>
    match a.int?, b.int? with
    | some m, some n => Int64.ofInt m == Int64.ofInt n
    | _, _ => false

end Value
end Ekkl
end EkKor

/-!
# EKKL: built-in functions and methods (`builtins.rs`)

* `Builtins.names`        the names of the functions;
* `Builtins.call`         a function;
* `Builtins.callMethod`   a method of a fixed-point number or of an array.
-/

namespace EkKor
namespace Ekkl
namespace Builtins
open Value

/-! ## arguments -/

/-- `ensure_arity` -/
def arityError (name : String) (expected found : Nat) : EvalError :=
  .typeError (name ++ " expects " ++ toString expected ++ " argument(s), got " ++ toString found)

def unary (name : String) (args : List Value) (f : Value → Result Value) : Result Value :=
  match args with
  | [a] => f a
  | _ => .error (arityError name 1 args.length)

def binary (name : String) (args : List Value) (f : Value → Value → Result Value) : Result Value :=
  match args with
  | [a, b] => f a b
  | _ => .error (arityError name 2 args.length)

def ternary (name : String) (args : List Value) (f : Value → Value → Value → Result Value) :
    Result Value :=
  match args with
  | [a, b, c] => f a b c
  | _ => .error (arityError name 3 args.length)

def entry (arr : List Value) (index : Nat) : Result Value :=
  match arr[index]? with
  | some v => .ok v
  | none => .error (.indexOutOfBounds index arr.length)

/-! ## functions -/

/-- the names in `Builtins::new` -/
def names : List String :=
  ["q16_from_bits", "q16_to_bits", "q16_from_float", "q16_to_float", "q16_abs", "q16_floor",
    "q16_ceil", "q16_round", "q16_frac", "q16_min", "q16_max", "q16_clamp", "q16_lerp",
    "q16_saturating_add", "q16_saturating_sub", "q16_saturating_mul", "array_len", "array_get",
    "array_set", "print", "assert", "assert_eq", "to_i32", "to_i64", "to_u8", "to_u16", "to_u32",
    "to_u64"]

/-- `has` -/
def has (name : String) : Bool := names.contains name

/-- `q16_lerp`: the difference, the product and the sum, each of which can overflow -/
def lerp (a b t : Fixed) : Result Fixed := do
  let d ← Fixed.checked (b.subInt a)
  let p ← Fixed.checked (d.mulInt t)
  Fixed.checked (a.addInt p)

/-- `call` -/
def call (name : String) (args : List Value) : Result Value :=
  match name with
  | "q16_from_bits" => unary name args fun a => do return fixed ⟨← a.asI32⟩
  | "q16_to_bits" => unary name args fun a => do return i32 (← a.asFixed).bits
  | "q16_from_float" => unary name args fun a => do
    return fixed (← fixedFromNum (← a.asI32).toInt)
  | "q16_to_float" => unary name args fun a => do return i32 (← a.asFixed).toNum
  | "q16_abs" => unary name args fun a => do
    return fixed (← Fixed.checked ((← a.asFixed).toInt.natAbs))
  | "q16_floor" => unary name args fun a => do return i32 (← a.asFixed).floor.toNum
  | "q16_ceil" => unary name args fun a => do
    return i32 (← Fixed.checked (← a.asFixed).ceilInt).toNum
  | "q16_round" => unary name args fun a => do
    return i32 (← Fixed.checked (← a.asFixed).roundInt).toNum
  | "q16_frac" => unary name args fun a => do return fixed (← a.asFixed).frac
  | "q16_min" => binary name args fun a b => do return fixed ((← a.asFixed).min (← b.asFixed))
  | "q16_max" => binary name args fun a b => do return fixed ((← a.asFixed).max (← b.asFixed))
  | "q16_clamp" => ternary name args fun v min max => do
    return fixed (((← v.asFixed).max (← min.asFixed)).min (← max.asFixed))
  | "q16_lerp" => ternary name args fun a b t => do
    return fixed (← lerp (← a.asFixed) (← b.asFixed) (← t.asFixed))
  | "q16_saturating_add" => binary name args fun a b => do
    return fixed (Fixed.saturated ((← a.asFixed).addInt (← b.asFixed)))
  | "q16_saturating_sub" => binary name args fun a b => do
    return fixed (Fixed.saturated ((← a.asFixed).subInt (← b.asFixed)))
  | "q16_saturating_mul" => binary name args fun a b => do
    return fixed (Fixed.saturated ((← a.asFixed).mulInt (← b.asFixed)))
  | "array_len" => unary name args fun a => do
    return u64 (UInt64.ofNat (← a.asArray).length)
  | "array_get" => binary name args fun a i => do
    entry (← a.asArray) (← i.asU64).toNat
  | "array_set" => ternary name args fun a i v => do
    let arr ← a.asArray
    let index := (← i.asU64).toNat
    if arr.length ≤ index then .error (.indexOutOfBounds index arr.length)
    else return array (arr.set index v)
  | "print" => .ok unit
  | "assert" => unary name args fun a => do
    if (← a.asBool) = true then return unit else .error (.assertionFailed none)
  | "assert_eq" => binary name args fun a b =>
    if a.eq b = true then .ok unit else .error (.assertionFailed (some (a, b)))
  | "to_i32" => unary name args fun a => do return i32 (← a.asI32)
  | "to_i64" => unary name args fun a => do return i64 (← a.asI64)
  | "to_u8" => unary name args fun a => do return u8 (← a.asU8)
  | "to_u16" => unary name args fun a => do return u16 (← a.asU16)
  | "to_u32" => unary name args fun a => do return u32 (← a.asU32)
  | "to_u64" => unary name args fun a => do return u64 (← a.asU64)
  | _ => .error (.undefinedFunction name)

/-! ## methods -/

/-- `call_fixed_method` -/
def callFixedMethod (method : String) (f : Fixed) (args : List Value) : Result Value :=
  match method with
  | "abs" => do return fixed (← Fixed.checked f.toInt.natAbs)
  | "floor" => .ok (i32 f.floor.toNum)
  | "ceil" => do return i32 (← Fixed.checked f.ceilInt).toNum
  | "round" => do return i32 (← Fixed.checked f.roundInt).toNum
  | "frac" => .ok (fixed f.frac)
  | "to_bits" => .ok (i32 f.bits)
  | "min" =>
    match args with
    | a :: _ => do return fixed (f.min (← a.asFixed))
    | [] => .error (.typeError "min requires argument")
  | "max" =>
    match args with
    | a :: _ => do return fixed (f.max (← a.asFixed))
    | [] => .error (.typeError "max requires argument")
  | "clamp" =>
    match args with
    | a :: b :: _ => do return fixed ((f.max (← a.asFixed)).min (← b.asFixed))
    | _ => .error (.typeError "clamp requires 2 arguments")
  | _ => .error (.typeError ("no method '" ++ method ++ "' on q16_16"))

/-- `call_array_method` -/
def callArrayMethod (method : String) (arr : List Value) (args : List Value) : Result Value :=
  match method with
  | "len" => .ok (u64 (UInt64.ofNat arr.length))
  | "get" =>
    match args with
    | i :: _ => do entry arr (← i.asU64).toNat
    | [] => .error (.typeError "get requires index argument")
  | "first" =>
    match arr.head? with
    | some v => .ok v
    | none => .error (.indexOutOfBounds 0 0)
  | "last" =>
    match arr.getLast? with
    | some v => .ok v
    | none => .error (.indexOutOfBounds 0 0)
  | _ => .error (.typeError ("no method '" ++ method ++ "' on array"))

/-- `call_method`; the receiver is the first argument -/
def callMethod (method : String) (args : List Value) : Result Value :=
  match args with
  | [] => .error (.typeError "method call requires receiver")
  | fixed f :: args => callFixedMethod method f args
  | array arr :: args => callArrayMethod method arr args
  | v :: _ => .error (.typeError ("no method '" ++ method ++ "' on type " ++ v.typeName))

end Builtins
end Ekkl
end EkKor
