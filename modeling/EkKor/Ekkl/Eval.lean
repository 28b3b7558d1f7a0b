import EkKor.Ekkl.Value

/-!
# EKKL: the evaluator (`eval.rs`)

A call, a block and a loop take one unit of fuel for each step down; a run that ends is the same
with more fuel.

* `Operation`   an operation on values, and what it returns;
* `Evaluator`   the state; `performed` lists the operations of the run;
* `call`, `evalBlock`, `evalStmt`, `evalExpr`   the evaluation;
* `loadProgram`  a program.
-/

namespace EkKor
namespace Ekkl
open Value

/-! ## operations on values -/

/-- `eval_binary_op` when an operand is a fixed-point number -/
def fixedOp (op : BinOp) (l r : Fixed) : Result Value :=
  match op with
  | .add => do return fixed (← Fixed.checked (l.addInt r))
  | .sub => do return fixed (← Fixed.checked (l.subInt r))
  | .mul => do return fixed (← Fixed.checked (l.mulInt r))
  | .div =>
    if r = Fixed.zero then .error .divisionByZero
    else do return fixed (← Fixed.checked (l.divInt r))
  | .eq => .ok (bool (l.bits == r.bits))
  | .ne => .ok (bool (l.bits != r.bits))
  | .lt => .ok (bool (l.lt r))
  | .le => .ok (bool (l.le r))
  | .gt => .ok (bool (r.lt l))
  | .ge => .ok (bool (r.le l))
  | _ => .error (.typeError ("invalid operator " ++ op.debug ++ " for fixed-point"))

/-- the least `i64` -/
abbrev i64Min : Int64 := -9223372036854775808

/-- `eval_binary_op` of integers; `/`, `%`, `<<` and `>>` panic where the result does not exist -/
def integerOp (op : BinOp) (l r : Int64) : Result Value :=
  match op with
  | .add => .ok (i64 (l + r))
  | .sub => .ok (i64 (l - r))
  | .mul => .ok (i64 (l * r))
  | .div =>
    if r = 0 then .error .divisionByZero
    else if l = i64Min ∧ r = -1 then .panic
    else .ok (i64 (l / r))
  | .mod =>
    if r = 0 then .error .divisionByZero
    else if l = i64Min ∧ r = -1 then .panic
    else .ok (i64 (l % r))
  | .eq => .ok (bool (l == r))
  | .ne => .ok (bool (l != r))
  | .lt => .ok (bool (l.toBitVec.slt r.toBitVec))
  | .le => .ok (bool (l.toBitVec.sle r.toBitVec))
  | .gt => .ok (bool (r.toBitVec.slt l.toBitVec))
  | .ge => .ok (bool (r.toBitVec.sle l.toBitVec))
  | .bitAnd => .ok (i64 (l &&& r))
  | .bitOr => .ok (i64 (l ||| r))
  | .bitXor => .ok (i64 (l ^^^ r))
  | .shl => if 0 ≤ r.toInt ∧ r.toInt < 64 then .ok (i64 (l <<< r)) else .panic
  | .shr => if 0 ≤ r.toInt ∧ r.toInt < 64 then .ok (i64 (l >>> r)) else .panic
  | .and | .or => .error (.typeError "logical operators require bool")

/-- `eval_binary_op` of truth values -/
def boolOp (op : BinOp) (l r : Bool) : Result Value :=
  match op with
  | .and => .ok (bool (l && r))
  | .or => .ok (bool (l || r))
  | .eq => .ok (bool (l == r))
  | .ne => .ok (bool (l != r))
  | _ => .error (.typeError ("invalid operator " ++ op.debug ++ " for bool"))

/-- `eval_binary_op` of variants -/
def enumOp (op : BinOp) (l r : Value) : Result Value :=
  match op with
  | .eq => .ok (bool (l.eq r))
  | .ne => .ok (bool (!l.eq r))
  | _ => .error (.typeError ("invalid operator " ++ op.debug ++ " for enum"))

/-- `matches!(v, Value::Fixed(_))` -/
def isFixed : Value → Bool
  | fixed _ => true
  | _ => false

/-- `eval_binary_op` -/
def evalBinaryOp (op : BinOp) (left right : Value) : Result Value :=
  if (isFixed left || isFixed right) = true then do
    let l ← left.asFixed
    let r ← right.asFixed
    fixedOp op l r
  else if (left.isInteger && right.isInteger) = true then do
    let l ← left.asI64
    let r ← right.asI64
    integerOp op l r
  else
    match left, right with
    | .bool l, .bool r => boolOp op l r
    | enum _ _, enum _ _ => enumOp op left right
    | _, _ => .error (.typeError
        ("cannot apply " ++ op.debug ++ " to " ++ left.typeName ++ " and " ++ right.typeName))

/-- `eval_unary_op`; the negation of the least number panics -/
def evalUnaryOp (op : UnOp) (val : Value) : Result Value :=
  match op with
  | .not => do return bool (!(← val.asBool))
  | .neg =>
    match val with
    | fixed f => do return fixed (← Fixed.checked (-f.toInt))
    | val => do
      let n ← val.asI64
      if n = i64Min then .panic else return i64 (-n)
  | .bitNot => do return i64 (~~~(← val.asI64))

/-- `cast_value` -/
def castValue (val : Value) (ty : Ty) : Result Value :=
  match ty with
  | .i8 => do return i8 (← val.asI8)
  | .i16 => do return i16 (← val.asI16)
  | .i32 => do return i32 (← val.asI32)
  | .i64 => do return i64 (← val.asI64)
  | .u8 => do return u8 (← val.asU8)
  | .u16 => do return u16 (← val.asU16)
  | .u32 => do return u32 (← val.asU32)
  | .u64 => do return u64 (← val.asU64)
  | .q16_16 =>
    match val with
    | fixed f => .ok (fixed f)
    | val =>
      if val.isInteger = true then do return fixed (← fixedFromNum (← val.asI32).toInt)
      else .error (.invalidCast val.typeName "q16_16")
  | .bool =>
    match val with
    | .bool b => .ok (bool b)
    | val => .error (.invalidCast val.typeName "bool")
  | ty => .error (.invalidCast val.typeName ty.display)

/-- `expr[index]` of an array -/
def indexValue (arrayVal indexVal : Value) : Result Value := do
  let idx := ((← indexVal.asI64).toUInt64).toNat
  Builtins.entry (← arrayVal.asArray) idx

/-- `target[index] = value` -/
def setIndex (base indexVal value : Value) : Result Value := do
  let idx := ((← indexVal.asI64).toUInt64).toNat
  let arr ← base.asArray
  if arr.length ≤ idx then .error (.indexOutOfBounds idx arr.length)
  else return array (arr.set idx value)

/-- an operation on values -/
inductive Operation where
  | binary (op : BinOp) (left right : Value)
  | unary (op : UnOp) (val : Value)
  | cast (val : Value) (ty : Ty)
  | builtin (name : String) (args : List Value)
  | method (name : String) (args : List Value)
  | index (arr index : Value)
  | setIndex (arr index value : Value)

def Operation.run : Operation → Result Value
  | .binary op left right => evalBinaryOp op left right
  | .unary op val => evalUnaryOp op val
  | .cast val ty => castValue val ty
  | .builtin name args => Builtins.call name args
  | .method name args => Builtins.callMethod name args
  | .index arr i => indexValue arr i
  | .setIndex arr i value => Ekkl.setIndex arr i value

/-! ## names -/

/-- `is_enum_variant`: `enums` in the order in which the map of them is read -/
def isEnumVariant (enums : List (String × List String)) (name : String) :
    Option (String × String) :=
  let qualified :=
    match splitPath name.toList with
    | some (e, v) =>
      match enums.lookup (String.ofList e) with
      | some variants =>
        if variants.contains (String.ofList v) = true then
          some (String.ofList e, String.ofList v)
        else none
      | none => none
    | none => none
  match qualified with
  | some p => some p
  | none => (enums.find? fun e => e.2.contains name).map fun e => (e.1, name)

/-! ## state -/

/-- `StackFrame` -/
structure Frame where
  locals : List (String × Value)
  funcName : String

/-- `Evaluator`: the entry in front of a map is the one that counts -/
structure Evaluator where
  enums : List (String × List String)
  functions : List (String × FnDef)
  globals : List (String × Value)
  /-- the last frame first -/
  callStack : List Frame
  /-- the operations on values, a ghost -/
  performed : List Operation

abbrev Eval : Type → Type := Eff Evaluator EvalError

/-- `MAX_STACK_DEPTH` -/
abbrev maxStackDepth : Nat := 256

def perform (op : Operation) : Eval Value := do
  Eff.modify fun s => { s with performed := s.performed ++ [op] }
  Eff.lift op.run

/-- `get_var` -/
def getVar (name : String) : Eval Value := do
  match splitPath name.toList with
  | some (e, v) => return enum (String.ofList e) (String.ofList v)
  | none =>
    let s ← Eff.get
    match (s.callStack.head?.bind fun frame => frame.locals.lookup name).or
        (s.globals.lookup name) with
    | some val => return val
    | none =>
      match isEnumVariant s.enums name with
      | some (enumName, _) => return enum enumName name
      | none => Eff.throw (.undefinedVariable name)

/-- `set_local` -/
def setLocal (name : String) (value : Value) : Eval Unit :=
  Eff.modify fun s =>
    match s.callStack with
    | [] => s
    | frame :: frames =>
      { s with callStack := { frame with locals := (name, value) :: frame.locals } :: frames }

/-- `eval_literal` -/
def evalLiteral : Literal → Value
  | .int n => i64 n
  | .fixed bits => fixed ⟨bits⟩
  | .bool b => bool b
  | .string s => string s
  | .unit => unit

/-- `pattern_matches` -/
def patternMatches (pattern : Pattern) (value : Value) : Bool :=
  match pattern with
  | .wildcard => true
  | .ident _ => true
  | .variant enumName variant =>
    match value with
    | enum en v =>
      match enumName with
      | some expected => expected == en && variant == v
      | none => variant == v
    | _ => false
  | .literal lit =>
    match lit, value with
    | .int a, i64 b => a == b
    | .fixed a, fixed b => a == b.bits
    | .bool a, .bool b => a == b
    | .string a, string b => a == b
    | _, _ => false

def bindParams (params : List Param) (args : List Value) : List (String × Value) :=
  ((params.zip args).map fun p => (p.1.name, p.2)).reverse

/-- `for i in start..end` -/
def forRange (body : Int64 → Eval Unit) (start : Int64) : Nat → Eval Unit
  | 0 => return ()
  | n + 1 => do
    body start
    forRange body (start + 1) n

/-! ## evaluation -/

mutual

/-- `call` -/
def call : Nat → String → List Value → Eval Value
  | 0, _, _ => Eff.outOfFuel
  | fuel + 1, name, args =>
    if Builtins.has name = true then perform (.builtin name args)
    else do
      let s ← Eff.get
      match s.functions.lookup name with
      | none => Eff.throw (.undefinedFunction name)
      | some func =>
        if maxStackDepth ≤ s.callStack.length then Eff.throw .stackOverflow
        else do
          Eff.modify fun s => { s with callStack := ⟨bindParams func.params args, name⟩ :: s.callStack }
          let result ← Eff.attempt (evalBlock fuel func.body)
          Eff.modify fun s => { s with callStack := s.callStack.tail }
          match result with
          | .ok v => return v
          | .error (.ret v) => return v
          | .error e => Eff.throw e

/-- `eval_block` -/
def evalBlock : Nat → List Stmt → Eval Value
  | 0, _ => Eff.outOfFuel
  | fuel + 1, stmts => stmts.foldlM (fun _ stmt => evalStmt fuel stmt) unit

/-- `eval_stmt` -/
def evalStmt : Nat → Stmt → Eval Value
  | 0, _ => Eff.outOfFuel
  | fuel + 1, stmt =>
    match stmt with
    | .letStmt name _ _ init => do
      setLocal name (← evalExpr fuel init)
      return unit
    | .assign target value => do
      assignTarget fuel target (← evalExpr fuel value)
      return unit
    | .ret value => do
      let result ←
        match value with
        | some expr => evalExpr fuel expr
        | none => pure unit
      Eff.throw (.ret result)
    | .ifStmt cond thenBlock elseBlock => do
      let condVal ← evalExpr fuel cond
      if (← Eff.lift condVal.asBool) = true then evalBlock fuel thenBlock
      else
        match elseBlock with
        | some elseBlock => evalBlock fuel elseBlock
        | none => return unit
    | .matchStmt expr arms => do
      let value ← evalExpr fuel expr
      match arms.find? fun arm => patternMatches arm.1 value with
      | some arm => evalExpr fuel arm.2
      | none => return unit
    | .forStmt var start stop body => do
      let startVal ← Eff.lift (← evalExpr fuel start).asI64
      let endVal ← Eff.lift (← evalExpr fuel stop).asI64
      forRange (fun i => do
        setLocal var (i64 i)
        let _ ← evalBlock fuel body
        return ()) startVal (endVal.toInt - startVal.toInt).toNat
      return unit
    | .whileStmt cond body => whileLoop fuel cond body
    | .expr expr => evalExpr fuel expr

/-- the loop of `Stmt::While` -/
def whileLoop : Nat → Expr → List Stmt → Eval Value
  | 0, _, _ => Eff.outOfFuel
  | fuel + 1, cond, body => do
    let condVal ← evalExpr fuel cond
    if (← Eff.lift condVal.asBool) = true then do
      let _ ← evalBlock fuel body
      whileLoop fuel cond body
    else return unit

/-- `eval_expr` -/
def evalExpr : Nat → Expr → Eval Value
  | 0, _ => Eff.outOfFuel
  | fuel + 1, expr =>
    match expr with
    | .literal value => return evalLiteral value
    | .ident name => getVar name
    | .binary op left right => do
      let leftVal ← evalExpr fuel left
      let rightVal ← evalExpr fuel right
      perform (.binary op leftVal rightVal)
    | .unary op inner => do perform (.unary op (← evalExpr fuel inner))
    | .call func args => do call fuel func (← args.mapM fun a => evalExpr fuel a)
    | .methodCall receiver method args => do
      let receiverVal ← evalExpr fuel receiver
      let argValues ← args.mapM fun a => evalExpr fuel a
      perform (.method method (receiverVal :: argValues))
    | .fieldAccess inner field => do Eff.lift ((← evalExpr fuel inner).getField field)
    | .index inner index => do
      let arrayVal ← evalExpr fuel inner
      let indexVal ← evalExpr fuel index
      perform (.index arrayVal indexVal)
    | .structInit name fields => do
      let fieldValues ← fields.mapM fun f => do return (f.1, ← evalExpr fuel f.2)
      return struct name fieldValues.reverse
    | .arrayInit elements => do return array (← elements.mapM fun e => evalExpr fuel e)
    | .cast inner ty => do perform (.cast (← evalExpr fuel inner) ty)
    | .ifExpr cond thenExpr elseExpr => do
      let condVal ← evalExpr fuel cond
      if (← Eff.lift condVal.asBool) = true then evalExpr fuel thenExpr
      else evalExpr fuel elseExpr
    | .block stmts => evalBlock fuel stmts

/-- `assign_target`, and `assign_base_target` -/
def assignTarget : Nat → AssignTarget → Value → Eval Unit
  | 0, _, _ => Eff.outOfFuel
  | fuel + 1, target, value =>
    match target with
    | .ident name => setLocal name value
    | .field base field => do
      let baseVal ← getAssignTargetValue fuel base
      assignTarget fuel base (← Eff.lift (baseVal.setField field value))
    | .index base index => do
      let indexVal ← evalExpr fuel index
      let _ ← Eff.lift indexVal.asI64
      let baseVal ← getAssignTargetValue fuel base
      assignTarget fuel base (← perform (.setIndex baseVal indexVal value))

/-- `get_assign_target_value` -/
def getAssignTargetValue : Nat → AssignTarget → Eval Value
  | 0, _ => Eff.outOfFuel
  | fuel + 1, target =>
    match target with
    | .ident name => getVar name
    | .field base field => do Eff.lift ((← getAssignTargetValue fuel base).getField field)
    | .index base index => do
      let baseVal ← getAssignTargetValue fuel base
      let indexVal ← evalExpr fuel index
      perform (.index baseVal indexVal)

end

/-! ## programs -/

/-- the constants of `init_constants` -/
def initConstants : List (String × Value) :=
  [("K_NEIGHBORS", u8 7), ("MAX_MODULES", u16 256), ("MAX_TASKS_PER_MODULE", u8 8),
    ("FIELD_DECAY_TAU_US", u64 100000), ("HEARTBEAT_PERIOD_US", u64 10000),
    ("HEARTBEAT_TIMEOUT_COUNT", u8 5), ("VOTE_TIMEOUT_US", u64 50000), ("MAX_BALLOTS", u8 4),
    ("FIELD_COUNT", u8 5), ("INVALID_MODULE_ID", u8 0), ("INVALID_BALLOT_ID", u16 0),
    ("BROADCAST_ID", u8 255), ("SIMPLE_MAJORITY", fixed ⟨0x8000⟩), ("SUPERMAJORITY", fixed ⟨0xAB85⟩),
    ("UNANIMOUS", fixed Fixed.one)]

/-- `Evaluator::new`, with the enums of `TypeEnv::new` -/
def Evaluator.new (enums : List (String × List String)) : Evaluator :=
  ⟨enums, [], initConstants, [], []⟩

/-- an item of `load_program` -/
def loadItem (fuel : Nat) : Item → Eval Unit
  | .fnDef f => Eff.modify fun s => { s with functions := (f.name, f) :: s.functions }
  | .constDef c => do
    let value ← evalExpr fuel c.value
    Eff.modify fun s => { s with globals := (c.name, value) :: s.globals }
  | .structDef _ | .enumDef _ => return ()

/-- `load_program` -/
def loadProgram (fuel : Nat) (program : Program) : Eval Unit :=
  program.items.foldlM (fun _ item => loadItem fuel item) ()

end Ekkl
end EkKor
