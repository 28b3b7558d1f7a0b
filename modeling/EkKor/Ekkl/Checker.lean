import EkKor.Ekkl.Eval

/-!
# EKKL: the type checker (`types.rs`)

Spans are left out.  The entry in front of a map is the one that counts; `enums` is the map of the
enumerations in the order in which it is read.

* `TypeEnv`       what the checker knows, with the scopes of local variables;
* `inferExpr`     the type of an expression; it does not visit the arguments of calls;
* `checkStmt`     a statement; a body has a scope of its own;
* `typeCheck`     a program.
-/

namespace EkKor
namespace Ekkl

/-- `BinOp::as_str` -/
def BinOp.asStr : BinOp → String
  | .add => "+"
  | .sub => "-"
  | .mul => "*"
  | .div => "/"
  | .mod => "%"
  | .eq => "=="
  | .ne => "!="
  | .lt => "<"
  | .le => "<="
  | .gt => ">"
  | .ge => ">="
  | .and => "&&"
  | .or => "||"
  | .bitAnd => "&"
  | .bitOr => "|"
  | .bitXor => "^"
  | .shl => "<<"
  | .shr => ">>"

/-! ## environments -/

/-- `FnType` -/
structure FnType where
  params : List (String × Ty)
  returnType : Ty

/-- `TypeEnv`: the innermost scope first -/
structure TypeEnv where
  structs : List (String × List (String × Ty))
  enums : List (String × List String)
  functions : List (String × FnType)
  constants : List (String × Ty)
  scopes : List (List (String × Ty))

/-- `TypeError`, without the spans -/
inductive TypeError where
  | undefinedVariable (name : String)
  | undefinedType (name : String)
  | typeMismatch (expected found : String)
  | invalidOperator (op left right : String)
  | arityMismatch (expected found : Nat)
  | fieldNotFound (field structName : String)
  deriving DecidableEq

/-- `register_builtin_enums` -/
def builtinEnums : List (String × List String) :=
  [("Error", ["Ok", "InvalidArg", "NotFound", "NoMemory", "Timeout", "Busy", "AlreadyExists",
      "NoQuorum", "Inhibited", "FieldExpired", "NeighborLost", "HalFailure"]),
    ("HealthState", ["Unknown", "Alive", "Suspect", "Dead"]),
    ("VoteValue", ["Abstain", "Yes", "No", "Inhibit"]),
    ("VoteResult", ["Pending", "Approved", "Rejected", "Timeout", "Cancelled"]),
    ("ModuleState", ["Init", "Discovering", "Active", "Degraded", "Isolated", "Reforming",
      "Shutdown"]),
    ("FieldComponent", ["Load", "Thermal", "Power", "Custom0", "Custom1"]),
    ("DecayModel", ["Exponential", "Linear", "Step"])]

/-- `register_builtin_structs` -/
def builtinStructs : List (String × List (String × Ty)) :=
  [("Field", [("components", .array .q16_16 5), ("timestamp", .u64), ("source", .u8),
      ("sequence", .u8)]),
    ("Position", [("x", .i16), ("y", .i16), ("z", .i16)]),
    ("Neighbor", [("id", .u8), ("health", .named "HealthState"), ("last_seen", .u64),
      ("last_field", .named "Field"), ("logical_distance", .i32), ("missed_heartbeats", .u8)])]

/-- `register_builtin_constants` -/
def builtinConstants : List (String × Ty) :=
  [("K_NEIGHBORS", .u8), ("MAX_MODULES", .u16), ("MAX_TASKS_PER_MODULE", .u8),
    ("FIELD_DECAY_TAU_US", .u64), ("HEARTBEAT_PERIOD_US", .u64), ("HEARTBEAT_TIMEOUT_COUNT", .u8),
    ("VOTE_TIMEOUT_US", .u64), ("MAX_BALLOTS", .u8), ("FIELD_COUNT", .u8),
    ("INVALID_MODULE_ID", .u8), ("INVALID_BALLOT_ID", .u16), ("BROADCAST_ID", .u8),
    ("SIMPLE_MAJORITY", .q16_16), ("SUPERMAJORITY", .q16_16), ("UNANIMOUS", .q16_16)]

namespace TypeEnv

/-- `TypeEnv::new` -/
def new : TypeEnv := ⟨builtinStructs, builtinEnums, [], builtinConstants, [[]]⟩

/-- `push_scope` -/
def pushScope (env : TypeEnv) : TypeEnv := { env with scopes := [] :: env.scopes }

/-- `pop_scope` -/
def popScope (env : TypeEnv) : TypeEnv := { env with scopes := env.scopes.tail }

/-- `define` -/
def define (env : TypeEnv) (name : String) (ty : Ty) : TypeEnv :=
  match env.scopes with
  | [] => env
  | scope :: scopes => { env with scopes := ((name, ty) :: scope) :: scopes }

/-- `lookup` -/
def lookup (env : TypeEnv) (name : String) : Option Ty :=
  (env.scopes.findSome? fun scope => scope.lookup name).or (env.constants.lookup name)

def fieldType (env : TypeEnv) (structName field : String) : Option (Option Ty) :=
  (env.structs.lookup structName).map fun fields => fields.lookup field

/-- an item of the first pass; an enumeration takes the place of the one with its name -/
def collect (env : TypeEnv) : Item → TypeEnv
  | .structDef s => { env with structs := (s.name, s.fields) :: env.structs }
  | .enumDef e =>
    { env with enums := (e.name, e.variants) :: env.enums.filter fun d => d.1 != e.name }
  | .constDef c => { env with constants := (c.name, c.ty) :: env.constants }
  | .fnDef f =>
    { env with functions := (f.name, ⟨f.params.map fun p => (p.name, p.ty), f.returnType.getD .unit⟩) ::
        env.functions }

end TypeEnv

/-! ## types -/

/-- `types_compatible` -/
def typesCompatible (expected found : Ty) : Bool :=
  expected == found || expected == .infer || found == .infer ||
    (expected.isInteger && found.isInteger) || (expected.isNumeric && found.isNumeric)

/-- `promote_numeric` -/
def promoteNumeric (left right : Ty) : Ty :=
  if left = .q16_16 ∨ right = .q16_16 then .q16_16
  else if left = .i64 ∨ right = .i64 then .i64
  else if left = .u64 ∨ right = .u64 then .u64
  else if left = .i32 ∨ right = .i32 then .i32
  else if left = .u32 ∨ right = .u32 then .u32
  else if left = .i16 ∨ right = .i16 then .i16
  else if left = .u16 ∨ right = .u16 then .u16
  else if left = .i8 ∨ right = .i8 then .i8
  else if left = .u8 ∨ right = .u8 then .u8
  else left

/-! ## the checker -/

/-- `TypeChecker` -/
structure Checker where
  env : TypeEnv
  errors : List TypeError

abbrev Check : Type → Type := StateM Checker

def report (e : TypeError) : Check Unit := modify fun s => { s with errors := s.errors ++ [e] }

def expect (expected found : Ty) (text : String) : Check Unit :=
  if expected = found then pure () else report (.typeMismatch text found.display)

def expectCompatible (expected found : Ty) : Check Unit :=
  if typesCompatible expected found = true then pure ()
  else report (.typeMismatch expected.display found.display)

def setEnv (f : TypeEnv → TypeEnv) : Check Unit := modify fun s => { s with env := f s.env }

def inferBinary (op : BinOp) (left right : Ty) : Check Ty :=
  let invalid : Check Unit := report (.invalidOperator op.asStr left.display right.display)
  match op with
  | .add | .sub | .mul | .div | .mod =>
    if (left.isNumeric && right.isNumeric) = true then pure (promoteNumeric left right)
    else do
      invalid
      return .infer
  | .eq | .ne | .lt | .le | .gt | .ge => pure .bool
  | .and | .or => do
    if left ≠ .bool ∨ right ≠ .bool then invalid
    return .bool
  | .bitAnd | .bitOr | .bitXor | .shl | .shr =>
    if (left.isInteger && right.isInteger) = true then pure (promoteNumeric left right)
    else do
      invalid
      return .infer

def inferUnary (op : UnOp) (inner : Ty) : Check Ty :=
  match op with
  | .not => do
    expect .bool inner "bool"
    return .bool
  | .neg => do
    if inner.isNumeric = false then report (.typeMismatch "numeric" inner.display)
    return inner
  | .bitNot => do
    if inner.isInteger = false then report (.typeMismatch "integer" inner.display)
    return inner

def inferCall (func : String) (args : Nat) : Check Ty := do
  match (← get).env.functions.lookup func with
  | some fn => do
    if args ≠ fn.params.length then report (.arityMismatch fn.params.length args)
    return fn.returnType
  | none => return .infer

/-- a field of a type, with an error where `strict` -/
def inferField (strict : Bool) (inner : Ty) (field : String) : Check Ty := do
  match inner with
  | .named structName =>
    match (← get).env.fieldType structName field with
    | some (some ty) => return ty
    | some none => do
      if strict = true then report (.fieldNotFound field structName)
      return .infer
    | none => return .infer
  | _ => return .infer

def elemType : Ty → Ty
  | .array elem _ => elem
  | _ => .infer

/-- `infer_assign_target`; an index is not visited -/
def inferAssignTarget : AssignTarget → Check Ty
  | .ident name => do return ((← get).env.lookup name).getD .infer
  | .field base field => do inferField false (← inferAssignTarget base) field
  | .index base _ => do return elemType (← inferAssignTarget base)

section
variable (enums : List (String × List String))

def inferIdent (name : String) : Check Ty := do
  match isEnumVariant enums name with
  | some (enumName, _) => return .named enumName
  | none =>
    match (← get).env.lookup name with
    | some ty => return ty
    | none => do
      report (.undefinedVariable name)
      return .infer

mutual

/-- `infer_expr` -/
def inferExpr : Expr → Check Ty
  | .literal value =>
    match value with
    | .int _ => pure .i64
    | .fixed _ => pure .q16_16
    | .bool _ => pure .bool
    | .string _ => pure (.named "String")
    | .unit => pure .unit
  | .ident name => inferIdent enums name
  | .binary op left right => do
    let leftTy ← inferExpr left
    let rightTy ← inferExpr right
    inferBinary op leftTy rightTy
  | .unary op inner => do inferUnary op (← inferExpr inner)
  | .call func args => inferCall func args.length
  | .methodCall receiver _ _ => do
    let _ ← inferExpr receiver
    return .infer
  | .fieldAccess inner field => do inferField true (← inferExpr inner) field
  | .index inner index => do
    let innerTy ← inferExpr inner
    let _ ← inferExpr index
    return elemType innerTy
  | .structInit name fields => do
    match (← get).env.structs.lookup name with
    | some fieldTypes => do
      inferFields fieldTypes fields
      return .named name
    | none => do
      report (.undefinedType name)
      return .infer
  | .arrayInit elements =>
    match elements with
    | [] => pure (.array .infer 0)
    | e :: es => do return .array (← inferExpr e) (es.length + 1)
  | .cast _ ty => pure ty
  | .ifExpr cond thenExpr elseExpr => do
    let condTy ← inferExpr cond
    expect .bool condTy "bool"
    let thenTy ← inferExpr thenExpr
    let elseTy ← inferExpr elseExpr
    expectCompatible thenTy elseTy
    return thenTy
  | .block stmts => inferLast stmts

def inferFields (fieldTypes : List (String × Ty)) : List (String × Expr) → Check Unit
  | [] => pure ()
  | (name, e) :: fields => do
    let fieldTy ← inferExpr e
    match fieldTypes.lookup name with
    | some expected => expectCompatible expected fieldTy
    | none => pure ()
    inferFields fieldTypes fields

def inferLast : List Stmt → Check Ty
  | [] => pure .unit
  | [.expr e] => inferExpr e
  | [_] => pure .unit
  | _ :: stmts => inferLast stmts

end

mutual

/-- `check_stmt` -/
def checkStmt (expectedReturn : Ty) : Stmt → Check Unit
  | .letStmt name _ ty init => do
    let initTy ← inferExpr enums init
    let varTy := ty.getD initTy
    expectCompatible varTy initTy
    setEnv fun env => env.define name varTy
  | .assign target value => do
    let targetTy ← inferAssignTarget target
    let valueTy ← inferExpr enums value
    expectCompatible targetTy valueTy
  | .ret value => do
    let returnTy ←
      match value with
      | some e => inferExpr enums e
      | none => pure .unit
    expectCompatible expectedReturn returnTy
  | .ifStmt cond thenBlock elseBlock => do
    let condTy ← inferExpr enums cond
    expect .bool condTy "bool"
    setEnv TypeEnv.pushScope
    checkStmts expectedReturn thenBlock
    setEnv TypeEnv.popScope
    match elseBlock with
    | some elseBlock => do
      setEnv TypeEnv.pushScope
      checkStmts expectedReturn elseBlock
      setEnv TypeEnv.popScope
    | none => pure ()
  | .matchStmt e arms => do
    let _ ← inferExpr enums e
    checkArms arms
  | .forStmt var start stop body => do
    let startTy ← inferExpr enums start
    let _ ← inferExpr enums stop
    setEnv TypeEnv.pushScope
    setEnv fun env => env.define var startTy
    checkStmts expectedReturn body
    setEnv TypeEnv.popScope
  | .whileStmt cond body => do
    let condTy ← inferExpr enums cond
    expect .bool condTy "bool"
    setEnv TypeEnv.pushScope
    checkStmts expectedReturn body
    setEnv TypeEnv.popScope
  | .expr e => do
    let _ ← inferExpr enums e

def checkStmts (expectedReturn : Ty) : List Stmt → Check Unit
  | [] => pure ()
  | s :: stmts => do
    checkStmt expectedReturn s
    checkStmts expectedReturn stmts

/-- the bodies of the arms of a `match` -/
def checkArms : List (Pattern × Expr) → Check Unit
  | [] => pure ()
  | (_, body) :: arms => do
    let _ ← inferExpr enums body
    checkArms arms

end

/-- `check_fn` -/
def checkFn (f : FnDef) : Check Unit := do
  setEnv TypeEnv.pushScope
  setEnv fun env => f.params.foldl (fun env p => env.define p.name p.ty) env
  checkStmts enums (f.returnType.getD .unit) f.body
  setEnv TypeEnv.popScope

def checkItems : List Item → Check Unit
  | [] => pure ()
  | .fnDef f :: items => do
    checkFn enums f
    checkItems items
  | _ :: items => checkItems items

end

def collectItems (program : Program) : TypeEnv := program.items.foldl TypeEnv.collect TypeEnv.new

/-- `type_check`; `order` gives the order in which the map of the enumerations is read -/
def typeCheck (order : List (String × List String) → List (String × List String))
    (program : Program) : Except (List TypeError) TypeEnv :=
  let env := collectItems program
  let s := (checkItems (order env.enums) program.items ⟨env, []⟩).2
  if s.errors = [] then .ok s.env else .error s.errors

end Ekkl
end EkKor
