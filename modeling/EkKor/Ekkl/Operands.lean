import EkKor.Ekkl.Eval

/-!
# When operations exist

Fixed-point arithmetic panics when the result does not fit in 32 bits, a whole number panics when it
is too large for a fixed-point number, and the integer operations panic where their result does not
exist.

* `fixedInt`      the number of 65536ths that a numeric value is converted to;
* `Conv`          the value is converted, and what then holds of the number;
* `Operation.Defined`   the operands are ones for which the operation exists;
* `run_panic_iff`   the other operands are those for which it panics.
-/

namespace EkKor
namespace Ekkl
open Value

/-! ## conversions -/

/-- `is_numeric` -/
def Value.isNumeric (v : Value) : Bool := v.isInteger || isFixed v

/-- the number of 65536ths to which `as_fixed` converts a numeric value; the wide integers are cut to
32 bits -/
def fixedInt : Value → Int
  | .fixed f => f.toInt
  | .i8 v => v.toInt * 65536
  | .i16 v => v.toInt * 65536
  | .i32 v => v.toInt * 65536
  | .i64 v => (Int32.ofInt v.toInt).toInt * 65536
  | .u8 v => v.toNat * 65536
  | .u16 v => v.toNat * 65536
  | .u32 v => (Int32.ofInt v.toNat).toInt * 65536
  | .u64 v => (Int32.ofInt v.toNat).toInt * 65536
  | _ => 0

/-- the number of 65536ths fits, and if the value is numeric, it meets `P` -/
def Conv (v : Value) (P : Int → Prop) : Prop :=
  Fixed.Fits (fixedInt v) ∧ (v.isNumeric = true → P (fixedInt v))

theorem Fixed.toInt_ofInt {n : Int} (h : Fixed.Fits n) : (Fixed.mk (Int32.ofInt n)).toInt = n := by
  exact Int32.toInt_ofInt_of_le h.1 (Int.lt_of_le_of_lt h.2 (by decide))

theorem Fixed.fits_toInt (f : Fixed) : Fixed.Fits f.toInt := by
  have h := Int32.toInt_lt f.bits
  exact ⟨Int32.le_toInt f.bits, Int.le_of_lt_add_one h⟩

theorem Fixed.checked_toInt {ε : Type} (f : Fixed) : Fixed.checked f.toInt = (.ok f : Outcome ε Fixed) := by
  unfold Fixed.checked
  rw [if_pos f.fits_toInt]
  unfold Fixed.toInt
  rw [Int32.ofInt_toInt]

theorem asFixed_eq (v : Value) :
    v.isNumeric = true ∧ v.asFixed = Fixed.checked (fixedInt v) ∨
      v.isNumeric = false ∧ fixedInt v = 0 ∧ ∃ e, v.asFixed = .error e := by
  cases v with
  | fixed f => exact Or.inl ⟨rfl, f.checked_toInt.symm⟩
  | i8 | i16 | i32 | i64 | u8 | u16 | u32 | u64 => exact Or.inl ⟨rfl, rfl⟩
  | _ => exact Or.inr ⟨rfl, rfl, _, rfl⟩

variable {α β : Type}

theorem checked_bind_panic {n : Int} {f : Fixed → Result α} {P : Prop}
    (h : Fixed.Fits n → (f ⟨Int32.ofInt n⟩ = .panic ↔ ¬P)) :
    (Fixed.checked n >>= f) = .panic ↔ ¬(Fixed.Fits n ∧ P) := by
  unfold Fixed.checked
  by_cases hn : Fixed.Fits n
  · rw [if_pos hn]
    show f _ = .panic ↔ _
    rw [h hn, and_iff_right hn]
  · rw [if_neg hn]
    exact iff_of_true rfl fun h => hn h.1

variable {v : Value} {g : Fixed → Value} (op : BinOp) {name : String} {args : List Value}
  {D : List Value → Prop} (method : String)

theorem asFixed_bind_panic {f : Fixed → Result α} {P : Int → Prop}
    (h : ∀ n, Fixed.Fits n → (f ⟨Int32.ofInt n⟩ = .panic ↔ ¬P n)) :
    (v.asFixed >>= f) = .panic ↔ ¬Conv v P := by
  unfold Conv
  rcases asFixed_eq v with ⟨hnum, heq⟩ | ⟨hnum, hzero, e, heq⟩
  · rw [heq, checked_bind_panic (h _), hnum]
    simp
  · rw [heq, hnum, hzero]
    exact iff_of_false nofun fun hc => hc ⟨by decide, nofun⟩

theorem pure_panic {a : α} : (Pure.pure a : Result α) = .panic ↔ ¬True :=
  iff_of_false nofun fun h => h trivial

theorem asFixed_return_panic :
    (do return g (← v.asFixed) : Result Value) = .panic ↔ ¬Conv v fun _ => True :=
  asFixed_bind_panic (f := fun a => return g a) fun _ _ => pure_panic

theorem checked_panic {n : Int} :
    (do return g (← Fixed.checked n) : Result Value) = .panic ↔ ¬Fixed.Fits n := by
  have h := checked_bind_panic (n := n) (f := fun a => return g a) fun _ => pure_panic
  rw [h, and_iff_left trivial]

/-! ## operators -/

def fixedRange (op : BinOp) (a b : Int) : Prop :=
  match op with
  | .add => Fixed.Fits (a + b)
  | .sub => Fixed.Fits (a - b)
  | .mul => Fixed.Fits ((a * b).fdiv 65536)
  | .div => b ≠ 0 → Fixed.Fits ((a * 65536).tdiv b)
  | _ => True

def integerRange (op : BinOp) (l r : Int64) : Prop :=
  match op with
  | .div | .mod => ¬(l = i64Min ∧ r = -1)
  | .shl | .shr => 0 ≤ r.toInt ∧ r.toInt < 64
  | _ => True

/-- `as_i64` of an integer -/
def i64Of (v : Value) : Int64 := Int64.ofInt (v.int?.getD 0)

def binaryDefined (op : BinOp) (left right : Value) : Prop :=
  if (isFixed left || isFixed right) = true then
    Conv left fun a => Conv right fun b => fixedRange op a b
  else if (left.isInteger && right.isInteger) = true then
    integerRange op (i64Of left) (i64Of right)
  else True

def unaryDefined (op : UnOp) (val : Value) : Prop :=
  match op, val with
  | .neg, .fixed f => Fixed.Fits (-f.toInt)
  | .neg, val => val.isInteger = true → i64Of val ≠ i64Min
  | _, _ => True

theorem fixedOp_panic {a b : Int} (ha : Fixed.Fits a) (hb : Fixed.Fits b) :
    fixedOp op ⟨Int32.ofInt a⟩ ⟨Int32.ofInt b⟩ = .panic ↔ ¬fixedRange op a b := by
  have hta := Fixed.toInt_ofInt ha
  have htb := Fixed.toInt_ofInt hb
  cases op with
  | add =>
    unfold fixedOp fixedRange Fixed.addInt
    rw [hta, htb]
    exact checked_panic
  | sub =>
    unfold fixedOp fixedRange Fixed.subInt
    rw [hta, htb]
    exact checked_panic
  | mul =>
    unfold fixedOp fixedRange Fixed.mulInt
    rw [hta, htb]
    exact checked_panic
  | div =>
    have hzero : (⟨Int32.ofInt b⟩ : Fixed) = Fixed.zero ↔ b = 0 := by
      constructor
      · intro heq
        rw [← htb, heq]
        rfl
      · rintro rfl
        rfl
    unfold fixedOp fixedRange Fixed.divInt
    rw [hta, htb]
    by_cases hb0 : b = 0
    · rw [if_pos (hzero.mpr hb0)]
      exact iff_of_false nofun fun h => h fun hne => absurd hb0 hne
    · rw [if_neg fun h => hb0 (hzero.mp h), checked_panic]
      exact not_congr ⟨fun h _ => h, fun h => h hb0⟩
  | _ => exact iff_of_false nofun fun h => h trivial

theorem integerOp_panic (l r : Int64) : integerOp op l r = .panic ↔ ¬integerRange op l r := by
  cases op with
  | div | mod =>
    unfold integerOp integerRange
    dsimp only
    split_ifs with hr h
    · refine iff_of_false nofun fun hn => hn fun h => ?_
      rw [hr] at h
      exact absurd h.2 (by decide)
    · exact iff_of_true rfl (not_not_intro h)
    · exact iff_of_false nofun (not_not_intro h)
  | shl | shr =>
    unfold integerOp integerRange
    dsimp only
    split_ifs with h
    · exact iff_of_false nofun (not_not_intro h)
    · exact iff_of_true rfl h
  | _ => exact iff_of_false nofun fun h => h trivial

theorem asI64_eq (h : v.isInteger = true) : v.asI64 = .ok (i64Of v) := by
  obtain ⟨n, hn⟩ := Option.isSome_iff_exists.mp h
  unfold Value.asI64 Value.asInteger i64Of
  rw [hn]
  rfl

theorem asI64_error (h : v.isInteger ≠ true) : ∃ e, v.asI64 = .error e := by
  unfold Value.asI64 Value.asInteger
  rw [Option.not_isSome_iff_eq_none.mp h]
  exact ⟨_, rfl⟩

theorem evalBinaryOp_panic (left right : Value) :
    evalBinaryOp op left right = .panic ↔ ¬binaryDefined op left right := by
  unfold evalBinaryOp binaryDefined
  by_cases hfix : (isFixed left || isFixed right) = true
  · rw [if_pos hfix, if_pos hfix]
    exact asFixed_bind_panic fun a ha => asFixed_bind_panic fun b hb => fixedOp_panic op ha hb
  · rw [if_neg hfix, if_neg hfix]
    by_cases hint : (left.isInteger && right.isInteger) = true
    · rw [if_pos hint, if_pos hint]
      obtain ⟨hl, hr⟩ := Bool.and_eq_true_iff.mp hint
      rw [asI64_eq hl, asI64_eq hr]
      exact integerOp_panic op _ _
    · rw [if_neg hint, if_neg hint]
      refine iff_of_false ?_ fun h => h trivial
      split
      · next l r =>
        cases op <;> exact nofun
      · next =>
        cases op <;> exact nofun
      · exact nofun

theorem evalUnaryOp_panic (op : UnOp) (val : Value) :
    evalUnaryOp op val = .panic ↔ ¬unaryDefined op val := by
  have herror {f : Int64 → Result Value} {r : Result Int64} (h : ∃ e, r = .error e) :
      (r >>= f) ≠ .panic := by
    obtain ⟨e, rfl⟩ := h
    exact nofun
  have hneg (v : Value) : (do
      let n ← v.asI64
      if n = i64Min then .panic else return .i64 (-n) : Result Value) = .panic ↔
        ¬(v.isInteger = true → i64Of v ≠ i64Min) := by
    by_cases hv : v.isInteger = true
    · rw [asI64_eq hv]
      show (if i64Of v = i64Min then .panic else _) = Outcome.panic ↔ _
      split_ifs with hmin
      · exact iff_of_true rfl fun h => h hv hmin
      · exact iff_of_false nofun fun h => h fun _ => hmin
    · exact iff_of_false (herror (asI64_error hv)) fun h => h fun h => absurd h hv
  cases op with
  | not =>
    refine iff_of_false ?_ fun h => h trivial
    cases val <;> exact nofun
  | neg =>
    cases val with
    | fixed f => exact checked_panic
    | _ => exact hneg _
  | bitNot =>
    refine iff_of_false ?_ fun h => h trivial
    cases val <;> exact nofun

/-! ## casts, functions and methods -/

/-- `as_i32` of a numeric value -/
def i32Of : Value → Int32
  | .fixed f => f.bits
  | v => Int32.ofInt (v.int?.getD 0)

def castDefined (val : Value) : Ty → Prop
  | .q16_16 => val.isInteger = true → Fixed.Fits ((i32Of val).toInt * 65536)
  | _ => True

/-- the arguments of `call` for which the function exists -/
def builtinDefined (name : String) (args : List Value) : Prop :=
  match name, args with
  | "q16_to_bits", [a] | "q16_to_float", [a] | "q16_floor", [a] | "q16_frac", [a] =>
    Conv a fun _ => True
  | "q16_from_float", [a] => a.isNumeric = true → Fixed.Fits ((i32Of a).toInt * 65536)
  | "q16_abs", [a] => Conv a fun x => Fixed.Fits x.natAbs
  | "q16_ceil", [a] => Conv a fun x => Fixed.Fits (Fixed.mk (Int32.ofInt x)).ceilInt
  | "q16_round", [a] => Conv a fun x => Fixed.Fits (Fixed.mk (Int32.ofInt x)).roundInt
  | "q16_min", [a, b] | "q16_max", [a, b] | "q16_saturating_add", [a, b]
  | "q16_saturating_sub", [a, b] | "q16_saturating_mul", [a, b] =>
    Conv a fun _ => Conv b fun _ => True
  | "q16_clamp", [a, b, c] => Conv a fun _ => Conv b fun _ => Conv c fun _ => True
  | "q16_lerp", [a, b, t] =>
    Conv a fun x => Conv b fun y => Conv t fun z =>
      Fixed.Fits (y - x) ∧ Fixed.Fits (((y - x) * z).fdiv 65536) ∧
        Fixed.Fits (x + ((y - x) * z).fdiv 65536)
  | _, _ => True

/-- the arguments of `call_method` for which the method exists -/
def methodDefined (method : String) (args : List Value) : Prop :=
  match method, args with
  | "abs", .fixed f :: _ => Fixed.Fits f.toInt.natAbs
  | "ceil", .fixed f :: _ => Fixed.Fits f.ceilInt
  | "round", .fixed f :: _ => Fixed.Fits f.roundInt
  | "min", .fixed _ :: a :: _ | "max", .fixed _ :: a :: _ => Conv a fun _ => True
  | "clamp", .fixed _ :: a :: b :: _ => Conv a fun _ => Conv b fun _ => True
  | _, _ => True

def Operation.Defined : Operation → Prop
  | .binary op left right => binaryDefined op left right
  | .unary op val => unaryDefined op val
  | .cast val ty => castDefined val ty
  | .builtin name args => builtinDefined name args
  | .method name args => methodDefined name args
  | .index _ _ | .setIndex _ _ _ => True

theorem asI32_eq (h : v.isNumeric = true) : v.asI32 = .ok (i32Of v) := by
  cases v with
  | i8 | i16 | i32 | i64 | u8 | u16 | u32 | u64 | fixed => rfl
  | _ => cases h

theorem asI32_error (h : v.isNumeric ≠ true) : ∃ e, v.asI32 = .error e := by
  cases v with
  | i8 | i16 | i32 | i64 | u8 | u16 | u32 | u64 | fixed => exact absurd rfl h
  | _ => exact ⟨_, rfl⟩

theorem fromNum_panic (v : Value) :
    (do return .fixed (← fixedFromNum (← v.asI32).toInt) : Result Value) = .panic ↔
      ¬(v.isNumeric = true → Fixed.Fits ((i32Of v).toInt * 65536)) := by
  by_cases hv : v.isNumeric = true
  · rw [asI32_eq hv]
    exact checked_panic.trans (not_congr ⟨fun h _ => h, fun h => h hv⟩)
  · obtain ⟨e, he⟩ := asI32_error hv
    rw [he]
    exact iff_of_false nofun fun h => h fun h => absurd h hv

theorem asInteger_bind_ne_panic {what : String} {ofInt : Int → α} {f : α → Result β}
    (h : ∀ a, f a ≠ .panic) : (asInteger what ofInt v >>= f) ≠ .panic := by
  unfold asInteger
  cases v.int? with
  | some n => exact h _
  | none => exact nofun

theorem castValue_panic (val : Value) (ty : Ty) :
    castValue val ty = .panic ↔ ¬castDefined val ty := by
  have hno {r : Result Value} (h : r ≠ .panic) : r = .panic ↔ ¬True :=
    iff_of_false h fun h => h trivial
  cases ty with
  | i8 | i16 | i64 | u8 | u16 | u32 | u64 => exact hno (asInteger_bind_ne_panic fun _ => nofun)
  | i32 =>
    refine hno ?_
    cases val <;> exact nofun
  | bool =>
    refine hno ?_
    cases val <;> exact nofun
  | q16_16 =>
    cases val with
    | fixed f => exact iff_of_false nofun fun h => h nofun
    | i8 | i16 | i32 | i64 | u8 | u16 | u32 | u64 =>
      refine (fromNum_panic _).trans (not_congr ⟨fun h _ => h rfl, fun h _ => h rfl⟩)
    | _ => exact iff_of_false nofun fun h => h nofun
  | _ => exact hno nofun

/-- a function of one argument, when `D` holds of all other numbers of arguments -/
theorem unary_panic {f : Value → Result Value} (hf : ∀ a, f a = .panic ↔ ¬D [a])
    (hd : ∀ args, args.length ≠ 1 → D args) : Builtins.unary name args f = .panic ↔ ¬D args := by
  match args with
  | [a] => exact hf a
  | [] | _ :: _ :: _ => exact iff_of_false nofun fun h => h (hd _ (by simp))

theorem binary_panic {f : Value → Value → Result Value} (hf : ∀ a b, f a b = .panic ↔ ¬D [a, b])
    (hd : ∀ args, args.length ≠ 2 → D args) : Builtins.binary name args f = .panic ↔ ¬D args := by
  match args with
  | [a, b] => exact hf a b
  | [] | [_] | _ :: _ :: _ :: _ => exact iff_of_false nofun fun h => h (hd _ (by simp))

theorem ternary_panic {f : Value → Value → Value → Result Value}
    (hf : ∀ a b c, f a b c = .panic ↔ ¬D [a, b, c]) (hd : ∀ args, args.length ≠ 3 → D args) :
    Builtins.ternary name args f = .panic ↔ ¬D args := by
  match args with
  | [a, b, c] => exact hf a b c
  | [] | [_] | [_, _] | _ :: _ :: _ :: _ :: _ => exact iff_of_false nofun fun h => h (hd _ (by simp))

theorem asFixed_checked_panic {r : Fixed → Int} {R : Int → Int}
    (h : ∀ n, Fixed.Fits n → r ⟨Int32.ofInt n⟩ = R n) :
    (do
      let a ← v.asFixed
      return g (← Fixed.checked (r a)) : Result Value) = .panic ↔ ¬Conv v fun n => Fixed.Fits (R n) :=
  asFixed_bind_panic fun n hn => by
    rw [h n hn]
    exact checked_panic

theorem lerp_panic {x y z : Int} (hx : Fixed.Fits x) (hy : Fixed.Fits y) (hz : Fixed.Fits z) :
    (do return .fixed (← Builtins.lerp ⟨Int32.ofInt x⟩ ⟨Int32.ofInt y⟩ ⟨Int32.ofInt z⟩) :
      Result Value) = .panic ↔
      ¬(Fixed.Fits (y - x) ∧ Fixed.Fits (((y - x) * z).fdiv 65536) ∧
        Fixed.Fits (x + ((y - x) * z).fdiv 65536)) := by
  unfold Builtins.lerp
  rw [bind_assoc]
  unfold Fixed.subInt
  rw [Fixed.toInt_ofInt hx, Fixed.toInt_ofInt hy]
  refine checked_bind_panic fun hd => ?_
  rw [bind_assoc]
  unfold Fixed.mulInt
  rw [Fixed.toInt_ofInt hd, Fixed.toInt_ofInt hz]
  refine checked_bind_panic fun hp => ?_
  unfold Fixed.addInt
  rw [Fixed.toInt_ofInt hx, Fixed.toInt_ofInt hp]
  exact checked_panic

theorem entry_ne_panic (arr : List Value) (index : Nat) : Builtins.entry arr index ≠ .panic := by
  unfold Builtins.entry
  split <;> exact nofun

theorem asArray_bind_ne_panic {f : List Value → Result β} (h : ∀ arr, f arr ≠ .panic) :
    (v.asArray >>= f) ≠ .panic := by
  cases v with
  | array arr => exact h arr
  | _ => exact nofun

theorem call_panic (name : String) (args : List Value) :
    Builtins.call name args = .panic ↔ ¬builtinDefined name args := by
  -- the numbers of arguments that no function of one, two or three arguments takes
  have one {D : List Value → Prop} (h0 : D []) (h2 : ∀ a b as, D (a :: b :: as))
      (args : List Value) (hlen : args.length ≠ 1) : D args := by
    match args, hlen with
    | [], _ => exact h0
    | a :: b :: as, _ => exact h2 a b as
  have two {D : List Value → Prop} (h0 : D []) (h1 : ∀ a, D [a]) (h3 : ∀ a b c as, D (a :: b :: c :: as))
      (args : List Value) (hlen : args.length ≠ 2) : D args := by
    match args, hlen with
    | [], _ => exact h0
    | [a], _ => exact h1 a
    | a :: b :: c :: as, _ => exact h3 a b c as
  have three {D : List Value → Prop} (h0 : D []) (h1 : ∀ a, D [a]) (h2 : ∀ a b, D [a, b])
      (h4 : ∀ a b c d as, D (a :: b :: c :: d :: as))
      (args : List Value) (hlen : args.length ≠ 3) : D args := by
    match args, hlen with
    | [], _ => exact h0
    | [a], _ => exact h1 a
    | [a, b], _ => exact h2 a b
    | a :: b :: c :: d :: as, _ => exact h4 a b c d as
  have hno {r : Result Value} (h : r ≠ .panic) : r = .panic ↔ ¬True :=
    iff_of_false h fun h => h trivial
  have hint {γ : Type} {what : String} {ofInt : Int → γ} {g : γ → Value} (a : Value) :
      (do return g (← asInteger what ofInt a) : Result Value) ≠ .panic :=
    asInteger_bind_ne_panic fun _ => nofun
  have htwo {g : Fixed → Fixed → Value} (a b : Value) :
      (do return g (← a.asFixed) (← b.asFixed) : Result Value) = .panic ↔
        ¬Conv a fun _ => Conv b fun _ => True :=
    asFixed_bind_panic fun _ _ => asFixed_return_panic
  unfold Builtins.call
  split
  · refine unary_panic (D := builtinDefined "q16_from_bits") (fun a => hno ?_) fun _ _ => trivial
    cases a <;> exact nofun
  · exact unary_panic (D := builtinDefined "q16_to_bits") (fun _ => asFixed_return_panic)
      (one trivial fun _ _ _ => trivial)
  · exact unary_panic (D := builtinDefined "q16_from_float") fromNum_panic
      (one trivial fun _ _ _ => trivial)
  · exact unary_panic (D := builtinDefined "q16_to_float") (fun _ => asFixed_return_panic)
      (one trivial fun _ _ _ => trivial)
  · refine unary_panic (D := builtinDefined "q16_abs") (fun a => ?_) (one trivial fun _ _ _ => trivial)
    exact asFixed_checked_panic (r := fun f => f.toInt.natAbs) fun n hn => by
      rw [Fixed.toInt_ofInt hn]
  · exact unary_panic (D := builtinDefined "q16_floor") (fun _ => asFixed_return_panic)
      (one trivial fun _ _ _ => trivial)
  · refine unary_panic (D := builtinDefined "q16_ceil") (fun a => ?_) (one trivial fun _ _ _ => trivial)
    exact asFixed_checked_panic fun _ _ => rfl
  · refine unary_panic (D := builtinDefined "q16_round") (fun a => ?_)
      (one trivial fun _ _ _ => trivial)
    exact asFixed_checked_panic fun _ _ => rfl
  · exact unary_panic (D := builtinDefined "q16_frac") (fun _ => asFixed_return_panic)
      (one trivial fun _ _ _ => trivial)
  · exact binary_panic (D := builtinDefined "q16_min") htwo
      (two trivial (fun _ => trivial) fun _ _ _ _ => trivial)
  · exact binary_panic (D := builtinDefined "q16_max") htwo
      (two trivial (fun _ => trivial) fun _ _ _ _ => trivial)
  · refine ternary_panic (D := builtinDefined "q16_clamp") (fun a b c => ?_)
      (three trivial (fun _ => trivial) (fun _ _ => trivial) fun _ _ _ _ _ => trivial)
    show _ ↔ ¬Conv a fun _ => Conv b fun _ => Conv c fun _ => True
    exact asFixed_bind_panic fun _ _ => asFixed_bind_panic fun _ _ => asFixed_return_panic
  · refine ternary_panic (D := builtinDefined "q16_lerp") (fun a b t => ?_)
      (three trivial (fun _ => trivial) (fun _ _ => trivial) fun _ _ _ _ _ => trivial)
    show _ ↔ ¬Conv a fun x => Conv b fun y => Conv t fun z =>
      Fixed.Fits (y - x) ∧ Fixed.Fits (((y - x) * z).fdiv 65536) ∧
        Fixed.Fits (x + ((y - x) * z).fdiv 65536)
    exact asFixed_bind_panic fun _ hx => asFixed_bind_panic fun _ hy =>
      asFixed_bind_panic fun _ hz => lerp_panic hx hy hz
  · exact binary_panic (D := builtinDefined "q16_saturating_add") htwo
      (two trivial (fun _ => trivial) fun _ _ _ _ => trivial)
  · exact binary_panic (D := builtinDefined "q16_saturating_sub") htwo
      (two trivial (fun _ => trivial) fun _ _ _ _ => trivial)
  · exact binary_panic (D := builtinDefined "q16_saturating_mul") htwo
      (two trivial (fun _ => trivial) fun _ _ _ _ => trivial)
  · exact unary_panic (D := builtinDefined "array_len")
      (fun _ => hno (asArray_bind_ne_panic fun _ => nofun)) fun _ _ => trivial
  · refine binary_panic (D := builtinDefined "array_get") (fun a i => hno ?_) fun _ _ => trivial
    exact asArray_bind_ne_panic fun _ => asInteger_bind_ne_panic fun _ => entry_ne_panic _ _
  · refine ternary_panic (D := builtinDefined "array_set") (fun a i v => hno ?_) fun _ _ => trivial
    refine asArray_bind_ne_panic fun arr => asInteger_bind_ne_panic fun index => ?_
    dsimp only
    split_ifs <;> exact nofun
  · exact hno nofun
  · refine unary_panic (D := builtinDefined "assert") (fun a => hno ?_) fun _ _ => trivial
    cases a with
    | bool b => cases b <;> exact nofun
    | _ => exact nofun
  · refine binary_panic (D := builtinDefined "assert_eq") (fun a b => hno ?_) fun _ _ => trivial
    split_ifs <;> exact nofun
  · refine unary_panic (D := builtinDefined "to_i32") (fun a => hno ?_) fun _ _ => trivial
    cases a <;> exact nofun
  · exact unary_panic (D := builtinDefined "to_i64") (fun a => hno (hint a)) fun _ _ => trivial
  · exact unary_panic (D := builtinDefined "to_u8") (fun a => hno (hint a)) fun _ _ => trivial
  · exact unary_panic (D := builtinDefined "to_u16") (fun a => hno (hint a)) fun _ _ => trivial
  · exact unary_panic (D := builtinDefined "to_u32") (fun a => hno (hint a)) fun _ _ => trivial
  · exact unary_panic (D := builtinDefined "to_u64") (fun a => hno (hint a)) fun _ _ => trivial
  · refine iff_of_false nofun fun h => h ?_
    unfold builtinDefined
    split <;> trivial

theorem callFixedMethod_panic (f : Fixed) (args : List Value) :
    Builtins.callFixedMethod method f args = .panic ↔ ¬methodDefined method (.fixed f :: args) := by
  have hno {r : Result Value} (h : r ≠ .panic) : r = .panic ↔ ¬True :=
    iff_of_false h fun h => h trivial
  unfold Builtins.callFixedMethod
  split
  · exact checked_panic
  · exact hno nofun
  · exact checked_panic
  · exact checked_panic
  · exact hno nofun
  · exact hno nofun
  · cases args with
    | nil => exact hno nofun
    | cons a args => exact asFixed_return_panic
  · cases args with
    | nil => exact hno nofun
    | cons a args => exact asFixed_return_panic
  · match args with
    | [] | [_] => exact hno nofun
    | a :: b :: args =>
      show _ ↔ ¬Conv a fun _ => Conv b fun _ => True
      exact asFixed_bind_panic fun _ _ => asFixed_return_panic
  · refine iff_of_false nofun fun h => h ?_
    unfold methodDefined
    split <;> trivial

theorem callArrayMethod_ne_panic (arr args : List Value) :
    Builtins.callArrayMethod method arr args ≠ .panic := by
  unfold Builtins.callArrayMethod
  split
  · exact nofun
  · cases args with
    | nil => exact nofun
    | cons i args => exact asInteger_bind_ne_panic fun _ => entry_ne_panic _ _
  · split <;> exact nofun
  · split <;> exact nofun
  · exact nofun

theorem methodDefined_of_not_fixed {receiver : Value} (args : List Value)
    (h : isFixed receiver = false) : methodDefined method (receiver :: args) := by
  have hne {f : Fixed} {as : List Value} {P : Prop} (heq : receiver :: args = .fixed f :: as) : P := by
    cases heq
    cases h
  unfold methodDefined
  split
  · exact hne ‹_›
  · exact hne ‹_›
  · exact hne ‹_›
  · exact hne ‹_›
  · exact hne ‹_›
  · exact hne ‹_›
  · trivial

theorem callMethod_panic (args : List Value) :
    Builtins.callMethod method args = .panic ↔ ¬methodDefined method args := by
  have hother (h : Builtins.callMethod method args ≠ .panic) (hd : methodDefined method args) :
      Builtins.callMethod method args = .panic ↔ ¬methodDefined method args :=
    iff_of_false h fun h => h hd
  cases args with
  | nil =>
    refine hother nofun ?_
    unfold methodDefined
    split <;> trivial
  | cons receiver args =>
    cases receiver with
    | fixed f => exact callFixedMethod_panic method f args
    | array arr =>
      exact hother (callArrayMethod_ne_panic method arr args) (methodDefined_of_not_fixed _ _ rfl)
    | _ => exact hother nofun (methodDefined_of_not_fixed _ _ rfl)

/-- **Main.** The operation panics if and only if its operands are not ones for which it exists. -/
theorem run_panic_iff (op : Operation) : op.run = .panic ↔ ¬op.Defined := by
  cases op with
  | binary op left right => exact evalBinaryOp_panic op left right
  | unary op val => exact evalUnaryOp_panic op val
  | cast val ty => exact castValue_panic val ty
  | builtin name args => exact call_panic name args
  | method name args => exact callMethod_panic name args
  | index arr i =>
    refine iff_of_false ?_ fun h => h trivial
    exact asInteger_bind_ne_panic fun _ => asArray_bind_ne_panic fun _ => entry_ne_panic _ _
  | setIndex arr i value =>
    refine iff_of_false ?_ fun h => h trivial
    refine asInteger_bind_ne_panic fun _ => asArray_bind_ne_panic fun _ => ?_
    split_ifs <;> exact nofun

end Ekkl
end EkKor
