import EkKor.Ekkl.Eval
import Mathlib.Algebra.Group.Int.Defs

/-!
# EKKL: three comparisons

The operators compare integers as `i64`, `==` of Rust compares more kinds of values, and a pattern
compares only the kinds of literals.

* `Orders`           the operators agree with the numbers;
* `Key`              what `==` of Rust compares;
* `Misses`           a literal that is equal to the value and does not match it, or the other way;
* `comparisons_iff`  where the three agree.
-/

namespace EkKor
namespace Ekkl
open Value

variable {a b c v : Value} {m n : Int}

/-! ## the operators -/

def Orders (a b : Value) : Prop := ∀ m ∈ a.int?, ∀ n ∈ b.int?,
  evalBinaryOp .eq a b = .ok (bool (decide (m = n))) ∧
  evalBinaryOp .lt a b = .ok (bool (decide (m < n))) ∧
  evalBinaryOp .le a b = .ok (bool (decide (m ≤ n)))

/-- both numbers or none are above the numbers of an `i64`, or they are far from each other -/
def Together (a b : Value) : Prop := ∀ m ∈ a.int?, ∀ n ∈ b.int?,
  ((m < 2 ^ 63 ↔ n < 2 ^ 63) ∨ min m n < max m n - 2 ^ 64)

/-- the number that is left of an integer in an `i64` -/
def wrap (n : Int) : Int := if n < 2 ^ 63 then n else n - 2 ^ 64

theorem int_range (h : v.int? = some n) : -2 ^ 63 ≤ n ∧ n < 2 ^ 64 := by
  cases v with
  | i8 x => cases h; have := x.le_toInt; have := x.toInt_lt; omega
  | i16 x => cases h; have := x.le_toInt; have := x.toInt_lt; omega
  | i32 x => cases h; have := x.le_toInt; have := x.toInt_lt; omega
  | i64 x => cases h; have := x.le_toInt; have := x.toInt_lt; omega
  | u8 x => cases h; have := x.toNat_lt; omega
  | u16 x => cases h; have := x.toNat_lt; omega
  | u32 x => cases h; have := x.toNat_lt; omega
  | u64 x => cases h; have := x.toNat_lt; omega
  | _ => cases h

theorem toInt_ofInt (h : v.int? = some n) : (Int64.ofInt n).toInt = wrap n := by
  obtain ⟨hlow, hhigh⟩ := int_range h
  rw [Int64.toInt_ofInt, show (Int64.size : Nat) = 18446744073709551616 from rfl]
  unfold Int.bmod wrap
  dsimp only
  split_ifs <;> omega

theorem isFixed_of_int (h : v.int? = some n) : isFixed v = false := by
  cases v <;> first | rfl | cases h

theorem asI64_of_int (h : v.int? = some n) : v.asI64 = .ok (Int64.ofInt n) := by
  unfold asI64 asInteger
  rw [h]

/-- two integers are compared as `i64` -/
theorem evalBinaryOp_ints (op : BinOp) (ha : a.int? = some m) (hb : b.int? = some n) :
    evalBinaryOp op a b = integerOp op (Int64.ofInt m) (Int64.ofInt n) := by
  unfold evalBinaryOp isInteger
  rw [isFixed_of_int ha, isFixed_of_int hb, ha, hb, asI64_of_int ha, asI64_of_int hb]
  rfl

theorem orders_iff (a b : Value) : Orders a b ↔ Together a b := by
  refine forall₄_congr fun m hm n hn => ?_
  rw [evalBinaryOp_ints _ hm hn, evalBinaryOp_ints _ hm hn, evalBinaryOp_ints _ hm hn]
  have heq : (Int64.ofInt m == Int64.ofInt n) = decide (wrap m = wrap n) := by
    rw [← toInt_ofInt hm, ← toInt_ofInt hn, beq_eq_decide]
    exact decide_eq_decide.mpr Int64.toInt_inj.symm
  have hlt : (Int64.ofInt m).toBitVec.slt (Int64.ofInt n).toBitVec = decide (wrap m < wrap n) := by
    rw [← toInt_ofInt hm, ← toInt_ofInt hn]
    rfl
  have hle : (Int64.ofInt m).toBitVec.sle (Int64.ofInt n).toBitVec = decide (wrap m ≤ wrap n) := by
    rw [← toInt_ofInt hm, ← toInt_ofInt hn]
    rfl
  unfold integerOp
  simp only [heq, hlt, hle, Outcome.ok.injEq, bool.injEq, decide_eq_decide]
  unfold wrap
  split_ifs <;> omega

/-! ## `==` of Rust -/

/-- what `==` of Rust compares -/
inductive Key where
  | int (n : Int64)
  | bool (b : Bool)
  | fixed (bits : Int32)
  | string (s : String)
  | enum (enumName variant : String)
  | unit

def Value.key (v : Value) : Option Key :=
  match v with
  | .bool b => some (.bool b)
  | .fixed f => some (.fixed f.bits)
  | .string s => some (.string s)
  | .enum e v => some (.enum e v)
  | .unit => some .unit
  | v => v.int?.map fun n => .int (Int64.ofInt n)

def Value.IsAggregate : Value → Prop
  | .array _ | .struct _ _ => True
  | _ => False

theorem key_of_int (h : v.int? = some n) : v.key = some (.int (Int64.ofInt n)) := by
  cases v <;> cases h <;> rfl

/-- numbers of one width are equal if they are equal as `i64` -/
theorem beq_eq_ofInt {α : Type} [BEq α] [LawfulBEq α] {f : α → Int} {g : α → Value}
    (hint : ∀ x, (g x).int? = some (f x)) (hinj : ∀ x y, f x = f y → x = y)
    (hside : (∀ x, f x < 2 ^ 63) ∨ ∀ x, 0 ≤ f x) (x y : α) :
    (x == y) = (Int64.ofInt (f x) == Int64.ofInt (f y)) := by
  rw [Bool.eq_iff_iff, beq_iff_eq, beq_iff_eq]
  refine ⟨congrArg fun x => Int64.ofInt (f x), fun h => hinj x y ?_⟩
  have hwrap : wrap (f x) = wrap (f y) := by
    rw [← toInt_ofInt (hint x), ← toInt_ofInt (hint y), h]
  have hx := int_range (hint x)
  have hy := int_range (hint y)
  unfold wrap at hwrap
  rcases hside with hsmall | hpos
  · rwa [if_pos (hsmall x), if_pos (hsmall y)] at hwrap
  · have := hpos x
    have := hpos y
    split_ifs at hwrap <;> omega

/-- integers of one width or of two are equal if they are equal as `i64` -/
theorem eq_of_ints (ha : a.int? = some m) (hb : b.int? = some n) :
    a.eq b = (Int64.ofInt m == Int64.ofInt n) := by
  cases a with
  | i8 x =>
    cases ha
    cases b with
    | i8 y =>
      cases hb
      exact beq_eq_ofInt (g := i8) (fun _ => rfl) (fun _ _ h => Int8.toInt_inj.mp h) (.inl fun x => Int.lt_of_lt_of_le x.toInt_lt (by decide)) x y
    | _ => cases hb <;> rfl
  | i16 x =>
    cases ha
    cases b with
    | i16 y =>
      cases hb
      exact beq_eq_ofInt (g := i16) (fun _ => rfl) (fun _ _ h => Int16.toInt_inj.mp h) (.inl fun x => Int.lt_of_lt_of_le x.toInt_lt (by decide)) x y
    | _ => cases hb <;> rfl
  | i32 x =>
    cases ha
    cases b with
    | i32 y =>
      cases hb
      exact beq_eq_ofInt (g := i32) (fun _ => rfl) (fun _ _ h => Int32.toInt_inj.mp h) (.inl fun x => Int.lt_of_lt_of_le x.toInt_lt (by decide)) x y
    | _ => cases hb <;> rfl
  | i64 x =>
    cases ha
    cases b with
    | i64 y =>
      cases hb
      exact beq_eq_ofInt (g := i64) (fun _ => rfl) (fun _ _ h => Int64.toInt_inj.mp h) (.inl fun x => Int.lt_of_lt_of_le x.toInt_lt (by decide)) x y
    | _ => cases hb <;> rfl
  | u8 x =>
    cases ha
    cases b with
    | u8 y =>
      cases hb
      exact beq_eq_ofInt (g := u8) (fun _ => rfl) (fun _ _ h => UInt8.toNat_inj.mp (Int.ofNat.inj h)) (.inr fun _ => Int.natCast_nonneg _) x y
    | _ => cases hb <;> rfl
  | u16 x =>
    cases ha
    cases b with
    | u16 y =>
      cases hb
      exact beq_eq_ofInt (g := u16) (fun _ => rfl) (fun _ _ h => UInt16.toNat_inj.mp (Int.ofNat.inj h)) (.inr fun _ => Int.natCast_nonneg _) x y
    | _ => cases hb <;> rfl
  | u32 x =>
    cases ha
    cases b with
    | u32 y =>
      cases hb
      exact beq_eq_ofInt (g := u32) (fun _ => rfl) (fun _ _ h => UInt32.toNat_inj.mp (Int.ofNat.inj h)) (.inr fun _ => Int.natCast_nonneg _) x y
    | _ => cases hb <;> rfl
  | u64 x =>
    cases ha
    cases b with
    | u64 y =>
      cases hb
      exact beq_eq_ofInt (g := u64) (fun _ => rfl) (fun _ _ h => UInt64.toNat_inj.mp (Int.ofNat.inj h)) (.inr fun _ => Int.natCast_nonneg _) x y
    | _ => cases hb <;> rfl
  | _ => cases ha

theorem eq_iff_key : a.eq b = true ↔ ∃ k, a.key = some k ∧ b.key = some k := by
  cases ha : a.int? with
  | some m =>
    cases hb : b.int? with
    | some n =>
      rw [eq_of_ints ha hb, key_of_int ha, key_of_int hb, beq_iff_eq]
      simp [eq_comm]
    | none => cases a <;> cases ha <;> cases b <;> simp_all [Value.eq, Value.key, Value.int?]
  | none =>
    cases a <;> cases ha <;> cases b <;> simp [Value.eq, Value.key, Value.int?]
    · exact eq_comm
    · exact eq_comm
    · exact eq_comm
    · exact and_congr eq_comm eq_comm

theorem eq_comm_key (a b : Value) : a.eq b = b.eq a := by
  rw [Bool.eq_iff_iff, eq_iff_key, eq_iff_key]
  exact exists_congr fun _ => and_comm

theorem eq_trans_key (hab : a.eq b = true) (hbc : b.eq c = true) : a.eq c = true := by
  obtain ⟨k, ha, hb⟩ := eq_iff_key.mp hab
  obtain ⟨k', hb', hc⟩ := eq_iff_key.mp hbc
  rw [hb] at hb'
  cases hb'
  exact eq_iff_key.mpr ⟨k, ha, hc⟩

theorem eq_self_iff (v : Value) : v.eq v = true ↔ ¬v.IsAggregate := by
  rw [eq_iff_key]
  cases v with
  | array arr => exact iff_of_false (by rintro ⟨_, h, _⟩; cases h) fun h => h trivial
  | struct name fields => exact iff_of_false (by rintro ⟨_, h, _⟩; cases h) fun h => h trivial
  | _ => exact iff_of_true ⟨_, rfl, rfl⟩ id

/-! ## patterns -/

/-- the operator finds the literal and the value equal and a match does not, or the other way -/
def Misses (lit : Literal) (v : Value) : Prop :=
  match lit, v with
  | .int _, .i64 _ => False
  | .int k, .fixed f => (Int32.ofInt k.toInt).toInt * 65536 = f.toInt
  | .int k, v => ∃ n ∈ v.int?, Int64.ofInt n = k
  | .fixed bits, v => ∃ n ∈ v.int?, (Int32.ofInt n).toInt * 65536 = bits.toInt
  | .string s, .string t => s = t
  | _, _ => False

/-- a match takes the arm of the literal exactly when the operator finds it equal to the value -/
def Matches (lit : Literal) (v : Value) : Prop :=
  patternMatches (.literal lit) v = true ↔ evalBinaryOp .eq v (evalLiteral lit) = .ok (bool true)

theorem fixedFromNum_eq_iff {k : Int} {f : Fixed} :
    fixedFromNum k = .ok f ↔ k * 65536 = f.toInt := by
  have hlow := f.bits.le_toInt
  have hhigh := f.bits.toInt_lt
  unfold fixedFromNum Fixed.checked Fixed.toInt
  split_ifs with hfits
  · have hround : (Int32.ofInt (k * 65536)).toInt = k * 65536 :=
      Int32.toInt_ofInt_of_le hfits.1 (Int.lt_add_one_iff.mpr hfits.2)
    constructor
    · rintro ⟨⟩
      exact hround.symm
    · intro h
      rw [h, Int32.ofInt_toInt]
  · refine iff_of_false (by rintro ⟨⟩) fun h => hfits ?_
    unfold Fixed.Fits
    omega

theorem asFixed_eq_iff (h : v.int? = some n) {f : Fixed} :
    v.asFixed = .ok f ↔ (Int32.ofInt n).toInt * 65536 = f.toInt := by
  have hcut (hlow : -2 ^ 31 ≤ n) (hhigh : n < 2 ^ 31) : (Int32.ofInt n).toInt = n :=
    Int32.toInt_ofInt_of_le hlow hhigh
  cases v with
  | i8 x =>
    cases h
    have := x.le_toInt
    have := x.toInt_lt
    rw [hcut (by omega) (by omega)]
    exact fixedFromNum_eq_iff
  | i16 x =>
    cases h
    have := x.le_toInt
    have := x.toInt_lt
    rw [hcut (by omega) (by omega)]
    exact fixedFromNum_eq_iff
  | i32 x =>
    cases h
    have := x.le_toInt
    have := x.toInt_lt
    rw [hcut (by omega) (by omega)]
    exact fixedFromNum_eq_iff
  | u8 x =>
    cases h
    have := x.toNat_lt
    rw [hcut (by omega) (by omega)]
    exact fixedFromNum_eq_iff
  | u16 x =>
    cases h
    have := x.toNat_lt
    rw [hcut (by omega) (by omega)]
    exact fixedFromNum_eq_iff
  | i64 | u32 | u64 =>
    cases h
    exact fixedFromNum_eq_iff
  | _ => cases h

theorem evalBinaryOp_eq_fixed (h : (isFixed a || isFixed b) = true) :
    evalBinaryOp .eq a b = .ok (bool true) ↔ ∃ f, a.asFixed = .ok f ∧ b.asFixed = .ok f := by
  unfold evalBinaryOp
  rw [if_pos h]
  cases ha : a.asFixed with
  | ok f =>
    cases hb : b.asFixed with
    | ok g =>
      show Outcome.ok (Value.bool (f.bits == g.bits)) = _ ↔ _
      rw [Outcome.ok.injEq, Value.bool.injEq, beq_iff_eq]
      constructor
      · intro heq
        obtain ⟨bits⟩ := f
        cases heq
        exact ⟨_, rfl, rfl⟩
      · rintro ⟨_, ⟨⟩, ⟨⟩⟩
        rfl
    | _ => exact iff_of_false (by rintro ⟨⟩) (by rintro ⟨_, _, ⟨⟩⟩)
  | _ => exact iff_of_false (by rintro ⟨⟩) (by rintro ⟨_, ⟨⟩, _⟩)

theorem evalBinaryOp_eq_ints (ha : a.int? = some m) (hb : b.int? = some n) :
    evalBinaryOp .eq a b = .ok (bool true) ↔ Int64.ofInt m = Int64.ofInt n := by
  rw [evalBinaryOp_ints .eq ha hb]
  show Outcome.ok (Value.bool (_ == _)) = _ ↔ _
  rw [Outcome.ok.injEq, Value.bool.injEq, beq_iff_eq]

theorem matches_of_false {lit : Literal} (hpattern : patternMatches (.literal lit) v = false)
    (heq : evalBinaryOp .eq v (evalLiteral lit) = .ok (bool true) ↔ Misses lit v) :
    Matches lit v ↔ ¬Misses lit v := by
  unfold Matches
  rw [hpattern, heq]
  exact ⟨fun h hmiss => Bool.false_ne_true (h.mpr hmiss), fun h => iff_of_false Bool.false_ne_true h⟩

theorem matches_int (k : Int64) (v : Value) : Matches (.int k) v ↔ ¬Misses (.int k) v := by
  have hints {n : Int} (hn : v.int? = some n) :
      evalBinaryOp .eq v (evalLiteral (.int k)) = .ok (bool true) ↔ ∃ n ∈ v.int?, Int64.ofInt n = k := by
    rw [evalBinaryOp_eq_ints hn (show (evalLiteral (.int k)).int? = some k.toInt from rfl),
      Int64.ofInt_toInt, hn]
    exact ⟨fun h => ⟨n, rfl, h⟩, by rintro ⟨_, ⟨⟩, h⟩; exact h⟩
  cases v with
  | i64 x =>
    refine iff_of_true ?_ id
    unfold Matches
    rw [evalBinaryOp_eq_ints (show (i64 x).int? = some x.toInt from rfl)
      (show (evalLiteral (.int k)).int? = some k.toInt from rfl), Int64.ofInt_toInt, Int64.ofInt_toInt]
    exact beq_iff_eq.trans eq_comm
  | fixed f =>
    refine matches_of_false rfl ?_
    rw [evalBinaryOp_eq_fixed rfl]
    have hint : (i64 k).int? = some k.toInt := rfl
    constructor
    · rintro ⟨_, ⟨⟩, hk⟩
      exact (asFixed_eq_iff hint).mp hk
    · exact fun h => ⟨f, rfl, (asFixed_eq_iff hint).mpr h⟩
  | i8 | i16 | i32 | u8 | u16 | u32 | u64 => exact matches_of_false rfl (hints rfl)
  | _ => exact matches_of_false rfl (iff_of_false (by rintro ⟨⟩) (by rintro ⟨_, ⟨⟩, _⟩))

theorem matches_fixed (bits : Int32) (v : Value) : Matches (.fixed bits) v ↔ ¬Misses (.fixed bits) v := by
  have hboth : evalBinaryOp .eq v (evalLiteral (.fixed bits)) = .ok (bool true) ↔
      v.asFixed = .ok ⟨bits⟩ := by
    rw [evalBinaryOp_eq_fixed (show (isFixed v || true) = true from Bool.or_true _)]
    exact ⟨by rintro ⟨_, h, ⟨⟩⟩; exact h, fun h => ⟨_, h, rfl⟩⟩
  cases hv : v.int? with
  | some n =>
    have hmiss : Misses (.fixed bits) v ↔ v.asFixed = .ok ⟨bits⟩ := by
      rw [asFixed_eq_iff hv]
      cases v <;> cases hv <;> exact ⟨by rintro ⟨_, ⟨⟩, h⟩; exact h, fun h => ⟨_, rfl, h⟩⟩
    refine matches_of_false ?_ (hboth.trans hmiss.symm)
    cases v <;> cases hv <;> rfl
  | none =>
    have hmiss : ¬Misses (.fixed bits) v := by
      cases v <;> cases hv <;> rintro ⟨_, ⟨⟩, _⟩
    refine iff_of_true ?_ hmiss
    unfold Matches
    rw [hboth]
    cases v with
    | fixed f =>
      show (bits == f.bits) = true ↔ _
      rw [beq_iff_eq]
      exact ⟨fun h => by rw [h]; rfl, by rintro ⟨⟩; rfl⟩
    | i8 | i16 | i32 | i64 | u8 | u16 | u32 | u64 => cases hv
    | _ => exact iff_of_false Bool.false_ne_true (by rintro ⟨⟩)

theorem matches_bool (t : Bool) (v : Value) : Matches (.bool t) v ↔ ¬Misses (.bool t) v := by
  cases v with
  | bool b =>
    refine iff_of_true ?_ id
    show (t == b) = true ↔ Outcome.ok (Value.bool (b == t)) = _
    rw [Outcome.ok.injEq, Value.bool.injEq, beq_iff_eq, beq_iff_eq]
    exact eq_comm
  | _ => exact matches_of_false rfl (iff_of_false (by rintro ⟨⟩) id)

theorem matches_string (s : String) (v : Value) : Matches (.string s) v ↔ ¬Misses (.string s) v := by
  cases v with
  | string t =>
    unfold Matches
    rw [show patternMatches (.literal (.string s)) (.string t) = (s == t) from rfl, beq_iff_eq]
    refine ⟨fun h hmiss => ?_, fun h => iff_of_false h (by rintro ⟨⟩)⟩
    cases h.mp hmiss
  | _ => exact matches_of_false rfl (iff_of_false (by rintro ⟨⟩) id)

theorem literal_matches_iff (lit : Literal) (v : Value) : Matches lit v ↔ ¬Misses lit v := by
  cases lit with
  | int k => exact matches_int k v
  | fixed bits => exact matches_fixed bits v
  | bool t => exact matches_bool t v
  | string s => exact matches_string s v
  | unit => cases v <;> exact matches_of_false rfl (iff_of_false (by rintro ⟨⟩) id)

/-! ## together -/

/-- **Main.** The operators agree with the numbers where both or none are above the numbers of an `i64`;
`==` of Rust is symmetric and transitive, and reflexive but on arrays and structs; and a literal
matches the values that are equal to it where it is no other kind of number and no string. -/
theorem comparisons_iff (a b c : Value) (lit : Literal) :
    (Orders a b ↔ Together a b) ∧
      a.eq b = b.eq a ∧
      (a.eq b = true → b.eq c = true → a.eq c = true) ∧
      (a.eq a = true ↔ ¬a.IsAggregate) ∧
      (Matches lit a ↔ ¬Misses lit a) :=
  ⟨orders_iff a b, eq_comm_key a b, eq_trans_key, eq_self_iff a, literal_matches_iff lit a⟩

/-- a number above those of an `i64`, an empty array, and a number of another width -/
theorem not_comparisons : ¬Orders (i64 0) (u64 9223372036854775808) ∧ (array []).eq (array []) = false ∧
    ¬Matches (.int 1) (u8 1) := by
  refine ⟨fun h => ?_, rfl, fun h => ?_⟩
  · have hlt := (h 0 rfl 9223372036854775808 rfl).2.1
    cases hlt
  · cases h.mpr rfl

end Ekkl
end EkKor
