import EkKor.Auth.Permutation

/-!
# The code and the reference

Chaskey-12 on states of 128 bits: the last block is added together with a subkey, and the subkey is
added again behind the last permutation.  The code adds the key there.

* `Reference.tag`   the reference;
* `toBlock`         the words of the code as 128 bits: its permutation, its blocks and its subkeys
                    are those of the reference;
* `Agrees`          the first half of the key is that of the subkey;
* `reference_iff`   the tag is that of the reference exactly then.
-/

namespace EkKor
namespace Auth
open HeldBack
open List hiding Vector

namespace Reference

/-! ## the reference -/

abbrev Block : Type := BitVec 128

def ofBytes (bytes : List UInt8) : Block := BitVec.ofNat 128 (Packed.leValue bytes)

/-- `2K`, modulo `x^128 + x^7 + x^2 + x + 1` -/
def double (k : Block) : Block := if k.msb then k <<< 1 ^^^ 0x87 else k <<< 1

def join (v₀ v₁ v₂ v₃ : BitVec 32) : Block := v₃ ++ (v₂ ++ (v₁ ++ v₀))

def round (v : Block) : Block :=
  let v₀ := v.extractLsb' 0 32
  let v₁ := v.extractLsb' 32 32
  let v₂ := v.extractLsb' 64 32
  let v₃ := v.extractLsb' 96 32
  let v₀ := v₀ + v₁
  let v₂ := v₂ + v₃
  let v₁ := v₁.rotateLeft 5 ^^^ v₀
  let v₃ := v₃.rotateLeft 8 ^^^ v₂
  let v₀ := v₀.rotateLeft 16
  let v₂ := v₂ + v₁
  let v₀ := v₀ + v₃
  let v₁ := v₁.rotateLeft 7 ^^^ v₂
  let v₃ := v₃.rotateLeft 13 ^^^ v₀
  let v₂ := v₂.rotateLeft 16
  join v₀ v₁ v₂ v₃

def permute (v : Block) : Block := round^[12] v

def tag (key : Block) (message : List UInt8) : List UInt8 :=
  let count := max 1 ((message.length + 15) / 16)
  let h := (List.range (count - 1)).foldl
    (fun h i => permute (h ^^^ ofBytes (block 16 i message))) key
  let last := block 16 (count - 1) message
  let (last, subkey) :=
    if last.length = 16 then (last, double key) else (last ++ [0x01], double (double key))
  let h := permute (h ^^^ ofBytes last ^^^ subkey) ^^^ subkey
  (Packed.leBytes 16 h.toNat).take macTagSize

end Reference

/-! ## words and bits -/

def toBlock (v : Words) : Reference.Block :=
  Reference.join v.w0.toBitVec v.w1.toBitVec v.w2.toBitVec v.w3.toBitVec

variable (v : Words) {bytes : List UInt8} (rawKey : Vector UInt8 16) {x s c : UInt32}

theorem toNat_toBlock : (toBlock v).toNat =
    v.w0.toNat + 2 ^ 32 * (v.w1.toNat + 2 ^ 32 * (v.w2.toNat + 2 ^ 32 * v.w3.toNat)) := by
  have happend : ∀ {n : Nat} (a : UInt32) (b : BitVec n),
      (a.toBitVec ++ b).toNat = b.toNat + 2 ^ n * a.toNat := fun {n} a b => by
    rw [BitVec.toNat_append, ← Nat.shiftLeft_add_eq_or_of_lt b.isLt, Nat.shiftLeft_eq, Nat.add_comm,
      Nat.mul_comm]
    rfl
  unfold toBlock Reference.join
  rw [happend, happend, happend]
  show v.w0.toNat + 2 ^ 32 * v.w1.toNat + 2 ^ 64 * v.w2.toNat + 2 ^ 96 * v.w3.toNat = _
  omega

theorem toBlock_xor (v w : Words) : toBlock (v.xor w) = toBlock v ^^^ toBlock w := by
  unfold toBlock Reference.join
  rw [BitVec.xor_append, BitVec.xor_append, BitVec.xor_append]
  rfl

theorem toBlock_load (hle : bytes.length ≤ 16) :
    toBlock (load bytes) = Reference.ofBytes bytes := by
  apply BitVec.eq_of_toNat_eq
  have hdrop : ∀ i j, i + 1 = j → Packed.leValue (bytes.drop i) =
      (bytes.getD i 0).toNat + 256 * Packed.leValue (bytes.drop j) := fun i j hj => by
    rw [Packed.leValue_drop, getD_eq_getElem?_getD, getElem?_drop, drop_drop,
      Nat.add_zero, ← getD_eq_getElem?_getD, hj]
  have hword : ∀ i, Packed.leValue (bytes.drop i) =
      (loadWord bytes i).toNat + 2 ^ 32 * Packed.leValue (bytes.drop (i + 4)) := fun i => by
    unfold loadWord
    rw [LittleEndian.toNat_word, hdrop i (i + 1) rfl, hdrop (i + 1) (i + 2) rfl,
      hdrop (i + 2) (i + 3) rfl, hdrop (i + 3) (i + 4) rfl]
    omega
  have hend : Packed.leValue (bytes.drop 16) = 0 := by
    rw [drop_of_length_le hle]
    rfl
  have hvalue := hword 0
  rw [hword 4, hword 8, hword 12, hend, drop_zero] at hvalue
  have hlt : ∀ i, (loadWord bytes i).toNat < 2 ^ 32 := fun i => UInt32.toNat_lt _
  have h0 := hlt 0
  have h4 := hlt 4
  have h8 := hlt 8
  have h12 := hlt 12
  unfold Reference.ofBytes
  rw [toNat_toBlock, BitVec.toNat_ofNat, hvalue]
  unfold load
  dsimp only
  omega

theorem leBytes_toBlock : Packed.leBytes 16 (toBlock v).toNat = v.bytes := by
  rw [toNat_toBlock]
  have hzero : v.w3.toNat = v.w3.toNat + 2 ^ 32 * 0 := rfl
  rw [hzero, Packed.leBytes_word, Packed.leBytes_word, Packed.leBytes_word, Packed.leBytes_word]
  rfl

theorem extract_toBlock : (toBlock v).extractLsb' 0 32 = v.w0.toBitVec ∧
    (toBlock v).extractLsb' 32 32 = v.w1.toBitVec ∧
    (toBlock v).extractLsb' 64 32 = v.w2.toBitVec ∧
    (toBlock v).extractLsb' 96 32 = v.w3.toBitVec := by
  have hv := toNat_toBlock v
  have h0 := v.w0.toNat_lt
  have h1 := v.w1.toNat_lt
  have h2 := v.w2.toNat_lt
  have hextract : ∀ (i : Nat) (w : UInt32), (toBlock v).toNat / 2 ^ i % 2 ^ 32 = w.toNat →
      (toBlock v).extractLsb' i 32 = w.toBitVec := fun i w h => by
    apply BitVec.eq_of_toNat_eq
    rw [BitVec.extractLsb'_toNat, Nat.shiftRight_eq_div_pow]
    exact h
  refine ⟨hextract 0 v.w0 ?_, hextract 32 v.w1 ?_, hextract 64 v.w2 ?_, hextract 96 v.w3 ?_⟩ <;>
  · omega

theorem toBlock_round : toBlock (chaskeyRound v) = Reference.round (toBlock v) := by
  obtain ⟨h0, h1, h2, h3⟩ := extract_toBlock v
  unfold Reference.round
  rw [h0, h1, h2, h3]
  rfl

theorem toBlock_permute : toBlock (chaskeyPermute v) = Reference.permute (toBlock v) := by
  show toBlock (Nat.repeat chaskeyRound chaskeyRounds v) = _
  rw [repeat_eq_iterate]
  exact Function.Semiconj.iterate_right (f := toBlock) toBlock_round chaskeyRounds v

theorem toNat_shift (a b : UInt32) :
    (a <<< 1 ||| b >>> 31).toNat = 2 * a.toNat % 2 ^ 32 + b.toNat / 2 ^ 31 := by
  have hb : b.toNat / 2 ^ 31 < 2 ^ 1 := Nat.div_lt_of_lt_mul b.toNat_lt
  have ha : 2 * a.toNat % 2 ^ 32 = (a.toNat % 2 ^ 31) <<< 1 := by
    omega
  show a.toNat <<< 1 % 2 ^ 32 ||| b.toNat >>> 31 = _
  rw [Nat.shiftLeft_eq, Nat.mul_comm, Nat.pow_one, Nat.shiftRight_eq_div_pow, ha,
    Nat.shiftLeft_add_eq_or_of_lt hb]

theorem msb_word (w : UInt32) : w >>> 31 &&& 1 = if w.toNat < 2 ^ 31 then 0 else 1 := by
  have hlt := w.toNat_lt
  apply UInt32.toNat_inj.mp
  show w.toNat >>> 31 &&& 1 = _
  rw [Nat.shiftRight_eq_div_pow, Nat.and_one_is_mod]
  split_ifs
  · show _ = 0
    omega
  · show _ = 1
    omega

theorem timesTwo_eq : timesTwo v = Words.xor ⟨v.w0 <<< 1, v.w1 <<< 1 ||| v.w0 >>> 31,
    v.w2 <<< 1 ||| v.w1 >>> 31, v.w3 <<< 1 ||| v.w2 >>> 31⟩
      ⟨if v.w3.toNat < 2 ^ 31 then 0 else 0x87, 0, 0, 0⟩ := by
  unfold timesTwo Words.xor
  rw [msb_word, UInt32.xor_zero, UInt32.xor_zero, UInt32.xor_zero]
  split_ifs <;> rfl

theorem toBlock_timesTwo : toBlock (timesTwo v) = Reference.double (toBlock v) := by
  have hv := toNat_toBlock v
  have h0 := v.w0.toNat_lt
  have h1 := v.w1.toNat_lt
  have h2 := v.w2.toNat_lt
  have hshift : toBlock ⟨v.w0 <<< 1, v.w1 <<< 1 ||| v.w0 >>> 31, v.w2 <<< 1 ||| v.w1 >>> 31,
      v.w3 <<< 1 ||| v.w2 >>> 31⟩ = toBlock v <<< 1 := by
    have hw0 : (v.w0 <<< 1).toNat = 2 * v.w0.toNat % 2 ^ 32 := by
      show v.w0.toNat <<< 1 % 2 ^ 32 = _
      rw [Nat.shiftLeft_eq, Nat.mul_comm, Nat.pow_one]
    apply BitVec.eq_of_toNat_eq
    rw [toNat_toBlock, BitVec.toNat_shiftLeft, Nat.shiftLeft_eq, hv]
    rw [toNat_shift, toNat_shift, toNat_shift, hw0]
    omega
  have hmsb : (toBlock v).msb = decide (2 ^ 31 ≤ v.w3.toNat) := by
    rw [BitVec.msb_eq_decide, hv]
    exact decide_eq_decide.mpr (by omega)
  rw [timesTwo_eq, toBlock_xor, hshift]
  unfold Reference.double
  rw [hmsb]
  split_ifs with hlow hhigh hhigh
  · exact absurd (of_decide_eq_true hhigh) (Nat.not_le.mpr hlow)
  · exact BitVec.xor_zero
  · rfl
  · exact absurd (decide_eq_true (Nat.le_of_not_lt hlow)) hhigh

/-! ## the last addition -/

theorem toBlock_absorbBlock (hle : bytes.length ≤ 16) :
    toBlock (absorbBlock v bytes) = Reference.permute (toBlock v ^^^ Reference.ofBytes bytes) := by
  unfold absorbBlock
  rw [toBlock_permute, toBlock_xor, toBlock_load hle]

def Full (len : Nat) : Prop := 0 < len ∧ len % 16 = 0

instance instDecidableFull (len : Nat) : Decidable (Full len) := by
  unfold Full
  infer_instance

def subkey (key : Key) (len : Nat) : Words := if Full len then key.k1 else key.k2

def beforeKey (key : Key) (message : List UInt8) : Words :=
  let (v, rest) := absorb absorbBlock 16 key.k message
  absorbBlock (v.xor (subkey key message.length))
    (if Full message.length then rest else rest ++ [0x01])

theorem rest_length (message : List UInt8) :
    (absorb absorbBlock 16 v message).2.length = 16 ↔ Full message.length := by
  have hrest := absorb_rest (f := absorbBlock) (n := 16) v message
  have hle := hrest.le
  have hmod := hrest.mod
  unfold Full
  constructor
  · have hsuffix := hrest.suffix.length_le
    omega
  · rintro ⟨hpos, hfull⟩
    have hne := length_pos_iff.mpr (hrest.pos (length_pos_iff.mp hpos))
    omega

theorem fullTag_eq (key : Key) (message : List UInt8) :
    fullTag key message = (beforeKey key message).xor key.k := by
  have hlength := rest_length key.k message
  have hle := (absorb_rest (f := absorbBlock) (n := 16) key.k message).le
  unfold fullTag finishWords beforeKey subkey
  dsimp only
  by_cases hfull : Full message.length
  · rw [if_neg (Nat.not_lt.mpr (Nat.le_of_eq (hlength.mpr hfull).symm)), if_pos hfull,
      if_pos hfull]
  · rw [if_pos (Nat.lt_of_le_of_ne hle (mt hlength.mp hfull)), if_neg hfull, if_neg hfull]

theorem tag_eq (message : List UInt8) :
    Reference.tag (Reference.ofBytes rawKey.toList) message =
      ((beforeKey (keyInit rawKey) message).xor
        (subkey (keyInit rawKey) message.length)).bytes.take macTagSize := by
  have hkey : toBlock (keyInit rawKey).k = Reference.ofBytes rawKey.toList :=
    toBlock_load (Nat.le_of_eq rawKey.length_toList)
  have hk1 : toBlock (keyInit rawKey).k1 =
      Reference.double (Reference.ofBytes rawKey.toList) := by
    rw [← hkey]
    exact toBlock_timesTwo _
  have hk2 : toBlock (keyInit rawKey).k2 =
      Reference.double (Reference.double (Reference.ofBytes rawKey.toList)) := by
    rw [← hk1]
    exact toBlock_timesTwo _
  have hcount : max 1 ((message.length + 15) / 16) - 1 = (message.length - 1) / 16 := by omega
  have hfold : (List.range ((message.length - 1) / 16)).foldl
      (fun h i => Reference.permute (h ^^^ Reference.ofBytes (block 16 i message)))
      (toBlock (keyInit rawKey).k) = toBlock ((List.range ((message.length - 1) / 16)).foldl
        (fun v i => absorbBlock v (block 16 i message)) (keyInit rawKey).k) :=
    foldl_hom toBlock fun v i => (toBlock_absorbBlock v (length_take_le _ _)).symm
  have habsorb := absorb_eq_foldl (f := absorbBlock) (n := 16) (keyInit rawKey).k message
  have hlength := rest_length (keyInit rawKey).k message
  have hle := (absorb_rest (f := absorbBlock) (n := 16) (keyInit rawKey).k message).le
  rw [habsorb] at hlength hle
  unfold Reference.tag beforeKey subkey
  dsimp only
  rw [habsorb, hcount, ← hkey, hfold, hkey]
  by_cases hfull : Full message.length
  · rw [if_pos (hlength.mpr hfull), if_pos hfull, if_pos hfull]
    rw [← leBytes_toBlock, toBlock_xor, toBlock_absorbBlock _ hle, toBlock_xor, hk1,
      BitVec.xor_assoc, BitVec.xor_assoc, BitVec.xor_comm (Reference.ofBytes _)]
  · have hroom : (block 16 ((message.length - 1) / 16) message ++ [(0x01 : UInt8)]).length ≤ 16 := by
      rw [length_append]
      exact Nat.lt_of_le_of_ne hle (mt hlength.mp hfull)
    rw [if_neg (mt hlength.mp hfull), if_neg hfull, if_neg hfull]
    rw [← leBytes_toBlock, toBlock_xor, toBlock_absorbBlock _ hroom, toBlock_xor, hk2,
      BitVec.xor_assoc, BitVec.xor_assoc, BitVec.xor_comm (Reference.ofBytes _)]

/-! ## the condition -/

/-- the first byte of a key whose first half is that of the subkey, from the last byte of the key:
the other bytes are zeros -/
def firstByte (top : UInt8) (len : Nat) : UInt8 :=
  if Full len then (if top < 0x80 then 0 else 0x7D)
  else if top < 0x40 then 0
  else if top < 0x80 then 0x2B
  else if top < 0xC0 then 0x56
  else 0x7D

def Agrees (rawKey : Vector UInt8 16) (len : Nat) : Prop :=
  rawKey.toList.take 8 = firstByte (rawKey.toList.getD 15 0) len :: List.replicate 7 0

instance instDecidableAgrees (rawKey : Vector UInt8 16) (len : Nat) :
    Decidable (Agrees rawKey len) := by
  unfold Agrees
  infer_instance

theorem toNat_shiftLeft_one (w : UInt32) : (w <<< 1).toNat = 2 * w.toNat % 2 ^ 32 := by
  show w.toNat <<< 1 % 2 ^ 32 = _
  rw [Nat.shiftLeft_eq, Nat.mul_comm, Nat.pow_one]

theorem eq_zero_of_shift {d : UInt32} (h : d = d <<< 1) : d = 0 := by
  have hd : d.toNat = 2 * d.toNat % 2 ^ 32 := by rw [← toNat_shiftLeft_one, ← h]
  apply UInt32.toNat_inj.mp
  show d.toNat = 0
  omega

theorem eq_zero_of_shift_shift {d : UInt32} (h : d = d <<< 1 <<< 1) : d = 0 := by
  have hthree : ∀ n : Nat, 2 * (2 * n) - n = 3 * n := fun n => by omega
  have hd : 2 * (2 * d.toNat) % 2 ^ 32 = d.toNat := by
    rw [← Nat.mul_mod_mod, ← toNat_shiftLeft_one, ← toNat_shiftLeft_one, ← h]
  -- three times the word is a multiple of `2 ^ 32`
  have hdvd : 2 ^ 32 ∣ 3 * d.toNat := by
    have hsub := Nat.dvd_sub_mod (n := 2 ^ 32) (2 * (2 * d.toNat))
    rwa [hd, hthree] at hsub
  have hcoprime : Nat.Coprime (2 ^ 32) 3 := by decide
  apply UInt32.toNat_inj.mp
  exact Nat.eq_zero_of_dvd_of_lt (hcoprime.dvd_of_dvd_mul_left hdvd) d.toNat_lt

theorem eq_xor_iff {f : UInt32 → UInt32} (hxor : ∀ a b, f (a ^^^ b) = f a ^^^ f b)
    (hzero : ∀ d, d = f d → d = 0) (hs : s = f s ^^^ c) : x = f x ^^^ c ↔ x = s := by
  refine ⟨fun hx => ?_, fun h => by rwa [h]⟩
  have hd : x ^^^ s = f (x ^^^ s) :=
    calc x ^^^ s = f x ^^^ c ^^^ (f s ^^^ c) := by rw [← hx, ← hs]
      _ = f (x ^^^ s) := by
        rw [hxor, UInt32.xor_comm (f s), ← UInt32.xor_assoc, xor_xor_right]
  exact UInt32.xor_eq_zero_iff.mp (hzero _ hd)

theorem shift_iff (hs : s = s <<< 1 ^^^ c) : x = x <<< 1 ^^^ c ↔ x = s :=
  eq_xor_iff (fun _ _ => UInt32.shiftLeft_xor) (fun _ => eq_zero_of_shift) hs

theorem shift_shift_iff {c' : UInt32} (hs : s = (s <<< 1 ^^^ c) <<< 1 ^^^ c') :
    x = (x <<< 1 ^^^ c) <<< 1 ^^^ c' ↔ x = s := by
  rw [UInt32.shiftLeft_xor, UInt32.xor_assoc] at hs ⊢
  exact eq_xor_iff (f := (· <<< 1 <<< 1))
    (fun _ _ => by rw [UInt32.shiftLeft_xor, UInt32.shiftLeft_xor])
    (fun _ => eq_zero_of_shift_shift) hs

theorem words_timesTwo (k : Words) : k.w0 = (timesTwo k).w0 ∧ k.w1 = (timesTwo k).w1 ↔
    k.w0 = (if k.w3.toNat < 2 ^ 31 then 0 else 0x7D) ∧ k.w1 = 0 := by
  rw [timesTwo_eq]
  unfold Words.xor
  rw [UInt32.xor_zero]
  have hsecond : ∀ s : UInt32, s >>> 31 = 0 → (k.w0 = s ∧ k.w1 = k.w1 <<< 1 ||| k.w0 >>> 31 ↔
      k.w0 = s ∧ k.w1 = 0) := fun s hs => and_congr_right fun h => by
    rw [h, hs, UInt32.or_zero, ← UInt32.xor_zero (a := k.w1 <<< 1)]
    exact shift_iff (by decide)
  split_ifs with htop
  · rw [shift_iff (s := 0) (by decide), hsecond 0 (by decide)]
  · rw [shift_iff (s := 0x7D) (by decide), hsecond 0x7D (by decide)]

theorem words_timesFour (k : Words) :
    k.w0 = (timesTwo (timesTwo k)).w0 ∧ k.w1 = (timesTwo (timesTwo k)).w1 ↔
      k.w0 = (if k.w3.toNat < 2 ^ 30 then 0 else if k.w3.toNat < 2 ^ 31 then 0x2B
        else if k.w3.toNat < 2 ^ 31 + 2 ^ 30 then 0x56 else 0x7D) ∧ k.w1 = 0 := by
  have hlt := k.w3.toNat_lt
  have hlt2 := k.w2.toNat_lt
  have hw0 : (timesTwo k).w0 = k.w0 <<< 1 ^^^ (if k.w3.toNat < 2 ^ 31 then 0 else 0x87) := by
    rw [timesTwo_eq]
    rfl
  have hw1 : (timesTwo k).w1 = k.w1 <<< 1 ||| k.w0 >>> 31 := rfl
  have hw3 : (timesTwo k).w3.toNat = 2 * k.w3.toNat % 2 ^ 32 + k.w2.toNat / 2 ^ 31 :=
    toNat_shift _ _
  rw [timesTwo_eq (timesTwo k)]
  unfold Words.xor
  rw [UInt32.xor_zero, hw0, hw1, hw3]
  have hsecond : ∀ s c : UInt32, s >>> 31 = 0 → (s <<< 1 ^^^ c) >>> 31 = 0 →
      (k.w0 = s ∧ k.w1 = (k.w1 <<< 1 ||| k.w0 >>> 31) <<< 1 ||| (k.w0 <<< 1 ^^^ c) >>> 31 ↔
        k.w0 = s ∧ k.w1 = 0) := fun s c hs hc => and_congr_right fun h => by
    rw [h, hs, hc, UInt32.or_zero, UInt32.or_zero, ← UInt32.xor_zero (a := k.w1 <<< 1),
      ← UInt32.xor_zero (a := (k.w1 <<< 1 ^^^ 0) <<< 1)]
    exact shift_shift_iff (by decide)
  by_cases h30 : k.w3.toNat < 2 ^ 30
  · rw [if_pos (by omega), if_pos (by omega), if_pos h30, shift_shift_iff (s := 0) (by decide),
      hsecond 0 0 (by decide) (by decide)]
  by_cases h31 : k.w3.toNat < 2 ^ 31
  · rw [if_pos h31, if_neg (by omega), if_neg h30, if_pos h31,
      shift_shift_iff (s := 0x2B) (by decide), hsecond 0x2B 0 (by decide) (by decide)]
  by_cases h32 : k.w3.toNat < 2 ^ 31 + 2 ^ 30
  · rw [if_neg h31, if_pos (by omega), if_neg h30, if_neg h31, if_pos h32,
      shift_shift_iff (s := 0x56) (by decide), hsecond 0x56 0x87 (by decide) (by decide)]
  · rw [if_neg h31, if_neg (by omega), if_neg h30, if_neg h31, if_neg h32,
      shift_shift_iff (s := 0x7D) (by decide), hsecond 0x7D 0x87 (by decide) (by decide)]

theorem agrees_iff (len : Nat) : Agrees rawKey len ↔
    (load rawKey.toList).w0 = (firstByte (rawKey.toList.getD 15 0) len).toUInt32 ∧
      (load rawKey.toList).w1 = 0 := by
  have htake : rawKey.toList.take 8 = LittleEndian.bytes (load rawKey.toList).w0 ++
      LittleEndian.bytes (load rawKey.toList).w1 := by
    have hrange : rawKey.toList.take 8 = (List.range 8).map (rawKey.toList.getD · 0) := by
      apply ext_getElem
      · rw [length_take, rawKey.length_toList, length_map, length_range]
        rfl
      · intro i hi _
        rw [length_take] at hi
        rw [getElem_take, getElem_map, getElem_range,
          getD_eq_getElem _ _ (by omega)]
    rw [hrange]
    unfold load loadWord
    rw [LittleEndian.bytes_word, LittleEndian.bytes_word]
    rfl
  have hbyte : ∀ c : UInt8, LittleEndian.bytes c.toUInt32 = [c, 0, 0, 0] := fun c => by
    have hword : c.toUInt32 = LittleEndian.word c 0 0 0 := by
      exact (UInt32.or_zero.trans (UInt32.or_zero.trans UInt32.or_zero)).symm
    rw [hword, LittleEndian.bytes_word]
  unfold Agrees
  rw [htake]
  constructor
  · intro h
    have hwords : LittleEndian.bytes (load rawKey.toList).w0 ++
        LittleEndian.bytes (load rawKey.toList).w1 =
          LittleEndian.bytes (firstByte (rawKey.toList.getD 15 0) len).toUInt32 ++
            LittleEndian.bytes 0 := by
      rw [h, hbyte]
      rfl
    obtain ⟨h0, h1⟩ := append_inj hwords rfl
    exact ⟨LittleEndian.bytes_injective h0, LittleEndian.bytes_injective h1⟩
  · rintro ⟨h0, h1⟩
    rw [h0, h1, hbyte]
    rfl

theorem take_bytes (v a b : Words) :
    (v.xor a).bytes.take macTagSize = (v.xor b).bytes.take macTagSize ↔
      a.w0 = b.w0 ∧ a.w1 = b.w1 := by
  have htake : ∀ w : Words, w.bytes.take macTagSize =
      LittleEndian.bytes w.w0 ++ LittleEndian.bytes w.w1 := fun w => rfl
  rw [htake, htake]
  constructor
  · intro h
    obtain ⟨h0, h1⟩ := append_inj h rfl
    exact ⟨(UInt32.xor_right_inj v.w0).mp (LittleEndian.bytes_injective h0),
      (UInt32.xor_right_inj v.w1).mp (LittleEndian.bytes_injective h1)⟩
  · rintro ⟨h0, h1⟩
    unfold Words.xor
    rw [h0, h1]

/-- **Main.** The tag is that of the reference exactly if the first half of the key is that of the
subkey: for a last block that is full and one that is not, it depends on the top bits of the key. -/
theorem reference_iff (rawKey : Vector UInt8 16) (message : List UInt8) :
    compute (keyInit rawKey) message =
        Reference.tag (Reference.ofBytes rawKey.toList) message ↔
      Agrees rawKey message.length := by
  have htop : (load rawKey.toList).w3.toNat = (rawKey.toList.getD 12 0).toNat +
      256 * ((rawKey.toList.getD 13 0).toNat + 256 * ((rawKey.toList.getD 14 0).toNat +
        256 * (rawKey.toList.getD 15 0).toNat)) := LittleEndian.toNat_word _ _ _ _
  have hbyte : ∀ b : UInt8, b.toNat < 256 := fun b => b.toNat_lt
  have h12 := hbyte (rawKey.toList.getD 12 0)
  have h13 := hbyte (rawKey.toList.getD 13 0)
  have h14 := hbyte (rawKey.toList.getD 14 0)
  have hlt : ∀ c : UInt8, (load rawKey.toList).w3.toNat < 2 ^ 24 * c.toNat ↔
      rawKey.toList.getD 15 0 < c := fun c => by
    rw [UInt8.lt_iff_toNat_lt, htop]
    omega
  have h40 : (load rawKey.toList).w3.toNat < 2 ^ 30 ↔ rawKey.toList.getD 15 0 < 0x40 := hlt 0x40
  have h80 : (load rawKey.toList).w3.toNat < 2 ^ 31 ↔ rawKey.toList.getD 15 0 < 0x80 := hlt 0x80
  have hc0 : (load rawKey.toList).w3.toNat < 2 ^ 31 + 2 ^ 30 ↔ rawKey.toList.getD 15 0 < 0xC0 :=
    hlt 0xC0
  rw [compute_eq_fullTag, fullTag_eq, tag_eq, take_bytes, agrees_iff]
  unfold subkey firstByte
  by_cases hfull : Full message.length
  · rw [if_pos hfull, if_pos hfull]
    show (load _).w0 = (timesTwo (load _)).w0 ∧ (load _).w1 = (timesTwo (load _)).w1 ↔ _
    rw [words_timesTwo, if_congr h80 rfl rfl]
    split_ifs <;> rfl
  · rw [if_neg hfull, if_neg hfull]
    show (load _).w0 = (timesTwo (timesTwo (load _))).w0 ∧
      (load _).w1 = (timesTwo (timesTwo (load _))).w1 ↔ _
    rw [words_timesFour, if_congr h40 rfl (if_congr h80 rfl (if_congr hc0 rfl rfl))]
    split_ifs <;> rfl

/-- a key of ones, and no message -/
theorem not_reference : compute (keyInit (Vector.replicate 16 1)) [] ≠
    Reference.tag (Reference.ofBytes (Vector.replicate 16 1).toList) [] := by
  rw [compute_eq_fullTag, fullTag_eq, tag_eq, Ne, take_bytes]
  decide

end Auth
end EkKor
