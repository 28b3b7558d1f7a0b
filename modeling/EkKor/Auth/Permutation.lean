import EkKor.Auth.Chaskey

/-!
# The permutation, and messages that differ in one block

* `chaskeyRoundInv`      the steps of a round, undone from the last to the first;
* `fullTag`              what `compute` has before it is cut to the tag;
* `permute_separates`    the rounds are a permutation of the states, and messages that differ in one
                         block have different values before the cut.
-/

namespace EkKor
namespace Auth
open HeldBack List Function

/-! ## a round backwards -/

variable (x : UInt32) (v : Words) {a b : List UInt8} (key : Key)

theorem toBitVec_rotl32 {n : UInt32} (hpos : 0 < n) (hn : n < 32) :
    (rotl32 x n).toBitVec = x.toBitVec.rotateLeft n.toNat := by
  have hlt : n.toNat < 32 := UInt32.lt_iff_toNat_lt.mp hn
  have hp : 0 < n.toNat := UInt32.lt_iff_toNat_lt.mp hpos
  have hsub : (32 - n).toNat = 32 - n.toNat := UInt32.toNat_sub_of_le _ _ (UInt32.le_of_lt hn)
  unfold rotl32
  rw [BitVec.rotateLeft_def, Nat.mod_eq_of_lt hlt, UInt32.toBitVec_or, UInt32.toBitVec_shiftLeft,
    UInt32.toBitVec_shiftRight, BitVec.shiftLeft_eq', BitVec.ushiftRight_eq', BitVec.toNat_umod,
    BitVec.toNat_umod]
  show x.toBitVec <<< (n.toNat % 32) ||| x.toBitVec >>> ((32 - n).toNat % 32) = _
  rw [hsub, Nat.mod_eq_of_lt hlt, Nat.mod_eq_of_lt (by omega)]

theorem rotateLeft_rotateLeft (x : BitVec 32) {n : Nat} (hn : n < 32) :
    (x.rotateLeft n).rotateLeft (32 - n) = x := by
  grind

theorem rotl32_rotl32 {n : UInt32} (hpos : 0 < n) (hn : n < 32) :
    rotl32 (rotl32 x n) (32 - n) = x := by
  have hlt : n.toNat < 32 := UInt32.lt_iff_toNat_lt.mp hn
  have hp : 0 < n.toNat := UInt32.lt_iff_toNat_lt.mp hpos
  have hsub : (32 - n).toNat = 32 - n.toNat := UInt32.toNat_sub_of_le _ _ (UInt32.le_of_lt hn)
  have hrestPos : 0 < 32 - n := UInt32.lt_iff_toNat_lt.mpr (by rw [hsub]; exact Nat.sub_pos_of_lt hlt)
  have hrest : 32 - n < 32 := UInt32.lt_iff_toNat_lt.mpr (by
    rw [hsub]
    exact Nat.sub_lt (by decide) hp)
  apply UInt32.eq_of_toBitVec_eq
  rw [toBitVec_rotl32 _ hrestPos hrest, toBitVec_rotl32 x hpos hn, hsub,
    rotateLeft_rotateLeft _ hlt]

def chaskeyRoundInv (v : Words) : Words :=
  let v := { v with w2 := rotl32 v.w2 16 }
  let v := { v with w1 := v.w1 ^^^ v.w2 }
  let v := { v with w1 := rotl32 v.w1 25 }
  let v := { v with w2 := v.w2 - v.w1 }
  let v := { v with w3 := v.w3 ^^^ v.w0 }
  let v := { v with w3 := rotl32 v.w3 19 }
  let v := { v with w0 := v.w0 - v.w3 }
  let v := { v with w3 := v.w3 ^^^ v.w2 }
  let v := { v with w3 := rotl32 v.w3 24 }
  let v := { v with w2 := v.w2 - v.w3 }
  let v := { v with w0 := rotl32 v.w0 16 }
  let v := { v with w1 := v.w1 ^^^ v.w0 }
  let v := { v with w1 := rotl32 v.w1 27 }
  { v with w0 := v.w0 - v.w1 }

theorem xor_xor_right (a b : UInt32) : a ^^^ b ^^^ b = a := by
  rw [UInt32.xor_assoc, UInt32.xor_self, UInt32.xor_zero]

theorem rotl32_round :
    (rotl32 (rotl32 x 5) 27 = x ∧ rotl32 (rotl32 x 27) 5 = x) ∧
      (rotl32 (rotl32 x 7) 25 = x ∧ rotl32 (rotl32 x 25) 7 = x) ∧
      (rotl32 (rotl32 x 8) 24 = x ∧ rotl32 (rotl32 x 24) 8 = x) ∧
      (rotl32 (rotl32 x 13) 19 = x ∧ rotl32 (rotl32 x 19) 13 = x) ∧
      rotl32 (rotl32 x 16) 16 = x :=
  ⟨⟨rotl32_rotl32 x (by decide) (by decide), rotl32_rotl32 x (by decide) (by decide)⟩,
    ⟨rotl32_rotl32 x (by decide) (by decide), rotl32_rotl32 x (by decide) (by decide)⟩,
    ⟨rotl32_rotl32 x (by decide) (by decide), rotl32_rotl32 x (by decide) (by decide)⟩,
    ⟨rotl32_rotl32 x (by decide) (by decide), rotl32_rotl32 x (by decide) (by decide)⟩,
    rotl32_rotl32 x (by decide) (by decide)⟩

theorem chaskeyRoundInv_round : chaskeyRoundInv (chaskeyRound v) = v := by
  unfold chaskeyRoundInv chaskeyRound
  simp only [xor_xor_right, rotl32_round, UInt32.add_sub_cancel]

theorem chaskeyRound_roundInv : chaskeyRound (chaskeyRoundInv v) = v := by
  unfold chaskeyRoundInv chaskeyRound
  simp only [xor_xor_right, rotl32_round, UInt32.sub_add_cancel]

theorem repeat_eq_iterate (f : Words → Words) (n : Nat) (v : Words) :
    Nat.repeat f n v = f^[n] v := by
  induction n with
  | zero => rfl
  | succ n ih => rw [iterate_succ_apply', ← ih, Nat.repeat]

theorem chaskeyPermute_bijective : Bijective chaskeyPermute := by
  have hround : Bijective chaskeyRound :=
    bijective_iff_has_inverse.mpr
      ⟨chaskeyRoundInv, chaskeyRoundInv_round, chaskeyRound_roundInv⟩
  have hrounds : chaskeyPermute = chaskeyRound^[chaskeyRounds] :=
    funext (repeat_eq_iterate chaskeyRound chaskeyRounds)
  rw [hrounds]
  exact hround.iterate chaskeyRounds

/-! ## blocks -/

theorem xor_right_injective (b : Words) : Injective (Words.xor · b) := by
  intro a a' h
  injection h with h0 h1 h2 h3
  cases a
  cases a'
  rw [Words.mk.injEq]
  exact ⟨UInt32.xor_left_inj b.w0 |>.mp h0, UInt32.xor_left_inj b.w1 |>.mp h1,
    UInt32.xor_left_inj b.w2 |>.mp h2, UInt32.xor_left_inj b.w3 |>.mp h3⟩

theorem xor_left_injective (a : Words) : Injective (Words.xor a) := by
  intro b b' h
  injection h with h0 h1 h2 h3
  cases b
  cases b'
  rw [Words.mk.injEq]
  exact ⟨UInt32.xor_right_inj a.w0 |>.mp h0, UInt32.xor_right_inj a.w1 |>.mp h1,
    UInt32.xor_right_inj a.w2 |>.mp h2, UInt32.xor_right_inj a.w3 |>.mp h3⟩

theorem getD_loadWord {i : Nat} (h : loadWord a i = loadWord b i) :
    ∀ j < 4, a.getD (i + j) 0 = b.getD (i + j) 0 := by
  have hbytes := congrArg LittleEndian.bytes h
  unfold loadWord at hbytes
  rw [LittleEndian.bytes_word, LittleEndian.bytes_word] at hbytes
  injection hbytes with h0 hbytes
  injection hbytes with h1 hbytes
  injection hbytes with h2 hbytes
  injection hbytes with h3
  intro j hj
  match j, hj with
  | 0, _ => exact h0
  | 1, _ => exact h1
  | 2, _ => exact h2
  | 3, _ => exact h3

theorem load_injective (hlength : a.length = b.length) (hle : a.length ≤ 16) (h : load a = load b) :
    a = b := by
  injection h with h0 h1 h2 h3
  have hbyte : ∀ i < 16, a.getD i 0 = b.getD i 0 := by
    intro i hi
    by_cases hi4 : i < 4
    · rw [← Nat.zero_add i]
      exact getD_loadWord h0 i hi4
    by_cases hi8 : i < 8
    · rw [← Nat.add_sub_cancel' (Nat.le_of_not_lt hi4)]
      exact getD_loadWord h1 (i - 4) (by omega)
    by_cases hi12 : i < 12
    · rw [← Nat.add_sub_cancel' (Nat.le_of_not_lt hi8)]
      exact getD_loadWord h2 (i - 8) (by omega)
    · rw [← Nat.add_sub_cancel' (Nat.le_of_not_lt hi12)]
      exact getD_loadWord h3 (i - 12) (by omega)
  apply ext_getElem hlength
  intro i hia hib
  have hi := hbyte i (Nat.lt_of_lt_of_le hia hle)
  rwa [getD_eq_getElem _ _ hia, getD_eq_getElem _ _ hib] at hi

theorem absorbBlock_injective (block : List UInt8) : Injective (absorbBlock · block) :=
  chaskeyPermute_bijective.1.comp (xor_right_injective (load block))

theorem absorbBlock_ne (hlength : a.length = b.length) (hle : a.length ≤ 16) (hne : a ≠ b) :
    absorbBlock v a ≠ absorbBlock v b := fun h =>
  hne (load_injective hlength hle (xor_left_injective v (chaskeyPermute_bijective.1 h)))

/-! ## the value before the cut -/

/-- the last block, and the 128 bits of which `finish` takes the tag -/
def finishWords (key : Key) (v : Words) (rest : List UInt8) : Words :=
  if rest.length < 16 then (absorbBlock (v.xor key.k2) (rest ++ [0x01])).xor key.k
  else (absorbBlock (v.xor key.k1) rest).xor key.k

/-- `full_tag` -/
def fullTag (key : Key) (message : List UInt8) : Words :=
  let (v, rest) := absorb absorbBlock 16 key.k message
  finishWords key v rest

def Words.bytes (v : Words) : List UInt8 :=
  LittleEndian.bytes v.w0 ++ LittleEndian.bytes v.w1 ++ LittleEndian.bytes v.w2 ++
    LittleEndian.bytes v.w3

theorem compute_eq_fullTag (message : List UInt8) :
    compute key message = (fullTag key message).bytes.take macTagSize := by
  unfold compute finish fullTag finishWords
  dsimp only
  split_ifs <;> rfl

theorem finishWords_injective (rest : List UInt8) : Injective (finishWords key · rest) := by
  intro v v' h
  unfold finishWords at h
  split_ifs at h
  · exact xor_right_injective _ (absorbBlock_injective _ (xor_right_injective _ h))
  · exact xor_right_injective _ (absorbBlock_injective _ (xor_right_injective _ h))

theorem finishWords_ne (v : Words) (hlength : a.length = b.length) (hle : a.length ≤ 16)
    (hne : a ≠ b) : finishWords key v a ≠ finishWords key v b := by
  unfold finishWords
  rw [hlength]
  intro h
  split_ifs at h with hshort
  · have hpadded : (a ++ [(0x01 : UInt8)]).length = (b ++ [0x01]).length := by
      rw [length_append, length_append, hlength]
    have hroom : (a ++ [(0x01 : UInt8)]).length ≤ 16 := by
      rw [length_append, hlength]
      exact hshort
    exact absorbBlock_ne _ hpadded hroom (fun h => hne (append_cancel_right h))
      (xor_right_injective _ h)
  · exact absorbBlock_ne _ hlength hle hne (xor_right_injective _ h)

/-- **Main.** The rounds are a permutation of the states.  Messages of one length that differ in
exactly one block have different values before the cut, with every key. -/
theorem permute_separates :
    Bijective chaskeyPermute ∧
      ∀ (key : Key) (m m' : List UInt8), m.length = m'.length →
        (∃! i, block 16 i m ≠ block 16 i m') → fullTag key m ≠ fullTag key m' := by
  refine ⟨chaskeyPermute_bijective, fun key m m' hlength hone => ?_⟩
  obtain ⟨i, hne, hunique⟩ := hone
  have hsame : ∀ j, j ≠ i → block 16 j m = block 16 j m' := fun j hj =>
    not_not.mp fun h => hj (hunique j h)
  have hblock : ∀ j, (block 16 j m).length = (block 16 j m').length := fun j => by
    unfold block
    rw [length_take, length_take, length_drop, length_drop, hlength]
  have hle : ∀ j, (block 16 j m).length ≤ 16 := fun j => length_take_le _ _
  have hfold : (List.range ((m.length - 1) / 16)).foldl (fun v j => absorbBlock v (block 16 j m))
      key.k = (List.range ((m.length - 1) / 16)).foldl (fun v j => absorbBlock v (block 16 j m'))
      key.k ↔ (m.length - 1) / 16 ≤ i :=
    foldl_range_ne (fun j => absorbBlock_injective _) (fun v j hj => by rw [hsame j hj])
      (fun v => absorbBlock_ne v (hblock i) (hle i) hne) key.k _
  unfold fullTag
  rw [absorb_eq_foldl, absorb_eq_foldl, ← hlength]
  by_cases hlast : (m.length - 1) / 16 ≤ i
  · -- the last block: there is none behind it
    have hi : i = (m.length - 1) / 16 := by
      by_contra hbehind
      refine hne ?_
      unfold block
      rw [drop_of_length_le (by omega), drop_of_length_le (by omega)]
    rw [hfold.mpr hlast]
    subst hi
    exact finishWords_ne key _ (hblock _) (hle _) hne
  · rw [hsame _ (fun h => hlast (Nat.le_of_eq h))]
    exact fun h => hlast (hfold.mp (finishWords_injective key _ h))

/-- two messages of one byte -/
theorem permute_separates_byte :
    fullTag (keyInit zeroKey) [0] ≠ fullTag (keyInit zeroKey) [1] := by
  refine permute_separates.2 (keyInit zeroKey) [0] [1] rfl ⟨0, by decide, fun i hi => ?_⟩
  cases i with
  | zero => rfl
  | succ i =>
    refine absurd ?_ hi
    rfl

end Auth
end EkKor
