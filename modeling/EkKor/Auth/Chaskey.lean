import EkKor.Lib.HeldBack
import EkKor.Lib.Packed
import EkKor.Types

/-!
# The message authentication code and its chunks

* `compute`, `update`, `final`   the code;
* `incremental_iff`   the tag of a message in chunks.
-/

/-!
# The message authentication code (`ekk_auth.c`)

A message is a list of bytes, and a null pointer an empty one.  Of the buffer of a context the model
has the first `buflen` bytes, which are all that is ever read.

* `chaskeyPermute`   the permutation of the state;
* `keyInit`          a key and its two subkeys;
* `compute`          the tag of a whole message;
* `init`, `update`, `final`   the tag of a message that comes in chunks;
* `message`          the tag of a message with its sender and type.
-/

namespace EkKor
open List hiding Vector
namespace Auth

/-- `EKK_CHASKEY_ROUNDS` -/
abbrev chaskeyRounds : Nat := 12

/-- `EKK_MAC_TAG_SIZE` -/
abbrev macTagSize : Nat := 8

/-- four words -/
structure Words where
  w0 : UInt32
  w1 : UInt32
  w2 : UInt32
  w3 : UInt32
  deriving DecidableEq

def Words.xor (a b : Words) : Words := ⟨a.w0 ^^^ b.w0, a.w1 ^^^ b.w1, a.w2 ^^^ b.w2, a.w3 ^^^ b.w3⟩

/-! ## the permutation -/

/-- `rotl32` -/
def rotl32 (x n : UInt32) : UInt32 := x <<< n ||| x >>> (32 - n)

/-- `chaskey_round` -/
def chaskeyRound (v : Words) : Words :=
  let v := { v with w0 := v.w0 + v.w1 }
  let v := { v with w1 := rotl32 v.w1 5 }
  let v := { v with w1 := v.w1 ^^^ v.w0 }
  let v := { v with w0 := rotl32 v.w0 16 }
  let v := { v with w2 := v.w2 + v.w3 }
  let v := { v with w3 := rotl32 v.w3 8 }
  let v := { v with w3 := v.w3 ^^^ v.w2 }
  let v := { v with w0 := v.w0 + v.w3 }
  let v := { v with w3 := rotl32 v.w3 13 }
  let v := { v with w3 := v.w3 ^^^ v.w0 }
  let v := { v with w2 := v.w2 + v.w1 }
  let v := { v with w1 := rotl32 v.w1 7 }
  let v := { v with w1 := v.w1 ^^^ v.w2 }
  { v with w2 := rotl32 v.w2 16 }

/-- `chaskey_permute` -/
def chaskeyPermute (v : Words) : Words := Nat.repeat chaskeyRound chaskeyRounds v

/-! ## keys -/

def loadWord (block : List UInt8) (i : Nat) : UInt32 :=
  LittleEndian.word (block.getD i 0) (block.getD (i + 1) 0) (block.getD (i + 2) 0)
    (block.getD (i + 3) 0)

def load (block : List UInt8) : Words :=
  ⟨loadWord block 0, loadWord block 4, loadWord block 8, loadWord block 12⟩

/-- `times_two` -/
def timesTwo (v : Words) : Words :=
  let msb := v.w3 >>> 31 &&& 1
  { w0 := v.w0 <<< 1 ^^^ (0x87 &&& (0 - msb))
    w1 := v.w1 <<< 1 ||| v.w0 >>> 31
    w2 := v.w2 <<< 1 ||| v.w1 >>> 31
    w3 := v.w3 <<< 1 ||| v.w2 >>> 31 }

/-- `ekk_auth_key_t` -/
structure Key where
  k : Words
  k1 : Words
  k2 : Words
  deriving DecidableEq

/-- `ekk_auth_key_init` -/
def keyInit (rawKey : Vector UInt8 16) : Key :=
  let k := load rawKey.toList
  let k1 := timesTwo k
  ⟨k, k1, timesTwo k1⟩

/-! ## the tag of a message -/

def absorbBlock (v : Words) (block : List UInt8) : Words := chaskeyPermute (v.xor (load block))

def finish (key : Key) (v : Words) (rest : List UInt8) : List UInt8 :=
  let (lastBlock, v) :=
    if rest.length < 16 then (rest ++ [0x01], v.xor key.k2) else (rest, v.xor key.k1)
  let v := (absorbBlock v lastBlock).xor key.k
  (LittleEndian.bytes v.w0 ++ LittleEndian.bytes v.w1 ++ LittleEndian.bytes v.w2 ++
    LittleEndian.bytes v.w3).take macTagSize

scoped instance instNeZeroBlock : NeZero 16 := ⟨by decide⟩

/-- `ekk_auth_compute` -/
def compute (key : Key) (message : List UInt8) : List UInt8 :=
  let (v, rest) := HeldBack.absorb absorbBlock 16 key.k message
  finish key v rest

/-! ## chunks -/

/-- `ekk_auth_ctx_t` -/
structure Ctx where
  v : Words
  buffer : List UInt8
  msglen : UInt32
  key : Key
  deriving DecidableEq

/-- `ekk_auth_init` -/
def init (key : Key) : Ctx := ⟨key.k, [], 0, key⟩

/-- `ekk_auth_update` -/
def update (ctx : Ctx) (data : List UInt8) : Ctx :=
  let ctx := { ctx with msglen := ctx.msglen + UInt32.ofNat data.length }
  let buflen := ctx.buffer.length
  if 0 < buflen ∧ data.length < 16 - buflen then { ctx with buffer := ctx.buffer ++ data }
  else
    let (ctx, msg) :=
      if 0 < buflen then
        let need := 16 - buflen
        ({ ctx with
            v := absorbBlock ctx.v (ctx.buffer ++ data.take need)
            buffer := [] }, data.drop need)
      else (ctx, data)
    let (v, rest) := HeldBack.absorb absorbBlock 16 ctx.v msg
    let ctx := { ctx with v := v }
    if 0 < rest.length then { ctx with buffer := rest } else ctx

/-- `ekk_auth_final` -/
def final (ctx : Ctx) : List UInt8 := finish ctx.key ctx.v ctx.buffer

/-- `ekk_auth_message` -/
def message (key : Key) (senderId : ModuleId) (msgType : UInt8) (data : List UInt8) : List UInt8 :=
  let ctx := update (init key) [senderId, msgType]
  let ctx := if 0 < data.length then update ctx data else ctx
  final ctx

end Auth
end EkKor

/-!
# A message in chunks

The last block must be held back until it is known to be the last.  A chunk that fills the buffer
exactly loses it: the block is absorbed as one that is not the last.

* `update_eq`        the update is the one that holds back a block;
* `incremental_eq`   the tag is that of the whole message, if the last block is held back;
* `zero_ne`          otherwise there is a key and a message with another tag;
* `incremental_iff`  the tags are the same for all keys and messages exactly when the last block is
                     held back.
-/

namespace EkKor
namespace Auth
open HeldBack
open List hiding Vector

variable {key : Key} {ctx : Ctx} {chunks : List (List UInt8)}

/-! ## chunks -/

theorem set_buffer (ctx : Ctx) (h : ctx.buffer = []) (rest : List UInt8) :
    (if 0 < rest.length then { ctx with buffer := rest } else ctx) =
      { ctx with buffer := rest } := by
  cases rest with
  | nil =>
    rw [if_neg (by exact Nat.lt_irrefl 0), ← h]
  | cons b rest => rw [if_pos (by exact Nat.succ_pos _)]

theorem update_eq (ctx : Ctx) (data : List UInt8) :
    update ctx data =
      { v := (HeldBack.update absorbBlock 16 (ctx.v, ctx.buffer) data).1
        buffer := (HeldBack.update absorbBlock 16 (ctx.v, ctx.buffer) data).2
        msglen := ctx.msglen + UInt32.ofNat data.length
        key := ctx.key } := by
  unfold update HeldBack.update
  by_cases hempty : ctx.buffer = []
  · have hlength : ¬0 < ctx.buffer.length := by
      rw [hempty]
      exact Nat.lt_irrefl 0
    rw [if_neg fun h => hlength h.1, if_neg hlength, if_neg (not_not.mpr hempty)]
    exact set_buffer ⟨(absorb absorbBlock 16 ctx.v data).1, ctx.buffer, _, ctx.key⟩ hempty _
  · have hlength := length_pos_iff.mpr hempty
    rw [if_pos hempty]
    by_cases hshort : data.length < 16 - ctx.buffer.length
    · rw [if_pos ⟨hlength, hshort⟩, if_pos hshort]
    · rw [if_neg fun h => hshort h.2, if_pos hlength, if_neg hshort]
      exact set_buffer ⟨_, [], _, ctx.key⟩ rfl _

theorem update_foldl (ctx : Ctx) (chunks : List (List UInt8)) :
    ((chunks.foldl update ctx).v, (chunks.foldl update ctx).buffer) =
        chunks.foldl (HeldBack.update absorbBlock 16) (ctx.v, ctx.buffer) ∧
      (chunks.foldl update ctx).key = ctx.key := by
  induction chunks generalizing ctx with
  | nil => exact ⟨rfl, rfl⟩
  | cons c chunks ih =>
    obtain ⟨hstate, hkey⟩ := ih (update ctx c)
    rw [foldl_cons, foldl_cons, hstate, hkey, update_eq]
    exact ⟨rfl, rfl⟩

theorem compute_eq (key : Key) (message : List UInt8) : compute key message =
    finish key (absorb absorbBlock 16 key.k message).1 (absorb absorbBlock 16 key.k message).2 :=
  rfl

theorem final_chunks (key : Key) (chunks : List (List UInt8)) :
    final (chunks.foldl update (init key)) =
      if Held 16 (chunks.map List.length) then compute key chunks.flatten
      else finish key (flush absorbBlock (absorb absorbBlock 16 key.k chunks.flatten)).1 [] := by
  obtain ⟨hstate, hkey⟩ := update_foldl (init key) chunks
  have hafter := update_all (f := absorbBlock) (n := 16) key.k chunks
  have hv := congrArg Prod.fst hstate
  have hbuffer := congrArg Prod.snd hstate
  dsimp only at hv hbuffer
  unfold final
  rw [hkey, hv, hbuffer]
  by_cases hheld : Held 16 (chunks.map List.length)
  · rw [if_pos hheld]
    rw [compute_eq]
    unfold init
    rw [hafter.held hheld]
  · rw [if_neg hheld]
    unfold init
    rw [hafter.flushed hheld]
    rfl

/-- **Sound.** If the last block is held back, the tag is that of the whole message. -/
theorem incremental_eq (key : Key) (h : Held 16 (chunks.map List.length)) :
    final (chunks.foldl update (init key)) = compute key chunks.flatten := by
  rw [final_chunks, if_pos h]

/-! ## zeros -/

def zeroKey : Vector UInt8 16 := Vector.replicate 16 0

theorem keyInit_zero : keyInit zeroKey = ⟨⟨0, 0, 0, 0⟩, ⟨0, 0, 0, 0⟩, ⟨0, 0, 0, 0⟩⟩ := by decide

theorem absorbBlock_zero : absorbBlock ⟨0, 0, 0, 0⟩ (List.replicate 16 0) = ⟨0, 0, 0, 0⟩ := by
  decide

theorem finish_zero : finish (keyInit zeroKey) ⟨0, 0, 0, 0⟩ [] ≠
    finish (keyInit zeroKey) ⟨0, 0, 0, 0⟩ (List.replicate 16 0) := by
  decide

theorem zero_ne (lens : List Nat) (h : ¬Held 16 lens) :
    final ((lens.map fun k => List.replicate k 0).foldl update (init (keyInit zeroKey))) ≠
      compute (keyInit zeroKey) (lens.map fun k => List.replicate k 0).flatten := by
  have hlens : (lens.map fun k => List.replicate k (0 : UInt8)).map List.length = lens := by
    rw [map_map]
    exact (map_congr_left fun k _ => length_replicate).trans (map_id' lens)
  have hzeros : (lens.map fun k => List.replicate k (0 : UInt8)).flatten =
      List.replicate lens.sum 0 := by
    refine eq_replicate_iff.mpr ⟨?_, fun b hb => ?_⟩
    · rw [length_flatten, hlens]
    · obtain ⟨l, hl, hb⟩ := mem_flatten.mp hb
      obtain ⟨k, -, rfl⟩ := mem_map.mp hl
      exact eq_of_mem_replicate hb
  have hk : (keyInit zeroKey).k = ⟨0, 0, 0, 0⟩ := by rw [keyInit_zero]
  have hv := absorb_replicate absorbBlock_zero lens.sum
  have hrest : (absorb absorbBlock 16 ⟨0, 0, 0, 0⟩ (List.replicate lens.sum 0)).2 =
      List.replicate 16 0 := by
    refine eq_replicate_iff.mpr ⟨rest_full _ length_replicate h, fun b hb => ?_⟩
    exact eq_of_mem_replicate ((absorb_rest _ _).suffix.subset hb)
  rw [final_chunks, if_neg (hlens.symm ▸ h), hzeros, hk]
  unfold flush
  rw [compute_eq, hk, hv, hrest, absorbBlock_zero]
  exact finish_zero

/-! ## results -/

/-- the tag of the chunks is that of the whole message, for every key and all chunks of these
lengths -/
def IncrementalEq (lens : List Nat) : Prop :=
  ∀ (rawKey : Vector UInt8 16) (chunks : List (List UInt8)), chunks.map List.length = lens →
    final (chunks.foldl update (init (keyInit rawKey))) = compute (keyInit rawKey) chunks.flatten

/-- the tag of a message is that of its sender, its type and its data, for every key and all data of
this length -/
def MessageEq (n : Nat) : Prop :=
  ∀ (rawKey : Vector UInt8 16) (senderId : ModuleId) (msgType : UInt8) (data : List UInt8),
    data.length = n → message (keyInit rawKey) senderId msgType data =
      compute (keyInit rawKey) (senderId :: msgType :: data)

theorem message_eq (key : Key) (senderId : ModuleId) (msgType : UInt8) (data : List UInt8) :
    message key senderId msgType data = final
      ((if 0 < data.length then [[senderId, msgType], data] else [[senderId, msgType]]).foldl update
        (init key)) := by
  unfold message
  split_ifs <;> rfl

theorem message_zero : message (keyInit zeroKey) 0 0 (List.replicate 14 0) =
    final (([2, 14].map fun k => List.replicate k 0).foldl update (init (keyInit zeroKey))) := rfl

/-- **Main.** The tags are the same for all keys and messages exactly when the last block is held
back: there is none, or it is not full, or the last chunk has at least 16 bytes. -/
theorem incremental_iff (lens : List Nat) (n : Nat) :
    (IncrementalEq lens ↔ lens.sum = 0 ∨ lens.sum % 16 ≠ 0 ∨ 16 ≤ lens.getLastD 0) ∧
      (MessageEq n ↔ n ≠ 14) := by
  constructor
  · refine ⟨fun h => ?_, fun h rawKey chunks hchunks => incremental_eq _ (hchunks.symm ▸ h)⟩
    by_contra hnot
    refine zero_ne _ hnot (h zeroKey _ ?_)
    rw [map_map]
    exact (map_congr_left fun k _ => length_replicate).trans (map_id' lens)
  · constructor
    · rintro h rfl
      refine zero_ne [2, 14] (by decide) ?_
      rw [← message_zero]
      exact h zeroKey 0 0 _ length_replicate
    · intro h rawKey senderId msgType data hdata
      rw [message_eq, incremental_eq]
      · split_ifs with hempty
        · rw [flatten_cons, flatten_singleton]
          rfl
        · rw [length_eq_zero_iff.mp (Nat.eq_zero_of_not_pos hempty)]
          rfl
      · split_ifs with hempty
        · show 2 + (data.length + 0) = 0 ∨ (2 + (data.length + 0)) % 16 ≠ 0 ∨ 16 ≤ data.length
          omega
        · show 2 + 0 = 0 ∨ (2 + 0) % 16 ≠ 0 ∨ 16 ≤ 2
          decide

/-- with a key of zeros, two chunks of eight zeros have another tag than the 16 zeros -/
theorem not_incremental_halves :
    final ([List.replicate 8 0, List.replicate 8 0].foldl update (init (keyInit zeroKey))) ≠
      compute (keyInit zeroKey) (List.replicate 16 0) :=
  zero_ne [8, 8] (by decide)

end Auth
end EkKor
