import EkKor.Auth.Chaskey
import EkKor.Lib.Bits

/-!
# Received tags and the keys of the modules (`ekk_auth.c`)

A tag is accepted if it is the computed one, and the keyring has the key that was set last for a
module.

* `constantTimeCompare`, `verify`, `verifyMessage`   the comparison of tags;
* `Keyring`, `set`, `clear`, `has`, `get`            the keyring;
* `lastKey`        what the calls say about a module;
* `verified_iff`   the messages that a keyring accepts after any calls.
-/

namespace EkKor
namespace Auth

/-! ## tags -/

abbrev Tag := Vector UInt8 macTagSize

/-- `constant_time_compare` -/
def constantTimeCompare (a b : List UInt8) (len : Nat) : Bool :=
  (List.range len).foldl (fun diff i => diff ||| (a.getD i 0 ^^^ b.getD i 0)) 0 == 0

/-- `ekk_auth_verify` -/
def verify (key : Key) (message : List UInt8) (tag : Tag) : Bool :=
  constantTimeCompare (compute key message) tag.toList macTagSize

/-- `ekk_auth_verify_message` -/
def verifyMessage (key : Key) (senderId : ModuleId) (msgType : UInt8) (data : List UInt8)
    (tag : Tag) : Bool :=
  constantTimeCompare (message key senderId msgType data) tag.toList macTagSize

/-! ## keys -/

/-- `ekk_auth_keyring_t`: a key for each of the 256 module ids, so that `id > EKK_MAX_MODULES` never
holds -/
structure Keyring where
  keys : ModuleId → Key
  valid : Vector UInt8 32

namespace Keyring

/-- `1 << (id % 8)` -/
def bit (id : ModuleId) : UInt8 := Byte.bit (id.toNat % 8)

def byte (id : ModuleId) : Fin 32 := ⟨id.toNat / 8, by have := id.toNat_lt; omega⟩

/-- a key of zeros -/
def noKey : Key := ⟨⟨0, 0, 0, 0⟩, ⟨0, 0, 0, 0⟩, ⟨0, 0, 0, 0⟩⟩

/-- `ekk_auth_keyring_init` -/
def init : Keyring := ⟨fun _ => noKey, Vector.replicate 32 0⟩

/-- `ekk_auth_keyring_has` -/
def has (ring : Keyring) (id : ModuleId) : Bool :=
  if id = 0 then false else ring.valid[byte id] &&& bit id != 0

/-- `ekk_auth_keyring_get` -/
def get (ring : Keyring) (id : ModuleId) : Option Key :=
  if ring.has id then some (ring.keys id) else none

/-- `ekk_auth_keyring_set` -/
def set (ring : Keyring) (id : ModuleId) (rawKey : Vector UInt8 16) : Keyring :=
  if id = 0 then ring
  else
    { keys := Function.update ring.keys id (keyInit rawKey)
      valid := ring.valid.set (byte id) (ring.valid[byte id] ||| bit id) }

/-- `ekk_auth_keyring_clear`, with `ekk_auth_key_clear` -/
def clear (ring : Keyring) (id : ModuleId) : Keyring :=
  if id = 0 then ring
  else
    { keys := Function.update ring.keys id noKey
      valid := ring.valid.set (byte id) (ring.valid[byte id] &&& ~~~bit id) }

end Keyring

/-! ## tags -/

theorem foldl_or_eq_zero (f : Nat → UInt8) (is : List Nat) (diff : UInt8) :
    is.foldl (fun diff i => diff ||| f i) diff = 0 ↔ diff = 0 ∧ ∀ i ∈ is, f i = 0 := by
  induction is generalizing diff with
  | nil => simp
  | cons i is ih => rw [List.foldl_cons, ih, UInt8.or_eq_zero_iff, List.forall_mem_cons, and_assoc]

theorem constantTimeCompare_iff {a b : List UInt8} {n : Nat} (ha : a.length = n)
    (hb : b.length = n) : constantTimeCompare a b n = true ↔ a = b := by
  unfold constantTimeCompare
  rw [beq_iff_eq, foldl_or_eq_zero]
  constructor
  · rintro ⟨-, hzero⟩
    refine List.ext_getElem (ha.trans hb.symm) fun i hi hi' => ?_
    have h := UInt8.xor_eq_zero_iff.mp (hzero i (List.mem_range.mpr (ha ▸ hi)))
    rwa [← List.getElem_eq_getD, ← List.getElem_eq_getD] at h
  · rintro rfl
    exact ⟨rfl, fun i _ => UInt8.xor_self⟩

theorem length_finish (key : Key) (v : Words) (rest : List UInt8) :
    (finish key v rest).length = macTagSize := by
  unfold finish
  split_ifs <;> rfl

/-- a received tag is accepted if it is the computed one -/
theorem verifyMessage_iff (key : Key) (senderId : ModuleId) (msgType : UInt8) (data : List UInt8)
    (tag : Tag) : verifyMessage key senderId msgType data tag = true ↔
      message key senderId msgType data = tag.toList :=
  constantTimeCompare_iff (length_finish _ _ _) tag.size_toArray

/-! ## the keyring -/

namespace Keyring

variable {id : ModuleId}

def marked (ring : Keyring) (id : ModuleId) : Bool :=
  ring.valid[byte id].toNat.testBit (id.toNat % 8)

theorem has_iff (ring : Keyring) (id : ModuleId) :
    ring.has id = true ↔ id ≠ 0 ∧ ring.marked id = true := by
  unfold has
  split_ifs with h
  · simp [h]
  · unfold bit
    rw [bne_iff_ne, Byte.and_bit_ne_zero_iff _ (Nat.mod_lt _ (by decide))]
    exact (and_iff_right h).symm

theorem marked_write (ring : Keyring) (keys : ModuleId → Key) {b : UInt8} {used : Bool}
    (h : ∀ i < 8, b.toNat.testBit i =
      if i = id.toNat % 8 then used else ring.valid[byte id].toNat.testBit i) (j : ModuleId) :
    (Keyring.mk keys (ring.valid.set (byte id) b)).marked j =
      if j = id then used else ring.marked j := by
  have hj := h (j.toNat % 8) (Nat.mod_lt _ (by decide))
  unfold marked
  by_cases hbyte : byte id = byte j
  · have hdiv : id.toNat / 8 = j.toNat / 8 := congrArg Fin.val hbyte
    have hiff : j.toNat % 8 = id.toNat % 8 ↔ j = id := by
      rw [← UInt8.toNat_inj]
      omega
    simp only [Fin.getElem_fin, hbyte, Vector.getElem_set_self, hiff] at hj ⊢
    exact hj
  · rw [if_neg fun hj => hbyte (congrArg byte hj.symm), Fin.getElem_fin,
      Vector.getElem_set_ne _ _ (Fin.val_ne_of_ne hbyte)]
    rfl

end Keyring

/-! ## results -/

inductive KeyCall where
  | set (id : ModuleId) (rawKey : Vector UInt8 16)
  | clear (id : ModuleId)

def Keyring.step (ring : Keyring) : KeyCall → Keyring
  | .set id rawKey => ring.set id rawKey
  | .clear id => ring.clear id

def Keyring.run (calls : List KeyCall) : Keyring := calls.foldl Keyring.step .init

/-- what a call says about the key of a module -/
def KeyCall.tell (id : ModuleId) (known : Option (Vector UInt8 16)) :
    KeyCall → Option (Vector UInt8 16)
  | .set id' rawKey => if id = id' then some rawKey else known
  | .clear id' => if id = id' then none else known

/-- the key that was set last, if it was not cleared since -/
def lastKey (calls : List KeyCall) (id : ModuleId) : Option (Vector UInt8 16) :=
  calls.foldl (KeyCall.tell id) none

namespace Keyring

variable {ring : Keyring} {id : ModuleId} {known : ModuleId → Option (Vector UInt8 16)}

def Knows (ring : Keyring) (known : ModuleId → Option (Vector UInt8 16)) : Prop :=
  ∀ id, id ≠ 0 → ring.marked id = (known id).isSome ∧
    ∀ rawKey, known id = some rawKey → ring.keys id = keyInit rawKey

theorem Knows.write (h : ring.Knows known) {b : UInt8} {key : Key}
    (rawKey : Option (Vector UInt8 16))
    (hb : ∀ i < 8, b.toNat.testBit i =
      if i = id.toNat % 8 then rawKey.isSome else ring.valid[byte id].toNat.testBit i)
    (hkey : ∀ r, rawKey = some r → key = keyInit r) :
    (Keyring.mk (Function.update ring.keys id key) (ring.valid.set (byte id) b)).Knows
      fun j => if j = id then rawKey else known j := by
  intro j hj
  rw [marked_write ring _ hb]
  dsimp only
  by_cases hid : j = id
  · rw [if_pos hid, if_pos hid, hid, Function.update_self]
    exact ⟨rfl, hkey⟩
  · rw [if_neg hid, if_neg hid, Function.update_of_ne hid]
    exact h j hj

theorem Knows.congr {known' : ModuleId → Option (Vector UInt8 16)} (h : ring.Knows known)
    (hk : ∀ id, id ≠ 0 → known' id = known id) : ring.Knows known' := by
  intro id hid
  rw [hk id hid]
  exact h id hid

theorem Knows.step (h : ring.Knows known) (call : KeyCall) :
    (ring.step call).Knows fun id => call.tell id (known id) := by
  cases call with
  | set id rawKey =>
    show (Keyring.set ring id rawKey).Knows fun j => if j = id then some rawKey else known j
    unfold Keyring.set
    split_ifs with hid
    · exact h.congr fun j hj => if_neg (hid ▸ hj)
    · exact h.write _ (fun i _ => Byte.testBit_or_bit _ (Nat.mod_lt _ (by decide)) i)
        fun r hr => congrArg keyInit (Option.some.inj hr)
  | clear id =>
    show (Keyring.clear ring id).Knows fun j => if j = id then none else known j
    unfold Keyring.clear
    split_ifs with hid
    · exact h.congr fun j hj => if_neg (hid ▸ hj)
    · exact h.write none (fun i => Byte.testBit_and_not_bit _ (Nat.mod_lt _ (by decide)))
        fun r hr => by cases hr

theorem knows_run (calls : List KeyCall) : (run calls).Knows (lastKey calls) := by
  induction calls using List.reverseRecOn with
  | nil => exact fun id _ => ⟨by simp [marked, run, init, lastKey], fun _ h => by cases h⟩
  | append_singleton calls call ih =>
    unfold run lastKey at ih ⊢
    simp only [List.foldl_concat]
    exact ih.step call

end Keyring

/-- **Main.** After any calls a message is accepted from a module exactly when a key was set for the
module and not cleared since, and the tag is the one computed with the last of its keys. -/
theorem verified_iff (calls : List KeyCall) (senderId : ModuleId) (msgType : UInt8)
    (data : List UInt8) (tag : Tag) :
    (∃ key, (Keyring.run calls).get senderId = some key ∧
        verifyMessage key senderId msgType data tag = true) ↔
      senderId ≠ 0 ∧ ∃ rawKey, lastKey calls senderId = some rawKey ∧
        message (keyInit rawKey) senderId msgType data = tag.toList := by
  have hhas := Keyring.has_iff (Keyring.run calls) senderId
  unfold Keyring.get
  simp only [verifyMessage_iff, hhas]
  by_cases hid : senderId = 0
  · simp [hid]
  · obtain ⟨hmarked, hkey⟩ := Keyring.knows_run calls senderId hid
    cases hlast : lastKey calls senderId with
    | none => simp [hmarked, hlast]
    | some rawKey => simp [hmarked, hlast, hid, hkey rawKey hlast]

end Auth
end EkKor
