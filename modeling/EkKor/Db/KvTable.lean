import EkKor.Db.Kv
import EkKor.Lib.Probing

/-!
# The entries of a namespace as a table with linear probing

* `slots`              the slots that the entries stand for;
* `findKvEntry_eq`     the search of the server is `Probing.find`;
* `Table`              a sound table, the map it holds, and the number of its keys;
* `Table.find`         what the server finds;
* `Table.update`, `Table.insert`, `Table.delete`   what its writes do.
-/

namespace EkKor
namespace Db
open Probing

/-! ## slots -/

abbrev KvSlot := Slot (List UInt8) (List UInt8)

def slotOf (e : KvEntry) : KvSlot :=
  if e.flags = kvFlagFree then .free
  else if e.flags = kvFlagUsed then
    .used (cString e.key.toList) (e.value.toList.take e.valueLen.toNat)
  else .deleted

def slots (entries : UInt32 → KvEntry) (i : Nat) : KvSlot :=
  if i < 2 ^ 32 then slotOf (entries (UInt32.ofNat i)) else .free

def startOf (key : List UInt8) : Nat := (ekkdbHash key).toNat

/-- a string that can be a key -/
structure IsKey (key : List UInt8) : Prop where
  short : key.length ≤ kvMaxKeyLen
  noZero : 0 ∉ key

/-- an entry as the server writes it -/
structure KvEntry.Proper (e : KvEntry) : Prop where
  flags : e.flags = kvFlagFree ∨ e.flags = kvFlagUsed ∨ e.flags = kvFlagDeleted
  short : e.valueLen.toNat ≤ kvMaxValueLen

variable {entries : UInt32 → KvEntry} {maxEntries : UInt32} {key : List UInt8}

theorem slots_toNat (entries : UInt32 → KvEntry) (idx : UInt32) :
    slots entries idx.toNat = slotOf (entries idx) := by
  unfold slots
  rw [if_pos idx.toNat_lt, UInt32.ofNat_toNat]

theorem slots_update (entries : UInt32 → KvEntry) (idx : UInt32) (e : KvEntry) :
    slots (Function.update entries idx e) =
      Function.update (slots entries) idx.toNat (slotOf e) := by
  funext i
  by_cases hi : i = idx.toNat
  · rw [hi, slots_toNat, Function.update_self, Function.update_self]
  · rw [Function.update_of_ne hi]
    unfold slots
    split_ifs with hlt
    · rw [Function.update_of_ne]
      rintro rfl
      refine hi ?_
      exact (Nat.mod_eq_of_lt hlt).symm
    · rfl

/-! ## searching -/

theorem matchesKey_iff (hkey : IsKey key) (e : KvEntry) :
    Fs.Volume.strncmpEq 15 e.key.toList key = true ↔ cString e.key.toList = key := by
  have hshort := hkey.short
  have hfield : (cString e.key.toList).length ≤ 15 :=
    (List.takeWhile_sublist _).length_le.trans_eq e.key.length_toList
  rw [strncmpEq_iff, cString_of_noZero hkey.noZero, List.take_of_length_le hfield,
    List.take_of_length_le (Nat.le_succ_of_le hshort)]

variable {idx startIdx : UInt32} {value : List UInt8}

theorem next_toNat (h : idx < maxEntries) :
    ((idx + 1) % maxEntries).toNat = (idx.toNat + 1) % maxEntries.toNat := by
  have hlt := UInt32.lt_iff_toNat_lt.mp h
  have hmax := maxEntries.toNat_lt
  have hadd : (idx + 1).toNat = idx.toNat + 1 := by
    exact Nat.mod_eq_of_lt (by show idx.toNat + 1 < 2 ^ 32; omega)
  rw [UInt32.toNat_mod, hadd]

def Agrees (r : Option UInt32 × Option UInt32) (p : Option Nat × Option Nat) : Prop :=
  r.1.map UInt32.toNat = p.1 ∧ r.2.map UInt32.toNat = p.2

theorem map_or (a b : Option UInt32) :
    (a.or b).map UInt32.toNat = (a.map UInt32.toNat).or (b.map UInt32.toNat) := by
  cases a <;> rfl

theorem probeLoop_round (hkey : IsKey key) (hidx : idx < maxEntries)
    (hproper : ∀ i < maxEntries, (entries i).Proper) {fuel : Nat} (hrest : ∀ firstFree, ∃ r, (if
    (idx + 1) % maxEntries ≠ startIdx then probeLoop entries maxEntries startIdx key fuel ((idx + 1)
    % maxEntries) firstFree else some (none, firstFree)) = some r ∧ Agrees r (scan (slots entries)
    maxEntries.toNat key fuel ((idx.toNat + 1) % maxEntries.toNat) (firstFree.map UInt32.toNat)))
    (firstFree : Option UInt32) : ∃ r,
    probeLoop entries maxEntries startIdx key (fuel + 1) idx firstFree = some r ∧
      Agrees r (scan (slots entries) maxEntries.toNat key (fuel + 1) idx.toNat
        (firstFree.map UInt32.toNat)) := by
  rw [probeLoop, scan, slots_toNat]
  unfold slotOf
  by_cases hfree : (entries idx).flags = kvFlagFree
  · rw [if_pos hfree, if_pos hfree]
    exact ⟨_, rfl, rfl, map_or firstFree (some idx)⟩
  · rw [if_neg hfree, if_neg hfree]
    by_cases hused : (entries idx).flags = kvFlagUsed
    · have hdeleted : (entries idx).flags ≠ kvFlagDeleted := by
        rw [hused]
        decide
      rw [if_pos hused, if_neg hdeleted]
      dsimp only
      by_cases hmatch : cString (entries idx).key.toList = key
      · rw [if_pos ⟨hused, (matchesKey_iff hkey _).mpr hmatch⟩, if_pos hmatch]
        exact ⟨_, rfl, rfl, rfl⟩
      · rw [if_neg fun h => hmatch ((matchesKey_iff hkey _).mp h.2), if_neg hmatch]
        exact hrest firstFree
    · have hdeleted : (entries idx).flags = kvFlagDeleted :=
        ((hproper idx hidx).flags.resolve_left hfree).resolve_left hused
      rw [if_neg hused, if_neg fun h => hused h.1, if_pos hdeleted]
      have hor := map_or firstFree (some idx)
      rw [Option.map_some] at hor
      rw [← hor]
      exact hrest (firstFree.or (some idx))

theorem probeLoop_eq (hkey : IsKey key) (hstart : startIdx < maxEntries)
    (hproper : ∀ i < maxEntries, (entries i).Proper) {fuel j : Nat}
    (hidx : idx.toNat = (startIdx.toNat + j) % maxEntries.toNat)
    (hfuel : j + (fuel + 1) = maxEntries.toNat) (firstFree : Option UInt32) : ∃ r,
    probeLoop entries maxEntries startIdx key (fuel + 1) idx firstFree = some r ∧
      Agrees r (scan (slots entries) maxEntries.toNat key (fuel + 1) idx.toNat
        (firstFree.map UInt32.toNat)) := by
  have hstart' := UInt32.lt_iff_toNat_lt.mp hstart
  induction fuel generalizing j idx firstFree with
  | zero =>
    have hlt : idx < maxEntries := by
      rw [UInt32.lt_iff_toNat_lt, hidx]
      exact Nat.mod_lt _ (Nat.lt_of_le_of_lt (Nat.zero_le _) hstart')
    have hnext : (idx + 1) % maxEntries = startIdx := by
      rw [← UInt32.toNat_inj, next_toNat hlt, hidx, next_pos, hfuel, Nat.add_mod_right,
        Nat.mod_eq_of_lt hstart']
    refine probeLoop_round hkey hlt hproper (fun firstFree => ?_) firstFree
    rw [if_neg (not_not.mpr hnext)]
    exact ⟨_, rfl, rfl, rfl⟩
  | succ fuel ih =>
    have hlt : idx < maxEntries := by
      rw [UInt32.lt_iff_toNat_lt, hidx]
      exact Nat.mod_lt _ (Nat.lt_of_le_of_lt (Nat.zero_le _) hstart')
    have hpos : ((idx + 1) % maxEntries).toNat = (startIdx.toNat + (j + 1)) % maxEntries.toNat := by
      rw [next_toNat hlt, hidx, next_pos]
    have hnext : (idx + 1) % maxEntries ≠ startIdx := by
      rw [Ne, ← UInt32.toNat_inj, hpos]
      intro heq
      -- the search is back at its start after `maxEntries` rounds only
      by_cases hwrap : startIdx.toNat + (j + 1) < maxEntries.toNat
      · rw [Nat.mod_eq_of_lt hwrap] at heq
        omega
      · rw [Nat.mod_eq_sub_mod (Nat.not_lt.mp hwrap), Nat.mod_eq_of_lt (by omega)] at heq
        omega
    refine probeLoop_round hkey hlt hproper (fun firstFree => ?_) firstFree
    rw [if_pos hnext, ← next_toNat hlt]
    exact ih hpos (by omega) firstFree

/-- **Search.** The search of the server is the search in the slots. -/
theorem findKvEntry_eq (hkey : IsKey key) {file : KvFile} (hmax : 0 < maxEntries)
    (hproper : ∀ i < maxEntries, (file.entries i).Proper) : ∃ r,
    findKvEntry file maxEntries key = some r ∧
      Agrees r (find (slots file.entries) maxEntries.toNat (startOf key) key) := by
  have hpos : 0 < maxEntries.toNat := UInt32.lt_iff_toNat_lt.mp hmax
  have hstart : ekkdbHash key % maxEntries < maxEntries := by
    exact Nat.mod_lt _ hpos
  unfold findKvEntry
  rw [if_neg fun h => by rw [h] at hpos; exact absurd hpos (Nat.lt_irrefl 0)]
  obtain ⟨fuel, hfuel⟩ := Nat.exists_eq_succ_of_ne_zero (Nat.ne_of_gt hpos)
  have hrounds : 0 + (fuel + 1) = maxEntries.toNat := by omega
  have hloop := probeLoop_eq hkey hstart hproper
    (Nat.mod_eq_of_lt (UInt32.lt_iff_toNat_lt.mp hstart)).symm hrounds none
  unfold find startOf
  rw [← UInt32.toNat_mod, hfuel]
  rw [hfuel] at hloop
  exact hloop

/-! ## tables -/

/-- the entries are a sound table that holds the map `m` -/
structure Table (maxEntries : UInt32) (entries : UInt32 → KvEntry)
    (m : List UInt8 → Option (List UInt8)) : Prop where
  pos : 0 < maxEntries
  proper : ∀ i < maxEntries, (entries i).Proper
  sound : Sound startOf maxEntries.toNat (slots entries)
  represents : Represents maxEntries.toNat (slots entries) m

variable {m : List UInt8 → Option (List UInt8)}

theorem table_empty (h : 0 < maxEntries) :
    Table maxEntries (fun _ => KvEntry.empty) fun _ => none := by
  have hfree (i : Nat) : slots (fun _ => KvEntry.empty) i = .free := by
    unfold slots
    split_ifs <;> rfl
  exact ⟨h, fun _ _ => ⟨.inl rfl, Nat.zero_le _⟩, sound_empty fun i _ => hfree i, represents_empty fun i _ => hfree i⟩

theorem Table.find (h : Table maxEntries entries m) (hkey : IsKey key) {file : KvFile}
    (hfile : file.entries = entries) :
    (∃ idx < maxEntries, ∃ b vacant, slotOf (entries idx) = .used key b ∧ m key = some b ∧
        findKvEntry file maxEntries key = some (some idx, vacant)) ∨
      m key = none ∧
        ((∃ idx < maxEntries, (∀ k b, slotOf (entries idx) ≠ .used k b) ∧
            Reachable (slots entries) maxEntries.toNat (startOf key) idx.toNat ∧
            findKvEntry file maxEntries key = some (none, some idx)) ∨
          (keys m).ncard = maxEntries.toNat ∧
            findKvEntry file maxEntries key = some (none, none)) := by
  subst hfile
  obtain ⟨⟨found, vacant⟩, hfind, hfound, hvacant⟩ := findKvEntry_eq hkey h.pos h.proper
  have hsome {o : Option UInt32} {i : Nat} (ho : o.map UInt32.toNat = some i) :
      ∃ idx, o = some idx ∧ idx.toNat = i := by
    obtain ⟨idx, hidx, hi⟩ := Option.map_eq_some_iff.mp ho
    exact ⟨idx, hidx, hi⟩
  have hnone {o : Option UInt32} (ho : o.map UInt32.toNat = none) : o = none :=
    Option.map_eq_none_iff.mp ho
  rcases find_spec h.sound key with ⟨i, hi, b, vacant', hslot, heq⟩ | ⟨habsent, hrest⟩
  · rw [heq] at hfound
    obtain ⟨idx, rfl, rfl⟩ := hsome hfound
    rw [slots_toNat] at hslot
    refine .inl ⟨idx, UInt32.lt_iff_toNat_lt.mpr hi, b, vacant, hslot, ?_, hfind⟩
    exact h.represents.present hi ((slots_toNat ..).trans hslot)
  · refine .inr ⟨h.represents.absent habsent, ?_⟩
    rcases hrest with ⟨i, hi, hslot, hreach, heq⟩ | ⟨hfull, heq⟩
    · rw [heq] at hfound hvacant
      obtain rfl := hnone hfound
      obtain ⟨idx, rfl, rfl⟩ := hsome hvacant
      rw [slots_toNat] at hslot
      exact .inl ⟨idx, UInt32.lt_iff_toNat_lt.mpr hi, hslot, hreach, hfind⟩
    · rw [heq] at hfound hvacant
      obtain rfl := hnone hfound
      obtain rfl := hnone hvacant
      exact .inr ⟨h.represents.ncard_full h.sound hfull, hfind⟩

/-! ## writing -/

theorem proper_update (h : ∀ i < maxEntries, (entries i).Proper) (idx : UInt32) {e : KvEntry}
    (he : e.Proper) : ∀ i < maxEntries, (Function.update entries idx e i).Proper := by
  intro i hi
  by_cases heq : i = idx
  · rw [heq, Function.update_self]
    exact he
  · rw [Function.update_of_ne heq]
    exact h i hi

theorem newEntry_valueLen (key : List UInt8) (hvalue : value.length ≤ kvMaxValueLen) :
    (newEntry key value).valueLen.toNat = value.length := by
  refine Nat.mod_eq_of_lt (Nat.lt_of_le_of_lt hvalue ?_)
  decide

theorem slotOf_newEntry (hkey : IsKey key) (hvalue : value.length ≤ kvMaxValueLen) :
    slotOf (newEntry key value) = .used key value := by
  have hbytes : (newEntry key value).value.toList.take value.length = value := by
    refine List.ext_getElem ?_ fun i hi hi' => ?_
    · rw [List.length_take, Vector.length_toList]
      exact Nat.min_eq_left hvalue
    · rw [List.getElem_take, Vector.getElem_toList]
      refine (Vector.getElem_ofFn ..).trans ?_
      rw [if_pos (Nat.lt_of_lt_of_le hi' hvalue)]
      exact List.getD_eq_getElem value 0 hi'
  have hstring : cString (newEntry key value).key.toList = key :=
    cString_fieldOf hkey.noZero hkey.short (by decide)
  have hused : (newEntry key value).flags = kvFlagUsed := rfl
  unfold slotOf
  rw [if_neg (by rw [hused]; decide), if_pos hused, newEntry_valueLen key hvalue, hbytes, hstring]

theorem Table.write (h : Table maxEntries entries m) (hkey : IsKey key)
    (hvalue : value.length ≤ kvMaxValueLen) (hidx : idx < maxEntries)
    (hother : ∀ j < maxEntries.toNat, ∀ b, slots entries j = .used key b → j = idx.toNat)
    (hslot : ∀ k b, slotOf (entries idx) = .used k b → k = key)
    (hreach : Reachable (slots entries) maxEntries.toNat (startOf key) idx.toNat) :
    Table maxEntries (Function.update entries idx (newEntry key value))
      (Function.update m key (some value)) := by
  have hi := UInt32.lt_iff_toNat_lt.mp hidx
  refine ⟨h.pos, proper_update h.proper idx
    ⟨.inr (.inl rfl), (newEntry_valueLen key hvalue).trans_le hvalue⟩, ?_, ?_⟩
  · rw [slots_update, slotOf_newEntry hkey hvalue]
    exact h.sound.fill hi hother hreach value
  · rw [slots_update, slotOf_newEntry hkey hvalue]
    refine h.represents.fill hi hother (fun k b hused => ?_) value
    rw [slots_toNat] at hused
    exact hslot k b hused

theorem Table.update (h : Table maxEntries entries m) (hkey : IsKey key) {b : List UInt8}
    (hvalue : value.length ≤ kvMaxValueLen) (hidx : idx < maxEntries)
    (hslot : slotOf (entries idx) = .used key b) :
    Table maxEntries (Function.update entries idx (newEntry key value))
      (Function.update m key (some value)) := by
  have hi := UInt32.lt_iff_toNat_lt.mp hidx
  have hused := (slots_toNat entries idx).trans hslot
  refine h.write hkey hvalue hidx (fun j hj b' hj' => ?_) (fun k b' hk => ?_)
    (h.sound.reach _ hi key b hused)
  · exact h.sound.once j hj _ hi key b' b hj' hused
  · rw [hslot] at hk
    exact (Slot.used.inj hk).1.symm

theorem Table.insert (h : Table maxEntries entries m) (hkey : IsKey key)
    (hvalue : value.length ≤ kvMaxValueLen) (hidx : idx < maxEntries) (hnew : m key = none)
    (hslot : ∀ k b, slotOf (entries idx) ≠ .used k b)
    (hreach : Reachable (slots entries) maxEntries.toNat (startOf key) idx.toNat) :
    Table maxEntries (Function.update entries idx (newEntry key value))
      (Function.update m key (some value)) := by
  refine h.write hkey hvalue hidx (fun j hj b hj' => ?_) (fun k b hk => absurd hk (hslot k b))
    hreach
  rw [h.represents.present hj hj'] at hnew
  cases hnew

theorem Table.delete (h : Table maxEntries entries m) {b : List UInt8} (hidx : idx < maxEntries)
    (hslot : slotOf (entries idx) = .used key b) :
    Table maxEntries
      (Function.update entries idx { entries idx with flags := kvFlagDeleted })
      (Function.update m key none) := by
  have hi := UInt32.lt_iff_toNat_lt.mp hidx
  have hdeleted : slotOf { entries idx with flags := kvFlagDeleted } = .deleted := rfl
  refine ⟨h.pos, proper_update h.proper idx
    ⟨.inr (.inr rfl), (h.proper idx hidx).short⟩, ?_, ?_⟩
  · rw [slots_update, hdeleted]
    exact h.sound.erase _
  · rw [slots_update, hdeleted]
    exact h.represents.erase h.sound hi ((slots_toNat entries idx).trans hslot)

end Db
end EkKor
