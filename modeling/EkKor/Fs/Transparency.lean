import Mathlib.Data.Fintype.Basic
import EkKor.Fs.System
import EkKor.Lib.Runs

/-!
# The block cache is transparent

* `System.Clean`          the calls that write no other content past a cached block, do not move cached
                          blocks to a partition with other contents, and stay off block `0xFFFFFFFF`;
* `coherent_call`         such a call keeps the cache current;
* `Transparent`           every block read was the one last written, nothing else was written back,
                          and no block is in the cache twice;
* `transparent_of_runs`   it holds in every run of such calls from the start of the system;
* `stale_read`            a partition is formatted while one of its blocks is cached.
-/

namespace EkKor
namespace Fs
open Mirror Runs

/-! ## blocks of the partition in use -/

def Reachable (sb : Superblock) (bitmapBlocks : UInt32) : Prop :=
  (∀ i < bitmapBlocks.toNat, sb.bitmapStart + UInt32.ofNat i ≠ cacheInvalidBlock) ∧
    ∀ i < 4, sb.journalStart + UInt32.ofNat i ≠ cacheInvalidBlock

/-- the partition and the layout in use are the same -/
structure SameVolume (s s' : System) : Prop where
  partitionLba : s'.card.partitionLba = s.card.partitionLba
  enabled : s'.card.cache.enabled = s.card.cache.enabled
  bitmapStart : s'.superblock.bitmapStart = s.superblock.bitmapStart
  journalStart : s'.superblock.journalStart = s.superblock.journalStart
  bitmapBlocks : s'.bitmapBlocks = s.bitmapBlocks

/-- the cache is current, and if it is on, the tables of the volume can be cached -/
structure Ready (disk : UInt32 → Block) (s : System) : Prop where
  coherent : Coherent disk s.card
  reachable : s.card.cache.enabled = true → Reachable s.superblock s.bitmapBlocks

variable {disk : UInt32 → Block} {s s' s'' : System} {b : UInt32}

theorem sameVolume_refl (s : System) : SameVolume s s := ⟨rfl, rfl, rfl, rfl, rfl⟩

theorem SameVolume.trans (h : SameVolume s s') (h' : SameVolume s' s'') : SameVolume s s'' :=
  ⟨h'.partitionLba.trans h.partitionLba, h'.enabled.trans h.enabled,
    h'.bitmapStart.trans h.bitmapStart, h'.journalStart.trans h.journalStart,
    h'.bitmapBlocks.trans h.bitmapBlocks⟩

theorem Ready.next (h : Ready disk s) (hsame : SameVolume s s') (hc : Coherent disk s'.card) :
    Ready disk s' := by
  refine ⟨hc, fun henabled => ?_⟩
  unfold Reachable
  rw [hsame.bitmapStart, hsame.journalStart, hsame.bitmapBlocks]
  exact h.reachable (hsame.enabled ▸ henabled)

theorem Ready.bitmap (h : Ready disk s) {i : Nat} (hi : i < s.bitmapBlocks.toNat)
    (henabled : s.card.cache.enabled = true) :
    s.superblock.bitmapStart + UInt32.ofNat i ≠ cacheInvalidBlock :=
  (h.reachable henabled).1 i hi

theorem Ready.journal (h : Ready disk s) {i : UInt32} (hi : i < journalBlocks)
    (henabled : s.card.cache.enabled = true) :
    s.superblock.journalStart + i ≠ cacheInvalidBlock := by
  have hi' : i.toNat < 4 := UInt32.lt_iff_toNat_lt.mp hi
  have hne := (h.reachable henabled).2 i.toNat hi'
  rwa [UInt32.ofNat_toNat] at hne

/-! ## reading and writing -/

theorem ready_readBlock (h : Ready disk s)
    (hb : s.card.cache.enabled = true → b ≠ cacheInvalidBlock) :
    Ready disk (s.readBlock b).2 ∧ SameVolume s (s.readBlock b).2 := by
  obtain ⟨hc, _, hlba, _, hon⟩ := coherent_readBlock h.coherent hb
  have hsame : SameVolume s (s.readBlock b).2 := ⟨hlba, hon, rfl, rfl, rfl⟩
  exact ⟨h.next hsame hc, hsame⟩

theorem ready_writeBlock (h : Ready disk s)
    (hb : s.card.cache.enabled = true → b ≠ cacheInvalidBlock) (block : Block) :
    Ready disk (s.writeBlock b block) ∧ SameVolume s (s.writeBlock b block) := by
  obtain ⟨hc, _, hlba, hon⟩ := coherent_writeBlock h.coherent hb block
  have hsame : SameVolume s (s.writeBlock b block) := ⟨hlba, hon, rfl, rfl, rfl⟩
  exact ⟨h.next hsame hc, hsame⟩

theorem ready_foldl {f : System → Nat → System} {l : List Nat} (h : Ready disk s)
    (hf : ∀ s₁, Ready disk s₁ → SameVolume s s₁ → ∀ i ∈ l,
      Ready disk (f s₁ i) ∧ SameVolume s₁ (f s₁ i)) :
    Ready disk (l.foldl f s) ∧ SameVolume s (l.foldl f s) := by
  induction l generalizing s with
  | nil => exact ⟨h, sameVolume_refl s⟩
  | cons i l ih =>
    obtain ⟨h₁, hsame₁⟩ := hf s h (sameVolume_refl s) i List.mem_cons_self
    obtain ⟨h₂, hsame₂⟩ := ih h₁ fun s₁ hs₁ hsame j hj =>
      hf s₁ hs₁ (hsame₁.trans hsame) j (List.mem_cons_of_mem i hj)
    exact ⟨h₂, hsame₁.trans hsame₂⟩

theorem ready_bitmapLoad (h : Ready disk s) :
    Ready disk s.bitmapLoad ∧ SameVolume s s.bitmapLoad := by
  refine ready_foldl h fun s₁ hs₁ hsame i hi => ?_
  have hi' : i < s₁.bitmapBlocks.toNat := hsame.bitmapBlocks ▸ List.mem_range.mp hi
  obtain ⟨h₂, hsame₂⟩ := ready_readBlock hs₁ (hs₁.bitmap hi')
  have hload (buf : Nat → UInt8) : SameVolume s₁ { (s₁.readBlock
      (s₁.superblock.bitmapStart + UInt32.ofNat i)).2 with bitmapBuf := buf } :=
    ⟨hsame₂.partitionLba, hsame₂.enabled, rfl, rfl, rfl⟩
  exact ⟨hs₁.next (hload _) h₂.coherent, hload _⟩

theorem ready_bitmapSave (h : Ready disk s) (hs : s.bitmapSave = some s') :
    Ready disk s' ∧ SameVolume s s' := by
  unfold System.bitmapSave at hs
  split_ifs at hs
  obtain rfl := Option.some.inj hs
  exact ready_foldl h fun s₁ hs₁ hsame i hi =>
    ready_writeBlock hs₁ (hs₁.bitmap (hsame.bitmapBlocks ▸ List.mem_range.mp hi)) _

/-! ## recovery -/

theorem Ready.same (h : Ready disk s) (s' : System) (hcard : s'.card = s.card)
    (hbitmap : s'.superblock.bitmapStart = s.superblock.bitmapStart)
    (hjournal : s'.superblock.journalStart = s.superblock.journalStart)
    (hblocks : s'.bitmapBlocks = s.bitmapBlocks) : Ready disk s' ∧ SameVolume s s' := by
  have hsame : SameVolume s s' :=
    ⟨by rw [hcard], by rw [hcard], hbitmap, hjournal, hblocks⟩
  exact ⟨h.next hsame (hcard ▸ h.coherent), hsame⟩

theorem ready_journalInit (h : Ready disk s) :
    Ready disk s.journalInit ∧ SameVolume s s.journalInit := by
  have hstart : s.card.cache.enabled = true → s.superblock.journalStart ≠ cacheInvalidBlock := by
    intro henabled
    have hne := h.journal (i := 0) (by decide) henabled
    rwa [UInt32.add_zero] at hne
  obtain ⟨h₁, hsame₁⟩ := ready_writeBlock h hstart
    (blockOf (JournalHeader.layout.encode JournalHeader.empty))
  unfold System.journalInit
  dsimp only
  generalize s.writeBlock s.superblock.journalStart
    (blockOf (JournalHeader.layout.encode JournalHeader.empty)) = s₁ at *
  obtain ⟨h₂, hsame₂⟩ := ready_foldl h₁ (l := List.range 3)
    (f := fun s i => s.writeBlock (s.superblock.journalStart + UInt32.ofNat (i + 1)) zeroBlock)
    fun s₂ hs₂ _ i hi => ready_writeBlock hs₂ (fun henabled => (hs₂.reachable henabled).2 (i + 1)
      (by have hlt := List.mem_range.mp hi; omega)) _
  obtain ⟨h₃, hsame₃⟩ := h₂.same { (List.range 3).foldl (fun s i =>
    s.writeBlock (s.superblock.journalStart + UInt32.ofNat (i + 1)) zeroBlock) s₁ with
      journal := ⟨JournalHeader.empty, 0, false, false⟩ } rfl rfl rfl rfl
  exact ⟨h₃, (hsame₁.trans hsame₂).trans hsame₃⟩

theorem bitmapSet_same {used : Bool} (h : Ready disk s) (hs : s.bitmapSet b used = some s') :
    Ready disk s' ∧ SameVolume s s' := by
  unfold System.bitmapSet at hs
  dsimp only at hs
  split_ifs at hs
  · obtain rfl := Option.some.inj hs
    exact ⟨h, sameVolume_refl s⟩
  · obtain rfl := Option.some.inj hs
    exact h.same _ rfl rfl rfl rfl

theorem ready_rollbackEntry {entry : JournalEntry} {count count' : UInt32} (h : Ready disk s)
    (hs : s.rollbackEntry entry count = some (s', count')) : Ready disk s' ∧ SameVolume s s' := by
  unfold System.rollbackEntry at hs
  split_ifs at hs
  · obtain ⟨s₁, hset, heq⟩ := Option.map_eq_some_iff.mp hs
    obtain ⟨h₁, hsame₁⟩ := bitmapSet_same h hset
    obtain ⟨rfl, _⟩ := Prod.mk.inj heq
    obtain ⟨h₂, hsame₂⟩ := h₁.same { s₁ with
      superblock := { s₁.superblock with freeBlocks := s₁.superblock.freeBlocks + 1 } }
      rfl rfl rfl rfl
    exact ⟨h₂, hsame₁.trans hsame₂⟩
  · obtain ⟨s₁, hset, heq⟩ := Option.map_eq_some_iff.mp hs
    obtain ⟨h₁, hsame₁⟩ := bitmapSet_same h hset
    obtain ⟨rfl, _⟩ := Prod.mk.inj heq
    obtain ⟨h₂, hsame₂⟩ := h₁.same { s₁ with
      superblock := { s₁.superblock with freeBlocks := s₁.superblock.freeBlocks - 1 } }
      rfl rfl rfl rfl
    exact ⟨h₂, hsame₁.trans hsame₂⟩
  · obtain ⟨rfl, _⟩ := Prod.mk.inj (Option.some.inj hs)
    exact ⟨h, sameVolume_refl s⟩

theorem ready_rollback {s' : System} {count' : UInt32} (fuel : Nat) :
    ∀ (s : System) (buf : Block) (pos count : UInt32), Ready disk s →
      System.rollback fuel s buf pos count = some (s', count') →
        Ready disk s' ∧ SameVolume s s' := by
  induction fuel with
  | zero => exact fun _ _ _ _ _ hs => nomatch hs
  | succ fuel ih =>
    intro s buf pos count h hs
    rw [System.rollback] at hs
    split_ifs at hs with hpos
    · dsimp only at hs
      split_ifs at hs with hidx hentry
      · obtain ⟨rfl, _⟩ := Prod.mk.inj (Option.some.inj hs)
        exact ⟨h, sameVolume_refl s⟩
      · obtain ⟨h₁, hsame₁⟩ := ready_readBlock h (h.journal (UInt32.not_le.mp hidx))
        obtain ⟨⟨s₂, count₂⟩, hnext, hrest⟩ := Option.bind_eq_some_iff.mp hs
        obtain ⟨h₂, hsame₂⟩ := ready_rollbackEntry h₁ hnext
        obtain ⟨h₃, hsame₃⟩ := ih s₂ _ _ _ h₂ hrest
        exact ⟨h₃, (hsame₁.trans hsame₂).trans hsame₃⟩
      · obtain ⟨h₁, hsame₁⟩ := ready_readBlock h (h.journal (UInt32.not_le.mp hidx))
        obtain ⟨h₃, hsame₃⟩ := ih _ _ _ _ h₁ hs
        exact ⟨h₃, hsame₁.trans hsame₃⟩
    · obtain ⟨rfl, _⟩ := Prod.mk.inj (Option.some.inj hs)
      exact ⟨h, sameVolume_refl s⟩

theorem ready_journalRecover {fuel : Nat} (h : Ready disk s)
    (hs : s.journalRecover fuel = some s') : Ready disk s' ∧ SameVolume s s' := by
  have hstart {s₁ : System} (h₁ : Ready disk s₁) (henabled : s₁.card.cache.enabled = true) :
      s₁.superblock.journalStart ≠ cacheInvalidBlock := by
    have hne := h₁.journal (i := 0) (by decide) henabled
    rwa [UInt32.add_zero] at hne
  obtain ⟨h₁, hsame₁⟩ := ready_readBlock h (hstart h)
  unfold System.journalRecover at hs
  dsimp only at hs
  generalize (s.readBlock s.superblock.journalStart).1 = buf at hs
  generalize (s.readBlock s.superblock.journalStart).2 = s₁ at *
  split_ifs at hs with hmagic hcrc hactive
  · obtain rfl := Option.some.inj hs
    obtain ⟨h₂, hsame₂⟩ := ready_journalInit h₁
    exact ⟨h₂, hsame₁.trans hsame₂⟩
  · obtain rfl := Option.some.inj hs
    obtain ⟨h₂, hsame₂⟩ := ready_journalInit h₁
    exact ⟨h₂, hsame₁.trans hsame₂⟩
  · obtain ⟨h₂, hsame₂⟩ := h₁.same { s₁ with journal := { s₁.journal with
      header := headerOf buf
      txActive := false
      dirty := false } } rfl rfl rfl rfl
    obtain ⟨⟨s₃, count⟩, hloop, hs⟩ := Option.bind_eq_some_iff.mp hs
    obtain ⟨h₃, hsame₃⟩ := ready_rollback fuel _ _ _ _ h₂ hloop
    obtain ⟨s₄, hsave, heq⟩ := Option.map_eq_some_iff.mp hs
    have hsaved : Ready disk s₄ ∧ SameVolume s₃ s₄ := by
      split_ifs at hsave
      · exact ready_bitmapSave h₃ hsave
      · obtain rfl := Option.some.inj hsave
        exact ⟨h₃, sameVolume_refl s₃⟩
    obtain ⟨h₄, hsame₄⟩ := hsaved
    obtain ⟨h₅, hsame₅⟩ := h₄.same { s₄ with journal := { s₄.journal with
      header := JournalHeader.sealed { s₄.journal.header with txActive := 0 } } } rfl rfl rfl rfl
    obtain ⟨h₆, hsame₆⟩ := ready_writeBlock h₅ (hstart h₅) (blockOf (JournalHeader.layout.encode
      (JournalHeader.sealed { s₄.journal.header with txActive := 0 })))
    subst heq
    exact ⟨h₆, ((((hsame₁.trans hsame₂).trans hsame₃).trans hsame₄).trans hsame₅).trans hsame₆⟩
  · obtain rfl := Option.some.inj hs
    obtain ⟨h₂, hsame₂⟩ := h₁.same { s₁ with journal := { s₁.journal with
      header := headerOf buf
      txActive := false
      dirty := false } } rfl rfl rfl rfl
    exact ⟨h₂, hsame₁.trans hsame₂⟩

/-! ## calls -/

/-- the call does not write another content past a cached block, does not move the cached blocks to
a partition with other contents, and does not take a block for an empty entry -/
def System.Clean (s : System) : SystemCall → Prop
  | .readBlock blockNum => s.card.cache.enabled = true → blockNum ≠ cacheInvalidBlock
  | .writeBlock blockNum _ => s.card.cache.enabled = true → blockNum ≠ cacheInvalidBlock
  | .cacheFlush => True
  | .unmount => s.mounted = true → ∀ i < s.bitmapBlocks.toNat,
      s.superblock.bitmapStart + UInt32.ofNat i ≠ 0 ∧
        s.superblock.bitmapStart + UInt32.ofNat i ≠ cacheInvalidBlock
  | .format partitionLba totalBlocks inodeCount now =>
      ∀ w ∈ formatWrites totalBlocks inodeCount now, ∀ i block,
        s.card.slots i = some (partitionLba + w.1, block) → block = w.2
  | .mount partitionLba _ _ => validSuperblock (s.card.disk partitionLba) = true →
      s.card.cache.enabled = true →
        (∀ i, (s.card.cache.entries i).blockNum ≠ cacheInvalidBlock →
          s.card.disk (partitionLba + (s.card.cache.entries i).blockNum) =
            (s.card.cache.entries i).data) ∧
        let sb := Superblock.layout.decode (bytesOf (s.card.disk partitionLba))
        mountBitmapBlocks sb ≤ maxBitmapBlocks → Reachable sb (mountBitmapBlocks sb)

variable {partitionLba : UInt32} {r : Except FsErr Unit}

theorem coherent_format {totalBlocks inodeCount : UInt32} {now : UInt64} (h : Coherent disk s.card)
    (hclean : s.Clean (.format partitionLba totalBlocks inodeCount now)) :
    Coherent disk (s.format partitionLba totalBlocks inodeCount now).card := by
  unfold System.Clean at hclean
  dsimp only at hclean
  unfold System.format
  generalize System.formatWrites totalBlocks inodeCount now = writes at *
  induction writes generalizing s with
  | nil => exact h
  | cons w writes ih =>
    have hwrite := coherent_sdWrite h (hclean w List.mem_cons_self)
    exact ih hwrite fun w' hw' => hclean w' (List.mem_cons_of_mem w hw')

theorem coherent_mount {now : UInt64} {fuel : Nat} (h : Coherent disk s.card)
    (hclean : s.Clean (.mount partitionLba now fuel))
    (hs : s.mount partitionLba now fuel = some (r, s')) : Coherent disk s'.card := by
  unfold System.mount at hs
  dsimp only at hs
  split_ifs at hs with hvalid hfew
  · obtain ⟨_, rfl⟩ := Prod.mk.inj (Option.some.inj hs)
    exact h
  · obtain ⟨_, rfl⟩ := Prod.mk.inj (Option.some.inj hs)
    exact coherent_partition h fun henabled => (hclean (by simpa using hvalid) henabled).1
  · have hmoves := hclean (by simpa using hvalid)
    obtain ⟨s₂, hrecover, heq⟩ := Option.map_eq_some_iff.mp hs
    generalize hs₁ : ({ s with
      card := { s.card with partitionLba := partitionLba }
      superblock := Superblock.layout.decode (bytesOf (s.card.disk partitionLba))
      bitmapBlocks := mountBitmapBlocks
        (Superblock.layout.decode (bytesOf (s.card.disk partitionLba))) } : System) = s₁
        at hrecover
    have hready : Ready disk s₁ := by
      rw [← hs₁]
      exact ⟨coherent_partition h fun henabled => (hmoves henabled).1,
        fun henabled => (hmoves henabled).2 (UInt32.not_lt.mp hfew)⟩
    have hrecovered := (ready_journalRecover (ready_bitmapLoad hready).1 hrecover).1
    obtain ⟨_, rfl⟩ := Prod.mk.inj heq
    exact coherent_sdWrite_init hrecovered.coherent partitionLba _

theorem coherent_bitmapSave (h : Coherent disk s.card) (hempty : ∀ i, s.card.slots i = none)
    (hb : s.card.cache.enabled = true → ∀ i < s.bitmapBlocks.toNat,
      s.superblock.bitmapStart + UInt32.ofNat i ≠ cacheInvalidBlock)
    (hs : s.bitmapSave = some s') :
    Coherent disk s'.card ∧ s'.card.partitionLba = s.card.partitionLba ∧
      ∀ l, s'.card.Cached l → ∃ i < s.bitmapBlocks.toNat,
        l = s.card.lba (s.superblock.bitmapStart + UInt32.ofNat i) := by
  unfold System.bitmapSave at hs
  split_ifs at hs
  obtain rfl := Option.some.inj hs
  have hloop (l : List Nat) : (∀ i ∈ l, i < s.bitmapBlocks.toNat) → ∀ s₁ : System,
      Coherent disk s₁.card → SameVolume s s₁ →
      (∀ l, s₁.card.Cached l → ∃ i < s.bitmapBlocks.toNat,
        l = s.card.lba (s.superblock.bitmapStart + UInt32.ofNat i)) →
      Coherent disk (l.foldl (fun s i => s.writeBlock
          (s.superblock.bitmapStart + UInt32.ofNat i) (s.bitmapBlock i)) s₁).card ∧
        (l.foldl (fun s i => s.writeBlock (s.superblock.bitmapStart + UInt32.ofNat i)
          (s.bitmapBlock i)) s₁).card.partitionLba = s.card.partitionLba ∧
        ∀ l', (l.foldl (fun s i => s.writeBlock (s.superblock.bitmapStart + UInt32.ofNat i)
          (s.bitmapBlock i)) s₁).card.Cached l' → ∃ i < s.bitmapBlocks.toNat,
            l' = s.card.lba (s.superblock.bitmapStart + UInt32.ofNat i) := by
    induction l with
    | nil => exact fun _ s₁ h₁ hsame hcached => ⟨h₁, hsame.partitionLba, hcached⟩
    | cons i l ih =>
      intro hl s₁ h₁ hsame hcached
      have hi := hl i List.mem_cons_self
      have hi' : s₁.card.cache.enabled = true →
          s₁.superblock.bitmapStart + UInt32.ofNat i ≠ cacheInvalidBlock := by
        rw [hsame.enabled, hsame.bitmapStart]
        exact fun henabled => hb henabled i hi
      obtain ⟨h₂, _, hlba, hon⟩ := coherent_writeBlock h₁ hi' (s₁.bitmapBlock i)
      refine ih (fun j hj => hl j (List.mem_cons_of_mem i hj)) _ h₂
        (hsame.trans ⟨hlba, hon, rfl, rfl, rfl⟩) fun l' hl' => ?_
      rcases cached_writeBlock h₁ hi' (s₁.bitmapBlock i) hl' with hold | rfl
      · exact hcached l' hold
      · refine ⟨i, hi, ?_⟩
        unfold Card.lba
        rw [hsame.partitionLba, hsame.bitmapStart]
  refine hloop _ (fun i hi => List.mem_range.mp hi) s h (sameVolume_refl s) fun l hl => ?_
  obtain ⟨i, block, hi⟩ := hl
  rw [hempty] at hi
  cases hi

theorem sync_card (hmounted : s.mounted = true) (hs : s.sync = some (r, s')) : ∃ s₁ block,
      System.bitmapSave { s with card := s.card.cacheFlush } = some s₁ ∧
        s'.card = s₁.card.sdWrite s₁.card.partitionLba block := by
  unfold System.sync at hs
  rw [if_neg (by rw [hmounted]; exact Bool.false_ne_true)] at hs
  obtain ⟨s₁, hsave, heq⟩ := Option.map_eq_some_iff.mp hs
  obtain ⟨_, rfl⟩ := Prod.mk.inj heq
  exact ⟨s₁, _, hsave, rfl⟩

theorem coherent_unmount (h : Coherent disk s.card) (hclean : s.Clean .unmount)
    (hs : s.unmount = some (r, s')) : Coherent disk s'.card := by
  unfold System.unmount at hs
  split_ifs at hs with hmounted
  · obtain ⟨_, rfl⟩ := Prod.mk.inj (Option.some.inj hs)
    exact h
  · have hon : s.mounted = true := by simpa using hmounted
    obtain ⟨h₁, hempty, _, _⟩ := coherent_cacheInvalidate h
    obtain ⟨h₂, hsame₂, hlba₂, _⟩ := coherent_cacheFlush h₁
    have hempty₂ (i : Fin cacheSize) : s.card.cacheInvalidate.cacheFlush.slots i = none :=
      (congrFun (slots_congr hlba₂ hsame₂) i).trans (hempty i)
    obtain ⟨⟨r', s₃⟩, hsync, heq⟩ := Option.map_eq_some_iff.mp hs
    obtain ⟨_, rfl⟩ := Prod.mk.inj heq
    obtain ⟨s₄, sector, hsave, hcard⟩ :=
      sync_card (s := { s with card := s.card.cacheInvalidate }) hon hsync
    generalize s.card.cacheInvalidate.cacheFlush = card at hsave h₂ hempty₂
    obtain ⟨h₄, hlba₄, hcached⟩ := coherent_bitmapSave (s := { s with card := card }) h₂ hempty₂
      (fun _ i hi => (hclean hon i hi).2) hsave
    have hsuper : ¬ s₄.card.Cached s₄.card.partitionLba := by
      intro hl
      obtain ⟨i, hi, hlba⟩ := hcached _ hl
      unfold Card.lba at hlba
      rw [hlba₄, UInt32.left_eq_add] at hlba
      exact (hclean hon i hi).1 hlba
    rw [hcard]
    exact coherent_sdWrite h₄ fun i block hi => absurd ⟨i, block, hi⟩ hsuper

/-- **One call.** A clean call keeps the cache current. -/
theorem coherent_call {c : SystemCall} (h : Coherent disk s.card) (hclean : s.Clean c)
    (hs : s.call c = some s') : Coherent disk s'.card := by
  cases c with
  | readBlock blockNum =>
    obtain rfl := Option.some.inj hs
    exact (coherent_readBlock h hclean).1
  | writeBlock blockNum block =>
    obtain rfl := Option.some.inj hs
    exact (coherent_writeBlock h hclean block).1
  | cacheFlush =>
    obtain rfl := Option.some.inj hs
    exact (coherent_cacheFlush h).1
  | unmount =>
    obtain ⟨⟨r, s₁⟩, hcall, heq⟩ := Option.map_eq_some_iff.mp hs
    obtain rfl : s₁ = s' := heq
    exact coherent_unmount h hclean hcall
  | format partitionLba totalBlocks inodeCount now =>
    obtain rfl := Option.some.inj hs
    exact coherent_format h hclean
  | mount partitionLba now fuel =>
    have hmap : (s.mount partitionLba now fuel).map Prod.snd = some s' := hs
    obtain ⟨⟨r, s₁⟩, hcall, heq⟩ := Option.map_eq_some_iff.mp hmap
    obtain rfl : s₁ = s' := heq
    exact coherent_mount h hclean hcall

/-! ## runs -/

/-- the device from the start of the system; `none` once a call leaves a buffer or does not end -/
def device (disk : UInt32 → Block) : Machine (Option System) SystemCall Unit where
  start := some (System.boot disk)
  step s c := (s.bind (·.call c), [])

theorem device_next (o : Option System) (c : SystemCall) :
    (device disk).next o c = o.bind (·.call c) := rfl

/-- what was read so far is what was last written to the block, from the content `disk` at the
start on, nothing else was written back, and no two entries of the cache have the same block -/
structure Transparent (disk : UInt32 → Block) (s : System) : Prop where
  current : Current disk s.card.log
  once : s.card.cache.enabled = true → ∀ i j,
    (s.card.cache.entries i).blockNum = (s.card.cache.entries j).blockNum →
      (s.card.cache.entries i).blockNum ≠ cacheInvalidBlock → i = j

theorem coherent_boot (disk : UInt32 → Block) : Coherent disk (System.boot disk).card :=
  ⟨mirrors_empty (fun _ => rfl) disk, fun _ _ => rfl, rfl, trivial⟩

theorem transparent_of_coherent (h : Coherent disk s.card) : Transparent disk s := by
  refine ⟨h.current, fun henabled i j hij hi => ?_⟩
  refine h.mirrors.once i j (s.card.lba (s.card.cache.entries i).blockNum) _ _
    (slots_eq_some.mpr ⟨⟨henabled, hi⟩, rfl, rfl⟩)
    (slots_eq_some.mpr ⟨⟨henabled, hij ▸ hi⟩, ?_, rfl⟩)
  rw [hij]

theorem coherent_of_runs (calls : List SystemCall)
    (hcalls : EveryStep (fun pre c => ∀ s, (device disk).run pre = some s → s.Clean c) calls) :
    ∀ s, (device disk).run calls = some s → Coherent disk s.card := by
  refine history_induction
    (I := fun calls => ∀ s, (device disk).run calls = some s → Coherent disk s.card) ?_ ?_
    calls hcalls
  · intro s hs
    obtain rfl := Option.some.inj hs
    exact coherent_boot disk
  · intro calls c ih hclean s hs
    rw [Machine.run_concat, device_next] at hs
    obtain ⟨s₁, hrun, hcall⟩ := Option.bind_eq_some_iff.mp hs
    exact coherent_call (ih s₁ hrun) (hclean s₁ hrun) hcall

/-- **Main.** In every run of clean calls every `read_block` returns what was last written to the
block of the device, no block is in the cache twice, and only current contents are written back. -/
theorem transparent_of_runs (calls : List SystemCall)
    (hcalls : EveryStep (fun pre c => ∀ s, (device disk).run pre = some s → s.Clean c) calls) :
    ∀ s, (device disk).run calls = some s → Transparent disk s :=
  fun s hs => transparent_of_coherent (coherent_of_runs calls hcalls s hs)

/-! ## a small device -/

def zeroDisk : UInt32 → Block := fun _ => zeroBlock

def onesBlock : Block := fun _ => 1

def writeRead : List SystemCall :=
  [.format 0 16 8 0, .mount 0 0 1, .writeBlock 15 onesBlock, .readBlock 15, .cacheFlush, .unmount]

theorem eq_of_run {α : Type} {calls : List SystemCall} {f : System → α} {a : α}
    (h : ((device disk).run calls).map f = some a) (hs : (device disk).run calls = some s) :
    f s = a := by
  rw [hs] at h
  exact Option.some.inj h

theorem transparent_of_runs_writeRead :
    ∃ s, (device zeroDisk).run writeRead = some s ∧ Transparent zeroDisk s := by
  have hrun : ((device zeroDisk).run writeRead).isSome = true := by decide +kernel
  obtain ⟨s, hs⟩ := Option.isSome_iff_exists.mp hrun
  refine ⟨s, hs, transparent_of_runs writeRead ?_ s hs⟩
  unfold writeRead
  rw [everyStep_cons, everyStep_cons, everyStep_cons, everyStep_cons, everyStep_cons,
    everyStep_cons]
  refine ⟨fun s hs w _ i block hi => ?_, fun s hs _ henabled => ?_, fun s hs _ => ?_,
    fun s hs _ => ?_, fun s hs => trivial, fun s hs _ i hi => ?_, everyStep_nil _⟩
  · obtain rfl := Option.some.inj hs
    cases hi
  · have hoff := eq_of_run (f := fun s => s.card.cache.enabled) (a := false) (by decide +kernel) hs
    rw [hoff] at henabled
    cases henabled
  · decide
  · decide
  · have htables := eq_of_run (f := fun s => (s.bitmapBlocks, s.superblock.bitmapStart))
      (a := (1, 2)) (by decide +kernel) hs
    obtain ⟨hblocks, hstart⟩ := Prod.mk.inj htables
    rw [hblocks] at hi
    rw [hstart, Nat.lt_one_iff.mp hi]
    decide

/-- a partition is formatted again, after one of its inode blocks came into the cache -/
def formatAgain : List SystemCall :=
  [.format 0 16 8 0, .mount 0 0 1, .writeBlock 1 onesBlock, .format 0 16 8 0]

/-- the block is zero on the card, and `read_block` returns the old content -/
theorem stale_read :
    ∃ s, (device zeroDisk).run formatAgain = some s ∧
      contents zeroDisk s.card.log 1 = zeroBlock ∧ (s.readBlock 1).1 = onesBlock ∧
      (device zeroDisk).run (formatAgain ++ [.readBlock 1]) = some (s.readBlock 1).2 ∧
      ¬ Transparent zeroDisk (s.readBlock 1).2 := by
  have hrun : ((device zeroDisk).run formatAgain).map
      (fun s => (s.card.lba 1, contents zeroDisk s.card.log 1, (s.readBlock 1).1)) =
        some (1, zeroBlock, onesBlock) := by decide +kernel
  obtain ⟨s, hs, heq⟩ := Option.map_eq_some_iff.mp hrun
  obtain ⟨hlba, heq⟩ := Prod.mk.inj heq
  obtain ⟨hzero, hones⟩ := Prod.mk.inj heq
  have hread : (device zeroDisk).run (formatAgain ++ [.readBlock 1]) = some (s.readBlock 1).2 := by
    rw [Machine.run_concat, device_next, hs]
    rfl
  refine ⟨s, hs, hzero, hones, hread, fun h => ?_⟩
  have hcurrent := current_readBlock h.current
  rw [hlba, hzero] at hcurrent
  have hbyte : (0 : UInt8) = 1 := congrFun (hcurrent.trans hones) 0
  cases hbyte

end Fs
end EkKor
