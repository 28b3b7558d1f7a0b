import EkKor.Gateway.Model

/-!
# Reads of a stream (`ekk_stream_index_find_stream`, `ekk_gateway_read_stream`)

* `foldl_streamFound`, `findStream_eq`   what the scan finds: the first match, and how many;
* `covers_iff`        when the places from the first match on, as many as there are matches, go up to
                      the last one;
* `Apart`, `found_iff_apart`   so some read of a stream gets to the last entry exactly when the last
                      entries are of the stream and come after its other ones;
* `mem_readEntries`   an entry that can be read is among those that are read.
-/

namespace EkKor
namespace Gateway
open Gossip (EventV2)
open List

variable {entries : List IndexEntry} {id : ModuleId}

/-! ## the scan -/

def matchesAt (entries : List IndexEntry) (id : ModuleId) (fromSeq : UInt32) (i : Nat) : Bool :=
  (entries[i]?).any fun entry => decide (entry.streamId = id ∧ entry.streamSeq.toUInt32 ≥ fromSeq)

theorem matchesAt_iff (fromSeq : UInt32) {i : Nat} {entry : IndexEntry}
    (h : entries[i]? = some entry) : matchesAt entries id fromSeq i = true ↔
      entry.streamId = id ∧ fromSeq ≤ entry.streamSeq.toUInt32 := by
  unfold matchesAt
  rw [h, Option.any_some, decide_eq_true_iff]

theorem foldl_streamFound (entries : List IndexEntry) (id : ModuleId) (fromSeq : UInt32)
    (l : List Nat) (found : Option Nat × Nat) :
    l.foldl (streamFound entries id fromSeq) found =
      (found.1.or (l.find? (matchesAt entries id fromSeq)),
        found.2 + l.countP (matchesAt entries id fromSeq)) := by
  induction l generalizing found with
  | nil =>
    rw [find?_nil, Option.or_none]
    rfl
  | cons i l ih =>
    rw [foldl_cons, ih, find?_cons, countP_cons]
    unfold streamFound
    cases hentry : entries[i]? with
    | none =>
      have hno : matchesAt entries id fromSeq i = false := by
        unfold matchesAt
        rw [hentry]
        rfl
      rw [hno]
      rfl
    | some entry =>
      dsimp only
      have hiff := @matchesAt_iff _ id fromSeq _ _ hentry
      by_cases hmatch : matchesAt entries id fromSeq i = true
      · rw [if_pos (hiff.mp hmatch), hmatch, if_pos rfl]
        cases found.1 with
        | none => exact Prod.ext rfl (by dsimp only; omega)
        | some first => exact Prod.ext rfl (by dsimp only; omega)
      · rw [if_neg (fun h => hmatch (hiff.mpr h)), if_neg hmatch, Bool.eq_false_iff.mpr hmatch]
        rfl

def scanned (st : StreamState) (entries : List IndexEntry) : List Nat :=
  range' st.firstIndex.toNat
    (min (st.lastIndex.toNat + 1) entries.length - st.firstIndex.toNat)

theorem findStream_eq {index : StreamIndex} {st : StreamState} (fromSeq : UInt32)
    (h : Keyed.lookup StreamState.moduleId index.streams.rows id = some st)
    (hfirst : st.firstIndex ≠ 0xFFFFFFFF) :
    findStream index id fromSeq =
      match (scanned st index.entries).find? (matchesAt index.entries id fromSeq) with
      | none => .error .notFound
      | some first => .ok (first,
          (scanned st index.entries).countP (matchesAt index.entries id fromSeq)) := by
  unfold findStream
  rw [h]
  dsimp only
  rw [if_neg hfirst, foldl_streamFound, Option.none_or, Nat.zero_add]
  unfold scanned
  cases (range' st.firstIndex.toNat
    (min (st.lastIndex.toNat + 1) index.entries.length - st.firstIndex.toNat)).find?
      (matchesAt index.entries id fromSeq) with
  | none => rfl
  | some first => rfl

/-! ## the run of places -/

theorem covers_iff {f n : Nat} (m : Nat → Bool) :
    (∃ p, (range' f (n + 1 - f)).find? m = some p ∧
      n < p + (range' f (n + 1 - f)).countP m) ↔
    ∃ p, f ≤ p ∧ p ≤ n ∧ (∀ j, p ≤ j → j ≤ n → m j = true) ∧ ∀ i, f ≤ i → i < p → m i = false := by
  have hcount {p : Nat} (hf : f ≤ p) (hp : p ≤ n) (hbefore : ∀ i, f ≤ i → i < p → m i = false) :
      (range' f (n + 1 - f)).countP m = (range' p (n + 1 - p)).countP m := by
    have hsplit : range' f (n + 1 - f) = range' f (p - f) ++ range' p (n + 1 - p) := by
      have happend := range'_append_1 (s := f) (m := p - f) (n := n + 1 - p)
      rw [Nat.add_sub_of_le hf, show p - f + (n + 1 - p) = n + 1 - f by omega] at happend
      exact happend.symm
    have hzero : (range' f (p - f)).countP m = 0 := by
      refine countP_eq_zero.mpr fun i hi => ?_
      obtain ⟨h1, h2⟩ := mem_range'_1.mp hi
      rw [hbefore i h1 (by omega)]
      exact Bool.false_ne_true
    rw [hsplit, countP_append, hzero, Nat.zero_add]
  constructor
  · rintro ⟨p, hfind, hlast⟩
    obtain ⟨-, hmem, hbefore⟩ := find?_range'_eq_some.mp hfind
    obtain ⟨hf, hp⟩ := mem_range'_1.mp hmem
    have hno (i : Nat) (h1 : f ≤ i) (h2 : i < p) : m i = false := by
      have hneg := hbefore i h1 h2
      rwa [Bool.not_eq_true'] at hneg
    rw [hcount hf (by omega) hno] at hlast
    have hall : (range' p (n + 1 - p)).countP m = (range' p (n + 1 - p)).length := by
      have hle := countP_le_length (p := m) (l := range' p (n + 1 - p))
      rw [length_range'] at hle ⊢
      omega
    refine ⟨p, hf, by omega, fun j h1 h2 => ?_, hno⟩
    exact countP_eq_length.mp hall j (mem_range'_1.mpr ⟨h1, by omega⟩)
  · rintro ⟨p, hf, hp, hall, hbefore⟩
    refine ⟨p, find?_range'_eq_some.mpr ⟨hall p (Nat.le_refl p) hp,
      mem_range'_1.mpr ⟨hf, by omega⟩, fun i h1 h2 => ?_⟩, ?_⟩
    · rw [hbefore i h1 h2]
      rfl
    · have hfull : (range' p (n + 1 - p)).countP m = (range' p (n + 1 - p)).length :=
        countP_eq_length.mpr fun j hj => by
          obtain ⟨h1, h2⟩ := mem_range'_1.mp hj
          exact hall j h1 (by omega)
      rw [hcount hf hp hbefore, hfull, length_range']
      omega

def IndexEntry.key (entry : IndexEntry) : ModuleId × UInt16 := (entry.streamId, entry.streamSeq)

/-- from some place on, all entries are of the stream, and its entries before them (from place `f`
on) have smaller sequences -/
def Apart (keys : List (ModuleId × UInt16)) (f : Nat) (id : ModuleId) : Prop :=
  ∃ p, f ≤ p ∧ p < keys.length ∧ (∀ k ∈ keys.drop p, k.1 = id) ∧
    ∀ i k, f ≤ i → i < p → keys[i]? = some k → k.1 = id → ∀ k' ∈ keys.drop p, k.2 < k'.2

theorem apart_iff (entries : List IndexEntry) (f : Nat) (id : ModuleId) :
    Apart (entries.map IndexEntry.key) f id ↔
      ∃ p, f ≤ p ∧ p < entries.length ∧ (∀ entry ∈ entries.drop p, entry.streamId = id) ∧
        ∀ i entry, f ≤ i → i < p → entries[i]? = some entry → entry.streamId = id →
          ∀ entry' ∈ entries.drop p, entry.streamSeq < entry'.streamSeq := by
  refine exists_congr fun p => ?_
  rw [length_map, ← map_drop]
  simp only [forall_mem_map, getElem?_map, Option.map_eq_some_iff]
  refine and_congr_right fun _ => and_congr_right fun _ => and_congr_right fun _ => ?_
  constructor
  · intro h i entry h1 h2 hentry hid entry' h'
    exact h i _ h1 h2 ⟨entry, hentry, rfl⟩ hid entry' h'
  · rintro h i k h1 h2 ⟨entry, hentry, rfl⟩ hid entry' h'
    exact h i entry h1 h2 hentry hid entry' h'

theorem seq_le_iff (a b : UInt16) : a.toUInt32 ≤ b.toUInt32 ↔ a ≤ b := by
  rw [UInt32.le_iff_toNat_le, UInt16.le_iff_toNat_le, UInt16.toNat_toUInt32, UInt16.toNat_toUInt32]

theorem exists_least {l : List IndexEntry} (h : l ≠ []) :
    ∃ entry ∈ l, ∀ entry' ∈ l, entry.streamSeq ≤ entry'.streamSeq := by
  induction l with
  | nil => exact absurd rfl h
  | cons a l ih =>
    by_cases hl : l = []
    · refine ⟨a, mem_cons_self, fun e he => ?_⟩
      rw [hl] at he
      rw [mem_singleton.mp he]
      exact UInt16.le_refl _
    · obtain ⟨e, he, hleast⟩ := ih hl
      by_cases hle : a.streamSeq ≤ e.streamSeq
      · refine ⟨a, mem_cons_self, fun e' he' => ?_⟩
        rcases mem_cons.mp he' with rfl | he'
        · exact UInt16.le_refl _
        · exact UInt16.le_trans hle (hleast e' he')
      · refine ⟨e, mem_cons_of_mem a he, fun e' he' => ?_⟩
        rcases mem_cons.mp he' with rfl | he'
        · exact UInt16.le_of_lt (UInt16.not_le.mp hle)
        · exact hleast e' he'

theorem mem_drop_iff {p : Nat} {entry : IndexEntry} :
    entry ∈ entries.drop p ↔ ∃ j, p ≤ j ∧ entries[j]? = some entry := by
  rw [mem_iff_getElem?]
  constructor
  · rintro ⟨j, hj⟩
    rw [getElem?_drop] at hj
    exact ⟨p + j, Nat.le_add_right p j, hj⟩
  · rintro ⟨j, hp, hj⟩
    refine ⟨j - p, ?_⟩
    rw [getElem?_drop, Nat.add_sub_of_le hp]
    exact hj

theorem found_iff_apart {f n : Nat} (hlen : entries.length = n + 1) :
    (∃ fromSeq p, (range' f (n + 1 - f)).find? (matchesAt entries id fromSeq) = some p ∧
      n < p + (range' f (n + 1 - f)).countP (matchesAt entries id fromSeq)) ↔
    Apart (entries.map IndexEntry.key) f id := by
  rw [apart_iff]
  simp only [covers_iff]
  have hplace {j : Nat} {entry : IndexEntry} (hj : entries[j]? = some entry) : j ≤ n := by
    have hlt := (List.getElem?_eq_some_iff.mp hj).1
    omega
  constructor
  · rintro ⟨fromSeq, p, hf, hp, hall, hbefore⟩
    have hin {entry : IndexEntry} (h : entry ∈ entries.drop p) :
        entry.streamId = id ∧ fromSeq ≤ entry.streamSeq.toUInt32 := by
      obtain ⟨j, hj, hentry⟩ := mem_drop_iff.mp h
      exact (matchesAt_iff fromSeq hentry).mp (hall j hj (hplace hentry))
    refine ⟨p, hf, by omega, fun entry h => (hin h).1, fun i entry h1 h2 hentry hid entry' h' => ?_⟩
    have hno : ¬ fromSeq ≤ entry.streamSeq.toUInt32 := fun hle => by
      have hmatch := (matchesAt_iff fromSeq hentry).mpr ⟨hid, hle⟩
      rw [hbefore i h1 h2] at hmatch
      cases hmatch
    refine UInt16.not_le.mp fun hle => hno ?_
    exact UInt32.le_trans (hin h').2 ((seq_le_iff _ _).mpr hle)
  · rintro ⟨p, hf, hp, hall, hbefore⟩
    have hne : entries.drop p ≠ [] := fun h => by
      have hnil := congrArg List.length h
      rw [length_drop, length_nil] at hnil
      omega
    obtain ⟨least, hleast, hle⟩ := exists_least hne
    refine ⟨least.streamSeq.toUInt32, p, hf, by omega, fun j h1 h2 => ?_, fun i h1 h2 => ?_⟩
    · have hj : j < entries.length := by omega
      have hentry : entries[j]? = some entries[j] := getElem?_eq_getElem hj
      have hmem := mem_drop_iff.mpr ⟨j, h1, hentry⟩
      exact (matchesAt_iff _ hentry).mpr ⟨hall _ hmem, (seq_le_iff _ _).mpr (hle _ hmem)⟩
    · have hi : i < entries.length := by omega
      have hentry : entries[i]? = some entries[i] := getElem?_eq_getElem hi
      refine Bool.eq_false_iff.mpr fun hmatch => ?_
      obtain ⟨hid, hfrom⟩ := (matchesAt_iff _ hentry).mp hmatch
      have hlt := hbefore i _ h1 h2 hentry hid least hleast
      exact UInt16.not_le.mpr hlt ((seq_le_iff _ _).mp hfrom)

/-! ## reading -/

theorem mem_readEntries {idx : IndexEntry} {e : FlashEntry} {flash : Flash} {base : UInt32}
    (h : ∀ s : Store, s.flash = flash → s.log.baseAddress = base →
      flashLogRead s idx.flashOffset = (.ok e, s)) (l : List IndexEntry) (hmem : idx ∈ l)
    (read : List EventV2) {s : Store} (hflash : s.flash = flash) (hbase : s.log.baseAddress = base) :
    entryEvent e ∈ (l.foldl readEntry (read, s)).1 := by
  have hkeep (l : List IndexEntry) (read : List EventV2) (s : Store) (event : EventV2)
      (hin : event ∈ read) : event ∈ (l.foldl readEntry (read, s)).1 := by
    induction l generalizing read s with
    | nil => exact hin
    | cons idx l ih =>
      rw [foldl_cons]
      unfold readEntry
      cases flashLogRead s idx.flashOffset with
      | mk r s' =>
        cases r with
        | ok e => exact ih _ _ (mem_append_left _ hin)
        | error err => exact ih _ _ hin
  induction l generalizing read s with
  | nil => cases hmem
  | cons idx' l ih =>
    rw [foldl_cons]
    rcases mem_cons.mp hmem with rfl | hmem
    · unfold readEntry
      rw [h s hflash hbase]
      exact hkeep _ _ _ _ mem_concat_self
    · unfold readEntry
      cases hread : flashLogRead s idx'.flashOffset with
      | mk r s' =>
        have hsame : s'.flash = flash ∧ s'.log.baseAddress = base := by
          unfold flashLogRead at hread
          dsimp only at hread
          split_ifs at hread
          · obtain ⟨-, rfl⟩ := Prod.mk.inj hread
            exact ⟨hflash, hbase⟩
          · obtain ⟨-, rfl⟩ := Prod.mk.inj hread
            exact ⟨hflash, hbase⟩
        cases r with
        | ok e' => exact ih hmem _ hsame.1 hsame.2
        | error err => exact ih hmem _ hsame.1 hsame.2

end Gateway
end EkKor
