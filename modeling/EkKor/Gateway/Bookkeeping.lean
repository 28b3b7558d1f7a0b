import EkKor.Gateway.Ranges

/-!
# The records of the streams (`ekk_stream_index_add`, `ekk_stream_index_reset`)

The count of the streams has eight bits and goes back to 0 at the last of 256 ids, and the loop of
the reset has a counter of eight bits that is always below 256.

* `Describes`         a record has the count, the first and the last of the entries of its stream;
* `Kept.add`          an entry of a stream keeps the records right, if the count does not wrap;
* `Bookkept`          the records are right, and as many as there are ids;
* `clearStreams`, `streamIndexReset`   the reset, for some rounds of its loop;
* `bookkept_iff`      the records are right exactly below 256 ids, and no reset ends.
-/

namespace EkKor
namespace Gateway
open EightBit (Table)
open List
open Keyed

variable {entries : List IndexEntry} {entry : IndexEntry} {id : ModuleId} {st : StreamState}

/-! ## records -/

def At (entries : List IndexEntry) (id : ModuleId) (i : Nat) : Prop :=
  (entries.map IndexEntry.streamId)[i]? = some id

/-- the record of a stream says how many entries it has, and which are the first and the last -/
structure Describes (entries : List IndexEntry) (id : ModuleId) (st : StreamState) : Prop where
  count : st.eventCount.toNat = entries.countP fun entry => entry.streamId = id
  first : At entries id st.firstIndex.toNat ∧ ∀ i, At entries id i → st.firstIndex.toNat ≤ i
  last : At entries id st.lastIndex.toNat ∧ ∀ i, At entries id i → i ≤ st.lastIndex.toNat

theorem at_lt {i : Nat} (h : At entries id i) : i < entries.length := by
  have hlt := (List.getElem?_eq_some_iff.mp h).1
  rwa [length_map] at hlt

theorem at_concat (entries : List IndexEntry) (entry : IndexEntry) (id : ModuleId) (i : Nat) :
    At (entries ++ [entry]) id i ↔
      At entries id i ∨ i = entries.length ∧ entry.streamId = id := by
  unfold At
  rw [map_append, map_singleton, getElem?_append, length_map]
  split_ifs with hlt
  · exact (or_iff_left fun h => Nat.ne_of_lt hlt h.1).symm
  · rw [getElem?_singleton, getElem?_eq_none (by rw [length_map]; omega),
      or_iff_right (by simp)]
    split_ifs with hlast
    · rw [Option.some_inj]
      exact (and_iff_right (by omega)).symm
    · exact iff_of_false (by simp) fun h => hlast (by omega)

theorem Describes.other (h : Describes entries id st) (hid : entry.streamId ≠ id) :
    Describes (entries ++ [entry]) id st := by
  have hat (i : Nat) : At (entries ++ [entry]) id i ↔ At entries id i := by
    rw [at_concat]
    exact or_iff_left fun hlast => hid hlast.2
  refine ⟨?_, ?_, ?_⟩
  · rw [countP_append, countP_singleton, if_neg (by simpa using hid)]
    exact h.count
  · simp only [hat]
    exact h.first
  · simp only [hat]
    exact h.last

theorem toNat_ofNat_length {n : Nat} (h : n < 2 ^ 32 - 1) :
    (UInt32.ofNat n).toNat = n ∧ UInt32.ofNat n ≠ 0xFFFFFFFF := by
  have hn : (UInt32.ofNat n).toNat = n := UInt32.toNat_ofNat_of_lt' (by
    show n < 4294967296
    omega)
  refine ⟨hn, fun heq => ?_⟩
  rw [heq] at hn
  have hmax : (0xFFFFFFFF : UInt32).toNat = 4294967295 := rfl
  omega

theorem Describes.add (h : Describes entries id st) (hid : entry.streamId = id)
    (hroom : entries.length < 2 ^ 32 - 1) :
    Describes (entries ++ [entry]) id (st.add (UInt32.ofNat entries.length) entry) := by
  obtain ⟨hidx, -⟩ := toNat_ofNat_length hroom
  have hfirst : st.firstIndex ≠ 0xFFFFFFFF := by
    intro heq
    have hlt := at_lt h.first.1
    rw [heq] at hlt
    have hmax : (0xFFFFFFFF : UInt32).toNat = 4294967295 := rfl
    omega
  refine ⟨?_, ?_, ?_⟩
  · have hle := countP_le_length (p := fun e : IndexEntry => decide (e.streamId = id))
      (l := entries)
    rw [countP_append, countP_singleton, if_pos (by simpa using hid), ← h.count]
    show (st.eventCount + 1).toNat = _
    rw [UInt32.toNat_add, h.count]
    exact Nat.mod_eq_of_lt (show _ < 4294967296 by show _ + 1 < _; omega)
  · have hsame : (st.add (UInt32.ofNat entries.length) entry).firstIndex = st.firstIndex :=
      if_neg hfirst
    rw [hsame]
    refine ⟨(at_concat ..).mpr (.inl h.first.1), fun i hi => ?_⟩
    rcases (at_concat ..).mp hi with hold | ⟨rfl, -⟩
    · exact h.first.2 i hold
    · exact Nat.le_of_lt (at_lt h.first.1)
  · show At _ id (UInt32.ofNat entries.length).toNat ∧ ∀ i, _ → i ≤ (UInt32.ofNat _).toNat
    rw [hidx]
    refine ⟨(at_concat ..).mpr (.inr ⟨rfl, hid⟩), fun i hi => ?_⟩
    have hlt := at_lt hi
    rw [length_append, length_singleton] at hlt
    omega

theorem describes_new (hnew : id ∉ entries.map IndexEntry.streamId) (hid : entry.streamId = id)
    (hroom : entries.length < 2 ^ 32 - 1) :
    Describes (entries ++ [entry]) id
      ((newStream id).add (UInt32.ofNat entries.length) entry) := by
  obtain ⟨hidx, -⟩ := toNat_ofNat_length hroom
  have hat (i : Nat) : At (entries ++ [entry]) id i ↔ i = entries.length := by
    rw [at_concat, or_iff_right fun h : At entries id i => hnew (mem_of_getElem? h)]
    exact and_iff_left hid
  have hfirst : ((newStream id).add (UInt32.ofNat entries.length) entry).firstIndex =
      UInt32.ofNat entries.length := by
    show (if (newStream id).firstIndex = 0xFFFFFFFF then UInt32.ofNat entries.length
      else (newStream id).firstIndex) = _
    exact if_pos rfl
  have hlast : ((newStream id).add (UInt32.ofNat entries.length) entry).lastIndex =
      UInt32.ofNat entries.length := rfl
  refine ⟨?_, ?_, ?_⟩
  · have hzero : entries.countP (fun e => decide (e.streamId = id)) = 0 :=
      countP_eq_zero.mpr fun e he heq =>
        hnew (mem_map.mpr ⟨e, he, of_decide_eq_true heq⟩)
    rw [countP_append, countP_singleton, if_pos (by simpa using hid), hzero]
    rfl
  · rw [hfirst, hidx]
    exact ⟨(hat _).mpr rfl, fun i hi => Nat.le_of_eq ((hat i).mp hi).symm⟩
  · rw [hlast, hidx]
    exact ⟨(hat _).mpr rfl, fun i hi => Nat.le_of_eq ((hat i).mp hi)⟩

/-! ## the records of an index -/

/-- the records are the ones of the ids that occur -/
structure Kept (entries : List IndexEntry) (rows : List StreamState) : Prop where
  unique : (rows.map StreamState.moduleId).Nodup
  ids : ∀ id, id ∈ rows.map StreamState.moduleId ↔ id ∈ entries.map IndexEntry.streamId
  described : ∀ id st, lookup StreamState.moduleId rows id = some st → Describes entries id st

def distinctIds (entries : List IndexEntry) : Nat :=
  (entries.map IndexEntry.streamId).dedup.length

theorem Kept.length_eq {rows : List StreamState} (h : Kept entries rows) :
    rows.length = distinctIds entries := by
  have hperm : (rows.map StreamState.moduleId).Perm (entries.map IndexEntry.streamId).dedup :=
    (perm_ext_iff_of_nodup h.unique (nodup_dedup _)).mpr fun id => by
      rw [h.ids, mem_dedup]
  have hlength := hperm.length_eq
  rwa [length_map] at hlength

theorem kept_nil : Kept [] [] where
  unique := nodup_nil
  ids _ := Iff.rfl
  described _ _ h := by cases h

theorem Kept.add {rows : List StreamState} (h : Kept entries rows) (entry : IndexEntry)
    (hroom : entries.length < 2 ^ 32 - 1) :
    Kept (entries ++ [entry]) (upsert StreamState.moduleId newStream
      (StreamState.add (UInt32.ofNat entries.length) entry) rows entry.streamId) := by
  have hkey (st : StreamState) :
      (st.add (UInt32.ofNat entries.length) entry).moduleId = st.moduleId := rfl
  have hfresh (id : ModuleId) : (newStream id).moduleId = id := rfl
  have hkeys := map_upsert hkey hfresh rows entry.streamId
  refine ⟨?_, fun id => ?_, fun id st hst => ?_⟩
  · rw [hkeys]
    split_ifs with hold
    · exact h.unique
    · refine nodup_append.mpr ⟨h.unique, nodup_singleton _, fun a ha b hb heq => ?_⟩
      exact hold (mem_singleton.mp hb ▸ heq ▸ ha)
  · rw [hkeys, map_append, map_singleton, mem_append, mem_singleton, ← h.ids]
    split_ifs with hold
    · exact (or_iff_left_of_imp fun heq => heq ▸ hold).symm
    · rw [mem_append, mem_singleton]
  · have hlookup := lookup_upsert hkey hfresh rows entry.streamId id
    rw [hlookup] at hst
    split_ifs at hst with hid
    · obtain rfl := Option.some.inj hst
      subst hid
      cases hfound : lookup StreamState.moduleId rows entry.streamId with
      | some st => exact (h.described _ _ hfound).add rfl hroom
      | none =>
        refine describes_new (fun hmem => ?_) rfl hroom
        exact lookup_eq_none.mp hfound ((h.ids _).mpr hmem)
    · exact (h.described _ _ hst).other hid

theorem distinctIds_append_le (entries more : List IndexEntry) :
    distinctIds entries ≤ distinctIds (entries ++ more) := by
  unfold distinctIds
  rw [map_append]
  refine ((nodup_dedup _).subperm fun id hid => ?_).length_le
  rw [mem_dedup] at hid ⊢
  exact mem_append_left _ hid

theorem kept_indexWith (capacity : Capacity) (es : List IndexEntry)
    (h : distinctIds (indexWith capacity es).entries < 256) :
    Kept (indexWith capacity es).entries (indexWith capacity es).streams.rows := by
  induction es using List.reverseRecOn with
  | nil => exact kept_nil
  | append_singleton es entry ih =>
    have hstep : indexWith capacity (es ++ [entry]) =
        (streamIndexAdd (indexWith capacity es) entry).2 := foldl_concat ..
    have hcapacity := (entries_indexWith capacity es).1
    rw [hstep] at h ⊢
    generalize indexWith capacity es = index at h hcapacity ih ⊢
    unfold streamIndexAdd at h ⊢
    by_cases hfull : index.entries.length ≥ index.capacity.val.toNat
    · rw [if_pos hfull] at h ⊢
      exact ih h
    · rw [if_neg hfull] at h ⊢
      have hroom : index.entries.length < 2 ^ 32 - 1 := by
        have hlt := index.capacity.val.toNat_lt
        omega
      have hkept := (ih (Nat.lt_of_le_of_lt (distinctIds_append_le _ _) h)).add entry hroom
      have hcases : (index.streams.update StreamState.moduleId newStream entry.streamId
          (StreamState.add (UInt32.ofNat index.entries.length) entry)).rows = _ ∨ _ :=
        EightBit.update_cases ..
      rcases hcases with heq | hwrap
      · rw [heq]
        exact hkept
      · have hlength := hkept.length_eq
        dsimp only at h
        omega

/-! ## the reset -/

/-- the records after `memset` -/
def zeroStream : StreamState := ⟨0, 0, 0, 0, 0, 0⟩

/-- the loop of `ekk_stream_index_reset`, for some rounds -/
def clearStreams (streams : UInt8 → StreamState) (i : UInt8) : Nat → Option (UInt8 → StreamState)
  | 0 => none
  | rounds + 1 =>
    if i.toNat < maxModules then
      clearStreams (Function.update streams i zeroStream) (i + 1) rounds
    else some streams

/-- `ekk_stream_index_reset`; `streams` are all records, also the ones behind the count -/
def streamIndexReset (index : StreamIndex) (streams : UInt8 → StreamState) (rounds : Nat) :
    Option (StreamIndex × (UInt8 → StreamState)) :=
  (clearStreams streams 0 rounds).map fun streams =>
    ({ index with entries := [], oldestSeq := 0, newestSeq := 0, streams := Table.empty }, streams)

theorem clearStreams_none (streams : UInt8 → StreamState) (i : UInt8) (rounds : Nat) :
    clearStreams streams i rounds = none := by
  induction rounds generalizing streams i with
  | zero => rfl
  | succ rounds ih => exact (if_pos i.toNat_lt).trans (ih _ _)

/-! ## the condition -/

/-- there are as many records as ids, one for each, and they describe the entries -/
structure Bookkept (index : StreamIndex) : Prop where
  count : index.streams.rows.length = distinctIds index.entries
  unique : (index.streams.rows.map StreamState.moduleId).Nodup
  described : ∀ id ∈ index.entries.map IndexEntry.streamId, ∃ st,
    lookup StreamState.moduleId index.streams.rows id = some st ∧ Describes index.entries id st

theorem not_bookkept {index : StreamIndex} (h : 256 ≤ distinctIds index.entries) :
    ¬Bookkept index := by
  intro hkept
  have hbound := index.streams.bound
  rw [hkept.count] at hbound
  exact Nat.not_lt.mpr h hbound

/-- **The records.**  They are right exactly while there are fewer than 256 ids; the reset never
ends -/
theorem bookkept_iff (capacity : Capacity) (es : List IndexEntry) :
    (Bookkept (indexWith capacity es) ↔ distinctIds (indexWith capacity es).entries < 256) ∧
      ∀ streams rounds, streamIndexReset (indexWith capacity es) streams rounds = none := by
  constructor
  · constructor
    · exact fun hkept => Nat.lt_of_not_le fun hall => not_bookkept hall hkept
    · intro hfew
      have hkept := kept_indexWith capacity es hfew
      refine ⟨hkept.length_eq, hkept.unique, fun id hid => ?_⟩
      cases hfound : lookup StreamState.moduleId (indexWith capacity es).streams.rows id with
      | none => exact absurd ((hkept.ids id).mpr hid) (lookup_eq_none.mp hfound)
      | some st => exact ⟨st, rfl, hkept.described id st hfound⟩
  · intro streams rounds
    unfold streamIndexReset
    rw [clearStreams_none, Option.map_none]

def allIds : List IndexEntry := (List.range 256).map fun n => ⟨0, 0, 0, 0, UInt8.ofNat n, 0⟩

/-- after an entry of each id, the records are lost, and the index cannot be emptied -/
theorem all_ids_lost : ¬Bookkept (indexWith ⟨1000, by decide⟩ allIds) ∧
    ∀ streams rounds, streamIndexReset (indexWith ⟨1000, by decide⟩ allIds) streams rounds = none := by
  refine ⟨not_bookkept ?_, fun streams rounds => ?_⟩
  · have hentries : (indexWith ⟨1000, by decide⟩ allIds).entries = allIds := by
      rw [(entries_indexWith _ _).2]
      exact take_of_length_le (by
        unfold allIds
        rw [length_map, length_range]
        decide)
    refine EightBit.length_of_all fun id => ?_
    rw [mem_dedup, hentries]
    unfold allIds
    rw [map_map, mem_map]
    exact ⟨id.toNat, mem_range.mpr id.toNat_lt, UInt8.ofNat_toNat⟩
  · unfold streamIndexReset
    rw [clearStreams_none, Option.map_none]

end Gateway
end EkKor
