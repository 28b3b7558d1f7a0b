import EkKor.Db.KvTable

/-!
# The key-value store is a finite map

* `MapCall`, `mapStep`     put, get and delete with valid keys and values, on a map of limited size;
* `KvStore.call`           the same calls on the server, through one handle;
* `Holds`                  the handle is open, its file is a table of the map, and the header counts
                           its keys;
* `holds_open`, `holds_step`   a new namespace, and one call;
* `kv_finite_map`          every sequence of calls gives the results of the map.
-/

namespace EkKor
namespace Db
open Probing Function

/-! ## the map -/

/-- a valid key: a string of at most 14 bytes -/
structure Key where
  bytes : List UInt8
  valid : IsKey bytes

/-- a valid value: at most 14 bytes -/
structure Value where
  bytes : List UInt8
  short : bytes.length ≤ kvMaxValueLen

/-- the calls; the buffer of a get has room for at least one byte -/
inductive MapCall where
  | put (key : Key) (value : Value) (now : UInt64)
  | get (key : Key) (len : Nat) (room : 0 < len)
  | delete (key : Key) (now : UInt64)

inductive KvResult where
  | status (r : Except DbErr Unit)
  /-- what is copied, and the length of the value -/
  | value (r : Except DbErr (List UInt8 × Nat))
  deriving DecidableEq

abbrev FiniteMap := List UInt8 → Option (List UInt8)

open Classical in
/-- a call on a map with at most `max` keys -/
noncomputable def mapStep (max : Nat) (m : FiniteMap) : MapCall → KvResult × FiniteMap
  | .put key value _ =>
    if m key.bytes = none ∧ (keys m).ncard = max then (.status (.error .full), m)
    else (.status (.ok ()), update m key.bytes (some value.bytes))
  | .get key len _ =>
    match m key.bytes with
    | none => (.value (.error .notFound), m)
    | some value => (.value (.ok (value.take len, value.length)), m)
  | .delete key _ =>
    if m key.bytes = none then (.status (.error .notFound), m)
    else (.status (.ok ()), update m key.bytes none)

noncomputable def mapRun (max : Nat) (m : FiniteMap) : List MapCall → List KvResult × FiniteMap
  | [] => ([], m)
  | c :: calls =>
    let (r, m) := mapStep max m c
    let (rs, m) := mapRun max m calls
    (r :: rs, m)

/-! ## the server -/

def KvStore.call (p : Platform) (handle : Nat) (s : KvStore) :
    MapCall → Option (KvResult × KvStore)
  | .put key value now =>
    (s.kvServerPut p handle key.bytes value.bytes now).map fun (r, s) => (.status r, s)
  | .get key len _ => (s.kvServerGet p handle key.bytes len).map fun r => (.value r, s)
  | .delete key now => (s.kvServerDelete p handle key.bytes now).map fun (r, s) => (.status r, s)

def KvStore.run (p : Platform) (handle : Nat) (s : KvStore) :
    List MapCall → Option (List KvResult × KvStore)
  | [] => some ([], s)
  | c :: calls =>
    (s.call p handle c).bind fun (r, s) =>
      (s.run p handle calls).map fun (rs, s) => (r :: rs, s)

/-- the handle is open, the entries of its file are a table of the map, and the header of the handle
has the number of its keys -/
structure Holds (p : Platform) (handle : Nat) (s : KvStore) (m : FiniteMap) : Prop where
  isOpen : s.isOpen p handle = true
  file : ∃ file, s.files (s.handles handle).filename = some file ∧
    Table p.kvMaxEntries file.entries m
  max : (s.handles handle).header.maxEntries = p.kvMaxEntries
  count : (s.handles handle).header.entryCount.toNat = (keys m).ncard

variable {p : Platform} {handle : Nat} {s : KvStore} {m : FiniteMap}

theorem kvMaxEntries_pos (p : Platform) : 0 < p.kvMaxEntries := by
  cases p <;> decide

theorem kvMaxEntries_small (p : Platform) : p.kvMaxEntries.toNat ≤ 256 := by
  cases p <;> decide

/-! ## one call -/

theorem Holds.next (h : Holds p handle s m) {file : KvFile} {m' : FiniteMap}
    (ht : Table p.kvMaxEntries file.entries m') {header : KvHeader} {dirty : Bool}
    (hmax : header.maxEntries = p.kvMaxEntries) (hcount : header.entryCount.toNat = (keys m').ncard) :
    Holds p handle ((s.setFile (s.handles handle).filename file).setHandle handle
      { s.handles handle with header := header, dirty := dirty }) m' := by
  have hhandle : ((s.setFile (s.handles handle).filename file).setHandle handle
      { s.handles handle with header := header, dirty := dirty }).handles handle =
        { s.handles handle with header := header, dirty := dirty } := update_self ..
  refine ⟨?_, ⟨file, ?_, ht⟩, ?_, ?_⟩
  · have hopen := h.isOpen
    unfold KvStore.isOpen at hopen ⊢
    rw [hhandle]
    exact hopen
  · rw [hhandle]
    exact update_self ..
  · rw [hhandle]
    exact hmax
  · rw [hhandle]
    exact hcount

theorem slotOf_used {e : KvEntry} {key b : List UInt8} (he : e.Proper)
    (h : slotOf e = .used key b) (len : Nat) :
    e.value.toList.take (min e.valueLen.toNat len) = b.take len ∧ e.valueLen.toNat = b.length := by
  have hb : e.value.toList.take e.valueLen.toNat = b := by
    unfold slotOf at h
    split_ifs at h
    exact (Slot.used.inj h).2
  rw [← hb, List.take_take, List.length_take, Vector.length_toList, Nat.min_comm len]
  exact ⟨rfl, (Nat.min_eq_left he.short).symm⟩

theorem holds_get (h : Holds p handle s m) (key : Key) {len : Nat} (hlen : 0 < len) :
    s.kvServerGet p handle key.bytes len = some (match m key.bytes with
      | none => .error .notFound
      | some value => .ok (value.take len, value.length)) := by
  obtain ⟨file, hfile, ht⟩ := h.file
  unfold KvStore.kvServerGet
  rw [if_neg (by rw [h.isOpen]; exact Bool.false_ne_true),
    if_neg (Nat.not_lt.mpr key.valid.short), if_neg (Nat.ne_of_gt hlen)]
  dsimp only
  rw [hfile, h.max]
  dsimp only
  rcases ht.find key.valid rfl with ⟨idx, hidx, b, vacant, hslot, hm, hfind⟩ | ⟨hm, hrest⟩
  · obtain ⟨hbytes, hlength⟩ := slotOf_used (ht.proper idx hidx) hslot len
    rw [hfind, hm]
    show some (Except.ok (_, _)) = some (Except.ok (_, _))
    rw [hbytes, hlength]
  · rw [hm]
    rcases hrest with ⟨idx, _, _, _, hfind⟩ | ⟨_, hfind⟩
    · rw [hfind]
      rfl
    · rw [hfind]
      rfl

open Classical in
theorem holds_put (h : Holds p handle s m) (key : Key) (value : Value) (now : UInt64) : ∃ s',
    s.kvServerPut p handle key.bytes value.bytes now = some
        (if m key.bytes = none ∧ (keys m).ncard = p.kvMaxEntries.toNat then .error .full else .ok (),
          s') ∧
      Holds p handle s' (if m key.bytes = none ∧ (keys m).ncard = p.kvMaxEntries.toNat then m
        else update m key.bytes (some value.bytes)) := by
  obtain ⟨file, hfile, ht⟩ := h.file
  have hsmall := kvMaxEntries_small p
  have hcard := ht.represents.ncard_le
  have hkeys := ncard_update ht.represents.finite key.bytes value.bytes
  unfold KvStore.kvServerPut
  rw [if_neg (by rw [h.isOpen]; exact Bool.false_ne_true),
    if_neg (Nat.not_lt.mpr key.valid.short), if_neg (Nat.not_lt.mpr value.short)]
  dsimp only
  rw [hfile, h.max]
  dsimp only
  rcases ht.find key.valid rfl with ⟨idx, hidx, b, vacant, hslot, hm, hfind⟩ | ⟨hm, hrest⟩
  · -- the key is there, its entry is written again
    have hpresent : ¬ (m key.bytes = none ∧ (keys m).ncard = p.kvMaxEntries.toNat) := by
      rw [hm]
      exact fun h => nomatch h.1
    rw [hfind, if_neg hpresent, if_neg hpresent]
    rw [if_neg (by rw [hm]; exact nofun)] at hkeys
    exact ⟨_, rfl, h.next (ht.update key.valid value.short hidx hslot) rfl
      (h.count.trans hkeys.symm)⟩
  · rcases hrest with ⟨idx, hidx, hslot, hreach, hfind⟩ | ⟨hfull, hfind⟩
    · rw [hfind]
      dsimp only [Option.map_some]
      by_cases hlimit : (keys m).ncard = p.kvMaxEntries.toNat
      · -- a slot that was given up could take the key, but the header counts no room
        have hge : (s.handles handle).header.entryCount ≥ p.kvMaxEntries := by
          show p.kvMaxEntries ≤ _
          rw [UInt32.le_iff_toNat_le, h.count]
          omega
        rw [if_pos hge, if_pos ⟨hm, hlimit⟩, if_pos ⟨hm, hlimit⟩]
        exact ⟨s, rfl, h⟩
      · have hlt : ¬ (s.handles handle).header.entryCount ≥ p.kvMaxEntries := by
          show ¬ p.kvMaxEntries ≤ _
          rw [UInt32.le_iff_toNat_le, h.count]
          omega
        rw [if_neg hlt, if_neg (fun h => hlimit h.2), if_neg (fun h => hlimit h.2)]
        rw [if_pos hm] at hkeys
        refine ⟨_, rfl, h.next (ht.insert key.valid value.short hidx hm hslot hreach) rfl ?_⟩
        have hadd : ((s.handles handle).header.entryCount + 1).toNat = (keys m).ncard + 1 := by
          rw [UInt32.toNat_add, h.count]
          exact Nat.mod_eq_of_lt (by show _ + 1 < 2 ^ 32; omega)
        exact hadd.trans hkeys.symm
    · rw [hfind, if_pos ⟨hm, hfull⟩, if_pos ⟨hm, hfull⟩]
      exact ⟨s, rfl, h⟩

open Classical in
theorem holds_delete (h : Holds p handle s m) (key : Key) (now : UInt64) : ∃ s',
    s.kvServerDelete p handle key.bytes now = some
        (if m key.bytes = none then .error .notFound else .ok (), s') ∧
      Holds p handle s' (if m key.bytes = none then m else update m key.bytes none) := by
  obtain ⟨file, hfile, ht⟩ := h.file
  unfold KvStore.kvServerDelete
  rw [if_neg (by rw [h.isOpen]; exact Bool.false_ne_true),
    if_neg (Nat.not_lt.mpr key.valid.short)]
  dsimp only
  rw [hfile, h.max]
  dsimp only
  rcases ht.find key.valid rfl with ⟨idx, hidx, b, vacant, hslot, hm, hfind⟩ | ⟨hm, hrest⟩
  · have hpresent : m key.bytes ≠ none := by
      rw [hm]
      exact nofun
    rw [hfind, if_neg hpresent, if_neg hpresent]
    refine ⟨_, rfl, h.next (ht.delete hidx hslot) rfl ?_⟩
    have hkeys := ncard_erase ht.represents.finite hpresent
    have hone : (1 : UInt32) ≤ (s.handles handle).header.entryCount := by
      rw [UInt32.le_iff_toNat_le, h.count]
      show 1 ≤ _
      omega
    have hsub : ((s.handles handle).header.entryCount - 1).toNat = (keys m).ncard - 1 := by
      rw [UInt32.toNat_sub_of_le _ _ hone, h.count]
      rfl
    exact hsub.trans (by omega)
  · rw [if_pos hm, if_pos hm]
    rcases hrest with ⟨idx, _, _, _, hfind⟩ | ⟨_, hfind⟩
    · rw [hfind]
      exact ⟨s, rfl, h⟩
    · rw [hfind]
      exact ⟨s, rfl, h⟩

/-- **One call.** The server gives the result of the map, and holds the map after it. -/
theorem holds_step (h : Holds p handle s m) (c : MapCall) : ∃ s',
    s.call p handle c = some ((mapStep p.kvMaxEntries.toNat m c).1, s') ∧
      Holds p handle s' (mapStep p.kvMaxEntries.toNat m c).2 := by
  cases c with
  | put key value now =>
    obtain ⟨s', hput, hs'⟩ := holds_put h key value now
    refine ⟨s', ?_, ?_⟩
    · unfold KvStore.call mapStep
      dsimp only
      rw [hput, Option.map_some]
      split_ifs <;> rfl
    · unfold mapStep
      dsimp only
      split_ifs at hs' ⊢ with hfull
      · exact hs'
      · exact hs'
  | get key len room =>
    refine ⟨s, ?_, ?_⟩
    · unfold KvStore.call mapStep
      dsimp only
      rw [holds_get h key room, Option.map_some]
      cases m key.bytes <;> rfl
    · unfold mapStep
      dsimp only
      cases m key.bytes <;> exact h
  | delete key now =>
    obtain ⟨s', hdelete, hs'⟩ := holds_delete h key now
    refine ⟨s', ?_, ?_⟩
    · unfold KvStore.call mapStep
      dsimp only
      rw [hdelete, Option.map_some]
      split_ifs <;> rfl
    · unfold mapStep
      dsimp only
      split_ifs at hs' ⊢ with habsent
      · exact hs'
      · exact hs'

/-! ## runs -/

theorem holds_run (h : Holds p handle s m) (calls : List MapCall) : ∃ s',
    s.run p handle calls = some ((mapRun p.kvMaxEntries.toNat m calls).1, s') ∧
      Holds p handle s' (mapRun p.kvMaxEntries.toNat m calls).2 := by
  induction calls generalizing s m with
  | nil => exact ⟨s, rfl, h⟩
  | cons c calls ih =>
    obtain ⟨s₁, hcall, h₁⟩ := holds_step h c
    obtain ⟨s₂, hrun, h₂⟩ := ih h₁
    refine ⟨s₂, ?_, h₂⟩
    unfold KvStore.run mapRun
    dsimp only
    rw [hcall, Option.bind_some]
    rw [hrun]
    rfl

theorem holds_open {name : List UInt8} (hname : 0 < name.length) (hshort : name.length ≤ kvMaxNamespace)
    {free : Nat} (hlimit : free < p.maxKvHandles) (hfree : (s.handles free).inUse = false)
    (hnew : s.files (buildKvFilename name) = none) (ownerId : UInt8) (now : UInt64) :
    ∃ handle s', s.kvServerOpen p name ownerId now = (.ok handle, s') ∧
      Holds p handle s' fun _ => none := by
  unfold KvStore.kvServerOpen
  rw [if_neg (Nat.ne_of_gt hname), if_neg (Nat.not_lt.mpr hshort)]
  obtain ⟨handle, hhandle, _, hfind⟩ :=
    find_free (fun i => (s.handles i).inUse) hlimit hfree
  rw [hfind]
  dsimp only
  rw [hnew]
  refine ⟨handle, _, rfl, ?_, ?_, ?_, ?_⟩
  · unfold KvStore.isOpen KvStore.setHandle
    dsimp only
    rw [update_self, decide_eq_true hhandle]
    rfl
  · unfold KvStore.setHandle
    dsimp only
    rw [update_self]
    exact ⟨_, update_self .., table_empty (kvMaxEntries_pos p)⟩
  · unfold KvStore.setHandle
    dsimp only
    rw [update_self]
    rfl
  · unfold KvStore.setHandle
    dsimp only
    rw [update_self]
    have hnone : keys (fun _ => none : FiniteMap) = ∅ :=
      Set.eq_empty_of_forall_notMem fun _ h => h rfl
    rw [hnone, Set.ncard_empty]
    rfl

/-- the header counts the keys of the map, the entries in use are its pairs, and no key is in two
entries -/
structure IsMap (p : Platform) (handle : Nat) (s : KvStore) (m : FiniteMap) : Prop where
  count : (s.handles handle).header.entryCount.toNat = (keys m).ncard
  entries : ∃ file, s.files (s.handles handle).filename = some file ∧
    (∀ key value, m key = some value ↔
      ∃ i < p.kvMaxEntries, slotOf (file.entries i) = .used key value) ∧
    ∀ i < p.kvMaxEntries, ∀ j < p.kvMaxEntries, ∀ key b b',
      slotOf (file.entries i) = .used key b → slotOf (file.entries j) = .used key b' → i = j

theorem Holds.isMap (h : Holds p handle s m) : IsMap p handle s m := by
  obtain ⟨file, hfile, ht⟩ := h.file
  refine ⟨h.count, file, hfile, fun key value => ?_, fun i hi j hj key b b' hslot hslot' => ?_⟩
  · rw [ht.represents key value]
    constructor
    · rintro ⟨i, hi, hused⟩
      have hlt : i < 2 ^ 32 := Nat.lt_trans hi p.kvMaxEntries.toNat_lt
      have hofNat : (UInt32.ofNat i).toNat = i := Nat.mod_eq_of_lt hlt
      refine ⟨UInt32.ofNat i, UInt32.lt_iff_toNat_lt.mpr (hofNat.trans_lt hi), ?_⟩
      rw [← slots_toNat, hofNat]
      exact hused
    · rintro ⟨i, hi, hused⟩
      exact ⟨i.toNat, UInt32.lt_iff_toNat_lt.mp hi, (slots_toNat ..).trans hused⟩
  · refine UInt32.toNat_inj.mp ?_
    exact ht.sound.once _ (UInt32.lt_iff_toNat_lt.mp hi) _ (UInt32.lt_iff_toNat_lt.mp hj) key b b'
      ((slots_toNat ..).trans hslot) ((slots_toNat ..).trans hslot')

/-- **Main.** A new namespace is opened with a handle; every sequence of puts, gets and deletes through
it ends, and gives the results of a finite map; after it the header counts the keys of the map, and
each has one entry. -/
theorem kv_finite_map {name : List UInt8} (hname : 0 < name.length)
    (hshort : name.length ≤ kvMaxNamespace) {free : Nat} (hlimit : free < p.maxKvHandles)
    (hfree : (s.handles free).inUse = false) (hnew : s.files (buildKvFilename name) = none)
    (ownerId : UInt8) (now : UInt64) : ∃ handle s₁,
    s.kvServerOpen p name ownerId now = (.ok handle, s₁) ∧ ∀ calls, ∃ s₂,
      s₁.run p handle calls =
          some ((mapRun p.kvMaxEntries.toNat (fun _ => none) calls).1, s₂) ∧
        IsMap p handle s₂ (mapRun p.kvMaxEntries.toNat (fun _ => none) calls).2 := by
  obtain ⟨handle, s₁, hopen, h₁⟩ := holds_open hname hshort hlimit hfree hnew ownerId now
  refine ⟨handle, s₁, hopen, fun calls => ?_⟩
  obtain ⟨s₂, hrun, h₂⟩ := holds_run h₁ calls
  exact ⟨s₂, hrun, h₂.isMap⟩

def emptyStore : KvStore := ⟨fun _ => none, fun _ => KvState.zero⟩

/-- the namespace "a" is the first one of a server -/
theorem kv_finite_map_first : ∃ handle s₁,
    emptyStore.kvServerOpen .other [0x61] 1 0 = (.ok handle, s₁) ∧ ∀ calls, ∃ s₂,
      s₁.run .other handle calls =
          some ((mapRun (Platform.kvMaxEntries .other).toNat (fun _ => none) calls).1, s₂) ∧
        IsMap .other handle s₂
          (mapRun (Platform.kvMaxEntries .other).toNat (fun _ => none) calls).2 :=
  kv_finite_map (by decide) (by decide) (show 0 < Platform.maxKvHandles .other by decide) rfl rfl 1 0

end Db
end EkKor
