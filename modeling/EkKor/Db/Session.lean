import EkKor.Db.KvMap

/-!
# Clients of two namespaces

The clients of a namespace keep the handles that the server returns in variables.

* `HandleOp`, `KvOp`     the calls;
* `HandleOp.act`         what a call through a handle does with the handle and its file;
* `handleCall_eq`        it does nothing else;
* `Session.step`, `Session.run`   the calls in any order;
* `Sane`                 the tables of a server are sound, so that its calls return.
-/

namespace EkKor
namespace Db
open Function

/-! ## calls through a handle -/

/-- keys are strings -/
inductive HandleOp where
  | put (key value : List UInt8) (noZero : 0 ∉ key) (now : UInt64)
  | get (key : List UInt8) (noZero : 0 ∉ key) (len : Nat)
  | delete (key : List UInt8) (noZero : 0 ∉ key) (now : UInt64)
  | close (now : UInt64)

namespace KvStore

def handleCall (p : Platform) (s : KvStore) (handle : Nat) :
    HandleOp → Option (KvResult × KvStore)
  | .put key value _ now =>
    (s.kvServerPut p handle key value now).map fun (r, s) => (.status r, s)
  | .get key _ len => (s.kvServerGet p handle key len).map fun r => (.value r, s)
  | .delete key _ now => (s.kvServerDelete p handle key now).map fun (r, s) => (.status r, s)
  | .close now =>
    let (r, s) := s.kvServerClose p handle now
    some (.status r, s)

def place (s : KvStore) (handle : Nat) (filename : List UInt8) (state : KvState)
    (file : Option KvFile) : KvStore where
  files := update s.files filename file
  handles := update s.handles handle state

end KvStore

open KvStore in
def HandleOp.act (state : KvState) (file : Option KvFile) :
    HandleOp → Option (KvResult × KvState × Option KvFile)
  | .put key value _ now =>
    if key.length > kvMaxKeyLen then some (.status (.error .keyTooLong), state, file)
    else if value.length > kvMaxValueLen then some (.status (.error .valueTooBig), state, file)
    else
      match file with
      | none =>
        if state.header.entryCount ≥ state.header.maxEntries then
          some (.status (.error .full), state, file)
        else some (.status (.error .io), state, file)
      | some f =>
        (findKvEntry f state.header.maxEntries key).map fun
          | (some idx, _) =>
            (.status (.ok ()),
              { state with header := { state.header with modified := now }, dirty := true },
              some { f with entries := update f.entries idx (newEntry key value) })
          | (none, none) => (.status (.error .full), state, file)
          | (none, some freeSlot) =>
            if state.header.entryCount ≥ state.header.maxEntries then
              (.status (.error .full), state, file)
            else
              (.status (.ok ()),
                { state with
                  header := { state.header with
                    entryCount := state.header.entryCount + 1
                    modified := now }
                  dirty := true },
                some { f with entries := update f.entries freeSlot (newEntry key value) })
  | .get key _ len =>
    if key.length > kvMaxKeyLen then some (.value (.error .invalid), state, file)
    else if len = 0 then some (.value (.error .invalid), state, file)
    else
      match file with
      | none => some (.value (.error .notFound), state, file)
      | some f =>
        (findKvEntry f state.header.maxEntries key).map fun
          | (none, _) => (.value (.error .notFound), state, file)
          | (some idx, _) =>
            (.value (.ok ((f.entries idx).value.toList.take (min (f.entries idx).valueLen.toNat len),
              (f.entries idx).valueLen.toNat)), state, file)
  | .delete key _ now =>
    if key.length > kvMaxKeyLen then some (.status (.error .invalid), state, file)
    else
      match file with
      | none => some (.status (.error .notFound), state, file)
      | some f =>
        (findKvEntry f state.header.maxEntries key).map fun
          | (none, _) => (.status (.error .notFound), state, file)
          | (some idx, _) =>
            (.status (.ok ()),
              { state with
                header := { state.header with
                  entryCount := state.header.entryCount - 1
                  modified := now }
                dirty := true },
              some { f with
                entries :=
                  update f.entries idx { f.entries idx with flags := kvFlagDeleted } })
  | .close now =>
    if state.dirty then
      let header := KvHeader.sealed { state.header with modified := now }
      some (.status (.ok ()), { state with header := header, inUse := false },
        file.map fun f => { f with header := header })
    else some (.status (.ok ()), { state with inUse := false }, file)

variable {p : Platform} {s : KvStore} {handle : Nat}

theorem place_self (s : KvStore) (handle : Nat) (filename : List UInt8) :
    s.place handle filename (s.handles handle) (s.files filename) = s := by
  unfold KvStore.place
  rw [update_eq_self, update_eq_self]

open KvStore

theorem put_eq (hopen : s.isOpen p handle = true) (key value : List UInt8) (noZero : 0 ∉ key)
    (now : UInt64) :
    s.handleCall p handle (.put key value noZero now) =
      (HandleOp.act (s.handles handle) (s.files (s.handles handle).filename)
        (.put key value noZero now)).map fun (r, state, file) =>
          (r, s.place handle (s.handles handle).filename state file) := by
  have hself := place_self s handle (s.handles handle).filename
  unfold handleCall kvServerPut HandleOp.act place at *
  rw [hopen]
  dsimp only
  generalize s.handles handle = state at *
  generalize hfile : s.files state.filename = file at *
  by_cases hkey : key.length > kvMaxKeyLen
  · rw [if_neg (by decide), if_pos hkey, if_pos hkey]
    exact congrArg (fun s => some (KvResult.status _, s)) hself.symm
  by_cases hvalue : value.length > kvMaxValueLen
  · rw [if_neg (by decide), if_neg hkey, if_neg hkey, if_pos hvalue, if_pos hvalue]
    exact congrArg (fun s => some (KvResult.status _, s)) hself.symm
  rw [if_neg (by decide), if_neg hkey, if_neg hkey, if_neg hvalue, if_neg hvalue]
  cases file with
  | none =>
    by_cases hfull : state.header.entryCount ≥ state.header.maxEntries
    · simp only [if_pos hfull, Option.map_some, hself]
    · simp only [if_neg hfull, Option.map_some, hself]
  | some f =>
    dsimp only
    rcases findKvEntry f state.header.maxEntries key with _ | ⟨_ | idx, vacant⟩
    · rfl
    · cases vacant with
      | none => exact congrArg (fun s => some (KvResult.status _, s)) hself.symm
      | some freeSlot =>
        by_cases hfull : state.header.entryCount ≥ state.header.maxEntries
        · simp only [if_pos hfull, Option.map_some, hself]
        · simp only [if_neg hfull, Option.map_some]
          rfl
    · rfl

theorem get_eq (hopen : s.isOpen p handle = true) (key : List UInt8) (noZero : 0 ∉ key)
    (len : Nat) :
    s.handleCall p handle (.get key noZero len) =
      (HandleOp.act (s.handles handle) (s.files (s.handles handle).filename)
        (.get key noZero len)).map fun (r, state, file) =>
          (r, s.place handle (s.handles handle).filename state file) := by
  have hself := place_self s handle (s.handles handle).filename
  unfold handleCall kvServerGet HandleOp.act place at *
  rw [hopen]
  dsimp only
  generalize s.handles handle = state at *
  generalize hfile : s.files state.filename = file at *
  by_cases hkey : key.length > kvMaxKeyLen
  · rw [if_neg (by decide), if_pos hkey, if_pos hkey]
    exact congrArg (fun s => some (KvResult.value _, s)) hself.symm
  by_cases hlen : len = 0
  · rw [if_neg (by decide), if_neg hkey, if_neg hkey, if_pos hlen, if_pos hlen]
    exact congrArg (fun s => some (KvResult.value _, s)) hself.symm
  rw [if_neg (by decide), if_neg hkey, if_neg hkey, if_neg hlen, if_neg hlen]
  cases file with
  | none => exact congrArg (fun s => some (KvResult.value _, s)) hself.symm
  | some f =>
    dsimp only
    rcases findKvEntry f state.header.maxEntries key with _ | ⟨_ | idx, vacant⟩
    · rfl
    · exact congrArg (fun s => some (KvResult.value _, s)) hself.symm
    · exact congrArg (fun s => some (KvResult.value _, s)) hself.symm

theorem delete_eq (hopen : s.isOpen p handle = true) (key : List UInt8) (noZero : 0 ∉ key)
    (now : UInt64) :
    s.handleCall p handle (.delete key noZero now) =
      (HandleOp.act (s.handles handle) (s.files (s.handles handle).filename)
        (.delete key noZero now)).map fun (r, state, file) =>
          (r, s.place handle (s.handles handle).filename state file) := by
  have hself := place_self s handle (s.handles handle).filename
  unfold handleCall kvServerDelete HandleOp.act place at *
  rw [hopen]
  dsimp only
  generalize s.handles handle = state at *
  generalize hfile : s.files state.filename = file at *
  by_cases hkey : key.length > kvMaxKeyLen
  · rw [if_neg (by decide), if_pos hkey, if_pos hkey]
    exact congrArg (fun s => some (KvResult.status _, s)) hself.symm
  rw [if_neg (by decide), if_neg hkey, if_neg hkey]
  cases file with
  | none => exact congrArg (fun s => some (KvResult.status _, s)) hself.symm
  | some f =>
    dsimp only
    rcases findKvEntry f state.header.maxEntries key with _ | ⟨_ | idx, vacant⟩
    · rfl
    · exact congrArg (fun s => some (KvResult.status _, s)) hself.symm
    · rfl

theorem close_eq (hopen : s.isOpen p handle = true) (now : UInt64) :
    s.handleCall p handle (.close now) =
      (HandleOp.act (s.handles handle) (s.files (s.handles handle).filename) (.close now)).map
        fun (r, state, file) =>
          (r, s.place handle (s.handles handle).filename state file) := by
  have hself := place_self s handle (s.handles handle).filename
  unfold handleCall kvServerClose HandleOp.act
  rw [hopen]
  dsimp only
  rw [if_neg (show ¬(!true) = true by decide)]
  by_cases hdirty : (s.handles handle).dirty = true
  · rw [if_pos hdirty, if_pos hdirty]
    cases hfile : s.files (s.handles handle).filename with
    | none =>
      rw [hfile] at hself
      have hfiles := congrArg KvStore.files hself
      unfold place setHandle at *
      dsimp only at hfiles
      simp only [Option.map_some, Option.map_none, hfiles]
    | some f => rfl
  · rw [if_neg hdirty, if_neg hdirty]
    have hfiles := congrArg KvStore.files hself
    unfold place setHandle at *
    dsimp only at hfiles
    simp only [Option.map_some, hfiles]

/-- **Locality.** A call through an open handle depends on the handle and its file, and changes nothing
else. -/
theorem handleCall_eq (hopen : s.isOpen p handle = true) (op : HandleOp) :
    s.handleCall p handle op =
      (op.act (s.handles handle) (s.files (s.handles handle).filename)).map
        fun (r, state, file) =>
          (r, s.place handle (s.handles handle).filename state file) := by
  cases op with
  | put key value noZero now => exact put_eq hopen key value noZero now
  | get key noZero len => exact get_eq hopen key noZero len
  | delete key noZero now => exact delete_eq hopen key noZero now
  | close now => exact close_eq hopen now

/-! ## what the calls do -/

def HandleOp.closes : HandleOp → Bool
  | .close _ => true
  | _ => false

def HandleOp.Writes (state : KvState) (f : KvFile) : HandleOp → Prop
  | .put key value _ _ => key.length ≤ kvMaxKeyLen ∧ value.length ≤ kvMaxValueLen ∧
    ∃ found vacant, findKvEntry f state.header.maxEntries key = some (found, vacant) ∧
      (found ≠ none ∨ vacant ≠ none ∧ state.header.entryCount < state.header.maxEntries)
  | .delete key _ _ => key.length ≤ kvMaxKeyLen ∧
    ∃ idx vacant, findKvEntry f state.header.maxEntries key = some (some idx, vacant)
  | _ => False

/-- what a call does on a sound table: nothing, or it writes an entry and counts it in the handle, or it
closes the handle -/
inductive Outcome (p : Platform) (op : HandleOp) (state : KvState) (f : KvFile) (m : FiniteMap) :
    KvState → KvFile → FiniteMap → Prop where
  | quiet (stays : op.closes = false) : Outcome p op state f m state f m
  | write {state' : KvState} {f' : KvFile} {m' : FiniteMap} (stays : op.closes = false)
      (writes : op.Writes state f) (header : f'.header = f.header) (dirty : state'.dirty = true)
      (inUse : state'.inUse = state.inUse) (name : state'.filename = state.filename)
      (max : state'.header.maxEntries = state.header.maxEntries)
      (table : Table p.kvMaxEntries f'.entries m')
      (count : state.header.entryCount.toNat = (Probing.keys m).ncard →
        state'.header.entryCount.toNat = (Probing.keys m').ncard) :
      Outcome p op state f m state' f' m'
  | close {state' : KvState} {f' : KvFile} (closed : op.closes = true) (inUse : state'.inUse = false)
      (name : state'.filename = state.filename) (entries : f'.entries = f.entries)
      (max : f'.header.maxEntries =
        if state.dirty then state.header.maxEntries else f.header.maxEntries)
      (count : f'.header.entryCount =
        if state.dirty then state.header.entryCount else f.header.entryCount) :
      Outcome p op state f m state' f' m

variable {state : KvState} {f : KvFile} {m : FiniteMap}

theorem put_outcome (ht : Table p.kvMaxEntries f.entries m)
    (hmax : state.header.maxEntries = p.kvMaxEntries) (key value : List UInt8)
    (noZero : 0 ∉ key) (now : UInt64) : ∃ r state' f' m',
    (HandleOp.put key value noZero now).act state (some f) = some (r, state', some f') ∧
      Outcome p (.put key value noZero now) state f m state' f' m' := by
  unfold HandleOp.act
  dsimp only
  by_cases hkey : key.length > kvMaxKeyLen
  · rw [if_pos hkey]
    exact ⟨_, _, _, _, rfl, .quiet rfl⟩
  by_cases hvalue : value.length > kvMaxValueLen
  · rw [if_neg hkey, if_pos hvalue]
    exact ⟨_, _, _, _, rfl, .quiet rfl⟩
  rw [if_neg hkey, if_neg hvalue]
  have hshort := Nat.not_lt.mp hvalue
  have hvalid : IsKey key := ⟨Nat.not_lt.mp hkey, noZero⟩
  have hkeys := Probing.ncard_update ht.represents.finite key value
  rcases ht.find hvalid rfl with ⟨idx, hidx, b, vacant, hslot, hm, hfind⟩ |
    ⟨hm, ⟨idx, hidx, hslot, hreach, hfind⟩ | ⟨_, hfind⟩⟩
  all_goals rw [← hmax] at hfind; rw [hfind]
  · refine ⟨_, _, _, _, rfl, .write rfl ⟨hvalid.short, hshort, _, _, hfind, .inl nofun⟩ rfl rfl rfl
      rfl rfl (ht.update hvalid hshort hidx hslot) fun hcount => ?_⟩
    rw [if_neg (by rw [hm]; exact nofun)] at hkeys
    exact hcount.trans hkeys.symm
  · dsimp only [Option.map_some]
    by_cases hfull : state.header.entryCount ≥ state.header.maxEntries
    · rw [if_pos hfull]
      exact ⟨_, _, _, _, rfl, .quiet rfl⟩
    · rw [if_neg hfull]
      refine ⟨_, _, _, _, rfl, .write rfl ⟨hvalid.short, hshort, _, _, hfind,
        .inr ⟨nofun, UInt32.not_le.mp hfull⟩⟩ rfl rfl rfl rfl rfl
        (ht.insert hvalid hshort hidx hm hslot hreach) fun hcount => ?_⟩
      have hlt := UInt32.lt_iff_toNat_lt.mp (UInt32.not_le.mp hfull)
      have hlimit := state.header.maxEntries.toNat_lt
      have hadd : (state.header.entryCount + 1).toNat = state.header.entryCount.toNat + 1 := by
        rw [UInt32.toNat_add]
        exact Nat.mod_eq_of_lt (by show _ + 1 < 2 ^ 32; omega)
      rw [if_pos hm] at hkeys
      rw [hkeys, ← hcount]
      exact hadd
  · exact ⟨_, _, _, _, rfl, .quiet rfl⟩

theorem get_outcome (ht : Table p.kvMaxEntries f.entries m)
    (hmax : state.header.maxEntries = p.kvMaxEntries) (key : List UInt8) (noZero : 0 ∉ key)
    (len : Nat) : ∃ r, (HandleOp.get key noZero len).act state (some f) =
      some (r, state, some f) := by
  unfold HandleOp.act
  dsimp only
  by_cases hkey : key.length > kvMaxKeyLen
  · rw [if_pos hkey]
    exact ⟨_, rfl⟩
  by_cases hlen : len = 0
  · rw [if_neg hkey, if_pos hlen]
    exact ⟨_, rfl⟩
  rw [if_neg hkey, if_neg hlen]
  rcases ht.find ⟨Nat.not_lt.mp hkey, noZero⟩ rfl with ⟨idx, hidx, b, vacant, hslot, hm, hfind⟩ |
    ⟨hm, ⟨idx, hidx, hslot, hreach, hfind⟩ | ⟨_, hfind⟩⟩
  all_goals
    rw [hmax, hfind]
    exact ⟨_, rfl⟩

theorem delete_outcome (ht : Table p.kvMaxEntries f.entries m)
    (hmax : state.header.maxEntries = p.kvMaxEntries) (key : List UInt8) (noZero : 0 ∉ key)
    (now : UInt64) : ∃ r state' f' m',
    (HandleOp.delete key noZero now).act state (some f) = some (r, state', some f') ∧
      Outcome p (.delete key noZero now) state f m state' f' m' := by
  unfold HandleOp.act
  dsimp only
  by_cases hkey : key.length > kvMaxKeyLen
  · rw [if_pos hkey]
    exact ⟨_, _, _, _, rfl, .quiet rfl⟩
  rw [if_neg hkey]
  rcases ht.find ⟨Nat.not_lt.mp hkey, noZero⟩ rfl with ⟨idx, hidx, b, vacant, hslot, hm, hfind⟩ |
    ⟨hm, ⟨idx, hidx, hslot, hreach, hfind⟩ | ⟨_, hfind⟩⟩
  all_goals rw [← hmax] at hfind; rw [hfind]
  · refine ⟨_, _, _, _, rfl, .write rfl ⟨Nat.not_lt.mp hkey, _, _, hfind⟩ rfl rfl rfl rfl rfl
      (ht.delete hidx hslot) fun hcount => ?_⟩
    have hkeys := Probing.ncard_erase ht.represents.finite (show m key ≠ none by rw [hm]; exact nofun)
    have hone : (1 : UInt32) ≤ state.header.entryCount := by
      rw [UInt32.le_iff_toNat_le, hcount]
      show 1 ≤ _
      omega
    have hsub : (state.header.entryCount - 1).toNat = (Probing.keys m).ncard - 1 := by
      rw [UInt32.toNat_sub_of_le _ _ hone, hcount]
      rfl
    exact hsub.trans (by omega)
  · exact ⟨_, _, _, _, rfl, .quiet rfl⟩
  · exact ⟨_, _, _, _, rfl, .quiet rfl⟩

/-- **One call.** On a sound table every call returns. -/
theorem act_outcome (ht : Table p.kvMaxEntries f.entries m)
    (hmax : state.header.maxEntries = p.kvMaxEntries) (op : HandleOp) : ∃ r state' f' m',
    op.act state (some f) = some (r, state', some f') ∧ Outcome p op state f m state' f' m' := by
  cases op with
  | put key value noZero now => exact put_outcome ht hmax key value noZero now
  | get key noZero len =>
    obtain ⟨r, hact⟩ := get_outcome ht hmax key noZero len
    exact ⟨r, state, f, m, hact, .quiet rfl⟩
  | delete key noZero now => exact delete_outcome ht hmax key noZero now
  | close now =>
    unfold HandleOp.act
    dsimp only
    by_cases hdirty : state.dirty = true
    · rw [if_pos hdirty]
      exact ⟨_, _, _, _, rfl, .close rfl rfl rfl rfl (if_pos hdirty).symm (if_pos hdirty).symm⟩
    · rw [if_neg hdirty]
      exact ⟨_, _, _, _, rfl, .close rfl rfl rfl rfl (if_neg hdirty).symm (if_neg hdirty).symm⟩

/-! ## clients -/

inductive Side where
  | first
  | second
  deriving DecidableEq

def Side.other : Side → Side
  | .first => .second
  | .second => .first

/-- a call of a client; `v` is the variable of the handle -/
inductive KvOp where
  | open (v : Nat) (ownerId : UInt8) (now : UInt64)
  | on (v : Nat) (op : HandleOp)

/-- the server, and the variables of the clients of the two namespaces -/
structure Session where
  store : KvStore
  vars : Side → Nat → Option Nat

namespace Session

def setVar (vars : Side → Nat → Option Nat) (side : Side) (v : Nat) (handle : Option Nat) :
    Side → Nat → Option Nat :=
  update vars side (update (vars side) v handle)

def step (p : Platform) (names : Side → List UInt8) (w : Session) (side : Side) :
    KvOp → Option (KvResult × Session)
  | .open v ownerId now =>
    match w.store.kvServerOpen p (names side) ownerId now with
    | (.ok handle, s) =>
      some (.status (.ok ()), { store := s, vars := setVar w.vars side v (some handle) })
    | (.error e, s) => some (.status (.error e), { w with store := s })
  | .on v op =>
    match w.vars side v with
    | none => some (.status (.error .notOpen), w)
    | some handle =>
      (w.store.handleCall p handle op).map fun (r, s) =>
        (r, { store := s, vars := if op.closes then setVar w.vars side v none else w.vars })

def run (p : Platform) (names : Side → List UInt8) :
    Session → List (Side × KvOp) → Option (List (Side × KvResult) × Session)
  | w, [] => some ([], w)
  | w, (side, op) :: calls =>
    (w.step p names side op).bind fun (r, w) =>
      (run p names w calls).map fun (rs, w) => ((side, r) :: rs, w)

end Session

/-! ## soundness -/

variable {names : Side → List UInt8} {w : Session}

/-- the handles of the clients are open, on their files, and no handle is in two variables -/
structure Bound (p : Platform) (names : Side → List UInt8) (w : Session) : Prop where
  isOpen : ∀ side v h, w.vars side v = some h → w.store.isOpen p h = true
  name : ∀ side v h, w.vars side v = some h →
    (w.store.handles h).filename = buildKvFilename (names side)
  once : ∀ side v side' v' h, w.vars side v = some h → w.vars side' v' = some h →
    side = side' ∧ v = v'

/-- the files of the namespaces are sound tables, and so are the ones that the handles expect -/
structure Sane (p : Platform) (names : Side → List UInt8) (s : KvStore) : Prop where
  file : ∀ side f, s.files (buildKvFilename (names side)) = some f →
    f.header.maxEntries = p.kvMaxEntries ∧ ∃ m, Table p.kvMaxEntries f.entries m
  handle : ∀ side h, s.isOpen p h = true → (s.handles h).filename = buildKvFilename (names side) →
    (s.handles h).header.maxEntries = p.kvMaxEntries ∧
      ∃ f, s.files (buildKvFilename (names side)) = some f

theorem isOpen_iff {h : Nat} :
    s.isOpen p h = true ↔ h < p.maxKvHandles ∧ (s.handles h).inUse = true := by
  unfold isOpen
  rw [Bool.and_eq_true, decide_eq_true_iff]

theorem handles_place_self (s : KvStore) (i : Nat) (g : List UInt8) (state : KvState)
    (file : Option KvFile) : (s.place i g state file).handles i = state :=
  update_self ..

theorem handles_place_of_ne (s : KvStore) {i h : Nat} (hne : h ≠ i) (g : List UInt8)
    (state : KvState) (file : Option KvFile) :
    (s.place i g state file).handles h = s.handles h :=
  update_of_ne hne ..

theorem files_place_self (s : KvStore) (i : Nat) (g : List UInt8) (state : KvState)
    (file : Option KvFile) : (s.place i g state file).files g = file :=
  update_self ..

theorem files_place_of_ne (s : KvStore) {g g' : List UInt8} (hne : g' ≠ g) (i : Nat)
    (state : KvState) (file : Option KvFile) :
    (s.place i g state file).files g' = s.files g' :=
  update_of_ne hne ..

theorem isOpen_place_of_ne {i h : Nat} (hne : h ≠ i) (g : List UInt8) (state : KvState)
    (file : Option KvFile) : (s.place i g state file).isOpen p h = s.isOpen p h := by
  unfold isOpen
  rw [handles_place_of_ne s hne]

theorem Sane.place (hs : Sane p names s) {i : Nat} {g : List UInt8} {state : KvState} {f : KvFile}
    (hname : state.filename = g)
    (hfile : f.header.maxEntries = p.kvMaxEntries ∧ ∃ m, Table p.kvMaxEntries f.entries m)
    (hstate : state.inUse = true → state.header.maxEntries = p.kvMaxEntries) :
    Sane p names (s.place i g state (some f)) := by
  have hexists {side : Side} {f' : KvFile} (hf' : s.files (buildKvFilename (names side)) = some f') :
      ∃ f', (s.place i g state (some f)).files (buildKvFilename (names side)) = some f' := by
    by_cases heq : buildKvFilename (names side) = g
    · rw [heq, files_place_self]
      exact ⟨f, rfl⟩
    · rw [files_place_of_ne s heq]
      exact ⟨f', hf'⟩
  refine ⟨fun side f' hf' => ?_, fun side h hopen hside => ?_⟩
  · by_cases heq : buildKvFilename (names side) = g
    · rw [heq, files_place_self] at hf'
      obtain rfl := Option.some.inj hf'
      exact hfile
    · rw [files_place_of_ne s heq] at hf'
      exact hs.file side f' hf'
  · by_cases heq : h = i
    · subst heq
      have hin := (isOpen_iff.mp hopen).2
      rw [handles_place_self] at hin hside ⊢
      refine ⟨hstate hin, f, ?_⟩
      rw [← hside, hname, files_place_self]
    · rw [isOpen_place_of_ne heq] at hopen
      rw [handles_place_of_ne s heq] at hside ⊢
      obtain ⟨hmax, f', hf'⟩ := hs.handle side h hopen hside
      exact ⟨hmax, hexists hf'⟩

/-! ## opening -/

/-- what `ekkdb_kv_server_open` puts into a free handle and its file -/
def openAct (p : Platform) (namespaceName : List UInt8) (ownerId : UInt8) (now : UInt64) :
    Option KvFile → Except DbErr Unit × KvState × KvFile
  | some file =>
    let state : KvState :=
      { KvState.zero with
        ownerId := ownerId
        namespaceName := fieldOf 13 kvMaxNamespace namespaceName
        filename := buildKvFilename namespaceName
        header := file.header }
    if file.header.magic ≠ kvMagic then (.error .corrupt, state, file)
    else if headerCrc file.header ≠ file.header.crc32 then (.error .corrupt, state, file)
    else (.ok (), { state with inUse := true }, file)
  | none =>
    let header := KvHeader.sealed
      { KvState.zero.header with
        magic := kvMagic
        version := 1
        entryCount := 0
        maxEntries := p.kvMaxEntries
        ownerId := ownerId
        created := now
        modified := now
        namespaceName := fieldOf 16 15 namespaceName }
    (.ok (),
      { KvState.zero with
        ownerId := ownerId
        namespaceName := fieldOf 13 kvMaxNamespace namespaceName
        filename := buildKvFilename namespaceName
        header := header
        inUse := true },
      ⟨header, fun _ => KvEntry.empty⟩)

/-- a name that the server accepts -/
structure ValidName (name : List UInt8) : Prop where
  nonempty : name.length ≠ 0
  short : name.length ≤ kvMaxNamespace

theorem open_full {name : List UInt8} (hname : ValidName name)
    (hfull : ∀ h < p.maxKvHandles, (s.handles h).inUse = true) (ownerId : UInt8) (now : UInt64) :
    s.kvServerOpen p name ownerId now = (.error .full, s) := by
  have hnone : ((List.range p.maxKvHandles).find? fun i => !(s.handles i).inUse) = none :=
    List.find?_eq_none.mpr fun h hh => by
      rw [hfull h (List.mem_range.mp hh)]
      exact Bool.false_ne_true
  unfold kvServerOpen
  rw [if_neg hname.nonempty, if_neg (Nat.not_lt.mpr hname.short), hnone]

theorem open_eq {name : List UInt8} (hname : ValidName name) {free : Nat}
    (hlimit : free < p.maxKvHandles) (hfree : (s.handles free).inUse = false) (ownerId : UInt8)
    (now : UInt64) : ∃ i < p.maxKvHandles, (s.handles i).inUse = false ∧
      s.kvServerOpen p name ownerId now =
        (let (r, state, f) := openAct p name ownerId now (s.files (buildKvFilename name))
         (r.map fun _ => i, s.place i (buildKvFilename name) state (some f))) := by
  obtain ⟨i, hi, hin, hfind⟩ := find_free (fun i => (s.handles i).inUse) hlimit hfree
  refine ⟨i, hi, hin, ?_⟩
  unfold kvServerOpen openAct
  rw [if_neg hname.nonempty, if_neg (Nat.not_lt.mpr hname.short), hfind]
  dsimp only
  cases hfile : s.files (buildKvFilename name) with
  | none => rfl
  | some f =>
    have hself (state : KvState) : s.setHandle i state =
        s.place i (buildKvFilename name) state (some f) := by
      unfold setHandle place
      rw [← hfile, update_eq_self]
    dsimp only
    split_ifs
    · exact congrArg (Prod.mk _) (hself _)
    · exact congrArg (Prod.mk _) (hself _)
    · exact congrArg (Prod.mk _) (hself _)

theorem openAct_spec (name : List UInt8) (ownerId : UInt8) (now : UInt64) (file : Option KvFile) :
    (openAct p name ownerId now file).2.1.filename = buildKvFilename name ∧
      (openAct p name ownerId now file).2.1.header = (openAct p name ownerId now file).2.2.header ∧
      (openAct p name ownerId now file).2.1.dirty = false ∧
      ((openAct p name ownerId now file).1 = .ok () ∧
          (openAct p name ownerId now file).2.1.inUse = true ∨
        (∃ e, (openAct p name ownerId now file).1 = .error e) ∧
          (openAct p name ownerId now file).2.1.inUse = false) := by
  unfold openAct
  cases file with
  | none => exact ⟨rfl, rfl, rfl, .inl ⟨rfl, rfl⟩⟩
  | some f =>
    dsimp only
    split_ifs
    · exact ⟨rfl, rfl, rfl, .inr ⟨⟨_, rfl⟩, rfl⟩⟩
    · exact ⟨rfl, rfl, rfl, .inr ⟨⟨_, rfl⟩, rfl⟩⟩
    · exact ⟨rfl, rfl, rfl, .inl ⟨rfl, rfl⟩⟩

end Db
end EkKor
