import EkKor.Db.Isolation

/-!
# The count of keys in the file of a namespace

Every handle has a copy of the header, and the one that was changed is written back when its handle is
closed.

* `WriteOk`          a handle is written through only while its copy of the header is the valid one;
* `CountKept`        then at most one copy is changed, and it counts the keys;
* `kv_namespaces_isolated`   the results of two namespaces, and the count in their files.
-/

namespace EkKor
namespace Db
open KvStore Session

variable {p : Platform} {names : Side → List UInt8} {w : Session} {side : Side} {s : KvStore}

def OnFile (p : Platform) (s : KvStore) (g : List UInt8) (h : Nat) : Prop :=
  s.isOpen p h = true ∧ (s.handles h).filename = g

/-- a call that writes an entry finds no other handle on the file with a changed header, and the header
of its own handle is changed or still counts what the one in the file counts -/
def WriteOk (p : Platform) (s : KvStore) (h : Nat) (op : HandleOp) : Prop :=
  ∀ f, s.files (s.handles h).filename = some f → op.Writes (s.handles h) f →
    (∀ h', h' ≠ h → OnFile p s (s.handles h).filename h' → (s.handles h').dirty = false) ∧
      ((s.handles h).dirty = true ∨ (s.handles h).header.entryCount = f.header.entryCount)

/-- the changed header counts the keys, and when there is none the header in the file does -/
structure CountKept (p : Platform) (s : KvStore) (g : List UInt8) (f : KvFile) (m : FiniteMap) :
    Prop where
  table : Table p.kvMaxEntries f.entries m
  changed : ∀ h, OnFile p s g h → (s.handles h).dirty = true →
    (s.handles h).header.entryCount.toNat = (Probing.keys m).ncard
  once : ∀ h h', OnFile p s g h → OnFile p s g h' → (s.handles h).dirty = true →
    (s.handles h').dirty = true → h = h'
  kept : (∀ h, OnFile p s g h → (s.handles h).dirty = false) →
    f.header.entryCount.toNat = (Probing.keys m).ncard

def Counted (p : Platform) (names : Side → List UInt8) (s : KvStore) : Prop :=
  ∀ side f, s.files (buildKvFilename (names side)) = some f →
    ∃ m, CountKept p s (buildKvFilename (names side)) f m

/-! ## one call -/

section
variable {i : Nat} {g : List UInt8} {state : KvState} {f : KvFile} {m : FiniteMap}

theorem onFile_place_of_ne {h : Nat} (hne : h ≠ i) {file : Option KvFile} {g' : List UInt8} :
    OnFile p (s.place i g state file) g' h ↔ OnFile p s g' h := by
  unfold OnFile
  rw [isOpen_place_of_ne hne, handles_place_of_ne _ hne]

theorem CountKept.placeOther {g' : List UInt8} (hc : CountKept p s g' f m) (hne : g' ≠ g)
    (hname : state.filename = g) (hold : s.isOpen p i = true → (s.handles i).filename = g)
    {file : Option KvFile} : CountKept p (s.place i g state file) g' f m := by
  have hi {h : Nat} (hon : OnFile p (s.place i g state file) g' h) : h ≠ i := by
    rintro rfl
    have hfile := hon.2
    rw [handles_place_self, hname] at hfile
    exact hne hfile.symm
  have hback {h : Nat} (hon : OnFile p s g' h) : h ≠ i := by
    rintro rfl
    exact hne (hon.2.symm.trans (hold hon.1))
  refine ⟨hc.table, fun h hon hdirty => ?_, fun h h' hon hon' hdirty hdirty' => ?_, fun hclean => ?_⟩
  · rw [handles_place_of_ne _ (hi hon)] at hdirty ⊢
    exact hc.changed h ((onFile_place_of_ne (hi hon)).mp hon) hdirty
  · rw [handles_place_of_ne _ (hi hon)] at hdirty
    rw [handles_place_of_ne _ (hi hon')] at hdirty'
    exact hc.once h h' ((onFile_place_of_ne (hi hon)).mp hon)
      ((onFile_place_of_ne (hi hon')).mp hon') hdirty hdirty'
  · refine hc.kept fun h hon => ?_
    have hcleanH := hclean h ((onFile_place_of_ne (hback hon)).mpr hon)
    rwa [handles_place_of_ne _ (hback hon)] at hcleanH

theorem CountKept.on {op : HandleOp} {h : Nat} {state' : KvState} {f' : KvFile} {m' : FiniteMap}
    (hc : CountKept p s g f m) (hon : OnFile p s g h) (hfile : s.files g = some f)
    (hok : WriteOk p s h op) (hout : Outcome p op (s.handles h) f m state' f' m') :
    CountKept p (s.place h g state' (some f')) g f' m' := by
  have hself : (s.place h g state' (some f')).handles h = state' := handles_place_self ..
  have hothers {k : Nat} (hne : k ≠ h) :
      (s.place h g state' (some f')).handles k = s.handles k := handles_place_of_ne _ hne ..
  cases hout with
  | quiet =>
    have hsame : s.place h g (s.handles h) (some f) = s := by
      rw [← hfile]
      exact place_self s h g
    rw [hsame]
    exact hc
  | write _ hwrites _ hdirty hin hname _ htable hcount =>
    obtain ⟨hclean, hcurrent⟩ := hok f (by rw [hon.2]; exact hfile) hwrites
    rw [hon.2] at hclean
    -- the header of the handle counted the keys
    have hbefore : (s.handles h).header.entryCount.toNat = (Probing.keys m).ncard := by
      cases hd : (s.handles h).dirty with
      | true => exact hc.changed h hon hd
      | false =>
        rw [hd] at hcurrent
        rw [hcurrent.resolve_left Bool.false_ne_true]
        refine hc.kept fun k hk => ?_
        by_cases hkh : k = h
        · rw [hkh, hd]
        · exact hclean k hkh hk
    have honly {k : Nat} (hk : OnFile p (s.place h g state' (some f')) g k)
        (hd : ((s.place h g state' (some f')).handles k).dirty = true) : k = h := by
      by_contra hkh
      rw [hothers hkh, hclean k hkh ((onFile_place_of_ne hkh).mp hk)] at hd
      cases hd
    refine ⟨htable, fun k hk hd => ?_, fun k k' hk hk' hd hd' => ?_, fun hall => ?_⟩
    · rw [honly hk hd, hself]
      exact hcount hbefore
    · rw [honly hk hd, honly hk' hd']
    · have hopen := isOpen_iff.mp hon.1
      have hcleanH := hall h ⟨isOpen_iff.mpr ⟨hopen.1, by rw [hself, hin]; exact hopen.2⟩,
        by rw [hself, hname]; exact hon.2⟩
      rw [hself, hdirty] at hcleanH
      cases hcleanH
  | close _ hfree _ hentries _ hcount =>
    have hgone {k : Nat} (hk : OnFile p (s.place h g state' (some f')) g k) : k ≠ h := by
      rintro rfl
      have hin := (isOpen_iff.mp hk.1).2
      rw [hself, hfree] at hin
      cases hin
    refine ⟨by rw [hentries]; exact hc.table, fun k hk hd => ?_, fun k k' hk hk' hd hd' => ?_,
      fun hall => ?_⟩
    · rw [hothers (hgone hk)] at hd ⊢
      exact hc.changed k ((onFile_place_of_ne (hgone hk)).mp hk) hd
    · rw [hothers (hgone hk)] at hd
      rw [hothers (hgone hk')] at hd'
      exact hc.once k k' ((onFile_place_of_ne (hgone hk)).mp hk)
        ((onFile_place_of_ne (hgone hk')).mp hk') hd hd'
    · rw [hcount]
      cases hd : (s.handles h).dirty with
      | true => exact hc.changed h hon hd
      | false =>
        refine hc.kept fun k hk => ?_
        by_cases hkh : k = h
        · rw [hkh, hd]
        · have hcleanK := hall k ((onFile_place_of_ne hkh).mpr hk)
          rwa [hothers hkh] at hcleanK

theorem CountKept.open (hc : CountKept p s g f m) (hfree : (s.handles i).inUse = false)
    (hclean : state.dirty = false) : CountKept p (s.place i g state (some f)) g f m := by
  have hi {h : Nat} (hon : OnFile p s g h) : h ≠ i := by
    rintro rfl
    rw [(isOpen_iff.mp hon.1).2] at hfree
    cases hfree
  have hdirtyNe {h : Nat} (hd : ((s.place i g state (some f)).handles h).dirty = true) : h ≠ i := by
    rintro rfl
    rw [handles_place_self, hclean] at hd
    cases hd
  refine ⟨hc.table, fun h hon hd => ?_, fun h h' hon hon' hd hd' => ?_, fun hall => ?_⟩
  · have hne := hdirtyNe hd
    rw [handles_place_of_ne _ hne] at hd ⊢
    exact hc.changed h ((onFile_place_of_ne hne).mp hon) hd
  · have hne := hdirtyNe hd
    have hne' := hdirtyNe hd'
    rw [handles_place_of_ne _ hne] at hd
    rw [handles_place_of_ne _ hne'] at hd'
    exact hc.once h h' ((onFile_place_of_ne hne).mp hon) ((onFile_place_of_ne hne').mp hon') hd hd'
  · refine hc.kept fun h hon => ?_
    have hcleanH := hall h ((onFile_place_of_ne (hi hon)).mpr hon)
    rwa [handles_place_of_ne _ (hi hon)] at hcleanH

theorem countKept_create (hfree : ∀ h, ¬OnFile p s g h) (hclean : state.dirty = false)
    {f : KvFile} (hentries : f.entries = fun _ => KvEntry.empty) (hcount : f.header.entryCount = 0) :
    CountKept p (s.place i g state (some f)) g f fun _ => none := by
  have honly {h : Nat} (hon : OnFile p (s.place i g state (some f)) g h) : h = i := by
    by_contra hne
    exact hfree h ((onFile_place_of_ne hne).mp hon)
  have hcleanH {h : Nat} (hon : OnFile p (s.place i g state (some f)) g h) :
      ((s.place i g state (some f)).handles h).dirty = false := by
    rw [honly hon, handles_place_self]
    exact hclean
  refine ⟨?_, fun h hon hd => ?_, fun h h' hon _ hd _ => ?_, fun _ => ?_⟩
  · rw [hentries]
    exact table_empty (kvMaxEntries_pos p)
  · rw [hcleanH hon] at hd
    cases hd
  · rw [hcleanH hon] at hd
    cases hd
  · have hnone : Probing.keys (fun _ => none : FiniteMap) = ∅ :=
      Set.eq_empty_of_forall_notMem fun _ h => h rfl
    rw [hcount, hnone, Set.ncard_empty]
    rfl

end

theorem openAct_some (name : List UInt8) (ownerId : UInt8) (now : UInt64) (f : KvFile) :
    (openAct p name ownerId now (some f)).2.2 = f := by
  unfold openAct
  dsimp only
  split_ifs <;> rfl

theorem counted_open (side : Side) (hs : Sane p names s) (hc : Counted p names s) {i : Nat}
    (hfree : (s.handles i).inUse = false) (ownerId : UInt8) (now : UInt64) :
    Counted p names (s.place i (buildKvFilename (names side))
      (openAct p (names side) ownerId now (s.files (buildKvFilename (names side)))).2.1
      (some (openAct p (names side) ownerId now (s.files (buildKvFilename (names side)))).2.2)) := by
  obtain ⟨hname, _, hclean, _⟩ := openAct_spec (p := p) (names side) ownerId now
    (s.files (buildKvFilename (names side)))
  intro side' f hf
  by_cases hsame : buildKvFilename (names side') = buildKvFilename (names side)
  · rw [hsame, files_place_self] at hf
    obtain rfl := Option.some.inj hf
    rw [hsame]
    cases hfile : s.files (buildKvFilename (names side)) with
    | none =>
      rw [hfile] at hclean
      refine ⟨_, countKept_create (fun h hon => ?_) hclean rfl rfl⟩
      obtain ⟨_, f, hf⟩ := hs.handle side h hon.1 hon.2
      rw [hfile] at hf
      cases hf
    | some f =>
      rw [hfile] at hclean
      obtain ⟨m, hkept⟩ := hc side f hfile
      rw [openAct_some]
      exact ⟨m, hkept.open hfree hclean⟩
  · rw [files_place_of_ne _ hsame] at hf
    obtain ⟨m, hkept⟩ := hc side' f hf
    refine ⟨m, hkept.placeOther hsame hname fun hopen => ?_⟩
    rw [(isOpen_iff.mp hopen).2] at hfree
    cases hfree

/-- **One call.** -/
theorem counted_step (hb : Bound p names w) (hs : Sane p names w.store)
    (hc : Counted p names w.store) (hname : ValidName (names side)) {op : KvOp} {r : KvResult}
    {w' : Session} (hstep : w.step p names side op = some (r, w'))
    (hok : ∀ v h op', op = .on v op' → w.vars side v = some h → WriteOk p w.store h op') :
    Counted p names w'.store := by
  cases op with
  | «open» v ownerId now =>
    unfold Session.step at hstep
    dsimp only at hstep
    by_cases hfree : ∃ i < p.maxKvHandles, (w.store.handles i).inUse = false
    · obtain ⟨free, hlimit, hin⟩ := hfree
      obtain ⟨i, _, hifree, hopen⟩ := open_eq hname hlimit hin ownerId now
      have hcounted := counted_open side hs hc hifree ownerId now
      rw [hopen] at hstep
      generalize openAct p (names side) ownerId now
        (w.store.files (buildKvFilename (names side))) = act at *
      obtain ⟨r', state, f⟩ := act
      cases r' with
      | error e =>
        obtain ⟨rfl, rfl⟩ := Prod.mk.inj (Option.some.inj hstep)
        exact hcounted
      | ok _ =>
        obtain ⟨rfl, rfl⟩ := Prod.mk.inj (Option.some.inj hstep)
        exact hcounted
    · have hfull (h : Nat) (hh : h < p.maxKvHandles) : (w.store.handles h).inUse = true := by
        by_contra hin
        exact hfree ⟨h, hh, Bool.eq_false_iff.mpr hin⟩
      rw [open_full hname hfull] at hstep
      obtain ⟨rfl, rfl⟩ := Prod.mk.inj (Option.some.inj hstep)
      exact hc
  | on v op =>
    cases hv : w.vars side v with
    | none =>
      unfold Session.step at hstep
      dsimp only at hstep
      rw [hv] at hstep
      obtain ⟨rfl, rfl⟩ := Prod.mk.inj (Option.some.inj hstep)
      exact hc
    | some h =>
      have hon : OnFile p w.store (buildKvFilename (names side)) h :=
        ⟨hb.isOpen side v h hv, hb.name side v h hv⟩
      obtain ⟨hmax, f, hf⟩ := hs.handle side h hon.1 hon.2
      obtain ⟨m, hkept⟩ := hc side f hf
      obtain ⟨r', state, f', m', _, hout, hwstep⟩ := step_on hb hv hf hkept.table hmax op
      rw [hwstep] at hstep
      obtain ⟨rfl, rfl⟩ := Prod.mk.inj (Option.some.inj hstep)
      intro side' f'' hf''
      by_cases hsame : buildKvFilename (names side') = buildKvFilename (names side)
      · rw [hsame, files_place_self] at hf''
        obtain rfl := Option.some.inj hf''
        rw [hsame]
        exact ⟨m', hkept.on hon hf (hok v h op rfl hv) hout⟩
      · rw [files_place_of_ne _ hsame] at hf''
        obtain ⟨m'', hkept'⟩ := hc side' f'' hf''
        exact ⟨m'', hkept'.placeOther hsame (hout.name.trans hon.2) fun _ => hon.2⟩

/-! ## runs -/

def WritesOk (p : Platform) (names : Side → List UInt8) : Session → List (Side × KvOp) → Prop
  | _, [] => True
  | w, (side, op) :: calls =>
    (∀ v h op', op = .on v op' → w.vars side v = some h → WriteOk p w.store h op') ∧
      ∀ r w', w.step p names side op = some (r, w') → WritesOk p names w' calls

theorem counted_run (hb : Bound p names w) (hs : Sane p names w.store)
    (hc : Counted p names w.store) (hvalid : ∀ side, ValidName (names side))
    {calls : List (Side × KvOp)} (hok : WritesOk p names w calls) : ∃ rs w',
    w.run p names calls = some (rs, w') ∧ Counted p names w'.store := by
  induction calls generalizing w with
  | nil => exact ⟨[], w, rfl, hc⟩
  | cons call calls ih =>
    obtain ⟨side, op⟩ := call
    obtain ⟨hwrite, hrest⟩ := hok
    obtain ⟨r, w', hstep, hb', hs'⟩ := step_total hb hs (hvalid side) op
    obtain ⟨rs, w'', hrun, hc'⟩ := ih hb' hs' (counted_step hb hs hc (hvalid side) hstep hwrite)
      (hrest r w' hstep)
    refine ⟨(side, r) :: rs, w'', ?_, hc'⟩
    rw [run_cons hstep, hrun]
    rfl

def keysOf (p : Platform) (f : KvFile) : Set (List UInt8) :=
  {key | ∃ i < p.kvMaxEntries, ∃ b, slotOf (f.entries i) = .used key b}

theorem Table.keys_eq {f : KvFile} {m : FiniteMap} (ht : Table p.kvMaxEntries f.entries m) :
    Probing.keys m = keysOf p f := by
  ext key
  constructor
  · intro hkey
    obtain ⟨b, hb⟩ := Option.ne_none_iff_exists'.mp hkey
    obtain ⟨i, hi, hused⟩ := (ht.represents key b).mp hb
    have hofNat : (UInt32.ofNat i).toNat = i :=
      Nat.mod_eq_of_lt (Nat.lt_trans hi p.kvMaxEntries.toNat_lt)
    refine ⟨UInt32.ofNat i, UInt32.lt_iff_toNat_lt.mpr (hofNat.trans_lt hi), b, ?_⟩
    rw [← slots_toNat, hofNat]
    exact hused
  · rintro ⟨i, hi, b, hslot⟩
    have hm := (ht.represents key b).mpr
      ⟨i.toNat, UInt32.lt_iff_toNat_lt.mp hi, (slots_toNat ..).trans hslot⟩
    show m key ≠ none
    rw [hm]
    exact nofun

theorem buildKvFilename_eq_iff (a b : List UInt8) :
    buildKvFilename a = buildKvFilename b ↔ a.take 8 = b.take 8 := by
  unfold buildKvFilename
  rw [List.append_cancel_right_eq, List.append_cancel_left_eq]

/-- **Main.** Two namespaces without files are used in any order. When their names differ in the first
eight bytes and every open of one side finds room, its results are the ones that it gets alone. When
every handle is written through only while its header is the valid one, and none of the open ones is
changed, the header in a file counts its keys. -/
theorem kv_namespaces_isolated (hvalid : ∀ side, ValidName (names side))
    (hfiles : ∀ side, s.files (buildKvFilename (names side)) = none)
    (hhandles : ∀ side h, s.isOpen p h = true →
      (s.handles h).filename ≠ buildKvFilename (names side)) :
    ((names .first).take 8 ≠ (names .second).take 8 →
      ∀ side calls, RoomAlways p names side ⟨s, fun _ _ => none⟩ calls → ∃ rs w u,
        Session.run p names ⟨s, fun _ _ => none⟩ calls = some (rs, w) ∧
          Session.run p names ⟨s, fun _ _ => none⟩ (calls.filter fun c => c.1 = side) =
            some (rs.filter (fun r => r.1 = side), u)) ∧
    ∀ calls, WritesOk p names ⟨s, fun _ _ => none⟩ calls → ∃ rs w,
      Session.run p names ⟨s, fun _ _ => none⟩ calls = some (rs, w) ∧
        ∀ side f, w.store.files (buildKvFilename (names side)) = some f →
          (∀ h, OnFile p w.store (buildKvFilename (names side)) h →
            (w.store.handles h).dirty = false) →
          f.header.entryCount.toNat = (keysOf p f).ncard := by
  have hb : Bound p names ⟨s, fun _ _ => none⟩ := ⟨nofun, nofun, nofun⟩
  have hs : Sane p names s :=
    ⟨fun side f hf => absurd ((hfiles side).symm.trans hf) nofun,
      fun side h hopen hname => absurd hname (hhandles side h hopen)⟩
  refine ⟨fun hnames side calls hroom => ?_, fun calls hok => ?_⟩
  · have hr : Related p names side id ⟨s, fun _ _ => none⟩ ⟨s, fun _ _ => none⟩ :=
      ⟨fun _ _ => rfl, fun h hopen => ⟨hopen, rfl, hhandles _ h hopen⟩, fun _ _ _ _ h => h,
        fun h hopen _ => ⟨h, hopen, rfl⟩, fun _ => rfl⟩
    refine hr.run hb hb hs hs ?_ hvalid hroom
    rw [Ne, buildKvFilename_eq_iff]
    cases side with
    | first => exact hnames
    | second => exact fun h => hnames h.symm
  · have hc : Counted p names s := fun side f hf =>
      absurd ((hfiles side).symm.trans hf) nofun
    obtain ⟨rs, w, hrun, hc'⟩ := counted_run hb hs hc hvalid hok
    refine ⟨rs, w, hrun, fun side f hf hclean => ?_⟩
    obtain ⟨m, hkept⟩ := hc' side f hf
    rw [← hkept.table.keys_eq]
    exact hkept.kept hclean

def namesOf (a b : List UInt8) : Side → List UInt8
  | .first => a
  | .second => b

/-- the namespaces "a" and "b" on a server without files -/
theorem kv_namespaces_isolated_first :
    ((namesOf [0x61] [0x62] .first).take 8 ≠ (namesOf [0x61] [0x62] .second).take 8 →
      ∀ side calls, RoomAlways .other (namesOf [0x61] [0x62]) side
        ⟨emptyStore, fun _ _ => none⟩ calls → ∃ rs w u,
        Session.run .other (namesOf [0x61] [0x62]) ⟨emptyStore, fun _ _ => none⟩ calls =
            some (rs, w) ∧
          Session.run .other (namesOf [0x61] [0x62]) ⟨emptyStore, fun _ _ => none⟩
            (calls.filter fun c => c.1 = side) = some (rs.filter (fun r => r.1 = side), u)) ∧
    ∀ calls, WritesOk .other (namesOf [0x61] [0x62]) ⟨emptyStore, fun _ _ => none⟩ calls →
      ∃ rs w, Session.run .other (namesOf [0x61] [0x62]) ⟨emptyStore, fun _ _ => none⟩ calls =
          some (rs, w) ∧
        ∀ side f, w.store.files (buildKvFilename (namesOf [0x61] [0x62] side)) = some f →
          (∀ h, OnFile .other w.store (buildKvFilename (namesOf [0x61] [0x62] side)) h →
            (w.store.handles h).dirty = false) →
          f.header.entryCount.toNat = (keysOf .other f).ncard :=
  kv_namespaces_isolated (fun side => by cases side <;> exact ⟨by decide, by decide⟩)
    (fun _ => rfl) (fun _ _ hopen => absurd (isOpen_iff.mp hopen).2 Bool.false_ne_true)

def longName (digit : UInt8) : List UInt8 :=
  [0x6C, 0x6F, 0x6E, 0x67, 0x6E, 0x61, 0x6D, 0x65, digit]

def resultsOf (calls : List (Side × KvOp)) : Option (List (Side × KvResult)) :=
  (Session.run .other (namesOf (longName 0x31) (longName 0x32)) ⟨emptyStore, fun _ _ => none⟩
    calls).map Prod.fst

def countOf (calls : List (Side × KvOp)) : Option UInt32 :=
  (Session.run .other (namesOf (longName 0x31) (longName 0x32)) ⟨emptyStore, fun _ _ => none⟩
    calls).bind fun x =>
      (x.2.store.files (buildKvFilename (longName 0x31))).map fun f => f.header.entryCount

def putK (v : Nat) : KvOp := .on v (.put [0x6B] [0x76] (by decide) 0)

def putL (v : Nat) : KvOp := .on v (.put [0x6C] [0x77] (by decide) 0)

def getK (v : Nat) : KvOp := .on v (.get [0x6B] (by decide) 14)

def getL (v : Nat) : KvOp := .on v (.get [0x6C] (by decide) 14)

/-- a key that is put in "longname2" is there in "longname1", and after puts through two handles of one
namespace its file counts one key of two -/
theorem kv_namespaces_interfere :
    resultsOf [(.first, .open 0 1 0), (.second, .open 0 2 0), (.second, putK 0), (.first, getK 0)] =
        some [(.first, .status (.ok ())), (.second, .status (.ok ())),
          (.second, .status (.ok ())), (.first, .value (.ok ([0x76], 1)))] ∧
      resultsOf [(.first, .open 0 1 0), (.first, getK 0)] =
        some [(.first, .status (.ok ())), (.first, .value (.error .notFound))] ∧
    countOf [(.first, .open 0 1 0), (.first, .open 1 1 0), (.first, putK 0), (.first, putL 1),
        (.first, .on 0 (.close 0)), (.first, .on 1 (.close 0))] = some 1 ∧
      resultsOf [(.first, .open 0 1 0), (.first, .open 1 1 0), (.first, putK 0), (.first, putL 1),
        (.first, getK 1), (.first, getL 0)] =
        some [(.first, .status (.ok ())), (.first, .status (.ok ())), (.first, .status (.ok ())),
          (.first, .status (.ok ())), (.first, .value (.ok ([0x76], 1))),
          (.first, .value (.ok ([0x77], 1)))] := by
  decide +kernel

end Db
end EkKor
