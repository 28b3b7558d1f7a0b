import EkKor.Db.Session
import Mathlib.Data.Finset.Card

/-!
# Namespaces are isolated

* `step_total`       every call returns, and the clients keep their handles;
* `Related`          two servers, one of them without the other side: their handles correspond;
* `Related.on`, `Related.open`, `Related.other`   the calls of the two sides;
* `Related.run`      the results of one side do not depend on the other side.
-/

namespace EkKor
namespace Db
open KvStore Session

variable {p : Platform} {names : Side → List UInt8} {w u : Session} {side : Side}

/-! ## every call returns -/

variable {file : Option KvFile} {vars : Side → Nat → Option Nat} {v : Nat} {r : KvResult}
  {w' : Session}

theorem openAct_sane (name : List UInt8) (h : ∀ f, file = some f → f.header.maxEntries =
    p.kvMaxEntries ∧ ∃ m, Table p.kvMaxEntries f.entries m) (ownerId : UInt8) (now : UInt64) :
    (openAct p name ownerId now file).2.2.header.maxEntries = p.kvMaxEntries ∧
      ∃ m, Table p.kvMaxEntries (openAct p name ownerId now file).2.2.entries m := by
  unfold openAct
  cases file with
  | none => exact ⟨rfl, _, table_empty (kvMaxEntries_pos p)⟩
  | some f =>
    dsimp only
    split_ifs
    · exact h f rfl
    · exact h f rfl
    · exact h f rfl

theorem setVar_eq (vars : Side → Nat → Option Nat) (side side' : Side) (v v' : Nat)
    (handle : Option Nat) : setVar vars side v handle side' v' =
      if side' = side ∧ v' = v then handle else vars side' v' := by
  unfold setVar
  by_cases hside : side' = side
  · subst hside
    rw [Function.update_self]
    by_cases hv : v' = v
    · rw [hv, Function.update_self, if_pos ⟨rfl, rfl⟩]
    · rw [Function.update_of_ne hv, if_neg fun h => hv h.2]
  · rw [Function.update_of_ne hside, if_neg fun h => hside h.1]

theorem Bound.place (hb : Bound p names w) (side : Side) (v : Nat) {i : Nat} {g : List UInt8}
    {state : KvState} (hvars : ∀ side' v' h, vars side' v' = some h → w.vars side' v' = some h ∧ h ≠
    i ∨ h = i ∧ side' = side ∧ v' = v ∧ i < p.maxKvHandles ∧ state.inUse = true ∧ state.filename =
    buildKvFilename (names side)) : Bound p names ⟨w.store.place i g state file, vars⟩ := by
  refine ⟨fun side' v' h hv' => ?_, fun side' v' h hv' => ?_, fun side₁ v₁ side₂ v₂ h h₁ h₂ => ?_⟩
  · rcases hvars side' v' h hv' with ⟨hold, hne⟩ | ⟨rfl, rfl, rfl, hlimit, hin, _⟩
    · exact (isOpen_place_of_ne hne ..).trans (hb.isOpen side' v' h hold)
    · refine isOpen_iff.mpr ⟨hlimit, ?_⟩
      rw [handles_place_self]
      exact hin
  · rcases hvars side' v' h hv' with ⟨hold, hne⟩ | ⟨rfl, rfl, rfl, _, _, hname⟩
    · exact (congrArg KvState.filename (handles_place_of_ne _ hne ..)).trans
        (hb.name side' v' h hold)
    · exact (congrArg KvState.filename (handles_place_self ..)).trans hname
  · rcases hvars _ _ h h₁ with ⟨hold₁, hne₁⟩ | ⟨rfl, rfl, rfl, _⟩
    · rcases hvars _ _ h h₂ with ⟨hold₂, _⟩ | ⟨rfl, _⟩
      · exact hb.once _ _ _ _ h hold₁ hold₂
      · exact absurd rfl hne₁
    · rcases hvars _ _ h h₂ with ⟨_, hne₂⟩ | ⟨_, rfl, rfl, _⟩
      · exact absurd rfl hne₂
      · exact ⟨rfl, rfl⟩

def varsAfter (w : Session) (side : Side) (v : Nat) (op : HandleOp) : Side → Nat → Option Nat :=
  if op.closes then setVar w.vars side v none else w.vars

theorem step_on (hb : Bound p names w) {h : Nat} (hv : w.vars side v = some h) {f : KvFile}
    {m : FiniteMap} (hf : w.store.files (buildKvFilename (names side)) = some f)
    (ht : Table p.kvMaxEntries f.entries m)
    (hmax : (w.store.handles h).header.maxEntries = p.kvMaxEntries) (op : HandleOp) :
    ∃ r state f' m', op.act (w.store.handles h) (some f) = some (r, state, some f') ∧
      Outcome p op (w.store.handles h) f m state f' m' ∧
      w.step p names side (.on v op) = some (r,
        ⟨w.store.place h (buildKvFilename (names side)) state (some f'), varsAfter w side v op⟩) := by
  obtain ⟨r, state, f', m', hact, hout⟩ := act_outcome ht hmax op
  refine ⟨r, state, f', m', hact, hout, ?_⟩
  unfold Session.step
  dsimp only
  rw [hv]
  dsimp only
  rw [handleCall_eq (hb.isOpen side v h hv), hb.name side v h hv, hf, hact]
  rfl

theorem file_of_bound (hb : Bound p names w) (hs : Sane p names w.store) {h : Nat}
    (hv : w.vars side v = some h) : ∃ f m,
    w.store.files (buildKvFilename (names side)) = some f ∧
      f.header.maxEntries = p.kvMaxEntries ∧ Table p.kvMaxEntries f.entries m ∧
      (w.store.handles h).header.maxEntries = p.kvMaxEntries := by
  obtain ⟨hmax, f, hf⟩ := hs.handle side h (hb.isOpen side v h hv) (hb.name side v h hv)
  obtain ⟨hfmax, m, ht⟩ := hs.file side f hf
  exact ⟨f, m, hf, hfmax, ht, hmax⟩

section
variable {op : HandleOp} {state state' : KvState} {f f' : KvFile} {m m' : FiniteMap}

theorem Outcome.name (h : Outcome p op state f m state' f' m') :
    state'.filename = state.filename := by
  cases h with
  | quiet => rfl
  | write _ _ _ _ _ hname => exact hname
  | close _ _ hname => exact hname

theorem Outcome.inUse_of_stays (h : Outcome p op state f m state' f' m')
    (hstays : op.closes = false) : state'.inUse = state.inUse := by
  cases h with
  | quiet => rfl
  | write _ _ _ _ hin => exact hin
  | close hclosed =>
    rw [hclosed] at hstays
    cases hstays

theorem Outcome.sane (h : Outcome p op state f m state' f' m')
    (ht : Table p.kvMaxEntries f.entries m) (hfmax : f.header.maxEntries = p.kvMaxEntries)
    (hmax : state.header.maxEntries = p.kvMaxEntries) :
    (f'.header.maxEntries = p.kvMaxEntries ∧ Table p.kvMaxEntries f'.entries m') ∧
      (state'.inUse = true → state'.header.maxEntries = p.kvMaxEntries) := by
  cases h with
  | quiet => exact ⟨⟨hfmax, ht⟩, fun _ => hmax⟩
  | write _ _ hheader _ _ _ hsame htable _ =>
    exact ⟨⟨by rw [hheader]; exact hfmax, htable⟩, fun _ => hsame.trans hmax⟩
  | close _ hfree _ hentries hheader _ =>
    refine ⟨⟨?_, ?_⟩, fun hin => ?_⟩
    · rw [hheader]
      split_ifs
      · exact hmax
      · exact hfmax
    · rw [hentries]
      exact ht
    · rw [hfree] at hin
      cases hin

end

/-- **Every call returns.** -/
theorem step_total (hb : Bound p names w) (hs : Sane p names w.store)
    (hname : ValidName (names side)) (op : KvOp) : ∃ r w', w.step p names side op = some (r, w') ∧
      Bound p names w' ∧ Sane p names w'.store := by
  cases op with
  | «open» v ownerId now =>
    by_cases hroom : ∃ i < p.maxKvHandles, (w.store.handles i).inUse = false
    · obtain ⟨free, hlimit, hfree⟩ := hroom
      obtain ⟨i, hi, hin, hopen⟩ := open_eq hname hlimit hfree ownerId now
      have hsane := openAct_sane (names side) (fun f hf => hs.file side f hf) ownerId now
      obtain ⟨hfile, hheader, _, hresult⟩ := openAct_spec (p := p) (names side) ownerId now
        (w.store.files (buildKvFilename (names side)))
      have hold {side' : Side} {v' h : Nat} (hv' : w.vars side' v' = some h) : h ≠ i := by
        rintro rfl
        have hused := (isOpen_iff.mp (hb.isOpen side' v' h hv')).2
        rw [hin] at hused
        cases hused
      unfold Session.step
      dsimp only
      rw [hopen]
      generalize openAct p (names side) ownerId now
        (w.store.files (buildKvFilename (names side))) = act at *
      obtain ⟨r, state, f⟩ := act
      have hsane' : Sane p names (w.store.place i (buildKvFilename (names side)) state (some f)) :=
        hs.place hfile hsane fun _ => by rw [hheader]; exact hsane.1
      rcases hresult with ⟨rfl, hused⟩ | ⟨⟨e, rfl⟩, _⟩
      · refine ⟨_, _, rfl, hb.place side v fun side' v' h hv' => ?_, hsane'⟩
        rw [setVar_eq] at hv'
        split_ifs at hv' with hsame
        · exact .inr ⟨(Option.some.inj hv').symm, hsame.1, hsame.2, hi, hused, hfile⟩
        · exact .inl ⟨hv', hold hv'⟩
      · exact ⟨_, _, rfl, hb.place side v fun side' v' h hv' =>
          .inl ⟨hv', hold hv'⟩, hsane'⟩
    · have hfull (h : Nat) (hh : h < p.maxKvHandles) : (w.store.handles h).inUse = true := by
        by_contra hfree
        exact hroom ⟨h, hh, Bool.eq_false_iff.mpr hfree⟩
      unfold Session.step
      dsimp only
      rw [open_full hname hfull]
      exact ⟨_, _, rfl, hb, hs⟩
  | on v op =>
    cases hv : w.vars side v with
    | none =>
      unfold Session.step
      dsimp only
      rw [hv]
      exact ⟨_, _, rfl, hb, hs⟩
    | some h =>
      obtain ⟨f, m, hf, hfmax, ht, hmax⟩ := file_of_bound hb hs hv
      obtain ⟨r, state, f', m', _, hout, hstep⟩ := step_on hb hv hf ht hmax op
      obtain ⟨⟨hfmax', ht'⟩, hstate⟩ := hout.sane ht hfmax hmax
      have hnameH := hb.name side v h hv
      obtain ⟨hlimit, hin⟩ := isOpen_iff.mp (hb.isOpen side v h hv)
      refine ⟨r, _, hstep, hb.place side v fun side' v' h' hv' => ?_,
        hs.place (hout.name.trans hnameH) ⟨hfmax', m', ht'⟩ hstate⟩
      unfold varsAfter at hv'
      cases hcloses : op.closes with
      | true =>
        rw [hcloses, if_pos rfl, setVar_eq] at hv'
        split_ifs at hv' with hsame
        refine .inl ⟨hv', ?_⟩
        rintro rfl
        exact hsame (hb.once _ _ _ _ h' hv' hv)
      | false =>
        rw [hcloses, if_neg Bool.false_ne_true] at hv'
        by_cases heq : h' = h
        · subst heq
          obtain ⟨rfl, rfl⟩ := hb.once _ _ _ _ h' hv' hv
          exact .inr ⟨rfl, rfl, rfl, hlimit, (hout.inUse_of_stays hcloses).trans hin,
            hout.name.trans hnameH⟩
        · exact .inl ⟨hv', heq⟩

/-! ## two servers -/

/-- `u` is a server without the calls of the other side: its open handles are the ones of `w` that are
not on the file of the other side -/
structure Related (p : Platform) (names : Side → List UInt8) (side : Side) (f : Nat → Nat)
    (w u : Session) : Prop where
  files : ∀ g, g ≠ buildKvFilename (names side.other) → w.store.files g = u.store.files g
  lift : ∀ h, u.store.isOpen p h = true → w.store.isOpen p (f h) = true ∧
    w.store.handles (f h) = u.store.handles h ∧
    (u.store.handles h).filename ≠ buildKvFilename (names side.other)
  inj : ∀ h h', u.store.isOpen p h = true → u.store.isOpen p h' = true → f h = f h' → h = h'
  cover : ∀ h, w.store.isOpen p h = true →
    (w.store.handles h).filename ≠ buildKvFilename (names side.other) →
    ∃ h', u.store.isOpen p h' = true ∧ f h' = h
  vars : ∀ v, w.vars side v = (u.vars side v).map f

variable {f : Nat → Nat}

def RoomFor (p : Platform) (names : Side → List UInt8) (side : Side) (s : KvStore) : Prop :=
  (∃ h < p.maxKvHandles, (s.handles h).inUse = false) ∨
    ∀ h < p.maxKvHandles, (s.handles h).filename ≠ buildKvFilename (names side.other)

/-- an injection of the numbers below `n` into themselves reaches all of them -/
theorem reaches_all {n : Nat} {g : Nat → Nat} (hmaps : ∀ i < n, g i < n)
    (hinj : ∀ i < n, ∀ j < n, g i = g j → i = j) {k : Nat} (hk : k < n) : ∃ i < n, g i = k := by
  have hsub : (Finset.range n).image g ⊆ Finset.range n := by
    intro x hx
    obtain ⟨i, hi, rfl⟩ := Finset.mem_image.mp hx
    exact Finset.mem_range.mpr (hmaps i (Finset.mem_range.mp hi))
  have hcard : ((Finset.range n).image g).card = (Finset.range n).card :=
    Finset.card_image_of_injOn fun i hi j hj =>
      hinj i (Finset.mem_range.mp hi) j (Finset.mem_range.mp hj)
  have heq := Finset.eq_of_subset_of_card_le hsub hcard.ge
  obtain ⟨i, hi, hik⟩ := Finset.mem_image.mp (heq ▸ Finset.mem_range.mpr hk)
  exact ⟨i, Finset.mem_range.mp hi, hik⟩

theorem Related.free (hr : Related p names side f w u)
    (hfree : ∃ h < p.maxKvHandles, (w.store.handles h).inUse = false) :
    ∃ h < p.maxKvHandles, (u.store.handles h).inUse = false := by
  by_contra hnone
  have hopen (h : Nat) (hh : h < p.maxKvHandles) : u.store.isOpen p h = true := by
    refine isOpen_iff.mpr ⟨hh, ?_⟩
    by_contra hin
    exact hnone ⟨h, hh, Bool.eq_false_iff.mpr hin⟩
  obtain ⟨k, hk, hkfree⟩ := hfree
  obtain ⟨h, hh, rfl⟩ := reaches_all (fun h hh => (isOpen_iff.mp (hr.lift h (hopen h hh)).1).1)
    (fun h hh h' hh' => hr.inj h h' (hopen h hh) (hopen h' hh')) hk
  have hused := (isOpen_iff.mp (hr.lift h (hopen h hh)).1).2
  rw [hkfree] at hused
  cases hused

theorem Related.full (hr : Related p names side f w u) (hroom : RoomFor p names side w.store)
    (hfull : ∀ h < p.maxKvHandles, (w.store.handles h).inUse = true) :
    ∀ h < p.maxKvHandles, (u.store.handles h).inUse = true := by
  have hmine : ∀ h < p.maxKvHandles,
      (w.store.handles h).filename ≠ buildKvFilename (names side.other) := by
    rcases hroom with ⟨h, hh, hfree⟩ | hmine
    · rw [hfull h hh] at hfree
      cases hfree
    · exact hmine
  have hback (h : Nat) : ∃ h', h < p.maxKvHandles → u.store.isOpen p h' = true ∧ f h' = h := by
    by_cases hh : h < p.maxKvHandles
    · obtain ⟨h', hopen, heq⟩ := hr.cover h (isOpen_iff.mpr ⟨hh, hfull h hh⟩) (hmine h hh)
      exact ⟨h', fun _ => ⟨hopen, heq⟩⟩
    · exact ⟨0, fun h => absurd h hh⟩
  choose g hg using hback
  intro k hk
  obtain ⟨h, hh, rfl⟩ := reaches_all (g := g) (fun h hh => (isOpen_iff.mp (hg h hh).1).1)
    (fun h hh h' hh' heq => by rw [← (hg h hh).2, ← (hg h' hh').2, heq]) hk
  exact (isOpen_iff.mp (hg h hh).1).2

theorem Related.place (hr : Related p names side f w u) {i j : Nat} {state : KvState}
    {file : KvFile} {vars' : Side → Nat → Option Nat}
    (hname : state.filename = buildKvFilename (names side))
    (hnames : buildKvFilename (names side) ≠ buildKvFilename (names side.other))
    (hi : i < p.maxKvHandles) (hj : j < p.maxKvHandles)
    (hpair : ∀ h, u.store.isOpen p h = true → (f h = i ↔ h = j))
    (hvars : ∀ v, vars side v = (vars' side v).map (Function.update f j i)) :
    Related p names side (Function.update f j i)
      ⟨w.store.place i (buildKvFilename (names side)) state (some file), vars⟩
      ⟨u.store.place j (buildKvFilename (names side)) state (some file), vars'⟩ := by
  have hstill {h : Nat} (hne : h ≠ j)
      (h' : (u.store.place j (buildKvFilename (names side)) state (some file)).isOpen p h = true) :
      u.store.isOpen p h = true := by
    rwa [isOpen_place_of_ne hne] at h'
  refine ⟨fun g hg => ?_, fun h hopen => ?_, fun h h' hopen hopen' heq => ?_, fun h hopen hother => ?_,
    hvars⟩
  · by_cases hsame : g = buildKvFilename (names side)
    · rw [hsame, files_place_self, files_place_self]
    · rw [files_place_of_ne _ hsame, files_place_of_ne _ hsame]
      exact hr.files g hg
  · by_cases hsame : h = j
    · subst hsame
      have hin := (isOpen_iff.mp hopen).2
      rw [handles_place_self] at hin
      rw [Function.update_self]
      refine ⟨isOpen_iff.mpr ⟨hi, ?_⟩, ?_, ?_⟩
      · rw [handles_place_self]
        exact hin
      · rw [handles_place_self, handles_place_self]
      · rw [handles_place_self, hname]
        exact hnames
    · have hold := hstill hsame hopen
      have hne : f h ≠ i := fun heq => hsame ((hpair h hold).mp heq)
      rw [Function.update_of_ne hsame]
      rw [isOpen_place_of_ne hne, handles_place_of_ne _ hne, handles_place_of_ne _ hsame]
      exact hr.lift h hold
  · by_cases hsame : h = j
    · by_cases hsame' : h' = j
      · rw [hsame, hsame']
      · rw [hsame, Function.update_self, Function.update_of_ne hsame'] at heq
        exact absurd ((hpair h' (hstill hsame' hopen')).mp heq.symm) hsame'
    · by_cases hsame' : h' = j
      · rw [hsame', Function.update_self, Function.update_of_ne hsame] at heq
        exact absurd ((hpair h (hstill hsame hopen)).mp heq) hsame
      · rw [Function.update_of_ne hsame, Function.update_of_ne hsame'] at heq
        exact hr.inj h h' (hstill hsame hopen) (hstill hsame' hopen') heq
  · by_cases hsame : h = i
    · subst hsame
      have hin := (isOpen_iff.mp hopen).2
      rw [handles_place_self] at hin
      refine ⟨j, isOpen_iff.mpr ⟨hj, ?_⟩, Function.update_self ..⟩
      rw [handles_place_self]
      exact hin
    · rw [isOpen_place_of_ne hsame] at hopen
      rw [handles_place_of_ne _ hsame] at hother
      obtain ⟨h', hopen', heq⟩ := hr.cover h hopen hother
      have hne : h' ≠ j := by
        rintro rfl
        exact hsame (heq.symm.trans ((hpair h' hopen').mpr rfl))
      refine ⟨h', ?_, ?_⟩
      · rw [isOpen_place_of_ne hne]
        exact hopen'
      · rw [Function.update_of_ne hne]
        exact heq

/-- **A call of the one side.** Both servers give the same result. -/
theorem Related.on (hr : Related p names side f w u) (hb : Bound p names w) (hbu : Bound p names u)
    (hs : Sane p names w.store)
    (hnames : buildKvFilename (names side) ≠ buildKvFilename (names side.other)) {op : HandleOp}
    (hstep : w.step p names side (.on v op) = some (r, w')) : ∃ u',
    u.step p names side (.on v op) = some (r, u') ∧ ∃ f', Related p names side f' w' u' := by
  cases hv : u.vars side v with
  | none =>
    have hwv : w.vars side v = none := by rw [hr.vars, hv, Option.map_none]
    unfold Session.step at hstep ⊢
    dsimp only at hstep ⊢
    rw [hwv] at hstep
    rw [hv]
    obtain ⟨rfl, rfl⟩ := Prod.mk.inj (Option.some.inj hstep)
    exact ⟨u, rfl, f, hr⟩
  | some h =>
    have hwv : w.vars side v = some (f h) := by rw [hr.vars, hv, Option.map_some]
    have hopen := hbu.isOpen side v h hv
    obtain ⟨hwopen, hstate, _⟩ := hr.lift h hopen
    obtain ⟨file, m, hf, _, ht, hmax⟩ := file_of_bound hb hs hwv
    obtain ⟨r', state, file', m', hact, hout, hwstep⟩ := step_on hb hwv hf ht hmax op
    rw [hwstep] at hstep
    obtain ⟨rfl, rfl⟩ := Prod.mk.inj (Option.some.inj hstep)
    have hname := hbu.name side v h hv
    refine ⟨⟨u.store.place h (buildKvFilename (names side)) state (some file'),
      varsAfter u side v op⟩, ?_, Function.update f h (f h), ?_⟩
    · unfold Session.step
      dsimp only
      rw [hv]
      dsimp only
      rw [handleCall_eq hopen, hname, ← hr.files _ hnames, hf, ← hstate, hact]
      rfl
    · refine hr.place ?_ hnames (isOpen_iff.mp hwopen).1 (isOpen_iff.mp hopen).1 (fun h' hopen' => ?_)
        fun v' => ?_
      · rw [hout.name, hstate]
        exact hname
      · exact ⟨fun heq => hr.inj h' h hopen' hopen heq, fun heq => by rw [heq]⟩
      · rw [Function.update_eq_self]
        unfold varsAfter
        split_ifs
        · rw [setVar_eq, setVar_eq]
          split_ifs
          · rfl
          · exact hr.vars v'
        · exact hr.vars v'

/-- **An open of the one side.** Both servers give the same result. -/
theorem Related.open (hr : Related p names side f w u) (hbu : Bound p names u)
    (hnames : buildKvFilename (names side) ≠ buildKvFilename (names side.other))
    (hname : ValidName (names side)) (hroom : RoomFor p names side w.store) {ownerId : UInt8}
    {now : UInt64} (hstep : w.step p names side (.open v ownerId now) = some (r, w')) : ∃ u',
    u.step p names side (.open v ownerId now) = some (r, u') ∧
      ∃ f', Related p names side f' w' u' := by
  unfold Session.step at hstep ⊢
  dsimp only at hstep ⊢
  by_cases hfree : ∃ i < p.maxKvHandles, (w.store.handles i).inUse = false
  · obtain ⟨k, hk, hkfree⟩ := hr.free hfree
    obtain ⟨free, hlimit, hin⟩ := hfree
    obtain ⟨i, hi, hifree, hwopen⟩ := open_eq hname hlimit hin ownerId now
    obtain ⟨j, hj, hjfree, huopen⟩ := open_eq hname hk hkfree ownerId now
    obtain ⟨hfile, _, _, hresult⟩ := openAct_spec (p := p) (names side) ownerId now
      (u.store.files (buildKvFilename (names side)))
    rw [hwopen, hr.files _ hnames] at hstep
    rw [huopen]
    generalize openAct p (names side) ownerId now
      (u.store.files (buildKvFilename (names side))) = act at *
    obtain ⟨r', state, file⟩ := act
    have hclosed {h : Nat} (hopen : u.store.isOpen p h = true) : h ≠ j := by
      rintro rfl
      rw [(isOpen_iff.mp hopen).2] at hjfree
      cases hjfree
    have hpair (h : Nat) (hopen : u.store.isOpen p h = true) : f h = i ↔ h = j := by
      refine ⟨fun heq => ?_, fun heq => absurd heq (hclosed hopen)⟩
      have hused := (isOpen_iff.mp (hr.lift h hopen).1).2
      rw [heq, hifree] at hused
      cases hused
    have hold (v' : Nat) : w.vars side v' = (u.vars side v').map (Function.update f j i) := by
      rw [hr.vars v']
      cases hv' : u.vars side v' with
      | none => rfl
      | some h =>
        rw [Option.map_some, Option.map_some,
          Function.update_of_ne (hclosed (hbu.isOpen side v' h hv'))]
    rcases hresult with ⟨rfl, _⟩ | ⟨⟨e, rfl⟩, _⟩
    · obtain ⟨rfl, rfl⟩ := Prod.mk.inj (Option.some.inj hstep)
      refine ⟨_, rfl, _, hr.place hfile hnames hi hj hpair fun v' => ?_⟩
      rw [setVar_eq, setVar_eq]
      split_ifs
      · rw [Option.map_some, Function.update_self]
      · exact hold v'
    · obtain ⟨rfl, rfl⟩ := Prod.mk.inj (Option.some.inj hstep)
      exact ⟨_, rfl, _, hr.place hfile hnames hi hj hpair hold⟩
  · have hfull (h : Nat) (hh : h < p.maxKvHandles) : (w.store.handles h).inUse = true := by
      by_contra hin
      exact hfree ⟨h, hh, Bool.eq_false_iff.mpr hin⟩
    rw [open_full hname hfull] at hstep
    rw [open_full hname (hr.full hroom hfull)]
    obtain ⟨rfl, rfl⟩ := Prod.mk.inj (Option.some.inj hstep)
    exact ⟨u, rfl, f, hr⟩

theorem Related.placeOther (hr : Related p names side f w u) {i : Nat} {state : KvState}
    (hname : state.filename = buildKvFilename (names side.other))
    (hpair : ∀ h, u.store.isOpen p h = true → f h ≠ i) (hvars : ∀ v, vars side v = w.vars side v) :
    Related p names side f
      ⟨w.store.place i (buildKvFilename (names side.other)) state file, vars⟩ u := by
  refine ⟨fun g hg => ?_, fun h hopen => ?_, hr.inj, fun h hopen hother => ?_, fun v => ?_⟩
  · exact (files_place_of_ne _ hg ..).trans (hr.files g hg)
  · have hne := hpair h hopen
    rw [isOpen_place_of_ne hne, handles_place_of_ne _ hne]
    exact hr.lift h hopen
  · by_cases hsame : h = i
    · rw [hsame, handles_place_self] at hother
      exact absurd hname hother
    · rw [isOpen_place_of_ne hsame] at hopen
      rw [handles_place_of_ne _ hsame] at hother
      exact hr.cover h hopen hother
  · exact (hvars v).trans (hr.vars v)

/-- **A call of the other side.** The one side does not see it. -/
theorem Related.other (hr : Related p names side f w u) (hb : Bound p names w)
    (hs : Sane p names w.store) (hname : ValidName (names side.other)) {op : KvOp}
    (hstep : w.step p names side.other op = some (r, w')) : Related p names side f w' u := by
  have hside : side ≠ side.other := by cases side <;> decide
  have hvars (v v' : Nat) (handle : Option Nat) :
      setVar w.vars side.other v handle side v' = w.vars side v' := by
    rw [setVar_eq, if_neg fun h => hside h.1]
  cases op with
  | «open» v ownerId now =>
    unfold Session.step at hstep
    dsimp only at hstep
    by_cases hfree : ∃ i < p.maxKvHandles, (w.store.handles i).inUse = false
    · obtain ⟨free, hlimit, hin⟩ := hfree
      obtain ⟨i, hi, hifree, hopen⟩ := open_eq hname hlimit hin ownerId now
      obtain ⟨hfile, _, _, hresult⟩ := openAct_spec (p := p) (names side.other) ownerId now
        (w.store.files (buildKvFilename (names side.other)))
      rw [hopen] at hstep
      generalize openAct p (names side.other) ownerId now
        (w.store.files (buildKvFilename (names side.other))) = act at *
      obtain ⟨r', state, file⟩ := act
      have hpair (h : Nat) (hopen : u.store.isOpen p h = true) : f h ≠ i := by
        intro heq
        have hused := (isOpen_iff.mp (hr.lift h hopen).1).2
        rw [heq, hifree] at hused
        cases hused
      rcases hresult with ⟨rfl, _⟩ | ⟨⟨e, rfl⟩, _⟩
      · obtain ⟨rfl, rfl⟩ := Prod.mk.inj (Option.some.inj hstep)
        exact hr.placeOther hfile hpair fun v' => hvars v v' (some i)
      · obtain ⟨rfl, rfl⟩ := Prod.mk.inj (Option.some.inj hstep)
        exact hr.placeOther hfile hpair fun _ => rfl
    · have hfull (h : Nat) (hh : h < p.maxKvHandles) : (w.store.handles h).inUse = true := by
        by_contra hin
        exact hfree ⟨h, hh, Bool.eq_false_iff.mpr hin⟩
      rw [open_full hname hfull] at hstep
      obtain ⟨rfl, rfl⟩ := Prod.mk.inj (Option.some.inj hstep)
      exact hr
  | on v op =>
    cases hv : w.vars side.other v with
    | none =>
      unfold Session.step at hstep
      dsimp only at hstep
      rw [hv] at hstep
      obtain ⟨rfl, rfl⟩ := Prod.mk.inj (Option.some.inj hstep)
      exact hr
    | some h =>
      obtain ⟨file, m, hf, _, ht, hmax⟩ := file_of_bound hb hs hv
      obtain ⟨r', state, file', m', _, hout, hwstep⟩ := step_on hb hv hf ht hmax op
      rw [hwstep] at hstep
      obtain ⟨rfl, rfl⟩ := Prod.mk.inj (Option.some.inj hstep)
      have hfile := hb.name side.other v h hv
      refine hr.placeOther (hout.name.trans hfile) (fun h' hopen heq => ?_) fun v' => ?_
      · obtain ⟨_, hstate, hne⟩ := hr.lift h' hopen
        rw [← hstate, heq] at hne
        exact hne hfile
      · unfold varsAfter
        split_ifs
        · exact hvars v v' none
        · rfl

/-! ## runs -/

def RoomAlways (p : Platform) (names : Side → List UInt8) (side : Side) :
    Session → List (Side × KvOp) → Prop
  | _, [] => True
  | w, (x, op) :: calls =>
    (x = side → ∀ v ownerId now, op = .open v ownerId now → RoomFor p names side w.store) ∧
      ∀ r w', w.step p names x op = some (r, w') → RoomAlways p names side w' calls

theorem run_cons {op : KvOp} (hstep : w.step p names side op = some (r, w'))
    (calls : List (Side × KvOp)) :
    w.run p names ((side, op) :: calls) =
      (w'.run p names calls).map fun (rs, w) => ((side, r) :: rs, w) := by
  rw [Session.run, hstep]
  rfl

/-- **Runs.** The results of one side are the ones that it gets alone. -/
theorem Related.run (hr : Related p names side f w u) (hb : Bound p names w)
    (hbu : Bound p names u) (hs : Sane p names w.store) (hsu : Sane p names u.store)
    (hnames : buildKvFilename (names side) ≠ buildKvFilename (names side.other))
    (hvalid : ∀ side, ValidName (names side)) {calls : List (Side × KvOp)}
    (hroom : RoomAlways p names side w calls) : ∃ rs w' u',
    w.run p names calls = some (rs, w') ∧
      u.run p names (calls.filter fun c => c.1 = side) =
        some (rs.filter (fun r => r.1 = side), u') := by
  induction calls generalizing w u f with
  | nil => exact ⟨[], w, u, rfl, rfl⟩
  | cons call calls ih =>
    obtain ⟨x, op⟩ := call
    obtain ⟨hopens, hrest⟩ := hroom
    obtain ⟨r, w', hstep, hb', hs'⟩ := step_total hb hs (hvalid x) op
    rw [run_cons hstep]
    by_cases hx : x = side
    · subst hx
      have hboth : ∃ u', u.step p names x op = some (r, u') ∧
          ∃ f', Related p names x f' w' u' := by
        cases op with
        | «open» v ownerId now =>
          exact hr.open hbu hnames (hvalid x) (hopens rfl v ownerId now rfl) hstep
        | on v op => exact hr.on hb hbu hs hnames hstep
      obtain ⟨u', hustep, f', hr'⟩ := hboth
      obtain ⟨r', u'', hustep', hbu', hsu'⟩ := step_total hbu hsu (hvalid x) op
      rw [hustep] at hustep'
      obtain ⟨rfl, rfl⟩ := Prod.mk.inj (Option.some.inj hustep')
      obtain ⟨rs, w'', u'', hrun, hrunu⟩ := ih hr' hb' hbu' hs' hsu' (hrest r w' hstep)
      refine ⟨(x, r) :: rs, w'', u'', by rw [hrun]; rfl, ?_⟩
      rw [List.filter_cons_of_pos (by simp), List.filter_cons_of_pos (by simp), run_cons hustep,
        hrunu]
      rfl
    · have hother : x = side.other := by
        cases x <;> cases side <;> first | rfl | exact absurd rfl hx
      subst hother
      have hr' := hr.other hb hs (hvalid _) hstep
      obtain ⟨rs, w'', u', hrun, hrunu⟩ := ih hr' hb' hbu hs' hsu (hrest r w' hstep)
      refine ⟨(side.other, r) :: rs, w'', u', by rw [hrun]; rfl, ?_⟩
      rw [List.filter_cons_of_neg (by simpa using hx), List.filter_cons_of_neg (by simpa using hx)]
      exact hrunu

end Db
end EkKor
