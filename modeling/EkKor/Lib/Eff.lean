import Mathlib.Tactic.Common

/-!
# Programs with a state that can fail, panic or not end

A computation reads and writes a state and ends with a value, with an error that its caller can
handle, or with a panic.  A loop without a bound gets an amount of fuel, and may run out of it.

* `Outcome`, `Eff`   the computations, a monad;
* `Eff.attempt`      the errors of a computation as values;
* `Eff.Traced`       the state keeps a log, and the panics are those of the bad entries;
* `Eff.Simulates`    a computation ends as another one does, with states that are related;
* `Eff.Traced.bind`, `Eff.Simulates.bind`   one computation after the other.
-/

/-- how a computation ends -/
inductive Outcome (ε α : Type) where
  | ok (a : α)
  | error (e : ε)
  | panic
  | outOfFuel

namespace Outcome

variable {ε α β : Type}

def bind (r : Outcome ε α) (f : α → Outcome ε β) : Outcome ε β :=
  match r with
  | .ok a => f a
  | .error e => .error e
  | .panic => .panic
  | .outOfFuel => .outOfFuel

instance instMonad : Monad (Outcome ε) where
  pure := .ok
  bind := bind

instance instLawfulMonad : LawfulMonad (Outcome ε) := LawfulMonad.mk' _
  (fun r => by cases r <;> rfl) (fun _ _ => rfl) (fun r _ _ => by cases r <;> rfl)

theorem bind_eq_ok {r : Outcome ε α} {f : α → Outcome ε β} {b : β} (h : (r >>= f) = .ok b) :
    ∃ a, r = .ok a ∧ f a = .ok b := by
  cases r with
  | ok a => exact ⟨a, rfl, h⟩
  | _ => cases h

end Outcome

def Eff (σ ε α : Type) : Type := σ → Outcome ε α × σ

namespace Eff

variable {σ ε α β : Type}

def pure (a : α) : Eff σ ε α := fun s => (.ok a, s)

def bind (m : Eff σ ε α) (f : α → Eff σ ε β) : Eff σ ε β := fun s =>
  match m s with
  | (.ok a, s') => f a s'
  | (.error e, s') => (.error e, s')
  | (.panic, s') => (.panic, s')
  | (.outOfFuel, s') => (.outOfFuel, s')

instance instMonad : Monad (Eff σ ε) where
  pure := pure
  bind := bind

theorem bind_pure_eq (m : Eff σ ε α) : bind m pure = m := by
  funext s
  unfold bind
  generalize m s = out
  obtain ⟨_ | _ | _ | _, s'⟩ := out <;> rfl

theorem bind_assoc_eq {γ : Type} (m : Eff σ ε α) (f : α → Eff σ ε β) (g : β → Eff σ ε γ) :
    bind (bind m f) g = bind m fun a => bind (f a) g := by
  funext s
  unfold bind
  generalize m s = out
  obtain ⟨_ | _ | _ | _, s'⟩ := out <;> rfl

instance instLawfulMonad : LawfulMonad (Eff σ ε) := LawfulMonad.mk' _
  bind_pure_eq (fun _ _ => rfl) bind_assoc_eq

/-! ## operations -/

def get : Eff σ ε σ := fun s => (.ok s, s)

def modify (f : σ → σ) : Eff σ ε Unit := fun s => (.ok (), f s)

def throw (e : ε) : Eff σ ε α := fun s => (.error e, s)

def panic : Eff σ ε α := fun s => (.panic, s)

def outOfFuel : Eff σ ε α := fun s => (.outOfFuel, s)

def lift (r : Outcome ε α) : Eff σ ε α := fun s => (r, s)

def attempt (m : Eff σ ε α) : Eff σ ε (Except ε α) := fun s =>
  match m s with
  | (.ok a, s') => (.ok (.ok a), s')
  | (.error e, s') => (.ok (.error e), s')
  | (.panic, s') => (.panic, s')
  | (.outOfFuel, s') => (.outOfFuel, s')

/-! ## runs -/

variable {m : Eff σ ε α} {f : α → Eff σ ε β} {s : σ}

theorem get_bind {f : σ → Eff σ ε α} : (get >>= f) s = f s s := rfl

theorem bind_ok {s' : σ} {a : α} (h : m s = (.ok a, s')) : (m >>= f) s = f a s' := by
  show Eff.bind m f s = _
  unfold Eff.bind
  rw [h]

theorem bind_error {s' : σ} {e : ε} (h : m s = (.error e, s')) : (m >>= f) s = (.error e, s') := by
  show Eff.bind m f s = _
  unfold Eff.bind
  rw [h]

theorem bind_eq_ok {s'' : σ} {b : β} (h : (m >>= f) s = (.ok b, s'')) :
    ∃ a s', m s = (.ok a, s') ∧ f a s' = (.ok b, s'') := by
  change Eff.bind m f s = _ at h
  unfold Eff.bind at h
  generalize m s = out at h
  obtain ⟨a | _ | _ | _, s'⟩ := out
  · exact ⟨a, s', rfl, h⟩
  · cases h
  · cases h
  · cases h

/-! ## logs -/

variable {ω : Type}

/-- the computation adds to the log, and it panics if and only if it adds a bad entry -/
def Traced (log : σ → List ω) (Bad : ω → Prop) (m : Eff σ ε α) : Prop :=
  ∀ s, ∃ new, log (m s).2 = log s ++ new ∧ ((m s).1 = .panic ↔ ∃ e ∈ new, Bad e)

variable {log : σ → List ω} {Bad : ω → Prop}

theorem Traced.of_quiet (hlog : ∀ s, log (m s).2 = log s) (hpanic : ∀ s, (m s).1 ≠ .panic) :
    Traced log Bad m := by
  intro s
  refine ⟨[], by rw [List.append_nil, hlog], iff_of_false (hpanic s) ?_⟩
  rintro ⟨_, hmem, _⟩
  cases hmem

theorem Traced.pure (a : α) : Traced log Bad (Pure.pure a : Eff σ ε α) :=
  .of_quiet (fun _ => rfl) fun _ => nofun

theorem Traced.throw (e : ε) : Traced log Bad (Eff.throw e : Eff σ ε α) :=
  .of_quiet (fun _ => rfl) fun _ => nofun

theorem Traced.outOfFuel : Traced log Bad (Eff.outOfFuel : Eff σ ε α) :=
  .of_quiet (fun _ => rfl) fun _ => nofun

theorem Traced.get : Traced log Bad (Eff.get : Eff σ ε σ) :=
  .of_quiet (fun _ => rfl) fun _ => nofun

theorem Traced.modify {f : σ → σ} (h : ∀ s, log (f s) = log s) :
    Traced log Bad (Eff.modify f : Eff σ ε Unit) :=
  .of_quiet h fun _ => nofun

theorem Traced.lift {r : Outcome ε α} (h : r ≠ .panic) : Traced log Bad (Eff.lift r) :=
  .of_quiet (fun _ => rfl) fun _ => h

theorem Traced.attempt (h : Traced log Bad m) : Traced log Bad (Eff.attempt m) := by
  intro s
  obtain ⟨new, hlog, hpanic⟩ := h s
  unfold Eff.attempt
  generalize m s = out at hlog hpanic ⊢
  obtain ⟨r, s'⟩ := out
  refine ⟨new, ?_, ?_⟩
  · cases r <;> exact hlog
  · rw [← hpanic]
    cases r <;> simp

/-- **One after the other.** -/
theorem Traced.bind (h : Traced log Bad m) (hf : ∀ a, Traced log Bad (f a)) :
    Traced log Bad (m >>= f) := by
  intro s
  obtain ⟨new, hlog, hpanic⟩ := h s
  show ∃ new, log (Eff.bind m f s).2 = log s ++ new ∧ ((Eff.bind m f s).1 = .panic ↔ _)
  unfold Eff.bind
  generalize m s = out at hlog hpanic ⊢
  obtain ⟨r, s'⟩ := out
  cases r with
  | ok a =>
    obtain ⟨new', hlog', hpanic'⟩ := hf a s'
    have hgood : ¬∃ e ∈ new, Bad e := fun hbad => nomatch hpanic.mpr hbad
    refine ⟨new ++ new', ?_, ?_⟩
    · rw [hlog', ← List.append_assoc]
      exact congrArg (· ++ new') hlog
    · rw [hpanic']
      constructor
      · rintro ⟨e, hmem, hbad⟩
        exact ⟨e, List.mem_append_right _ hmem, hbad⟩
      · rintro ⟨e, hmem, hbad⟩
        rcases List.mem_append.mp hmem with hold | hnew
        · exact absurd ⟨e, hold, hbad⟩ hgood
        · exact ⟨e, hnew, hbad⟩
  | error e => exact ⟨new, hlog, iff_of_false nofun fun hbad => nomatch hpanic.mpr hbad⟩
  | panic => exact ⟨new, hlog, iff_of_true rfl (hpanic.mp rfl)⟩
  | outOfFuel => exact ⟨new, hlog, iff_of_false nofun fun hbad => nomatch hpanic.mpr hbad⟩

theorem Traced.mapM (h : ∀ a, Traced log Bad (f a)) (l : List α) : Traced log Bad (l.mapM f) := by
  induction l with
  | nil =>
    exact .pure _
  | cons a l ih =>
    rw [List.mapM_cons]
    exact (h a).bind fun b => ih.bind fun bs => .pure _

theorem Traced.foldlM {f : β → α → Eff σ ε β} (h : ∀ b a, Traced log Bad (f b a)) (b : β)
    (l : List α) : Traced log Bad (l.foldlM f b) := by
  induction l generalizing b with
  | nil => exact .pure _
  | cons a l ih => exact (h b a).bind fun b => ih b

/-! ## two runs -/

section
variable {τ : Type}

def Skipped (Bad : ε → Prop) (loose : Prop) : Outcome ε α → Prop
  | .error e => Bad e
  | .outOfFuel => loose
  | _ => False

theorem not_skipped (r : Outcome ε α) : ¬Skipped (fun _ => False) False r := by
  cases r <;> exact id

/-- both runs end in the same way, in states that are related by `Q` after a value and by `E` after an
error -/
def Agree (Q E : σ → τ → Prop) : Outcome ε α × σ → Outcome ε α × τ → Prop
  | (.ok a, s), (.ok b, t) => a = b ∧ Q s t
  | (.error e, s), (.error e', t) => e = e' ∧ E s t
  | (.panic, _), (.panic, _) => True
  | (.outOfFuel, _), (.outOfFuel, _) => True
  | _, _ => False

/-- from states that are related by `P`, the first computation ends in a way that is left out, or the
second one ends in the same way -/
def Simulates (Bad : ε → Prop) (loose : Prop) (P Q E : σ → τ → Prop) (m : Eff σ ε α)
    (m' : Eff τ ε α) : Prop :=
  ∀ s t, P s t → Skipped Bad loose (m s).1 ∨ Agree Q E (m s) (m' t)

variable {Bad : ε → Prop} {loose : Prop} {P Q Q' E : σ → τ → Prop}

theorem Agree.fst {out : Outcome ε α × σ} {out' : Outcome ε α × τ} (h : Agree Q E out out') :
    out.1 = out'.1 := by
  obtain ⟨_ | _ | _ | _, _⟩ := out <;> obtain ⟨_ | _ | _ | _, _⟩ := out' <;>
    first | exact congrArg _ h.1 | rfl | exact h.elim

theorem Simulates.pure (a : α) (h : ∀ s t, P s t → Q s t) :
    Simulates Bad loose P Q E (Pure.pure a : Eff σ ε α) (Pure.pure a) :=
  fun s t hst => .inr ⟨rfl, h s t hst⟩

theorem Simulates.throw (e : ε) (h : ∀ s t, P s t → E s t) :
    Simulates Bad loose P Q E (Eff.throw e : Eff σ ε α) (Eff.throw e) :=
  fun s t hst => .inr ⟨rfl, h s t hst⟩

theorem Simulates.outOfFuel : Simulates Bad loose P Q E (Eff.outOfFuel : Eff σ ε α) Eff.outOfFuel :=
  fun _ _ _ => .inr trivial

theorem Simulates.starved (h : loose) {m : Eff τ ε α} :
    Simulates Bad loose P Q E (Eff.outOfFuel : Eff σ ε α) m := fun _ _ _ => .inl h

theorem Simulates.lift (r : Outcome ε α) (hQ : ∀ s t, P s t → Q s t) (hE : ∀ s t, P s t → E s t) :
    Simulates Bad loose P Q E (Eff.lift r) (Eff.lift r) := by
  intro s t hst
  refine .inr ?_
  cases r with
  | ok a => exact ⟨rfl, hQ s t hst⟩
  | error e => exact ⟨rfl, hE s t hst⟩
  | panic => trivial
  | outOfFuel => trivial

theorem Simulates.modify {f : σ → σ} {f' : τ → τ} (h : ∀ s t, P s t → Q (f s) (f' t)) :
    Simulates Bad loose P Q E (Eff.modify f : Eff σ ε Unit) (Eff.modify f') :=
  fun s t hst => .inr ⟨rfl, h s t hst⟩

theorem Simulates.get {f : σ → Eff σ ε α} {f' : τ → Eff τ ε α}
    (h : ∀ s t, P s t → Skipped Bad loose (f s s).1 ∨ Agree Q E (f s s) (f' t t)) :
    Simulates Bad loose P Q E (Eff.get >>= f) (Eff.get >>= f') := h

variable {E' : σ → τ → Prop} {m' : Eff τ ε α} {f' : α → Eff τ ε β}

theorem Simulates.mono {P' : σ → τ → Prop} (h : Simulates Bad loose P Q E m m')
    (hP : ∀ s t, P' s t → P s t) (hQ : ∀ s t, Q s t → Q' s t) (hE : ∀ s t, E s t → E' s t) :
    Simulates Bad loose P' Q' E' m m' := by
  intro s t hst
  refine (h s t (hP s t hst)).imp_right fun hagree => ?_
  generalize m s = out at hagree ⊢
  generalize m' t = out' at hagree ⊢
  obtain ⟨_ | _ | _ | _, _⟩ := out <;> obtain ⟨_ | _ | _ | _, _⟩ := out' <;>
    first | exact hagree.elim | trivial | exact ⟨hagree.1, hQ _ _ hagree.2⟩ |
      exact ⟨hagree.1, hE _ _ hagree.2⟩

/-- **One after the other.** -/
theorem Simulates.bind (h : Simulates Bad loose P Q E m m')
    (hf : ∀ a, Simulates Bad loose Q Q' E (f a) (f' a)) :
    Simulates Bad loose P Q' E (m >>= f) (m' >>= f') := by
  intro s t hst
  have hm := h s t hst
  show Skipped Bad loose (Eff.bind m f s).1 ∨ Agree Q' E (Eff.bind m f s) (Eff.bind m' f' t)
  unfold Eff.bind
  generalize m s = out at hm ⊢
  generalize m' t = out' at hm ⊢
  obtain ⟨a | e | _ | _, s'⟩ := out
  · rcases hm with hskip | hagree
    · exact hskip.elim
    · obtain ⟨b | _ | _ | _, t'⟩ := out'
      · obtain ⟨rfl, hQ⟩ := hagree
        exact hf a s' t' hQ
      · exact hagree.elim
      · exact hagree.elim
      · exact hagree.elim
  all_goals
    refine hm.imp_right fun hagree => ?_
    obtain ⟨_ | _ | _ | _, t'⟩ := out' <;> first | exact hagree | exact hagree.elim

theorem Simulates.attempt {R : σ → τ → Prop} (h : Simulates Bad loose P Q E' m m')
    (hQ : ∀ s t, Q s t → Q' s t) (hE : ∀ s t, E' s t → Q' s t) {f : Except ε α → Eff σ ε β}
    {f' : Except ε α → Eff τ ε β} (hbad : ∀ e s, Bad e → Skipped Bad loose (f (.error e) s).1)
    (hf : ∀ r, Simulates Bad loose Q' R E (f r) (f' r)) :
    Simulates Bad loose P R E (Eff.attempt m >>= f) (Eff.attempt m' >>= f') := by
  intro s t hst
  have hm := h s t hst
  show Skipped Bad loose (Eff.bind (Eff.attempt m) f s).1 ∨
    Agree R E (Eff.bind (Eff.attempt m) f s) (Eff.bind (Eff.attempt m') f' t)
  unfold Eff.bind Eff.attempt
  generalize m s = out at hm ⊢
  generalize m' t = out' at hm ⊢
  obtain ⟨a | e | _ | _, s'⟩ := out
  · rcases hm with hskip | hagree
    · exact hskip.elim
    · obtain ⟨b | _ | _ | _, t'⟩ := out'
      · obtain ⟨rfl, hq⟩ := hagree
        exact hf _ s' t' (hQ s' t' hq)
      · exact hagree.elim
      · exact hagree.elim
      · exact hagree.elim
  · rcases hm with hskip | hagree
    · exact .inl (hbad e s' hskip)
    · obtain ⟨_ | e' | _ | _, t'⟩ := out'
      · exact hagree.elim
      · obtain ⟨rfl, he⟩ := hagree
        exact hf _ s' t' (hE s' t' he)
      · exact hagree.elim
      · exact hagree.elim
  all_goals
    refine hm.imp_right fun hagree => ?_
    obtain ⟨_ | _ | _ | _, t'⟩ := out' <;> first | exact hagree | exact hagree.elim

theorem Simulates.mapM (l : List α) (h : ∀ a ∈ l, Simulates Bad loose P P E (f a) (f' a)) :
    Simulates Bad loose P P E (l.mapM f) (l.mapM f') := by
  induction l with
  | nil => exact .pure _ fun _ _ => id
  | cons a l ih =>
    rw [List.mapM_cons, List.mapM_cons]
    refine (h a List.mem_cons_self).bind fun b => ?_
    exact (ih fun a ha => h a (List.mem_cons_of_mem _ ha)).bind fun bs => .pure _ fun _ _ => id

theorem Simulates.foldlM {f : β → α → Eff σ ε β} {f' : β → α → Eff τ ε β} (l : List α)
    (h : ∀ b, ∀ a ∈ l, Simulates Bad loose P P E (f b a) (f' b a)) (b : β) :
    Simulates Bad loose P P E (l.foldlM f b) (l.foldlM f' b) := by
  induction l generalizing b with
  | nil => exact .pure _ fun _ _ => id
  | cons a l ih =>
    refine (h b a List.mem_cons_self).bind fun c => ?_
    exact ih (fun b a ha => h b a (List.mem_cons_of_mem _ ha)) c

end

end Eff
