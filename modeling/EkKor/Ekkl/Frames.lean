import EkKor.Ekkl.Related

/-!
# The frames of an evaluation

A tree writes to the frame of its call only, and there to the names that it declares or assigns.

* `OnStack`            a run that keeps a property of the frames;
* `evalBlock_frames`   what a block leaves as it is;
* `call_callStack`     a call leaves all frames as they are.
-/

namespace EkKor
namespace Ekkl

/-! ## one run -/

/-- a property that a new entry under a name of `W` in the last frame keeps -/
def Writable (W : String → Prop) (P : List Frame → Prop) : Prop :=
  ∀ frame frames name value, W name → P (frame :: frames) →
    P ({ frame with locals := (name, value) :: frame.locals } :: frames)

/-- the tree in question, or the bodies of its calls, with the frames of the callers -/
abbrev Level := Option (List Frame)

def Level.writes (W : String → Prop) : Level → String → Prop
  | none => W
  | some _ => fun _ => True

def Level.uses (W : String → Prop) : Level → Uses
  | none => ⟨fun _ => True, W, W⟩
  | some _ => anyUses

def Level.frames (P : List Frame → Prop) : Level → List Frame → Prop
  | none => P
  | some frames => fun stack => ∃ frame, stack = frame :: frames

/-- one state twice, with the items of `e` and a property of the frames -/
def OnStack (e : Evaluator) (P : List Frame → Prop) (l : Level) (s t : Evaluator) : Prop :=
  s = t ∧ SameItems s e ∧ l.frames P s.callStack

variable {W : String → Prop} {P : List Frame → Prop}

theorem Writable.level (hP : Writable W P) (l : Level) : Writable (l.writes W) (l.frames P) := by
  cases l with
  | none => exact hP
  | some frames =>
    rintro _ _ name value - ⟨frame, hstack⟩
    exact ⟨_, congrArg (_ :: ·) (List.cons.inj hstack).2⟩

theorem respects_onStack (hP : Writable W P) (e : Evaluator) :
    Respects (Level.uses W) (Level.writes W) (fun _ => False) False (OnStack e P) where
  declares l name h := by
    cases l with
    | none => exact h
    | some frames => trivial
  assigns l name h := by
    cases l with
    | none => exact h
    | some frames => trivial
  perform l op := by
    refine Parallel.perform ?_ op
    rintro s _ ⟨rfl, hitems, hstack⟩ op
    exact ⟨rfl, ⟨hitems.enums, hitems.functions, hitems.globals⟩, hstack⟩
  getVar l name _ := by
    rw [getVar_eq]
    cases splitPath name.toList with
    | some p => exact Parallel.pure _
    | none =>
      refine Eff.Simulates.get ?_
      rintro s _ ⟨rfl, hs⟩
      cases s.find name with
      | some val => exact .inr ⟨rfl, rfl, hs⟩
      | none => exact .inr ⟨rfl, rfl, hs⟩
  setLocal l name value hname := by
    refine Eff.Simulates.modify ?_
    rintro s _ ⟨rfl, hitems, hs⟩
    refine ⟨rfl, ?_⟩
    cases hstack : s.callStack with
    | nil => exact ⟨hitems, hs⟩
    | cons frame frames =>
      exact ⟨hitems.of_stack _, hP.level l frame frames name value hname (hstack ▸ hs)⟩
  depth h := congrArg (·.callStack.length) h.1
  function h name := .inl (congrArg (·.functions.lookup name) h.1)
  body {l s t} := by
    -- the bodies run on the frames of `s`, which are back when the frame on top of them is gone
    rintro ⟨rfl, hitems, hs⟩ name f -
    refine ⟨some s.callStack, blockWithin_any f.body, fun frame => ⟨rfl, hitems.of_stack _, _, rfl⟩, ?_⟩
    rintro s' _ ⟨rfl, hitems', frame, hstack⟩
    refine ⟨rfl, hitems'.of_stack _, ?_⟩
    rw [hstack]
    exact hs
  ret _ := id

/-! ## results -/

def Ends (r : Result Value) : Prop := r ≠ .panic ∧ r ≠ .outOfFuel

theorem ends_onStack {e : Evaluator} {m : Eval Value}
    (h : Parallel (fun _ => False) False (OnStack e P none) m m) (hP : P e.callStack)
    (hends : Ends (m e).1) : SameItems (m e).2 e ∧ P (m e).2.callStack := by
  have hagree := (h e e ⟨rfl, ⟨rfl, rfl, rfl⟩, hP⟩).resolve_left (Eff.not_skipped _)
  generalize m e = out at hagree hends
  obtain ⟨r, s⟩ := out
  cases r with
  | ok a => exact hagree.2.2
  | error err => exact hagree.2.2
  | panic => exact absurd rfl hends.1
  | outOfFuel => exact absurd rfl hends.2

/-- the trees that neither declare nor assign `x` -/
def leaving (x : String) : Uses := ⟨fun _ => True, (· ≠ x), (· ≠ x)⟩

/-- **Blocks.** However a block ends, it leaves the frames of the callers, the functions, the
constants and every local variable that it neither declares nor assigns as they are. -/
theorem evalBlock_frames {x : String} {stmts : List Stmt} (h : blockWithin (leaving x) stmts)
    (fuel : Nat) {s : Evaluator} {frame : Frame} {frames : List Frame}
    (hs : s.callStack = frame :: frames) (hends : Ends (evalBlock fuel stmts s).1) :
    SameItems (evalBlock fuel stmts s).2 s ∧ ∃ frame',
      (evalBlock fuel stmts s).2.callStack = frame' :: frames ∧
        frame'.funcName = frame.funcName ∧ frame'.locals.lookup x = frame.locals.lookup x := by
  have hkept : Writable (· ≠ x) fun stack => ∃ frame', stack = frame' :: frames ∧
      frame'.funcName = frame.funcName ∧ frame'.locals.lookup x = frame.locals.lookup x := by
    rintro _ _ name value hname ⟨frame', hstack, hfunc, hlookup⟩
    obtain ⟨rfl, rfl⟩ := List.cons.inj hstack
    refine ⟨_, rfl, hfunc, ?_⟩
    rw [← hlookup, List.lookup_cons, beq_false_of_ne (Ne.symm hname)]
  exact ends_onStack (((respects_onStack hkept s).at (Nat.le_refl fuel) (.inl rfl)).block none stmts h)
    ⟨frame, hs, rfl, rfl⟩ hends

theorem evalBlock_frames_let :
    let s : Evaluator := ⟨[], [], [], [⟨[("x", .unit)], "f"⟩, ⟨[], "g"⟩], []⟩
    let stmts : List Stmt := [.letStmt "y" false none (.literal .unit), .ret none]
    SameItems (evalBlock 3 stmts s).2 s ∧ ∃ frame',
      (evalBlock 3 stmts s).2.callStack = [frame', ⟨[], "g"⟩] ∧ frame'.funcName = "f" ∧
        frame'.locals.lookup "x" = some .unit := by
  intro s stmts
  have h : blockWithin (leaving "x") stmts :=
    ⟨⟨(by decide : "y" ≠ "x"), trivial⟩, trivial, trivial⟩
  exact evalBlock_frames h 3 (show s.callStack = _ from rfl) ⟨nofun, nofun⟩

/-- **Calls.** However a call ends, it leaves the frames, the functions and the constants as they
are. -/
theorem call_callStack (fuel : Nat) (name : String) (args : List Value) {s : Evaluator}
    (hends : Ends (call fuel name args s).1) :
    SameItems (call fuel name args s).2 s ∧ (call fuel name args s).2.callStack = s.callStack := by
  have hkept : Writable (fun _ => False) (· = s.callStack) := fun _ _ _ _ h => h.elim
  exact ends_onStack (((respects_onStack hkept s).at (Nat.le_refl fuel) (.inl rfl)).call name args)
    rfl hends

/-- a call that returns early -/
theorem call_callStack_return :
    let s : Evaluator := ⟨[], [("f", ⟨"f", [], none, [.ret none]⟩)], [], [⟨[], "g"⟩], []⟩
    SameItems (call 4 "f" [] s).2 s ∧ (call 4 "f" [] s).2.callStack = [⟨[], "g"⟩] :=
  call_callStack 4 "f" [] ⟨nofun, nofun⟩

end Ekkl
end EkKor
