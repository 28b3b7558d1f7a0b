import EkKor.Fs.Abort

/-!
# `ekkfs_write` and `ekkfs_delete` as steps

Without a transaction the journal stays as it is, and the calls on files are sequences of the steps
that a transaction records: blocks are taken and given back, written, and inodes are written.

* `Made v v'`                  such steps lead from `v` to `v'`;
* `made_write`, `made_delete`  the two calls.
-/

namespace EkKor
namespace Fs

/-! ## sequences of steps -/

def Journaled.steps : Journaled → List TxCall → Option Journaled
  | s, [] => some s
  | s, e :: es => (s.step e).bind fun (_, s) => s.steps es

theorem steps_append (s : Journaled) (es es' : List TxCall) :
    s.steps (es ++ es') = (s.steps es).bind (·.steps es') := by
  induction es generalizing s with
  | nil => rfl
  | cons e es ih =>
    rw [List.cons_append, Journaled.steps, Journaled.steps, Option.bind_assoc]
    congr 1
    funext r
    exact ih r.2

def TxCall.onVolume : TxCall → Prop
  | .alloc _ | .free _ _ | .store _ _ | .inode _ _ => True
  | _ => False

/-- steps of calls on files lead from `v` to `v'`, whatever the journal -/
def Made (v v' : Volume) : Prop :=
  ∃ es : List TxCall, (∀ e ∈ es, e.onVolume) ∧
    ∀ j : JournalState, j.txActive = false → Journaled.steps ⟨v, j⟩ es = some ⟨v', j⟩

variable {v v' v'' : Volume}

theorem Made.refl (v : Volume) : Made v v := ⟨[], nofun, fun _ _ => rfl⟩

theorem Made.trans (h : Made v v') (h' : Made v' v'') : Made v v'' := by
  obtain ⟨es, hes, hrun⟩ := h
  obtain ⟨es', hes', hrun'⟩ := h'
  refine ⟨es ++ es', fun e he => ?_, fun j hj => ?_⟩
  · rcases List.mem_append.mp he with he | he
    · exact hes e he
    · exact hes' e he
  · rw [steps_append, hrun j hj]
    exact hrun' j hj

theorem made_step {e : TxCall} (he : e.onVolume) (h : ∀ j : JournalState, j.txActive = false →
    ∃ r, Journaled.step ⟨v, j⟩ e = some (r, ⟨v', j⟩)) : Made v v' := by
  refine ⟨[e], fun e' he' => List.mem_singleton.mp he' ▸ he, fun j hj => ?_⟩
  obtain ⟨r, hr⟩ := h j hj
  rw [Journaled.steps, hr]
  rfl

theorem made_put (v : Volume) (b : UInt32) (block : Block) : Made v (v.put b block) :=
  made_step (e := .store b block) trivial fun _ _ => ⟨.ok, rfl⟩

/-- such steps lead from `v` to `v'`, on a volume with a proper layout -/
structure Making (v v' : Volume) : Prop where
  made : Made v v'
  geometry : Geometry v'.superblock

theorem Making.trans (h : Making v v') (h' : Making v' v'') : Making v v'' :=
  ⟨h.made.trans h'.made, h'.geometry⟩

theorem Making.put (h : Making v v') (b : UInt32) (block : Block) : Making v (v'.put b block) :=
  ⟨h.made.trans (made_put v' b block), h.geometry⟩

end Fs
end EkKor
