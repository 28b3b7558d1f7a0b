import Mathlib.Algebra.GroupWithZero.Nat
import Mathlib.Tactic.Common

/-!
# Texts by byte positions

A text is a list of characters, each of one to four bytes.  A position is a number of bytes; only the
positions between characters are ones at which the text can be cut.

* `byteLen`      the number of bytes;
* `splitBytes`   the text before and after a position, when it can be cut there;
* `slice`        the text between two positions.
-/

namespace Utf8

def byteLen (cs : List Char) : Nat := (cs.map Char.utf8Size).sum

def splitBytes : List Char → Nat → Option (List Char × List Char)
  | cs, 0 => some ([], cs)
  | [], _ + 1 => none
  | c :: cs, n + 1 =>
    if c.utf8Size ≤ n + 1 then
      (splitBytes cs (n + 1 - c.utf8Size)).map fun p => (c :: p.1, p.2)
    else none

def slice (cs : List Char) (start stop : Nat) : Option (List Char) :=
  (splitBytes cs start).bind fun p =>
    (splitBytes p.2 (stop - start)).map fun q => q.1

theorem byteLen_cons (c : Char) (cs : List Char) : byteLen (c :: cs) = c.utf8Size + byteLen cs :=
  List.sum_cons

theorem byteLen_append (a b : List Char) : byteLen (a ++ b) = byteLen a + byteLen b := by
  unfold byteLen
  rw [List.map_append, List.sum_append]

theorem length_le_byteLen (cs : List Char) : cs.length ≤ byteLen cs := by
  induction cs with
  | nil => exact Nat.le_refl 0
  | cons c cs ih =>
    rw [byteLen_cons, List.length_cons, Nat.add_comm]
    exact Nat.add_le_add c.utf8Size_pos ih

theorem splitBytes_append (a b : List Char) : splitBytes (a ++ b) (byteLen a) = some (a, b) := by
  induction a with
  | nil => cases b <;> rfl
  | cons c a ih =>
    have hpos := c.utf8Size_pos
    rw [byteLen_cons, List.cons_append]
    obtain ⟨n, hn⟩ := Nat.exists_eq_succ_of_ne_zero (Nat.ne_of_gt (Nat.add_pos_left hpos (byteLen a)))
    rw [hn]
    unfold splitBytes
    rw [if_pos (by omega), show n + 1 - c.utf8Size = byteLen a by omega, ih]
    rfl

theorem slice_append (a b c : List Char) :
    slice (a ++ b ++ c) (byteLen a) (byteLen a + byteLen b) = some b := by
  unfold slice
  rw [List.append_assoc, splitBytes_append]
  show (splitBytes (b ++ c) (byteLen a + byteLen b - byteLen a)).map _ = _
  rw [Nat.add_sub_cancel_left, splitBytes_append]
  rfl

theorem splitBytes_eq {cs a b : List Char} {n : Nat} (h : splitBytes cs n = some (a, b)) :
    cs = a ++ b := by
  fun_induction splitBytes cs n generalizing a with
  | case1 cs =>
    cases h
    rfl
  | case2 => cases h
  | case3 c cs n hle ih =>
    obtain ⟨⟨a', b'⟩, hsplit, heq⟩ := Option.map_eq_some_iff.mp h
    cases heq
    exact congrArg (c :: ·) (ih hsplit)
  | case4 => cases h

theorem length_slice_le {cs l : List Char} {start stop : Nat} (h : slice cs start stop = some l) :
    l.length ≤ cs.length := by
  obtain ⟨⟨a, b⟩, hsplit, h⟩ := Option.bind_eq_some_iff.mp h
  obtain ⟨⟨l', c⟩, hsplit', heq⟩ := Option.map_eq_some_iff.mp h
  cases heq
  obtain rfl := splitBytes_eq hsplit
  obtain rfl : b = l' ++ c := splitBytes_eq hsplit'
  rw [List.length_append, List.length_append]
  show l'.length ≤ a.length + (l'.length + c.length)
  omega

end Utf8
