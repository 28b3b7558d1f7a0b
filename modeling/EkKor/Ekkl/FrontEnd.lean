import EkKor.Ekkl.Consuming
import EkKor.Ekkl.Lexing

/-!
# The front end on every text

* `InOrder`             the spans of tokens, one after the other inside the text;
* `Retokenizes`         the text of a token, alone, is that token;
* `FrontEnd`            what the lexer and the parser do with a text;
* `frontEnd_total`      **they do it with every text.**
-/

namespace EkKor
namespace Ekkl
open Utf8

variable {std : Std} {input : List Char}

/-- the spans lie in the text, one after the other -/
structure InOrder (input : List Char) (ts : List SpannedToken) : Prop where
  bounds : ∀ t ∈ ts, t.span.start ≤ t.span.stop ∧ t.span.stop ≤ byteLen input
  apart : ts.Pairwise fun a b => a.span.stop ≤ b.span.start
  nonempty : ∀ t ∈ ts, t.token ≠ .eof → t.span.start < t.span.stop

def Retokenizes (std : Std) (input : List Char) (fuel : Nat) (t : SpannedToken) : Prop :=
  ∃ text, slice input t.span.start t.span.stop = some text ∧
    ∃ a b, tokenize std text fuel = .ok [a, b] ∧ a.token = t.token ∧ b.token = .eof

def Returns {ε α : Type} (r : Outcome ε α) : Prop := (∃ a, r = .ok a) ∨ ∃ e, r = .error e

/-- what the front end does with a text -/
structure FrontEnd (std : Std) (input : List Char) (fuel : Nat) : Prop where
  lexer : Returns (tokenize std input fuel)
  spans : ∀ ts, tokenize std input fuel = .ok ts → InOrder input ts
  retokenizes : ∀ ts, tokenize std input fuel = .ok ts →
    ∀ t ∈ ts, t.token ≠ .eof → Retokenizes std input fuel t
  parser : ∀ ts, tokenize std input fuel = .ok ts →
    Returns (Parser.parseProgram std.isUppercase (ts.map SpannedToken.token) fuel)

theorem Tokens.length_le {pos : Nat} {ts : List SpannedToken} (h : Tokens std input pos ts) :
    pos + ts.length ≤ byteLen input + 1 := by
  induction h with
  | eof span hpos hempty hstop =>
    rw [List.length_singleton]
    omega
  | cons hpos hlt _ _ ih =>
    rw [List.length_cons]
    omega

theorem Tokens.endsWithEof {pos : Nat} {ts : List SpannedToken} (h : Tokens std input pos ts) :
    Parser.EndsWithEof (ts.map SpannedToken.token) := by
  obtain ⟨front, last, rfl, hlast, _⟩ := h.eof_last
  unfold Parser.EndsWithEof
  rw [List.map_append, List.map_singleton, List.getLast?_concat, hlast]

/-- **The front end is total.** -/
theorem frontEnd_total (std : Std) (source : String) :
    ∃ enough, ∀ fuel, enough ≤ fuel → FrontEnd std source.toList fuel := by
  refine ⟨byteLen source.toList + 3, fun fuel hfuel => ?_⟩
  generalize source.toList = input at hfuel ⊢
  have hlen := length_le_byteLen input
  have hspec := tokenize_spec std (show input.length + 2 < fuel by omega)
  have htokens (ts : List SpannedToken) (h : tokenize std input fuel = .ok ts) :
      Tokens std input 0 ts := by
    rcases hspec with ⟨ts', hok, htokens⟩ | ⟨e, herror⟩
    · rw [h] at hok
      cases hok
      exact htokens
    · rw [h] at herror
      cases herror
  refine ⟨?_, fun ts h => ?_, fun ts h t ht hne => ?_, fun ts h => ?_⟩
  · exact hspec.imp (fun ⟨ts, hok, _⟩ => ⟨ts, hok⟩) id
  · exact ⟨fun t ht => ((htokens ts h).bounds ht).2, (htokens ts h).pairwise,
      fun t ht hne => ((htokens ts h).lexeme ht hne).1⟩
  · obtain ⟨lexeme, hlexeme⟩ := ((htokens ts h).lexeme ht hne).2
    have hshort := length_slice_le hlexeme.slice
    exact ⟨lexeme, hlexeme.slice, hlexeme.tokenize (by omega)⟩
  · refine Parser.parseProgram_ends (htokens ts h).endsWithEof ?_
    have := (htokens ts h).length_le
    rw [List.length_map]
    omega

end Ekkl
end EkKor
