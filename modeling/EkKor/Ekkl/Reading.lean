import EkKor.Ekkl.Scan

/-!
# The lexer reads what is in front

The lexer is always between two characters of its text: it has read the first ones, the rest is left.

* `At`             where the lexer is;
* `advance_at`, `readWhile_at`   the reading of some characters;
* `Lexes`          a token is read as `scanToken` says, with its span;
* `nextToken_at`   the next token.
-/

namespace EkKor
namespace Ekkl
open Utf8 List

/-- `pre` has been read and `rest` is left -/
structure At (input pre rest : List Char) (s : Lexer) : Prop where
  input : input = pre ++ rest
  pos : s.pos = byteLen pre

variable {std : Std} {input pre rest taken : List Char} {s : Lexer} {c : Char}

/-! ## one step -/

theorem remaining_at (h : At input pre rest s) : remaining input s = (.ok rest, s) := by
  have hsplit : splitBytes input s.pos = some (pre, rest) := by
    rw [h.input, h.pos]
    exact splitBytes_append pre rest
  unfold remaining
  rw [Eff.get_bind, hsplit]
  rfl

theorem byteLen_pos (hne : taken ≠ []) : 0 < byteLen taken :=
  Nat.lt_of_lt_of_le (length_pos_iff.mpr hne) (length_le_byteLen taken)

theorem isAtEnd_nil (h : At input pre [] s) : isAtEnd input s = (.ok true, s) := by
  show (Outcome.ok (decide (byteLen input ≤ s.pos)), s) = _
  rw [decide_eq_true (by rw [h.input, h.pos, append_nil])]

theorem isAtEnd_cons (h : At input pre (c :: rest) s) : isAtEnd input s = (.ok false, s) := by
  have hpos := byteLen_pos (cons_ne_nil c rest)
  show (Outcome.ok (decide (byteLen input ≤ s.pos)), s) = _
  rw [decide_eq_false (by rw [h.input, h.pos, byteLen_append]; omega)]

theorem nextChar_cons (h : At input pre (c :: rest) s) : nextChar input s = (.ok c, s) := by
  unfold nextChar
  rw [Eff.bind_ok (remaining_at h)]
  rfl

theorem startsWith_at (h : At input pre rest s) (cs : List Char) :
    startsWith input cs s = (.ok (cs.isPrefixOf rest), s) := by
  unfold startsWith
  rw [Eff.bind_ok (remaining_at h)]
  rfl

theorem advance_at (h : At input pre (taken ++ rest) s) {n : Nat} (hn : n = byteLen taken) :
    ∃ s', advance input n s = (.ok (), s') ∧ At input (pre ++ taken) rest s' := by
  refine ⟨{ taken.foldl Lexer.count s with pos := s.pos + n }, ?_, ⟨?_, ?_⟩⟩
  · unfold advance
    rw [Eff.bind_ok (remaining_at h), hn, splitBytes_append]
    rfl
  · rw [h.input, append_assoc]
  · rw [h.pos, hn, byteLen_append]

theorem advance_cons (h : At input pre (c :: rest) s) {n : Nat} (hn : n = c.utf8Size) :
    ∃ s', advance input n s = (.ok (), s') ∧ At input (pre ++ [c]) rest s' :=
  advance_at (show At input pre ([c] ++ rest) s from h) hn

/-! ## runs of characters -/

variable {fuel : Nat} {isDigit : Char → Bool} {lexeme : List Char}

theorem readWhile_at {p : Char → Bool} {width : Char → Option Nat}
    (hwidth : ∀ c, width c = if p c = true then some c.utf8Size else none)
    (hfuel : rest.length < fuel) (h : At input pre rest s) :
    ∃ s', readWhile input width fuel s = (.ok (rest.takeWhile p), s') ∧
      At input (pre ++ rest.takeWhile p) (rest.drop (rest.takeWhile p).length) s' := by
  induction fuel generalizing pre rest s with
  | zero => cases hfuel
  | succ fuel ih =>
    unfold readWhile
    cases rest with
    | nil =>
      rw [Eff.bind_ok (isAtEnd_nil h)]
      exact ⟨s, rfl, by rw [takeWhile_nil, append_nil]; exact h⟩
    | cons c rest =>
      rw [Eff.bind_ok (isAtEnd_cons h), if_neg Bool.false_ne_true, Eff.bind_ok (nextChar_cons h),
        hwidth]
      by_cases hp : p c = true
      · rw [if_pos hp, takeWhile_cons_of_pos hp]
        obtain ⟨s₁, h₁, hat₁⟩ := advance_cons h rfl
        obtain ⟨s₂, h₂, hat₂⟩ := ih (Nat.lt_of_succ_lt_succ hfuel) hat₁
        refine ⟨s₂, ?_, ?_⟩
        · dsimp only
          rw [Eff.bind_ok h₁, Eff.bind_ok h₂]
          rfl
        · rw [append_assoc] at hat₂
          exact hat₂
      · rw [if_neg hp, takeWhile_cons_of_neg hp]
        exact ⟨s, rfl, by rw [append_nil]; exact h⟩

theorem utf8Size_of_ascii (h : c.toNat < 128) : c.utf8Size = 1 :=
  Char.utf8Size_eq_one_iff.mpr (Nat.le_of_lt_succ h)

theorem ascii_of_isAsciiDigit (c : Char) (h : isAsciiDigit c = true) : c.toNat < 128 := by
  have := of_decide_eq_true h
  omega

theorem ascii_of_isAsciiHexdigit (c : Char) (h : isAsciiHexdigit c = true) : c.toNat < 128 := by
  unfold isAsciiHexdigit at h
  rw [Bool.or_eq_true, Bool.or_eq_true, decide_eq_true_iff, decide_eq_true_iff] at h
  rcases h with (h | h) | h
  · exact ascii_of_isAsciiDigit c h
  · omega
  · omega

theorem ascii_of_isDigits (hdigit : ∀ c, isDigit c = true → c.toNat < 128)
    (h : isDigits isDigit c = true) : c.toNat < 128 := by
  unfold isDigits at h
  rw [Bool.or_eq_true, beq_iff_eq] at h
  rcases h with h | rfl
  · exact hdigit c h
  · decide

theorem lexDigits_at (hdigit : ∀ c, isDigit c = true → c.toNat < 128) (hfuel : rest.length < fuel)
    (h : At input pre rest s) :
    ∃ s', lexDigits input isDigit fuel s =
        (.ok ((rest.takeWhile (isDigits isDigit)).filter isDigit), s') ∧
      At input (pre ++ rest.takeWhile (isDigits isDigit))
        (rest.drop (rest.takeWhile (isDigits isDigit)).length) s' := by
  have hwidth (c : Char) : (if (isDigit c || c == '_') = true then some 1 else none) =
      if isDigits isDigit c = true then some c.utf8Size else none := by
    show (if isDigits isDigit c = true then some 1 else none) = _
    split_ifs with hc
    · rw [utf8Size_of_ascii (ascii_of_isDigits hdigit hc)]
    · rfl
  obtain ⟨s', hread, hat⟩ := readWhile_at hwidth hfuel h
  refine ⟨s', ?_, hat⟩
  unfold lexDigits
  rw [Eff.bind_ok hread]
  rfl

/-! ## tokens -/

/-- how a token that begins at `start` is read, with `pre` before the characters that count -/
def Lexes (input pre rest : List Char) (start : Nat) :
    Option (Token × List Char) → Outcome LexError SpannedToken × Lexer → Prop
  | some (t, lexeme), out => ∃ span s', out = (.ok ⟨t, span⟩, s') ∧ span.start = start ∧
      span.stop = byteLen (pre ++ lexeme) ∧ At input (pre ++ lexeme) (rest.drop lexeme.length) s'
  | none, out => ∃ e s', out = (.error e, s')

variable {start : Nat} {r : Option (Token × List Char)}
  {out : Outcome LexError SpannedToken × Lexer}

theorem Lexes.cons (h : Lexes input (pre ++ [c]) rest start r out) :
    Lexes input pre (c :: rest) start (r.map fun p => (p.1, c :: p.2)) out := by
  cases r with
  | none => exact h
  | some p =>
    obtain ⟨span, s', hout, hstart, hstop, hat⟩ := h
    rw [append_assoc] at hstop hat
    exact ⟨span, s', hout, hstart, hstop, hat⟩

theorem fixedToken_at {token : Token} {len : Nat} (h : At input pre (taken ++ rest) s)
    (hlen : len = byteLen taken) :
    Lexes input pre (taken ++ rest) (byteLen pre) (some (token, taken))
      (fixedToken input token len s) := by
  obtain ⟨s', hadv, hat⟩ := advance_at h hlen
  refine ⟨⟨s.pos, s'.pos, s.line, s.column⟩, s', ?_, h.pos, hat.pos, ?_⟩
  · show (do
      advance input len
      return ⟨token, ← spanFrom s⟩ : Lex SpannedToken) s = _
    rw [Eff.bind_ok hadv]
    rfl
  · rw [drop_left]
    exact hat

theorem lexStringLoop_at {start : Lexer} (value : List Char) (escape : Bool)
    (hfuel : rest.length < fuel) (h : At input pre rest s) :
    Lexes input pre rest start.pos
      ((scanString rest value escape).map fun p => (.stringLit (String.ofList p.1), p.2))
      (lexStringLoop input start fuel value escape s) := by
  induction fuel generalizing pre rest s value escape with
  | zero => cases hfuel
  | succ fuel ih =>
    unfold lexStringLoop
    cases rest with
    | nil =>
      rw [Eff.bind_ok (isAtEnd_nil h)]
      exact ⟨_, _, rfl⟩
    | cons c rest =>
      rw [Eff.bind_ok (isAtEnd_cons h), if_neg Bool.false_ne_true, Eff.bind_ok (nextChar_cons h)]
      -- the rest of the string after this character
      have hnext {n : Nat} (hn : n = c.utf8Size) (v : List Char) (e : Bool) :
          Lexes input pre (c :: rest) start.pos
            (((scanString rest v e).map fun p => (p.1, c :: p.2)).map
              fun p => (.stringLit (String.ofList p.1), p.2))
            ((do
              advance input n
              lexStringLoop input start fuel v e : Lex SpannedToken) s) := by
        obtain ⟨s', hadv, hat⟩ := advance_cons h hn
        rw [Eff.bind_ok hadv]
        rw [Option.map_map]
        have hloop := Lexes.cons (ih v e (Nat.lt_of_succ_lt_succ hfuel) hat)
        rw [Option.map_map] at hloop
        exact hloop
      unfold scanString
      split_ifs with h1 h2 h3 h4
      · exact hnext rfl _ _
      · exact hnext (by rw [h2]; rfl) _ _
      · obtain ⟨s', hadv, hat⟩ := advance_cons h (n := 1) (by rw [h3]; rfl)
        refine ⟨⟨start.pos, s'.pos, start.line, start.column⟩, s', ?_, rfl, hat.pos, hat⟩
        rw [Eff.bind_ok hadv]
        rfl
      · exact ⟨_, _, rfl⟩
      · exact hnext rfl _ _

/-! ## numbers -/

theorem lexMark_at (h : At input pre rest s) (hc : c.toNat < 128) :
    ∃ s', lexMark input c s = (.ok ([c].isPrefixOf rest), s') ∧
      At input (pre ++ if [c].isPrefixOf rest = true then [c] else [])
        (rest.drop (if [c].isPrefixOf rest = true then [c] else []).length) s' := by
  unfold lexMark
  rw [Eff.bind_ok (startsWith_at h _)]
  split_ifs with hpre
  · obtain ⟨tail, rfl⟩ := isPrefixOf_iff_prefix.mp hpre
    obtain ⟨s', hadv, hat⟩ := advance_at h (n := 1) (utf8Size_of_ascii hc).symm
    refine ⟨s', ?_, hat⟩
    rw [Eff.bind_ok hadv, hpre]
    rfl
  · rw [Bool.not_eq_true] at hpre
    refine ⟨s, ?_, by rw [append_nil]; exact h⟩
    rw [hpre]
    rfl

theorem lexHexPrefix_at (h : At input pre rest s) :
    ∃ s', lexHexPrefix input s = (.ok (isHexPrefix rest), s') ∧
      At input (pre ++ if isHexPrefix rest = true then rest.take 2 else [])
        (if isHexPrefix rest = true then rest.drop 2 else rest) s' := by
  unfold lexHexPrefix
  rw [Eff.bind_ok (startsWith_at h _), Eff.bind_ok (startsWith_at h _)]
  change ∃ s', (if isHexPrefix rest = true then _ else _ : Lex Bool) s = _ ∧ _
  split_ifs with hhex
  · have hlen : 2 = byteLen (rest.take 2) := by
      rcases take_of_isHexPrefix hhex with h2 | h2 <;> rw [h2] <;> rfl
    rw [← take_append_drop 2 rest] at h
    obtain ⟨s', hadv, hat⟩ := advance_at h hlen
    refine ⟨s', ?_, hat⟩
    rw [Eff.bind_ok hadv, hhex]
    rfl
  · rw [Bool.not_eq_true] at hhex
    refine ⟨s, ?_, by rw [append_nil]; exact h⟩
    rw [hhex]
    rfl

theorem lexFraction_at (hfuel : rest.length < fuel) (h : At input pre rest s) :
    ∃ s', lexFraction input false fuel s =
        (.ok ((scanFraction rest).map (List.filter isAsciiDigit)), s') ∧
      At input (pre ++ ((scanFraction rest).map fun f => '.' :: f).getD [])
        (rest.drop (((scanFraction rest).map fun f => '.' :: f).getD []).length) s' := by
  unfold lexFraction
  rw [Eff.bind_ok (startsWith_at h _)]
  split_ifs with hpoint
  · obtain ⟨tail, rfl⟩ := isPrefixOf_iff_prefix.mp hpoint
    rw [Eff.bind_ok (remaining_at h)]
    cases tail with
    | nil => exact ⟨s, rfl, by rw [← append_nil pre] at h; exact h⟩
    | cons c tail =>
      have hscan : scanFraction (['.'] ++ c :: tail) =
          if isAsciiDigit c = true then some ((c :: tail).takeWhile (isDigits isAsciiDigit))
          else none := rfl
      rw [hscan]
      split_ifs with hdigit hdigit' hdigit'
      · obtain ⟨s₁, hadv, hat₁⟩ := advance_at h (n := 1) rfl
        obtain ⟨s₂, hread, hat₂⟩ := lexDigits_at ascii_of_isAsciiDigit
          (Nat.lt_of_succ_lt hfuel) hat₁
        refine ⟨s₂, ?_, ?_⟩
        · rw [Eff.bind_ok hadv, Eff.bind_ok hread]
          rfl
        · rw [append_assoc] at hat₂
          exact hat₂
      · exact absurd hdigit hdigit'
      · exact absurd hdigit' hdigit
      · exact ⟨s, rfl, by rw [← append_nil pre] at h; exact h⟩
  · have hscan : scanFraction rest = none := by
      unfold scanFraction
      split
      · exact absurd rfl hpoint
      · rfl
    rw [hscan]
    exact ⟨s, rfl, by rw [← append_nil pre] at h; exact h⟩

theorem lexFraction_hex (h : At input pre rest s) :
    lexFraction input true fuel s = (.ok none, s) := by
  unfold lexFraction
  rw [Eff.bind_ok (startsWith_at h _)]
  rfl

theorem At.after {pre' rest' : List Char} {s' : Lexer} (h : At input pre rest s)
    (h' : At input pre' rest' s') (hpre : pre' = pre ++ lexeme) :
    At input (pre ++ lexeme) (rest.drop lexeme.length) s' := by
  subst hpre
  obtain rfl : rest = lexeme ++ rest' := by
    have hsame := h.input.symm.trans h'.input
    rw [append_assoc] at hsame
    exact append_cancel_left hsame
  rw [drop_left]
  exact h'

theorem lexNumberToken_at {isHex isFixed : Bool} {ds : List Char} {fraction : Option (List Char)}
    {start : Lexer} (hstart : start.pos = byteLen pre)
    (h : At input (pre ++ lexeme) (rest.drop lexeme.length) s) :
    Lexes input pre rest (byteLen pre)
      ((numberToken std isHex ds fraction isFixed).map fun t => (t, lexeme))
      ((do lexNumberToken std false isHex ds fraction isFixed (← spanFrom start) :
        Lex SpannedToken) s) := by
  unfold numberToken lexNumberToken
  simp only [Bool.false_eq_true, if_false, nil_append]
  split_ifs
  · generalize std.fixedBits _ = bits
    cases bits
    · exact ⟨_, _, rfl⟩
    · exact ⟨_, s, rfl, hstart, h.pos, h⟩
  · generalize fromStrRadix 16 ds = n
    cases n
    · exact ⟨_, _, rfl⟩
    · exact ⟨_, s, rfl, hstart, h.pos, h⟩
  · generalize fromStrRadix 10 ds = n
    cases n
    · exact ⟨_, _, rfl⟩
    · exact ⟨_, s, rfl, hstart, h.pos, h⟩

/-- **A number is read as `scanNumber` says.** -/
theorem lexNumber_at (hfuel : rest.length < fuel) (h : At input pre rest s)
    (hminus : ['-'].isPrefixOf rest = false) :
    Lexes input pre rest (byteLen pre) (scanNumber std rest) (lexNumber std input fuel s) := by
  obtain ⟨s₁, h₁, hat₁⟩ := lexMark_at h (c := '-') (by decide)
  rw [hminus, if_neg Bool.false_ne_true, append_nil] at hat₁
  obtain ⟨s₂, h₂, hat₂⟩ := lexHexPrefix_at (show At input pre rest s₁ from hat₁)
  unfold lexNumber
  rw [Eff.bind_ok (show Eff.get s = (.ok s, s) from rfl), Eff.bind_ok h₁, Eff.bind_ok h₂, hminus]
  unfold scanNumber
  have hlen (n : Nat) : (rest.drop n).length < fuel :=
    Nat.lt_of_le_of_lt (length_drop ▸ Nat.sub_le _ _) hfuel
  split_ifs with hhex
  · rw [if_pos hhex, if_pos hhex] at hat₂
    obtain ⟨s₃, h₃, hat₃⟩ := lexDigits_at ascii_of_isAsciiHexdigit (hlen 2) hat₂
    obtain ⟨s₄, h₄, hat₄⟩ := lexMark_at hat₃ (c := 'q') (by decide)
    rw [hhex, Eff.bind_ok h₃,
      Eff.bind_ok (lexFraction_hex hat₃), Eff.bind_ok h₄]
    refine lexNumberToken_at h.pos (h.after hat₄ ?_)
    rw [Number.text_eq, ← append_assoc, ← append_assoc]
    rfl
  · rw [if_neg hhex, if_neg hhex, append_nil] at hat₂
    obtain ⟨s₃, h₃, hat₃⟩ := lexDigits_at ascii_of_isAsciiDigit hfuel hat₂
    obtain ⟨s₄, h₄, hat₄⟩ := lexFraction_at (hlen _) hat₃
    obtain ⟨s₅, h₅, hat₅⟩ := lexMark_at hat₄ (c := 'q') (by decide)
    rw [Bool.eq_false_iff.mpr hhex,
      Eff.bind_ok h₃, Eff.bind_ok h₄,
      Eff.bind_ok h₅]
    refine lexNumberToken_at h.pos (h.after hat₅ ?_)
    rw [Number.text_eq, ← append_assoc, ← append_assoc]
    rfl

/-! ## the next token -/

theorem lexIdentOrKeyword_at (hfuel : rest.length < fuel) (h : At input pre rest s) :
    Lexes input pre rest (byteLen pre)
      (some (identToken (rest.takeWhile (isIdent std)), rest.takeWhile (isIdent std)))
      (lexIdentOrKeyword std input fuel s) := by
  have hwidth (c : Char) :
      (if (std.isAlphanumeric c || c == '_') = true then some c.utf8Size else none) =
        if isIdent std c = true then some c.utf8Size else none := rfl
  obtain ⟨s', hread, hat⟩ := readWhile_at hwidth hfuel h
  refine ⟨⟨s.pos, s'.pos, s.line, s.column⟩, s', ?_, h.pos, hat.pos, hat⟩
  unfold lexIdentOrKeyword
  rw [Eff.bind_ok (show Eff.get s = (.ok s, s) from rfl), Eff.bind_ok hread]
  rfl

theorem lexString_at (hfuel : rest.length < fuel) (h : At input pre ('"' :: rest) s) :
    Lexes input pre ('"' :: rest) (byteLen pre)
      ((scanString rest [] false).map fun p => (.stringLit (String.ofList p.1), '"' :: p.2))
      (lexString input fuel s) := by
  obtain ⟨s', hadv, hat⟩ := advance_cons h (n := 1) rfl
  unfold lexString
  rw [Eff.bind_ok (show Eff.get s = (.ok s, s) from rfl), Eff.bind_ok hadv, ← h.pos]
  have hloop : Lexes input pre ('"' :: rest) s.pos _ (lexStringLoop input s fuel [] false s') :=
    Lexes.cons (lexStringLoop_at [] false hfuel hat)
  rw [Option.map_map] at hloop
  exact hloop

theorem pairTokens_byteLen : ∀ p ∈ pairTokens, 2 = byteLen [p.1, p.2.1] := by decide

theorem charTokens_utf8Size (c : Char) (t : Token) (h : charTokens.lookup c = some t) :
    1 = c.utf8Size := by
  obtain ⟨before, after, hsplit, _⟩ := lookup_eq_some_iff.mp h
  have hall : ∀ p ∈ charTokens, 1 = p.1.utf8Size := by decide
  exact hall (c, t) (hsplit ▸ mem_append_right _ mem_cons_self)

theorem isUnderscore_eq :
    isUnderscore std c (c :: rest) s =
      (.ok (decide (c = '_' ∧ rest.head?.any (isIdent std) = false)), s) := by
  unfold isUnderscore
  by_cases hc : c = '_'
  · rw [if_pos hc, hc]
    rw [show splitBytes ('_' :: rest) 1 = some (['_'], rest) from splitBytes_append ['_'] rest]
    show (Outcome.ok !(rest.head?.any (isIdent std)), s) = _
    cases rest.head?.any (isIdent std) <;> rfl
  · rw [if_neg hc, decide_eq_false fun hbad => hc hbad.1]
    rfl

variable (std) in
/-- **The next token is read as `scanToken` says.** -/
theorem nextToken_at (hfuel : rest.length < fuel) (hne : rest ≠ []) (h : At input pre rest s) :
    Lexes input pre rest (byteLen pre) (scanToken std rest) (nextToken std input fuel s) := by
  unfold nextToken scanToken
  rw [Eff.bind_ok (remaining_at h)]
  have hfind : (pairTokens.find? fun p => [p.1, p.2.1].isPrefixOf rest) = pairAt rest := rfl
  rw [hfind]
  cases hpair : pairAt rest with
  | some p =>
    obtain ⟨tail, rfl⟩ := pairAt_front hpair
    exact fixedToken_at h (pairTokens_byteLen p (mem_of_find?_eq_some hpair))
  | none =>
    obtain ⟨c, cs, rfl⟩ := exists_cons_of_ne_nil hne
    show Lexes input pre (c :: cs) (byteLen pre) (scanChar std c cs) ((nextChar input >>= _) s)
    rw [Eff.bind_ok (nextChar_cons h)]
    unfold scanChar
    cases hlookup : charTokens.lookup c with
    | some t =>
      exact fixedToken_at (show At input pre ([c] ++ cs) s from h)
        (charTokens_utf8Size c t hlookup)
    | none =>
      show Lexes input pre (c :: cs) (byteLen pre) _ ((isUnderscore std c (c :: cs) >>= _) s)
      rw [Eff.bind_ok isUnderscore_eq]
      by_cases hunder : c = '_' ∧ cs.head?.any (isIdent std) = false
      · rw [decide_eq_true hunder, if_pos rfl, if_pos hunder]
        exact fixedToken_at (show At input pre ([c] ++ cs) s from h) (by rw [hunder.1]; rfl)
      · rw [decide_eq_false hunder, if_neg Bool.false_ne_true, if_neg hunder]
        split_ifs with hquote hdigit hident
        · subst hquote
          exact lexString_at (Nat.lt_of_succ_lt hfuel) h
        · refine lexNumber_at hfuel h (Bool.eq_false_iff.mpr fun hbad => ?_)
          obtain ⟨rfl, _⟩ := cons_prefix_cons.mp ( isPrefixOf_iff_prefix.mp hbad)
          exact absurd hdigit (by decide)
        · exact lexIdentOrKeyword_at hfuel h
        · exact ⟨_, _, rfl⟩

end Ekkl
end EkKor
