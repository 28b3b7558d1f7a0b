import EkKor.Ekkl.Reading

/-!
# The lexer on a whole text

* `Settled`        a text in front of which there is nothing to skip;
* `skip_at`        whitespace and comments are skipped up to such a text;
* `Lexeme`         what is known about a token and its place in the text;
* `tokenize_spec`  the tokens of a text, or an error; never a panic.
-/

namespace EkKor
namespace Ekkl
open Utf8 List

variable {std : Std} {input pre rest : List Char} {s : Lexer} {c : Char}

/-! ## whitespace and comments -/

/-- there is nothing to skip in front of the text -/
structure Settled (std : Std) (rest : List Char) : Prop where
  space : ∀ c ∈ rest.head?, std.isWhitespace c = false
  line : ['/', '/'].isPrefixOf rest = false
  block : ['/', '*'].isPrefixOf rest = false

def Skips (input pre rest : List Char) (P : List Char → List Char → Prop)
    (out : Outcome LexError Unit × Lexer) : Prop :=
  ∃ skipped rest' s', rest = skipped ++ rest' ∧ out = (.ok (), s') ∧
    At input (pre ++ skipped) rest' s' ∧ P skipped rest'

theorem Skips.none {P : List Char → List Char → Prop} (h : At input pre rest s) (hP : P [] rest) :
    Skips input pre rest P (.ok (), s) :=
  ⟨[], rest, s, rfl, rfl, by rw [append_nil]; exact h, hP⟩

theorem Skips.cons {P Q : List Char → List Char → Prop} {out : Outcome LexError Unit × Lexer}
    (h : Skips input (pre ++ [c]) rest P out) (hQ : ∀ a b, P a b → Q (c :: a) b) :
    Skips input pre (c :: rest) Q out := by
  obtain ⟨skipped, rest', s', rfl, hout, hat, hP⟩ := h
  rw [append_assoc] at hat
  exact ⟨c :: skipped, rest', s', rfl, hout, hat, hQ _ _ hP⟩

theorem skipLine_at {fuel : Nat} (hfuel : rest.length < fuel) (h : At input pre rest s) :
    Skips input pre rest (fun skipped _ => rest ≠ [] → skipped ≠ []) (skipLine input fuel s) := by
  induction fuel generalizing pre rest s with
  | zero => cases hfuel
  | succ fuel ih =>
    unfold skipLine
    cases rest with
    | nil =>
      rw [Eff.bind_ok (isAtEnd_nil h)]
      exact .none h fun hne => absurd rfl hne
    | cons c rest =>
      obtain ⟨s', hadv, hat⟩ := advance_cons h rfl
      rw [Eff.bind_ok (isAtEnd_cons h), if_neg Bool.false_ne_true, Eff.bind_ok (nextChar_cons h),
        Eff.bind_ok hadv]
      split_ifs
      · exact .cons (.none (P := fun _ _ => True) hat trivial) fun _ _ _ _ => cons_ne_nil _ _
      · exact .cons (ih (Nat.lt_of_succ_lt_succ hfuel) hat) fun _ _ _ _ => cons_ne_nil _ _

theorem skipBlock_at {fuel : Nat} (hfuel : rest.length < fuel) (h : At input pre rest s) :
    Skips input pre rest (fun _ _ => True) (skipBlock input fuel s) := by
  induction fuel generalizing pre rest s with
  | zero => cases hfuel
  | succ fuel ih =>
    unfold skipBlock
    cases rest with
    | nil =>
      rw [Eff.bind_ok (isAtEnd_nil h)]
      exact .none h trivial
    | cons c rest =>
      obtain ⟨s', hadv, hat⟩ := advance_cons h rfl
      rw [Eff.bind_ok (isAtEnd_cons h), if_neg Bool.false_ne_true,
        Eff.bind_ok (startsWith_at h _)]
      split_ifs
      · exact .none h trivial
      · rw [Eff.bind_ok (nextChar_cons h), Eff.bind_ok hadv]
        exact .cons (ih (Nat.lt_of_succ_lt_succ hfuel) hat) fun _ _ _ => trivial

theorem Skips.bind {P Q : List Char → List Char → Prop} {m : Lex Unit} {f : Unit → Lex Unit}
    (h : Skips input pre rest P (m s))
    (hf : ∀ a b s', rest = a ++ b → At input (pre ++ a) b s' → P a b →
      Skips input (pre ++ a) b (fun a' b' => Q (a ++ a') b') (f () s')) :
    Skips input pre rest Q ((m >>= f) s) := by
  obtain ⟨a, b, s₁, rfl, hm, hat₁, hP⟩ := h
  obtain ⟨a', b', s₂, rfl, hout, hat₂, hQ⟩ := hf a b s₁ rfl hat₁ hP
  rw [Eff.bind_ok hm]
  rw [append_assoc] at hat₂
  exact ⟨a ++ a', b', s₂, (append_assoc _ _ _).symm, hout, hat₂, hQ⟩

theorem lineComment_at {fuel : Nat} (hfuel : rest.length < fuel) (h : At input pre rest s) :
    Skips input pre rest (fun skipped _ => skipped = [] ↔ ['/', '/'].isPrefixOf rest = false)
      (lineComment input fuel s) := by
  unfold lineComment
  rw [Eff.bind_ok (startsWith_at h _)]
  split_ifs with hline
  · obtain ⟨skipped, rest', s', hsplit, hout, hat, hne⟩ := skipLine_at hfuel h
    refine ⟨skipped, rest', s', hsplit, hout, hat, iff_of_false (hne ?_) fun hbad => ?_⟩
    · rintro rfl
      cases hline
    · exact Bool.eq_false_iff.mp hbad hline
  · exact .none h (iff_of_true rfl (Bool.eq_false_iff.mpr hline))

theorem blockComment_at {fuel : Nat} (hfuel : rest.length < fuel) (h : At input pre rest s) :
    Skips input pre rest (fun skipped _ => skipped = [] ↔ ['/', '*'].isPrefixOf rest = false)
      (blockComment input fuel s) := by
  unfold blockComment
  rw [Eff.bind_ok (startsWith_at h _)]
  split_ifs with hblock
  · obtain ⟨tail, rfl⟩ := isPrefixOf_iff_prefix.mp hblock
    obtain ⟨s₁, hadv, hat₁⟩ := advance_at h (n := 2) rfl
    rw [Eff.bind_ok hadv]
    have hlen : tail.length < fuel := Nat.lt_of_le_of_lt (Nat.le_add_left _ 2)
      (by rwa [length_append, Nat.add_comm, Nat.add_comm] at hfuel)
    have hrest : Skips input (pre ++ ['/', '*']) tail (fun _ _ => True) ((do
        skipBlock input fuel
        if (← startsWith input ['*', '/']) = true then advance input 2 else return ()) s₁) := by
      refine (skipBlock_at hlen hat₁).bind fun a b s₂ _ hat₂ _ => ?_
      rw [Eff.bind_ok (startsWith_at hat₂ _)]
      split_ifs with hend
      · obtain ⟨tail', rfl⟩ := isPrefixOf_iff_prefix.mp hend
        obtain ⟨s₃, hadv₃, hat₃⟩ := advance_at hat₂ (n := 2) rfl
        exact ⟨_, _, s₃, rfl, hadv₃, hat₃, trivial⟩
      · exact .none hat₂ trivial
    obtain ⟨a, b, s₂, rfl, hout, hat₂, _⟩ := hrest
    rw [append_assoc] at hat₂
    refine ⟨['/', '*'] ++ a, b, s₂, rfl, hout, hat₂, iff_of_false (cons_ne_nil _ _) ?_⟩
    exact fun hbad => Bool.eq_false_iff.mp hbad hblock
  · exact .none h (iff_of_true rfl (Bool.eq_false_iff.mpr hblock))

theorem skipSpace_at {fuel : Nat} (hfuel : rest.length < fuel) (h : At input pre rest s) :
    Skips input pre rest
      (fun skipped _ => skipped = [] ↔ ∀ c ∈ rest.head?, std.isWhitespace c = false)
      (skipSpace std input fuel s) := by
  obtain ⟨s', hread, hat⟩ := readWhile_at (fun _ => rfl) hfuel h
  unfold skipSpace
  rw [Eff.bind_ok hread]
  refine ⟨_, _, s', (prefix_iff_eq_append.mp ( takeWhile_prefix _)).symm, rfl, hat, ?_⟩
  cases rest with
  | nil => exact iff_of_true rfl nofun
  | cons c rest =>
    cases hspace : std.isWhitespace c with
    | true =>
      rw [takeWhile_cons_of_pos hspace]
      exact iff_of_false (cons_ne_nil _ _) fun hbad =>
        Bool.eq_false_iff.mp (hbad c rfl) hspace
    | false =>
      rw [takeWhile_cons_of_neg (Bool.eq_false_iff.mp hspace)]
      exact iff_of_true rfl fun d hd => by cases hd; exact hspace

theorem skipRound_at {fuel : Nat} (hfuel : rest.length < fuel) (h : At input pre rest s) :
    Skips input pre rest (fun skipped _ => skipped = [] ↔ Settled std rest)
      (skipRound std input fuel s) := by
  have hlen {a b : List Char} (hsplit : rest = a ++ b) : b.length < fuel := by
    rw [hsplit, length_append] at hfuel
    exact Nat.lt_of_le_of_lt (Nat.le_add_left _ _) hfuel
  refine (skipSpace_at hfuel h).bind fun a b s₁ hab hat₁ hspace => ?_
  refine (lineComment_at (hlen hab) hat₁).bind fun a' b' s₂ hab' hat₂ hline => ?_
  have hlen' : b'.length < fuel := hlen (show rest = (a ++ a') ++ b' by
    rw [append_assoc, ← hab', ← hab])
  obtain ⟨a'', b'', s₃, hab'', hout, hat₃, hblock⟩ := blockComment_at hlen' hat₂
  refine ⟨a'', b'', s₃, hab'', hout, hat₃, ?_, fun hsettled => ?_⟩
  · intro hnil
    obtain ⟨rfl, hnil'⟩ := append_eq_nil_iff.mp hnil
    obtain ⟨rfl, rfl⟩ := append_eq_nil_iff.mp hnil'
    obtain rfl : rest = b := hab
    obtain rfl : rest = b' := hab'
    exact ⟨hspace.mp rfl, hline.mp rfl, hblock.mp rfl⟩
  · obtain rfl := hspace.mpr hsettled.space
    obtain rfl : rest = b := hab
    obtain rfl := hline.mpr hsettled.line
    obtain rfl : rest = b' := hab'
    exact hblock.mpr hsettled.block

variable (std) in
/-- **Whitespace and comments.**  They are skipped up to a text that begins with neither. -/
theorem skip_at {fuel : Nat} (hfuel : rest.length + 1 < fuel) (h : At input pre rest s) :
    Skips input pre rest
      (fun skipped rest' => Settled std rest' ∧ (Settled std rest → skipped = []))
      (skipWhitespaceAndComments std input fuel s) := by
  induction fuel generalizing pre rest s with
  | zero => cases hfuel
  | succ fuel ih =>
    refine (skipRound_at (Nat.lt_of_succ_lt_succ hfuel) h).bind fun a b s₁ hab hat hround => ?_
    rw [Eff.bind_ok (show Eff.get s₁ = (.ok s₁, s₁) from rfl)]
    have hpos : s₁.pos = s.pos ↔ a = [] := by
      rw [hat.pos, h.pos, byteLen_append]
      constructor
      · intro hsame
        by_contra hne
        have := byteLen_pos hne
        omega
      · rintro rfl
        rfl
    split_ifs with hsame
    · obtain rfl := hpos.mp hsame
      obtain rfl : rest = b := hab
      exact .none hat ⟨hround.mp rfl, fun _ => rfl⟩
    · have hne : a ≠ [] := fun hnil => hsame (hpos.mpr hnil)
      have hlen : b.length + 1 < fuel := by
        have := length_pos_iff.mpr hne
        rw [hab, length_append] at hfuel
        omega
      obtain ⟨a', b', s₂, hab', hout, hat₂, hsettled, _⟩ := ih hlen hat
      exact ⟨a', b', s₂, hab', hout, hat₂, hsettled, fun hbad => absurd (hround.mpr hbad) hne⟩

/-! ## the tokens of a text -/

theorem Settled.front {lexeme : List Char} (h : Settled std rest) (hpre : lexeme <+: rest)
    (hne : lexeme ≠ []) : Settled std lexeme := by
  obtain ⟨tail, rfl⟩ := hpre
  have hoff {cs : List Char} (hcs : cs.isPrefixOf (lexeme ++ tail) = false) :
      cs.isPrefixOf lexeme = false := by
    refine Bool.eq_false_iff.mpr fun hbad => Bool.eq_false_iff.mp hcs ?_
    exact isPrefixOf_iff_prefix.mpr
      (( isPrefixOf_iff_prefix.mp hbad).trans (prefix_append _ _))
  refine ⟨fun c hc => h.space c ?_, hoff h.line, hoff h.block⟩
  obtain ⟨d, l, rfl⟩ := exists_cons_of_ne_nil hne
  exact hc

/-- the characters of a token, which alone are the same token -/
structure Lexeme (std : Std) (input : List Char) (t : SpannedToken) (lexeme : List Char) : Prop where
  slice : slice input t.span.start t.span.stop = some lexeme
  settled : Settled std lexeme
  scan : scanToken std lexeme = some (t.token, lexeme)

/-- the tokens of a text from a position on, the last of which is its end -/
inductive Tokens (std : Std) (input : List Char) : Nat → List SpannedToken → Prop where
  | eof {pos : Nat} (span : Span) (hpos : pos ≤ span.start) (hempty : span.start = span.stop)
      (hstop : span.stop = byteLen input) : Tokens std input pos [⟨.eof, span⟩]
  | cons {pos : Nat} {t : SpannedToken} {ts : List SpannedToken} {lexeme : List Char}
      (hpos : pos ≤ t.span.start) (hlt : t.span.start < t.span.stop)
      (hlexeme : Lexeme std input t lexeme) (hrest : Tokens std input t.span.stop ts) :
      Tokens std input pos (t :: ts)

variable (std) in
/-- **The loop.**  It ends with the tokens of the rest of the text, or with an error. -/
theorem tokenizeLoop_at {fuel : Nat} (hfuel : rest.length + 2 < fuel) (h : At input pre rest s) :
    (∃ ts s', tokenizeLoop std input fuel s = (.ok ts, s') ∧ Tokens std input (byteLen pre) ts) ∨
      ∃ e s', tokenizeLoop std input fuel s = (.error e, s') := by
  induction fuel generalizing pre rest s with
  | zero => cases hfuel
  | succ fuel ih =>
    obtain ⟨skipped, rest', s₁, rfl, hskip, hat₁, hsettled, _⟩ :=
      skip_at std (Nat.lt_of_succ_lt_succ hfuel) h
    unfold tokenizeLoop
    rw [Eff.bind_ok hskip]
    have hpos : byteLen pre ≤ byteLen (pre ++ skipped) := by
      rw [byteLen_append]
      exact Nat.le_add_right _ _
    cases rest' with
    | nil =>
      rw [Eff.bind_ok (isAtEnd_nil hat₁)]
      refine .inl ⟨_, s₁, rfl, .eof _ ?_ rfl ?_⟩
      · exact hpos.trans (Nat.le_of_eq hat₁.pos.symm)
      · rw [hat₁.input, append_nil]
        exact hat₁.pos
    | cons c cs =>
      rw [Eff.bind_ok (isAtEnd_cons hat₁), if_neg Bool.false_ne_true]
      have hlen : (c :: cs).length < fuel := by
        rw [length_append] at hfuel
        omega
      have hnext := nextToken_at std hlen (cons_ne_nil c cs) hat₁
      cases hscan : scanToken std (c :: cs) with
      | none =>
        rw [hscan] at hnext
        obtain ⟨e, s₂, herror⟩ := hnext
        exact .inr ⟨e, s₂, Eff.bind_error herror⟩
      | some p =>
        obtain ⟨t, lexeme⟩ := p
        rw [hscan] at hnext
        obtain ⟨span, s₂, hok, hstart, hstop, hat₂⟩ := hnext
        obtain ⟨hpre, hne⟩ := scanToken_front hscan
        rw [Eff.bind_ok hok]
        have hlen' : ((c :: cs).drop lexeme.length).length + 2 < fuel := by
          have := length_pos_iff.mpr hne
          have := hpre.length_le
          rw [length_append] at hfuel
          rw [length_drop]
          omega
        rcases ih hlen' hat₂ with ⟨ts, s₃, hts, htokens⟩ | ⟨e, s₃, herror⟩
        · refine .inl ⟨⟨t, span⟩ :: ts, s₃, ?_, ?_⟩
          · rw [Eff.bind_ok hts]
            rfl
          · refine .cons ?_ ?_ ⟨?_, hsettled.front hpre hne, scanToken_alone hscan⟩ ?_
            · exact hstart ▸ hpos
            · rw [hstart, hstop, byteLen_append _ lexeme]
              exact Nat.lt_add_of_pos_right (byteLen_pos hne)
            · rw [hstart, hstop, byteLen_append _ lexeme, hat₂.input]
              exact slice_append _ _ _
            · exact hstop ▸ htokens
        · refine .inr ⟨e, s₃, ?_⟩
          rw [Eff.bind_error herror]

theorem at_new (input : List Char) : At input [] input Lexer.new := ⟨rfl, rfl⟩

variable (std) in
/-- **The tokens of a text, or an error.** -/
theorem tokenize_spec {fuel : Nat} (hfuel : input.length + 2 < fuel) :
    (∃ ts, tokenize std input fuel = .ok ts ∧ Tokens std input 0 ts) ∨
      ∃ e, tokenize std input fuel = .error e := by
  rcases tokenizeLoop_at std hfuel (at_new input) with ⟨ts, s', hok, hts⟩ | ⟨e, s', herror⟩
  · exact .inl ⟨ts, congrArg Prod.fst hok, hts⟩
  · exact .inr ⟨e, congrArg Prod.fst herror⟩

/-! ## what the tokens are -/

variable {pos : Nat} {t : SpannedToken} {ts : List SpannedToken}

theorem Tokens.pos_le (h : Tokens std input pos ts) : pos ≤ byteLen input := by
  induction h with
  | eof span hpos hempty hstop => exact hpos.trans (Nat.le_of_eq (hempty.trans hstop))
  | cons hpos hlt _ _ ih => exact hpos.trans (hlt.le.trans ih)

theorem Tokens.bounds (h : Tokens std input pos ts) (ht : t ∈ ts) :
    pos ≤ t.span.start ∧ t.span.start ≤ t.span.stop ∧ t.span.stop ≤ byteLen input := by
  induction h with
  | eof span hpos hempty hstop =>
    obtain rfl := mem_singleton.mp ht
    exact ⟨hpos, hempty.le, hstop.le⟩
  | cons hpos hlt _ hrest ih =>
    rcases mem_cons.mp ht with rfl | ht
    · exact ⟨hpos, hlt.le, hrest.pos_le⟩
    · obtain ⟨hstart, hrest⟩ := ih ht
      exact ⟨hpos.trans (hlt.le.trans hstart), hrest⟩

theorem Tokens.pairwise (h : Tokens std input pos ts) :
    ts.Pairwise fun a b => a.span.stop ≤ b.span.start := by
  induction h with
  | eof => exact pairwise_singleton _ _
  | cons _ _ _ hrest ih => exact pairwise_cons.mpr ⟨fun b hb => (hrest.bounds hb).1, ih⟩

theorem Lexeme.ne_eof {lexeme : List Char} (h : Lexeme std input t lexeme) : t.token ≠ .eof :=
  scanToken_ne_eof h.scan

theorem Tokens.lexeme (h : Tokens std input pos ts) (ht : t ∈ ts) (hne : t.token ≠ .eof) :
    t.span.start < t.span.stop ∧ ∃ lexeme, Lexeme std input t lexeme := by
  induction h with
  | eof span =>
    obtain rfl := mem_singleton.mp ht
    exact absurd rfl hne
  | cons _ hlt hlexeme _ ih =>
    rcases mem_cons.mp ht with rfl | ht
    · exact ⟨hlt, _, hlexeme⟩
    · exact ih ht

theorem Tokens.eof_last (h : Tokens std input pos ts) :
    ∃ front last, ts = front ++ [last] ∧ last.token = .eof ∧ ∀ t ∈ front, t.token ≠ .eof := by
  induction h with
  | eof span => exact ⟨[], _, rfl, rfl, nofun⟩
  | cons _ _ hlexeme _ ih =>
    obtain ⟨front, last, rfl, hlast, hfront⟩ := ih
    refine ⟨_ :: front, last, rfl, hlast, fun t ht => ?_⟩
    rcases mem_cons.mp ht with rfl | ht
    · exact hlexeme.ne_eof
    · exact hfront t ht

/-- **The characters of a token, alone, are that token and the end of the text.** -/
theorem Lexeme.tokenize {lexeme : List Char} (h : Lexeme std input t lexeme) {fuel : Nat}
    (hfuel : lexeme.length + 2 < fuel) :
    ∃ a b, Ekkl.tokenize std lexeme fuel = .ok [a, b] ∧ a.token = t.token ∧ b.token = .eof := by
  obtain ⟨fuel, rfl⟩ := Nat.exists_eq_succ_of_ne_zero (Nat.ne_zero_of_lt hfuel)
  obtain ⟨hpre, hne⟩ := scanToken_front h.scan
  obtain ⟨skipped, rest', s₁, hsplit, hskip, hat₁, _, hnil⟩ :=
    skip_at std (Nat.lt_of_succ_lt_succ hfuel) (at_new lexeme)
  obtain rfl := hnil h.settled
  obtain rfl : lexeme = rest' := hsplit
  have hlen : lexeme.length < fuel := by omega
  have hnext := nextToken_at std hlen hne hat₁
  rw [h.scan] at hnext
  obtain ⟨span, s₂, hok, _, _, hat₂⟩ := hnext
  rw [drop_length] at hat₂
  obtain ⟨c, cs, hcons⟩ := exists_cons_of_ne_nil hne
  have hend : ∃ b s₃, tokenizeLoop std lexeme fuel s₂ = (.ok [b], s₃) ∧ b.token = .eof := by
    obtain ⟨fuel, rfl⟩ := Nat.exists_eq_succ_of_ne_zero (Nat.ne_zero_of_lt hlen)
    have hfuel' : ([] : List Char).length + 1 < fuel := by
      have := length_pos_iff.mpr hne
      rw [length_nil]
      omega
    obtain ⟨skipped, rest', s₃, hsplit, hskip, hat₃, _⟩ := skip_at std hfuel' hat₂
    obtain ⟨rfl, rfl⟩ := append_eq_nil_iff.mp hsplit.symm
    unfold tokenizeLoop
    rw [Eff.bind_ok hskip, Eff.bind_ok (isAtEnd_nil hat₃)]
    exact ⟨_, s₃, rfl, rfl⟩
  obtain ⟨b, s₃, hb, heof⟩ := hend
  refine ⟨⟨t.token, span⟩, b, ?_, rfl, heof⟩
  unfold Ekkl.tokenize tokenizeLoop
  rw [Eff.bind_ok hskip]
  subst hcons
  rw [Eff.bind_ok (isAtEnd_cons hat₁), if_neg Bool.false_ne_true, Eff.bind_ok hok, Eff.bind_ok hb]
  rfl

end Ekkl
end EkKor
