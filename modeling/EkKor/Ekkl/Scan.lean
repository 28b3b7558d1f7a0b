import Mathlib.Data.List.TakeWhile
import EkKor.Ekkl.Lexer

/-!
# The tokens of a text, without positions

A token depends on its own characters only: the text of a token, alone, is the same token.

* `scanString`, `scanNumber`, `scanToken`   the token at the front of a text, and its characters;
* `scanToken_front`   the characters are those in front;
* `scanToken_alone`    the characters alone are the same token.
-/

namespace EkKor
namespace Ekkl
open List

variable (std : Std)

/-! ## definitions -/

def scanString : List Char → List Char → Bool → Option (List Char × List Char)
  | [], _, _ => none
  | c :: cs, value, escape =>
    if escape = true then
      (scanString cs (value ++ [unescape c]) false).map fun p => (p.1, c :: p.2)
    else if c = '\\' then (scanString cs value true).map fun p => (p.1, c :: p.2)
    else if c = '"' then some (value, [c])
    else if c = '\n' then none
    else (scanString cs (value ++ [c]) false).map fun p => (p.1, c :: p.2)

def isDigits (isDigit : Char → Bool) (c : Char) : Bool := isDigit c || c == '_'

/-- the token of a number: its digits, those of its fraction, and whether it ends with `q` -/
def numberToken (isHex : Bool) (ds : List Char) (fraction : Option (List Char)) (isFixed : Bool) :
    Option Token :=
  if (isFixed || fraction.isSome) = true then
    (std.fixedBits (ds ++ (fraction.map fun f => '.' :: f).getD [])).map Token.fixedLit
  else if isHex = true then (fromStrRadix 16 ds).map Token.intLit
  else (fromStrRadix 10 ds).map Token.intLit

/-- the characters of a number without its prefix: digits, fraction and suffix -/
structure Number where
  ds : List Char
  fraction : Option (List Char)
  isFixed : Bool

def Number.text (n : Number) : List Char :=
  n.ds ++ (n.fraction.map fun f => '.' :: f).getD [] ++ if n.isFixed = true then ['q'] else []

def scanFraction (cs : List Char) : Option (List Char) :=
  match cs with
  | '.' :: c :: cs =>
    if isAsciiDigit c = true then some ((c :: cs).takeWhile (isDigits isAsciiDigit)) else none
  | _ => none

def scanDecimal (cs : List Char) : Number :=
  let ds := cs.takeWhile (isDigits isAsciiDigit)
  let after := cs.drop ds.length
  let fraction := scanFraction after
  ⟨ds, fraction,
    ['q'].isPrefixOf (after.drop ((fraction.map fun f => '.' :: f).getD []).length)⟩

def scanHex (cs : List Char) : Number :=
  let ds := cs.takeWhile (isDigits isAsciiHexdigit)
  ⟨ds, none, ['q'].isPrefixOf (cs.drop ds.length)⟩

/-- whether a number begins with `0x` or `0X` -/
def isHexPrefix (cs : List Char) : Bool := ['0', 'x'].isPrefixOf cs || ['0', 'X'].isPrefixOf cs

def scanNumber (cs : List Char) : Option (Token × List Char) :=
  if isHexPrefix cs = true then
    let n := scanHex (cs.drop 2)
    (numberToken std true (n.ds.filter isAsciiHexdigit) none n.isFixed).map fun t =>
      (t, cs.take 2 ++ n.text)
  else
    let n := scanDecimal cs
    (numberToken std false (n.ds.filter isAsciiDigit) (n.fraction.map (List.filter isAsciiDigit))
      n.isFixed).map fun t => (t, n.text)

def isIdent (c : Char) : Bool := std.isAlphanumeric c || c == '_'

def identToken (cs : List Char) : Token :=
  (keywords.lookup (String.ofList cs)).getD (.ident (String.ofList cs))

def pairAt (cs : List Char) : Option (Char × Char × Token) :=
  pairTokens.find? fun p => [p.1, p.2.1].isPrefixOf cs

def scanChar (c : Char) (rest : List Char) : Option (Token × List Char) :=
  match charTokens.lookup c with
  | some token => some (token, [c])
  | none =>
    if c = '_' ∧ rest.head?.any (isIdent std) = false then some (.underscore, [c])
    else if c = '"' then
      (scanString rest [] false).map fun p => (.stringLit (String.ofList p.1), c :: p.2)
    else if isAsciiDigit c = true then scanNumber std (c :: rest)
    else if (std.isAlphabetic c || c == '_') = true then
      some (identToken ((c :: rest).takeWhile (isIdent std)), (c :: rest).takeWhile (isIdent std))
    else none

def scanToken (cs : List Char) : Option (Token × List Char) :=
  match pairAt cs with
  | some p => some (p.2.2, [p.1, p.2.1])
  | none =>
    match cs with
    | [] => none
    | c :: rest => scanChar std c rest

/-! ## the characters are those in front -/

variable {std} {cs rest : List Char}

variable {value value' lexeme : List Char} {t : Token} {p : Char × Char × Token} {c : Char}

theorem scanString_front {escape : Bool} (h : scanString cs value escape = some (value', lexeme)) :
    lexeme <+: cs := by
  induction cs generalizing value escape lexeme with
  | nil => cases h
  | cons c cs ih =>
    have hmap {v : List Char} {e : Bool}
        (h : (scanString cs v e).map (fun p => (p.1, c :: p.2)) = some (value', lexeme)) :
        lexeme <+: c :: cs := by
      obtain ⟨⟨v', l⟩, hscan, heq⟩ := Option.map_eq_some_iff.mp h
      cases heq
      exact cons_prefix_cons.mpr ⟨rfl, ih hscan⟩
    unfold scanString at h
    split_ifs at h with h1 h2 h3 h4
    · exact hmap h
    · exact hmap h
    · cases h
      exact cons_prefix_cons.mpr ⟨rfl, nil_prefix⟩
    · exact hmap h

theorem scanString_alone {escape : Bool} (h : scanString cs value escape = some (value', lexeme)) :
    scanString lexeme value escape = some (value', lexeme) := by
  induction cs generalizing value escape lexeme with
  | nil => cases h
  | cons c cs ih =>
    unfold scanString at h
    split_ifs at h with h1 h2 h3 h4
    · obtain ⟨⟨v', l⟩, hscan, heq⟩ := Option.map_eq_some_iff.mp h
      cases heq
      unfold scanString
      rw [if_pos h1, ih hscan]
      rfl
    · obtain ⟨⟨v', l⟩, hscan, heq⟩ := Option.map_eq_some_iff.mp h
      cases heq
      unfold scanString
      rw [if_neg h1, if_pos h2, ih hscan]
      rfl
    · cases h
      unfold scanString
      rw [if_neg h1, if_neg h2, if_pos h3]
    · obtain ⟨⟨v', l⟩, hscan, heq⟩ := Option.map_eq_some_iff.mp h
      cases heq
      unfold scanString
      rw [if_neg h1, if_neg h2, if_neg h3, if_neg h4, ih hscan]
      rfl

/-! ## numbers -/

theorem takeWhile_append_stop {p : Char → Bool} {a b : List Char} (ha : ∀ c ∈ a, p c = true)
    (hb : ∀ c ∈ b.head?, p c = false) : (a ++ b).takeWhile p = a := by
  rw [takeWhile_append_of_pos ha]
  cases b with
  | nil => exact append_nil a
  | cons c b => rw [takeWhile_cons_of_neg (by rw [hb c rfl]; exact Bool.false_ne_true), append_nil]

theorem append_front {a b : List Char} (ha : a <+: cs) (hb : b <+: cs.drop a.length) :
    a ++ b <+: cs := by
  rw [← prefix_iff_eq_append.mp ha]
  exact (prefix_append_right_inj a).mpr hb

/-- the digits after a point begin with a digit -/
structure Proper (n : Number) : Prop where
  ds : ∀ c ∈ n.ds, isDigits isAsciiDigit c = true
  fraction : ∀ f ∈ n.fraction, (∃ c cs, f = c :: cs ∧ isAsciiDigit c = true) ∧
    ∀ c ∈ f, isDigits isAsciiDigit c = true

def Number.fractionText (n : Number) : List Char := (n.fraction.map fun f => '.' :: f).getD []

def Number.suffix (n : Number) : List Char := if n.isFixed = true then ['q'] else []

theorem Number.text_eq (n : Number) : n.text = n.ds ++ (n.fractionText ++ n.suffix) :=
  append_assoc _ _ _

theorem suffix_front {isFixed : Bool} (h : isFixed = ['q'].isPrefixOf cs) :
    (if isFixed = true then ['q'] else []) <+: cs := by
  cases isFixed with
  | false => exact nil_prefix
  | true => exact isPrefixOf_iff_prefix.mp h.symm

theorem scanFraction_front (cs : List Char) :
    ((scanFraction cs).map fun f => '.' :: f).getD [] <+: cs := by
  unfold scanFraction
  split
  · split_ifs
    · exact cons_prefix_cons.mpr ⟨rfl, takeWhile_prefix _⟩
    · exact nil_prefix
  · exact nil_prefix

theorem scanDecimal_front (cs : List Char) : (scanDecimal cs).text <+: cs := by
  rw [Number.text_eq]
  refine append_front ( takeWhile_prefix _) (append_front (scanFraction_front _) ?_)
  exact suffix_front rfl

theorem scanHex_front (cs : List Char) : (scanHex cs).text <+: cs := by
  rw [Number.text_eq]
  exact append_front ( takeWhile_prefix _) (suffix_front rfl)

theorem scanNumber_front (h : scanNumber std cs = some (t, lexeme)) : lexeme <+: cs := by
  unfold scanNumber at h
  split_ifs at h
  · obtain ⟨_, _, heq⟩ := Option.map_eq_some_iff.mp h
    cases heq
    conv_rhs => rw [← take_append_drop 2 cs]
    exact (prefix_append_right_inj _).mpr (scanHex_front _)
  · obtain ⟨_, _, heq⟩ := Option.map_eq_some_iff.mp h
    cases heq
    exact scanDecimal_front cs

theorem proper_scanDecimal (cs : List Char) : Proper (scanDecimal cs) := by
  refine ⟨fun c hc => all_takeWhile |> all_eq_true.mp |> fun h => h c hc, ?_⟩
  intro f hf
  change f ∈ scanFraction _ at hf
  unfold scanFraction at hf
  split at hf
  · next c cs _ =>
    split_ifs at hf with hdigit
    · cases hf
      have hdigits : isDigits isAsciiDigit c = true := by
        unfold isDigits
        rw [hdigit]
        rfl
      refine ⟨⟨c, cs.takeWhile (isDigits isAsciiDigit), ?_, hdigit⟩, ?_⟩
      · exact takeWhile_cons_of_pos hdigits
      · exact fun c hc => all_eq_true.mp all_takeWhile c hc
    · cases hf
  · cases hf

theorem suffix_isPrefixOf (isFixed : Bool) :
    ['q'].isPrefixOf (if isFixed = true then ['q'] else []) = isFixed := by
  cases isFixed <;> rfl

/-- **A number, alone, is the same number.** -/
theorem scanDecimal_text {n : Number} (h : Proper n) : scanDecimal n.text = n := by
  obtain ⟨ds, fraction, isFixed⟩ := n
  rw [Number.text_eq]
  have hdigits : (ds ++ (Number.fractionText ⟨ds, fraction, isFixed⟩ ++
      Number.suffix ⟨ds, fraction, isFixed⟩)).takeWhile (isDigits isAsciiDigit) = ds := by
    refine takeWhile_append_stop h.ds ?_
    cases fraction with
    | none => cases isFixed <;> intro c hc <;> cases hc; rfl
    | some f => intro c hc; cases hc; rfl
  have hfraction : scanFraction (Number.fractionText ⟨ds, fraction, isFixed⟩ ++
      Number.suffix ⟨ds, fraction, isFixed⟩) = fraction := by
    cases fraction with
    | none => cases isFixed <;> rfl
    | some f =>
      obtain ⟨⟨c, cs, rfl, hdigit⟩, hall⟩ := h.fraction f rfl
      show (if isAsciiDigit c = true then some (((c :: cs) ++ _).takeWhile _) else none) = _
      rw [if_pos hdigit]
      refine congrArg some (takeWhile_append_stop hall ?_)
      cases isFixed <;> intro c hc <;> cases hc
      rfl
  unfold scanDecimal
  dsimp only
  rw [hdigits, drop_left, hfraction]
  congr 1
  exact (congrArg (List.isPrefixOf ['q']) drop_left).trans (suffix_isPrefixOf isFixed)

theorem scanHex_text (cs : List Char) : scanHex (scanHex cs).text = scanHex cs := by
  generalize hn : scanHex cs = n
  obtain ⟨ds, fraction, isFixed⟩ := n
  obtain rfl : none = fraction := congrArg Number.fraction hn
  have hall : ∀ c ∈ ds, isDigits isAsciiHexdigit c = true := by
    rw [← show cs.takeWhile (isDigits isAsciiHexdigit) = ds from congrArg Number.ds hn]
    exact all_eq_true.mp all_takeWhile
  have hdigits : (ds ++ (if isFixed = true then ['q'] else [])).takeWhile
      (isDigits isAsciiHexdigit) = ds := by
    refine takeWhile_append_stop hall ?_
    cases isFixed <;> intro c hc <;> cases hc
    rfl
  rw [Number.text_eq]
  show scanHex (ds ++ (if isFixed = true then ['q'] else [])) = _
  unfold scanHex
  dsimp only
  rw [hdigits, drop_left, suffix_isPrefixOf]

theorem isHexPrefix_of_front (h : lexeme <+: cs) (hhex : isHexPrefix lexeme = true) :
    isHexPrefix cs = true := by
  unfold isHexPrefix at hhex ⊢
  rw [Bool.or_eq_true] at hhex ⊢
  exact hhex.imp (fun hp => isPrefixOf_iff_prefix.mpr
      (( isPrefixOf_iff_prefix.mp hp).trans h))
    fun hp => isPrefixOf_iff_prefix.mpr (( isPrefixOf_iff_prefix.mp hp).trans h)

theorem take_of_isHexPrefix (h : isHexPrefix cs = true) :
    cs.take 2 = ['0', 'x'] ∨ cs.take 2 = ['0', 'X'] := by
  unfold isHexPrefix at h
  rw [Bool.or_eq_true] at h
  refine h.imp ?_ ?_ <;> intro hp
  · exact (prefix_iff_eq_take.mp ( isPrefixOf_iff_prefix.mp hp)).symm
  · exact (prefix_iff_eq_take.mp ( isPrefixOf_iff_prefix.mp hp)).symm

theorem scanNumber_alone (h : scanNumber std cs = some (t, lexeme)) :
    scanNumber std lexeme = some (t, lexeme) := by
  have hpre := scanNumber_front h
  unfold scanNumber at h
  split_ifs at h with hhex
  · obtain ⟨t', hnumber, heq⟩ := Option.map_eq_some_iff.mp h
    cases heq
    have htake : (cs.take 2).length = 2 := by
      rcases take_of_isHexPrefix hhex with h2 | h2 <;> rw [h2] <;> rfl
    have hdrop : (cs.take 2 ++ (scanHex (cs.drop 2)).text).drop 2 = (scanHex (cs.drop 2)).text :=
      (congrArg (List.drop · _) htake.symm).trans drop_left
    have htake' : (cs.take 2 ++ (scanHex (cs.drop 2)).text).take 2 = cs.take 2 :=
      (congrArg (List.take · _) htake.symm).trans take_left
    have hhex' : isHexPrefix (cs.take 2 ++ (scanHex (cs.drop 2)).text) = true := by
      rcases take_of_isHexPrefix hhex with h2 | h2 <;> rw [h2] <;> rfl
    unfold scanNumber
    rw [if_pos hhex']
    dsimp only
    rw [hdrop, htake', scanHex_text, hnumber]
    rfl
  · obtain ⟨t', hnumber, heq⟩ := Option.map_eq_some_iff.mp h
    cases heq
    unfold scanNumber
    rw [if_neg fun hbad => hhex (isHexPrefix_of_front hpre hbad)]
    dsimp only
    rw [scanDecimal_text (proper_scanDecimal cs), hnumber]
    rfl

/-! ## tokens -/

theorem pairAt_none_of_front (h : lexeme <+: cs) (hnone : pairAt cs = none) :
    pairAt lexeme = none := by
  refine find?_eq_none.mpr fun p hp hbad => ?_
  refine find?_eq_none.mp hnone p hp ?_
  exact isPrefixOf_iff_prefix.mpr (( isPrefixOf_iff_prefix.mp hbad).trans h)

theorem pairAt_front (h : pairAt cs = some p) : [p.1, p.2.1] <+: cs := by
  have hp : [p.1, p.2.1].isPrefixOf cs = true :=
    (find?_eq_some_iff_append.mp h).1
  exact isPrefixOf_iff_prefix.mp hp

theorem pairAt_alone (h : pairAt cs = some p) : pairAt [p.1, p.2.1] = some p := by
  have hpre := pairAt_front h
  obtain ⟨_, before, after, hsplit, hbefore⟩ := find?_eq_some_iff_append.mp h
  refine find?_eq_some_iff_append.mpr
    ⟨ isPrefixOf_iff_prefix.mpr prefix_rfl, before, after, hsplit, fun q hq => ?_⟩
  have hq' := hbefore q hq
  rw [Bool.not_eq_true'] at hq' ⊢
  refine Bool.eq_false_iff.mpr fun hbad => Bool.eq_false_iff.mp hq' ?_
  exact isPrefixOf_iff_prefix.mpr (( isPrefixOf_iff_prefix.mp hbad).trans hpre)

theorem isDigits_of_isAsciiDigit (h : isAsciiDigit c = true) : isDigits isAsciiDigit c = true := by
  unfold isDigits
  rw [h]
  rfl

/-- the characters of a prefix of `c :: rest` that is not empty -/
theorem cons_of_front (h : lexeme <+: c :: rest) (hne : lexeme ≠ []) :
    ∃ l, lexeme = c :: l ∧ l <+: rest := by
  cases lexeme with
  | nil => exact absurd rfl hne
  | cons d l =>
    obtain ⟨rfl, hl⟩ := cons_prefix_cons.mp h
    exact ⟨l, rfl, hl⟩

theorem scanNumber_cons (hdigit : isAsciiDigit c = true)
    (h : scanNumber std (c :: rest) = some (t, lexeme)) : ∃ l, lexeme = c :: l ∧ l <+: rest := by
  refine cons_of_front (scanNumber_front h) ?_
  unfold scanNumber at h
  split_ifs at h with hhex
  · obtain ⟨_, _, heq⟩ := Option.map_eq_some_iff.mp h
    cases heq
    exact cons_ne_nil _ _
  · obtain ⟨_, _, heq⟩ := Option.map_eq_some_iff.mp h
    cases heq
    show (List.takeWhile (isDigits isAsciiDigit) (c :: rest) ++ _) ++ _ ≠ []
    rw [takeWhile_cons_of_pos (isDigits_of_isAsciiDigit hdigit)]
    exact cons_ne_nil _ _

theorem isIdent_of_start (h : (std.isAlphabetic c || c == '_') = true) : isIdent std c = true := by
  unfold isIdent Std.isAlphanumeric
  rw [Bool.or_eq_true] at h
  rcases h with h | h <;> rw [h]
  · rfl
  · exact Bool.or_true _

theorem scanChar_cons (h : scanChar std c rest = some (t, lexeme)) :
    ∃ l, lexeme = c :: l ∧ l <+: rest := by
  unfold scanChar at h
  split at h
  · cases h
    exact ⟨[], rfl, nil_prefix⟩
  · split_ifs at h with h1 h2 h3 h4
    · cases h
      exact ⟨[], rfl, nil_prefix⟩
    · obtain ⟨⟨v, l⟩, hscan, heq⟩ := Option.map_eq_some_iff.mp h
      cases heq
      exact ⟨l, rfl, scanString_front hscan⟩
    · exact scanNumber_cons h3 h
    · cases h
      rw [takeWhile_cons_of_pos (isIdent_of_start h4)]
      exact ⟨_, rfl, takeWhile_prefix _⟩

/-- **The characters of a token, alone, are the same token.** -/
theorem scanChar_alone {l : List Char} (h : scanChar std c rest = some (t, c :: l)) :
    scanChar std c l = some (t, c :: l) := by
  unfold scanChar at h ⊢
  split at h
  · cases h
    rfl
  · split_ifs at h with h1 h2 h3 h4
    · cases h
      rw [if_pos ⟨h1.1, rfl⟩]
    · obtain ⟨⟨v, l'⟩, hscan, heq⟩ := Option.map_eq_some_iff.mp h
      cases heq
      rw [if_neg fun hbad => by rw [h2] at hbad; exact absurd hbad.1 (by decide), if_pos h2,
        scanString_alone hscan]
      rfl
    · rw [if_neg fun hbad => by rw [hbad.1] at h3; exact absurd h3 (by decide), if_neg h2,
        if_pos h3]
      exact scanNumber_alone h
    · have hlex : (c :: rest).takeWhile (isIdent std) = c :: l := congrArg Prod.snd (Option.some.inj h)
      have htok : identToken (c :: l) = t := by
        rw [← hlex]
        exact congrArg Prod.fst (Option.some.inj h)
      have hl : rest.takeWhile (isIdent std) = l := by
        rw [takeWhile_cons_of_pos (isIdent_of_start h4)] at hlex
        exact (List.cons.inj hlex).2
      have hself : (c :: l).takeWhile (isIdent std) = c :: l := by
        rw [← hlex]
        exact takeWhile_eq_self_iff.mpr (all_eq_true.mp all_takeWhile)
      have hhead : ¬(c = '_' ∧ l.head?.any (isIdent std) = false) := by
        rintro ⟨hc, hany⟩
        refine h1 ⟨hc, ?_⟩
        rw [← hl] at hany
        cases rest with
        | nil => rfl
        | cons d rest =>
          by_contra hd
          rw [takeWhile_cons_of_pos (by rwa [Bool.not_eq_false] at hd)] at hany
          exact hd hany
      rw [if_neg hhead, if_neg h2, if_neg h3, if_pos h4, hself, htok]

theorem scanToken_front (h : scanToken std cs = some (t, lexeme)) :
    lexeme <+: cs ∧ lexeme ≠ [] := by
  unfold scanToken at h
  split at h
  · next hpair =>
    cases h
    exact ⟨pairAt_front hpair, cons_ne_nil _ _⟩
  · split at h
    · cases h
    · obtain ⟨l, rfl, hl⟩ := scanChar_cons h
      exact ⟨cons_prefix_cons.mpr ⟨rfl, hl⟩, cons_ne_nil _ _⟩

/-- **A token depends on its own characters only.** -/
theorem scanToken_alone (h : scanToken std cs = some (t, lexeme)) :
    scanToken std lexeme = some (t, lexeme) := by
  have hpre := (scanToken_front h).1
  unfold scanToken at h ⊢
  split at h
  · next hpair =>
    cases h
    rw [pairAt_alone hpair]
  · next hpair =>
    split at h
    · cases h
    · obtain ⟨l, rfl, hl⟩ := scanChar_cons h
      rw [pairAt_none_of_front hpre hpair]
      exact scanChar_alone h

theorem numberToken_ne_eof {isHex isFixed : Bool} {ds : List Char} {fraction : Option (List Char)}
    (h : numberToken std isHex ds fraction isFixed = some t) : t ≠ .eof := by
  unfold numberToken at h
  split_ifs at h
  all_goals
    obtain ⟨_, _, rfl⟩ := Option.map_eq_some_iff.mp h
    exact nofun

theorem identToken_ne_eof (cs : List Char) : identToken cs ≠ .eof := by
  unfold identToken
  cases hlookup : keywords.lookup (String.ofList cs) with
  | none => exact nofun
  | some t =>
    obtain ⟨before, after, hsplit, _⟩ := lookup_eq_some_iff.mp hlookup
    have hall : ∀ p ∈ keywords, p.2 ≠ .eof := by decide
    exact hall _ (hsplit ▸ mem_append_right _ mem_cons_self)

theorem scanToken_ne_eof (h : scanToken std cs = some (t, lexeme)) : t ≠ .eof := by
  unfold scanToken at h
  split at h
  · next p hpair =>
    cases h
    have hall : ∀ p ∈ pairTokens, p.2.2 ≠ .eof := by decide
    exact hall p (mem_of_find?_eq_some hpair)
  · split at h
    · cases h
    · unfold scanChar at h
      split at h
      · next hlookup =>
        cases h
        obtain ⟨before, after, hsplit, _⟩ := lookup_eq_some_iff.mp hlookup
        have hall : ∀ p ∈ charTokens, p.2 ≠ .eof := by decide
        exact hall _ (hsplit ▸ mem_append_right _ mem_cons_self)
      · split_ifs at h
        · cases h
          exact nofun
        · obtain ⟨_, _, heq⟩ := Option.map_eq_some_iff.mp h
          cases heq
          exact nofun
        · unfold scanNumber at h
          split_ifs at h
          all_goals
            obtain ⟨_, hnumber, heq⟩ := Option.map_eq_some_iff.mp h
            cases heq
            exact numberToken_ne_eof hnumber
        · cases h
          exact identToken_ne_eof _

end Ekkl
end EkKor
