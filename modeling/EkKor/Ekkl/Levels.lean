import EkKor.Ekkl.Consuming
import EkKor.Ekkl.Printer
import Mathlib.Tactic.IntervalCases

/-!
# EKKL: reading expressions back

* `Leads`     a function of the parser goes on as another one;
* `ReadsAt`   what the levels of the expression parser read.
-/

/-!
# What a function of the parser does with the tokens that are left

A function that has read some tokens goes on as another function, with fewer tokens left.

* `Left`     the tokens from a position on;
* `Leads`    with some tokens left, a function goes on as another one;
* `Reads`    it ends with a value;
* `reads_elements`   elements with commas between them.
-/

namespace EkKor
open List
namespace Ekkl
namespace Parser

variable {α β : Type} {tokens : List Token}

def Left (tokens : List Token) (pos : Nat) (ts : List Token) : Prop :=
  pos ≤ tokens.length ∧ tokens.drop pos = ts

/-- with the tokens `inp` left, `m` goes on as `f` with the tokens `out` left -/
def Leads (tokens : List Token) (m : Parse α) (inp : List Token) (f : Parse α) (out : List Token) :
    Prop :=
  ∀ pos, Left tokens pos inp → ∃ pos', m pos = f pos' ∧ Left tokens pos' out

/-- `m` reads the tokens up to `out`, as the value -/
def Reads (tokens : List Token) (m : Parse α) (inp : List Token) (a : α) (out : List Token) : Prop :=
  Leads tokens m inp (Pure.pure a) out

section
variable {pos : Nat} {t : Token} {ts inp mid out : List Token} {m f g : Parse α} {a : α}

theorem Left.get (h : Left tokens pos (t :: ts)) : tokens[pos]? = some t := by
  rw [← head?_drop, h.2]
  rfl

theorem Left.next (h : Left tokens pos (t :: ts)) : Left tokens (pos + 1) ts := by
  refine ⟨?_, ?_⟩
  · exact (List.getElem?_eq_some_iff.mp h.get).1
  · rw [← tail_drop, h.2]
    rfl

theorem Left.length (h : Left tokens pos ts) : pos + ts.length = tokens.length := by
  rw [← h.2, length_drop]
  exact Nat.add_sub_cancel' h.1

theorem leads_self (m : Parse α) (inp : List Token) : Leads tokens m inp m inp :=
  fun pos h => ⟨pos, rfl, h⟩

theorem Leads.trans (h : Leads tokens m inp f mid) (h' : Leads tokens f mid g out) :
    Leads tokens m inp g out := by
  intro pos hleft
  obtain ⟨pos', hm, hleft'⟩ := h pos hleft
  obtain ⟨pos'', hf, hleft''⟩ := h' pos' hleft'
  exact ⟨pos'', hm.trans hf, hleft''⟩

theorem Reads.bind {m : Parse β} {b : β} {f : β → Parse α} (h : Reads tokens m inp b out) :
    Leads tokens (m >>= f) inp (f b) out := by
  intro pos hleft
  obtain ⟨pos', hm, hleft'⟩ := h pos hleft
  exact ⟨pos', Eff.bind_ok hm, hleft'⟩

theorem Reads.then {m : Parse β} {b : β} {f : β → Parse α} (h : Reads tokens m inp b mid)
    (h' : Leads tokens (f b) mid g out) : Leads tokens (m >>= f) inp g out :=
  h.bind.trans h'

theorem Leads.of_length (h : inp.length ≤ tokens.length → Leads tokens m inp f out) :
    Leads tokens m inp f out :=
  fun pos hleft => h (by rw [← hleft.length]; exact Nat.le_add_left _ _) pos hleft

theorem reads_node (hlt : out.length < tokens.length) : Reads tokens (node tokens a) out a out := by
  intro pos hleft
  obtain ⟨pos, rfl⟩ := Nat.exists_eq_succ_of_ne_zero (show pos ≠ 0 from fun hzero => by
    have hlen := hleft.length
    omega)
  exact ⟨pos + 1, node_eq hleft.1, hleft⟩

theorem Reads.node {m : Parse β} {b : β} {f : β → α} (h : Reads tokens m inp b out)
    (hlt : out.length < inp.length) : Reads tokens (m >>= fun b => node tokens (f b)) inp (f b) out :=
  Leads.of_length fun hle => h.then (reads_node (Nat.lt_of_lt_of_le hlt hle))

/-! ## one token -/

theorem reads_peekToken : Reads tokens (peekToken tokens) (t :: ts) t (t :: ts) :=
  fun pos h => ⟨pos, peekToken_eq h.get, h⟩

theorem reads_advance (hne : t ≠ .eof) : Reads tokens (advance tokens) (t :: ts) t ts :=
  fun pos h => ⟨pos + 1, advance_eq h.get hne, h.next⟩

theorem reads_check (token : Token) : Reads tokens (check tokens token) (t :: ts)
    (decide (t.ctorIdx = token.ctorIdx)) (t :: ts) :=
  fun pos h => ⟨pos, check_eq h.get, h⟩

theorem reads_consume {msg : String} (hne : t ≠ .eof) :
    Reads tokens (consume tokens t msg) (t :: ts) t ts := by
  refine (reads_check t).then ?_
  rw [decide_eq_true rfl, if_pos rfl]
  exact reads_advance hne

theorem reads_advanceIf (hne : t ≠ .eof) : Reads tokens (advanceIf tokens t) (t :: ts) true ts := by
  refine (reads_check t).then ?_
  rw [decide_eq_true rfl, if_pos rfl]
  exact (reads_advance hne).bind

theorem reads_advanceIf_false {token : Token} (h : t.ctorIdx ≠ token.ctorIdx) :
    Reads tokens (advanceIf tokens token) (t :: ts) false (t :: ts) := by
  refine (reads_check token).then ?_
  rw [decide_eq_false h, if_neg Bool.false_ne_true]
  exact leads_self _ _

theorem reads_parseIdent {name : String} :
    Reads tokens (parseIdent tokens) (.ident name :: ts) name ts := by
  refine reads_peekToken.then ?_
  exact Reads.bind (reads_advance nofun)

theorem reads_peekAhead (n : Nat) : Reads tokens (peekAhead tokens n) ts ts[n]? ts := by
  intro pos h
  refine ⟨pos, ?_, h⟩
  unfold peekAhead
  rw [Eff.get_bind, ← h.2, getElem?_drop]

end

/-! ## elements -/

section
variable {element : Parse α} {toks : α → List Token} {close : Token} {rest : List Token}

/-- **Elements.** They are read with a comma after each but the last. -/
theorem reads_elements (hcomma : Token.comma.ctorIdx ≠ close.ctorIdx) (as : List α)
    (hhead : ∀ a ∈ as, ∃ t ts, toks a = t :: ts ∧ t.ctorIdx ≠ close.ctorIdx)
    (hread : ∀ a ∈ as, ∀ t ts, t = .comma ∨ t = close →
      Reads tokens element (toks a ++ t :: ts) a (t :: ts))
    {fuel : Nat} (hfuel : as.length < fuel) :
    Reads tokens (elements tokens close element fuel) (separated (as.map toks) ++ close :: rest) as
      (close :: rest) := by
  induction as generalizing fuel with
  | nil =>
    obtain ⟨fuel, rfl⟩ := Nat.exists_eq_succ_of_ne_zero (Nat.ne_of_gt hfuel)
    refine (reads_check close).then ?_
    rw [decide_eq_true rfl, if_pos rfl]
    exact leads_self _ _
  | cons a as ih =>
    obtain ⟨fuel, rfl⟩ := Nat.exists_eq_succ_of_ne_zero (Nat.ne_of_gt (Nat.zero_lt_of_lt hfuel))
    obtain ⟨t, ts, htoks, hopen⟩ := hhead a mem_cons_self
    have hfirst {f : Bool → Parse (List α)} {more : List Token} :
        Leads tokens (check tokens close >>= f) (toks a ++ more) (f false) (toks a ++ more) := by
      rw [htoks]
      have hcheck := (show Reads tokens (check tokens close) (t :: (ts ++ more)) _ _ from
        reads_check close).bind (f := f)
      rwa [decide_eq_false hopen] at hcheck
    cases as with
    | nil =>
      refine hfirst.trans ?_
      refine (hread a mem_cons_self close rest (.inr rfl)).then ((reads_check close).then ?_)
      rw [decide_eq_true rfl, if_pos rfl]
      exact leads_self _ _
    | cons b bs =>
      have hsplit : separated ((a :: b :: bs).map toks) ++ close :: rest =
          toks a ++ .comma :: (separated ((b :: bs).map toks) ++ close :: rest) := by
        show (toks a ++ _) ++ _ = _
        rw [append_assoc]
        rfl
      rw [hsplit]
      refine hfirst.trans ?_
      refine (hread a mem_cons_self .comma _ (.inl rfl)).then ((reads_check close).then ?_)
      rw [decide_eq_false hcomma, if_neg Bool.false_ne_true]
      refine (reads_consume (t := .comma) nofun).then (Reads.bind ?_)
      exact ih (fun a ha => hhead a (mem_cons_of_mem _ ha))
        (fun a ha => hread a (mem_cons_of_mem _ ha)) (Nat.lt_of_succ_lt_succ hfuel)

end

end Parser
end Ekkl
end EkKor

/-!
# The levels of the expression parser

Each level reads an operand at the next level, and then goes on in a loop as long as a token of its own
follows; the operators before an operand are the one level that has no loop.

* `levelParser`, `levelLoop`   the levels, by number;
* `Stops`            what may follow an expression that is read at a level;
* `ReadsAt`          an expression is read at a level, in parentheses where they are needed;
* `Enters`           it is read up to the loop of a level, and the loop goes on with it;
* `Parses`           it is read at all levels;
* `parses_of_enters`, `parses_of_readsAt`   for that, its own level is enough.
-/

namespace EkKor
namespace Ekkl
namespace Parser
open List

/-! ## levels -/

section
variable (tokens : List Token) (p : Parsers) (isUppercase : Char → Bool)

/-- the levels, from `parse_or_expr` to `parse_primary_expr` -/
def levelParser : Nat → Parse Expr
  | 0 => parseOrExpr tokens p isUppercase
  | 1 => parseAndExpr tokens p isUppercase
  | 2 => parseEqualityExpr tokens p isUppercase
  | 3 => parseComparisonExpr tokens p isUppercase
  | 4 => parseBitwiseOrExpr tokens p isUppercase
  | 5 => parseBitwiseXorExpr tokens p isUppercase
  | 6 => parseBitwiseAndExpr tokens p isUppercase
  | 7 => parseShiftExpr tokens p isUppercase
  | 8 => parseAdditiveExpr tokens p isUppercase
  | 9 => parseMultiplicativeExpr tokens p isUppercase
  | 10 => parseUnaryExpr tokens p isUppercase
  | 11 => parseCastExpr tokens p isUppercase
  | 12 => parsePostfixExpr tokens p isUppercase
  | _ => parsePrimaryExpr tokens p isUppercase

def levelOps : Nat → Token → Option BinOp
  | 0 => orOp
  | 1 => andOp
  | 2 => equalityOp
  | 3 => comparisonOp
  | 4 => bitwiseOrOp
  | 5 => bitwiseXorOp
  | 6 => bitwiseAndOp
  | 7 => shiftOp
  | 8 => additiveOp
  | 9 => multiplicativeOp
  | _ => fun _ => none

def levelLoop : Nat → Nat → Expr → Parse Expr
  | 11 => castLoop tokens p
  | 12 => postfixLoop tokens p
  | l => binaryLoop tokens (levelOps l) (levelParser tokens p isUppercase (l + 1))

def HasLoop (l : Nat) : Prop := l < 13 ∧ l ≠ 10

theorem levelParser_eq {l : Nat} (hl : HasLoop l) : levelParser tokens p isUppercase l =
    levelParser tokens p isUppercase (l + 1) >>= levelLoop tokens p isUppercase l p.fuel := by
  obtain ⟨hlt, hne⟩ := hl
  interval_cases l <;> first | rfl | exact absurd rfl hne

end

/-! ## what follows -/

def level : Token → Option Nat
  | .or => some 0
  | .and => some 1
  | .eq | .ne => some 2
  | .lt | .le | .gt | .ge => some 3
  | .pipe => some 4
  | .caret => some 5
  | .ampersand => some 6
  | .shl | .shr => some 7
  | .plus | .minus => some 8
  | .star | .slash | .percent => some 9
  | .asKw => some 11
  | .dot | .lBracket => some 12
  | _ => none

def startsField : List Token → Bool
  | .rBrace :: _ => true
  | .ident _ :: .colon :: _ => true
  | _ => false

/-- the token, which others follow, does not continue an expression of a level with such an end -/
structure Stop (l : Nat) (edge : Edge) (t : Token) (ts : List Token) : Prop where
  loop : ∀ k, level t = some k → k < l ∨ (k = 12 ∧ (edge = .typeName ∨ edge = .type))
  call : t = .lParen → edge ≠ .name ∧ edge ≠ .field
  path : t = .colonColon → edge ≠ .name
  fields : t = .lBrace → edge = .name → startsField ts = false
  arguments : t = .lt → edge ≠ .typeName

def Stops (l : Nat) (edge : Edge) (rest : List Token) : Prop :=
  ∃ t ts, rest = t :: ts ∧ Stop l edge t ts

theorem Stops.mono {l l' : Nat} {edge : Edge} {rest : List Token} (h : Stops l edge rest)
    (hl : l ≤ l') : Stops l' edge rest := by
  obtain ⟨t, ts, rfl, h⟩ := h
  exact ⟨t, ts, rfl, fun k hk => (h.loop k hk).imp_left fun hlt => Nat.lt_of_lt_of_le hlt hl, h.call,
    h.path, h.fields, h.arguments⟩

theorem levelOps_token (op : BinOp) : levelOps op.level op.token = some op := by
  cases op <;> rfl

theorem level_token (op : BinOp) : level op.token = some op.level := by
  cases op <;> rfl

theorem level_of_levelOps {l : Nat} {t : Token} {op : BinOp} (h : levelOps l t = some op) :
    level t = some l := by
  by_cases hl : l < 10
  · interval_cases l <;> cases t <;> first | rfl | cases h
  · obtain ⟨k, rfl⟩ := Nat.exists_eq_add_of_le (Nat.le_of_not_lt hl)
    rw [Nat.add_comm] at h
    cases h

/-! ## reading an expression -/

def opens : Token → Bool
  | .trueKw | .falseKw | .intLit _ | .fixedLit _ | .stringLit _ | .ident _ => true
  | .lParen | .lBracket | .lBrace | .ifKw | .not | .minus | .tilde => true
  | _ => false

theorem ctorIdx_ne_of_opens {t close : Token} (h : opens t = true)
    (hclose : close = .rParen ∨ close = .rBrace ∨ close = .rBracket) :
    t.ctorIdx ≠ close.ctorIdx := by
  intro hsame
  rcases hclose with rfl | rfl | rfl <;> cases t <;>
    first | (cases hsame; done) | cases h

/-- how the tokens of an expression begin -/
structure Heads (e : Expr) : Prop where
  first : ∃ t ts, exprTokens e = t :: ts ∧ opens t = true ∧ (11 ≤ e.level → unaryOp t = none)
  fields : ∀ rest, (∀ ts, rest ≠ Token.colon :: ts) → startsField (exprTokens e ++ rest) = false

theorem Heads.ne_nil {e : Expr} (h : Heads e) : exprTokens e ≠ [] := by
  obtain ⟨t, ts, hts, -⟩ := h.first
  rw [hts]
  exact cons_ne_nil _ _

theorem Heads.at {e : Expr} (h : Heads e) (l : Nat) :
    ∃ t ts, tokensAt l e = t :: ts ∧ opens t = true ∧ (11 ≤ l → unaryOp t = none) := by
  rcases Nat.lt_or_ge e.level l with hlt | hle
  · exact ⟨.lParen, _, tokensAt_of_lt hlt, rfl, fun _ => rfl⟩
  · obtain ⟨t, ts, hts, hopens, hunary⟩ := h.first
    exact ⟨t, ts, (tokensAt_of_le hle).trans hts, hopens, fun hl => hunary (Nat.le_trans hl hle)⟩

theorem Heads.fields_at {e : Expr} (h : Heads e) (l : Nat) {rest : List Token}
    (hrest : ∀ ts, rest ≠ Token.colon :: ts) : startsField (tokensAt l e ++ rest) = false := by
  rcases Nat.lt_or_ge e.level l with hlt | hle
  · rw [tokensAt_of_lt hlt]
    rfl
  · rw [tokensAt_of_le hle]
    exact h.fields rest hrest

section
variable (isUppercase : Char → Bool) (tokens : List Token)

def ReadsAt (l : Nat) (e : Expr) : Prop :=
  ∀ m rest, (tokensAt l e).length ≤ m → Stops l (edgeAt l e) rest →
    Reads tokens (levelParser tokens (parsers isUppercase tokens m) isUppercase l)
      (tokensAt l e ++ rest) e rest

/-- the expression is read up to the loop of the level, with some rounds of the loop left -/
def Enters (l : Nat) (e : Expr) : Prop :=
  ∀ m rest, (tokensAt l e).length ≤ m → Stops (l + 1) (edgeAt l e) rest →
    ∃ k, m < k + (tokensAt l e).length ∧
      Leads tokens (levelParser tokens (parsers isUppercase tokens m) isUppercase l)
        (tokensAt l e ++ rest)
        (levelLoop tokens (parsers isUppercase tokens m) isUppercase l k e) rest

/-- the expression is read at all levels -/
structure Parses (e : Expr) : Prop where
  heads : Heads e
  readsAt : ∀ l ≤ 13, ReadsAt isUppercase tokens l e
  enters : ∀ l, HasLoop l → Enters isUppercase tokens l e

end

section
variable {isUppercase : Char → Bool} {tokens : List Token} {e : Expr} {l : Nat}

def isMark : Token → Bool
  | .asKw | .elseKw | .ifKw | .mutKw => true
  | .lParen | .lBrace | .colonColon | .colon | .lt | .assign => true
  | _ => false

/-- `check` finds no other token than the one it looks for -/
theorem eq_of_ctorIdx {t t' : Token} (h : t.ctorIdx = t'.ctorIdx) (ht' : isMark t' = true) :
    t = t' := by
  cases t' <;> first
    | exact absurd ht' Bool.false_ne_true
    | (cases t <;> first | rfl | cases h)

theorem levelLoop_eq {p : Parsers} (hcast : l ≠ 11) (hlast : l ≠ 12) :
    levelLoop tokens p isUppercase l =
      binaryLoop tokens (levelOps l) (levelParser tokens p isUppercase (l + 1)) := by
  unfold levelLoop
  split
  · exact absurd rfl hcast
  · exact absurd rfl hlast
  · rfl

theorem leads_levelLoop {p : Parsers} {k : Nat} {edge : Edge} {rest : List Token} (hl : HasLoop l)
    (hedge : l = 12 → edge ≠ .typeName ∧ edge ≠ .type) (hstops : Stops l edge rest) :
    Reads tokens (levelLoop tokens p isUppercase l (k + 1) e) rest e rest := by
  obtain ⟨t, ts, rfl, hstop⟩ := hstops
  have hlevel : level t ≠ some l := by
    intro h
    rcases hstop.loop l h with hlt | ⟨hlast, htype | htype⟩
    · exact Nat.lt_irrefl l hlt
    · exact (hedge hlast).1 htype
    · exact (hedge hlast).2 htype
  by_cases hcast : l = 11
  · subst hcast
    refine (reads_advanceIf_false fun h => hlevel ?_).then ?_
    · rw [eq_of_ctorIdx h rfl]
      rfl
    · exact leads_self _ _
  · by_cases hlast : l = 12
    · subst hlast
      refine reads_peekToken.then ?_
      split
      · exact absurd rfl hlevel
      · exact absurd rfl hlevel
      · exact leads_self _ _
    · have hops : levelOps l t = none :=
        Option.eq_none_iff_forall_ne_some.mpr fun op hop => hlevel (level_of_levelOps hop)
      rw [levelLoop_eq hcast hlast]
      refine reads_peekToken.then ?_
      rw [hops]
      exact leads_self _ _

theorem readsAt_of_enters (hl : HasLoop l) (h : Enters isUppercase tokens l e) :
    ReadsAt isUppercase tokens l e := by
  intro m rest hlen hstops
  obtain ⟨k, hk, hleads⟩ := h m rest hlen (hstops.mono (Nat.le_succ l))
  obtain ⟨k, rfl⟩ := Nat.exists_eq_succ_of_ne_zero (show k ≠ 0 by omega)
  refine hleads.trans (leads_levelLoop hl (fun hlast => ?_) hstops)
  rw [hlast]
  exact edgeAt_postfix e

theorem fuel_parsers (m : Nat) : (parsers isUppercase tokens m).fuel = m := by
  cases m <;> rfl

theorem enters_of_readsAt (hl : HasLoop l) (hheads : Heads e) (hne : e.level ≠ l)
    (h : ReadsAt isUppercase tokens (l + 1) e) : Enters isUppercase tokens l e := by
  intro m rest hlen hstops
  have hread := h m rest
  rw [tokensAt_succ hne, edgeAt_succ hne] at hread
  obtain ⟨t, ts, hts, -⟩ := hheads.at l
  have hpos : 0 < (tokensAt l e).length := by
    rw [hts]
    exact Nat.succ_pos _
  refine ⟨m, Nat.lt_add_of_pos_right hpos, ?_⟩
  rw [levelParser_eq tokens _ isUppercase hl, fuel_parsers]
  exact (hread hlen hstops).bind

theorem readsAt_unary (hheads : Heads e) (hne : e.level ≠ 10)
    (h : ReadsAt isUppercase tokens 11 e) : ReadsAt isUppercase tokens 10 e := by
  intro m rest hlen hstops
  have hread := h m rest
  obtain ⟨t, ts, hts, -, hunary⟩ := hheads.at 11
  rw [tokensAt_succ hne] at hread hts
  rw [edgeAt_succ hne] at hread
  have hread := hread hlen (hstops.mono (Nat.le_succ 10))
  rw [hts] at hread ⊢
  refine reads_peekToken.then ?_
  rw [hunary (Nat.le_refl 11)]
  exact hread

theorem readsAt_parens (hheads : Heads e) (hlt : e.level < 13)
    (h : ReadsAt isUppercase tokens 0 e) : ReadsAt isUppercase tokens 13 e := by
  intro m rest hlen hstops
  rw [tokensAt_of_lt hlt] at hlen ⊢
  rw [length_append, length_cons] at hlen
  obtain ⟨m, rfl⟩ := Nat.exists_eq_succ_of_ne_zero (show m ≠ 0 by omega)
  have hread := h m (Token.rParen :: rest)
  rw [tokensAt_of_le (Nat.zero_le _)] at hread
  have hread := hread (by omega) ⟨.rParen, rest, rfl, nofun, nofun, nofun, nofun, nofun⟩
  obtain ⟨t, ts, hts, hopens, -⟩ := hheads.first
  have hshape : Token.lParen :: exprTokens e ++ [Token.rParen] ++ rest =
      Token.lParen :: (exprTokens e ++ Token.rParen :: rest) := by
    rw [append_assoc]
    rfl
  rw [hshape]
  refine reads_peekToken.then (Reads.then (reads_advance (t := .lParen) nofun) ?_)
  have hclose : Reads tokens (advanceIf tokens .rParen) (exprTokens e ++ Token.rParen :: rest) false
      (exprTokens e ++ Token.rParen :: rest) := by
    rw [hts]
    exact reads_advanceIf_false (ctorIdx_ne_of_opens hopens (.inl rfl))
  refine hclose.then ?_
  exact hread.then (Reads.bind (reads_consume (t := .rParen) nofun))

theorem readsAt_of_succ (hheads : Heads e) (hlt : l < 13) (hne : e.level ≠ l)
    (h : ReadsAt isUppercase tokens (l + 1) e) : ReadsAt isUppercase tokens l e := by
  by_cases hunary : l = 10
  · subst hunary
    exact readsAt_unary hheads hne h
  · have hl : HasLoop l := ⟨hlt, hunary⟩
    exact readsAt_of_enters hl (enters_of_readsAt hl hheads hne h)

theorem readsAt_below (hheads : Heads e) {d : Nat} (hle : l + d ≤ 13)
    (hne : ∀ k, l ≤ k → k < l + d → e.level ≠ k) (h : ReadsAt isUppercase tokens (l + d) e) :
    ReadsAt isUppercase tokens l e := by
  induction d generalizing l with
  | zero => exact h
  | succ d ih =>
    have heq : l + (d + 1) = l + 1 + d := by omega
    rw [heq] at h hle hne
    refine readsAt_of_succ hheads (by omega) (hne l (Nat.le_refl l) (by omega)) (ih hle ?_ h)
    exact fun k hk => hne k (Nat.le_of_succ_le hk)

theorem level_le (e : Expr) : e.level ≤ 13 := by
  cases e with
  | binary op _ _ => exact Nat.le_trans op.level_le (Nat.le_of_ble_eq_true rfl)
  | _ => exact Nat.le_of_ble_eq_true rfl

/-- **All levels.** An expression that is read at its own level is read at all levels. -/
theorem parses_of_readsAt (hheads : Heads e) (h : ReadsAt isUppercase tokens e.level e)
    (henters : HasLoop e.level → Enters isUppercase tokens e.level e) :
    Parses isUppercase tokens e := by
  have hbelow (l : Nat) (hle : l ≤ e.level) : ReadsAt isUppercase tokens l e := by
    obtain ⟨d, hd⟩ := Nat.exists_eq_add_of_le hle
    rw [hd] at h
    exact readsAt_below hheads (hd ▸ level_le e) (fun k _ hk => by omega) h
  have hreads (l : Nat) (hl : l ≤ 13) : ReadsAt isUppercase tokens l e := by
    rcases Nat.lt_or_ge e.level l with hlt | hle
    · have htop := readsAt_parens hheads (by omega) (hbelow 0 (Nat.zero_le _))
      obtain ⟨d, hd⟩ := Nat.exists_eq_add_of_le hl
      rw [hd] at htop
      exact readsAt_below hheads (Nat.le_of_eq hd.symm) (fun k hk _ => by omega) htop
    · exact hbelow l hle
  refine ⟨hheads, hreads, fun l hl => ?_⟩
  by_cases hne : e.level = l
  · subst hne
    exact henters hl
  · exact enters_of_readsAt hl hheads hne (hreads (l + 1) hl.1)

theorem parses_of_enters (hheads : Heads e) (hl : HasLoop e.level)
    (h : Enters isUppercase tokens e.level e) : Parses isUppercase tokens e :=
  parses_of_readsAt hheads (readsAt_of_enters hl h) fun _ => h

end

end Parser
end Ekkl
end EkKor
