import EkKor.Ekkl.Levels

/-!
# Parsing inverts printing on expressions

* `parses_binary`, …   one lemma for each form of an expression, from its parts;
* `Plain`              the expressions without blocks of statements;
* `parses_of_plain`    all of them are read at all levels;
* `parseExpr_exprTokens`   the parser gives back the expression that was printed.
-/

namespace EkKor
namespace Ekkl
namespace Parser
open List

variable {ty : Ty}

section
variable {isUppercase : Char → Bool} {tokens : List Token} {e : Expr}

/-! ## literals and names -/

variable {edge : Edge} {t : Token} {ts rest : List Token} {p : Parsers} {name : String}
  {fields : List (String × Expr)}

theorem stops_of_level {l : Nat} (hlevel : level t = none) (hcall : t ≠ .lParen)
    (hpath : t ≠ .colonColon) (hfields : t ≠ .lBrace) : Stops l edge (t :: ts) := by
  refine ⟨t, ts, rfl, fun k hk => ?_, fun h => absurd h hcall, fun h => absurd h hpath,
    fun h => absurd h hfields, fun h => ?_⟩
  · rw [hlevel] at hk
    cases hk
  · rw [h] at hlevel
    cases hlevel

theorem reads_literal {value : Literal} (h : literalOf t = some value) (hne : t ≠ .eof) :
    Reads tokens (parsePrimaryExpr tokens p isUppercase) (t :: ts) (.literal value) ts := by
  refine reads_peekToken.then ?_
  rw [h]
  exact Reads.bind (reads_advance hne)

theorem parses_literal (value : Literal) : Parses isUppercase tokens (.literal value) := by
  refine parses_of_readsAt ?_ (fun m rest hlen hstops => ?_) fun hl => absurd hl.1 (Nat.lt_irrefl 13)
  · refine ⟨?_, fun rest _ => ?_⟩
    · obtain n | bits | ⟨_ | _⟩ | s | _ := value <;> exact ⟨_, _, rfl, rfl, fun _ => rfl⟩
    · obtain n | bits | ⟨_ | _⟩ | s | _ := value <;> rfl
  · obtain n | bits | ⟨_ | _⟩ | s | _ := value
    · exact reads_literal rfl nofun
    · exact reads_literal rfl nofun
    · exact reads_literal rfl nofun
    · exact reads_literal rfl nofun
    · exact reads_literal rfl nofun
    · refine Leads.of_length fun hle => reads_peekToken.then ?_
      refine Reads.then (reads_advance (t := .lParen) nofun) ?_
      refine Reads.then (reads_advanceIf (t := .rParen) nofun) ?_
      exact reads_node (Nat.lt_of_lt_of_le (Nat.lt_succ_of_lt (Nat.lt_succ_self _)) hle)

/-- `looks_like_struct_init` looks at what follows the brace -/
theorem reads_looksLikeStructInit :
    Reads tokens (looksLikeStructInit tokens) (t :: ts) (startsField ts) (t :: ts) := by
  refine (reads_peekAhead 1).then ?_
  cases ts with
  | nil => exact leads_self _ _
  | cons u us =>
    cases u with
    | ident name =>
      refine (reads_peekAhead 2).then ?_
      cases us with
      | nil => exact leads_self _ _
      | cons v vs => cases v with | _ => exact leads_self _ _
    | _ => exact leads_self _ _

theorem leads_afterIdent {l : Nat} (hstops : Stops l .name rest) :
    Reads tokens (afterIdent tokens p name) rest (.ident name) rest := by
  obtain ⟨t, ts, rfl, hstop⟩ := hstops
  refine (reads_check .lBrace).then (reads_looksLikeStructInit.then ?_)
  have hfields : (decide (t.ctorIdx = Token.lBrace.ctorIdx) && startsField ts) = false := by
    by_cases hbrace : t.ctorIdx = Token.lBrace.ctorIdx
    · rw [hstop.fields (eq_of_ctorIdx hbrace rfl) rfl, Bool.and_false]
    · rw [decide_eq_false hbrace, Bool.false_and]
  rw [hfields, if_neg Bool.false_ne_true]
  refine (reads_advanceIf_false fun h =>
    (hstop.call (eq_of_ctorIdx h rfl)).1 rfl).then ?_
  refine (reads_advanceIf_false fun h => hstop.path (eq_of_ctorIdx h rfl) rfl).then ?_
  exact leads_self _ _

theorem splitPath_eq {cs a b : List Char} (h : splitPath cs = some (a, b)) :
    cs = a ++ ':' :: ':' :: b := by
  induction cs generalizing a with
  | nil => cases h
  | cons c cs ih =>
    unfold splitPath at h
    split at h
    · cases h
      rfl
    · obtain ⟨p, hp, heq⟩ := Option.map_eq_some_iff.mp h
      cases heq
      exact congrArg (c :: ·) (ih hp)

theorem ofList_splitPath {a b : List Char} (h : splitPath name.toList = some (a, b)) :
    String.ofList a ++ "::" ++ String.ofList b = name := by
  rw [← String.toList_inj]
  simp only [String.toList_append, String.toList_ofList, splitPath_eq h, append_assoc]
  rfl

theorem parses_ident (name : String) : Parses isUppercase tokens (.ident name) := by
  have hshape : (exprTokens (.ident name) = [.ident name] ∧ exprEdge (.ident name) = .name) ∨
      ∃ a b, splitPath name.toList = some (a, b) ∧ exprTokens (.ident name) =
        [.ident (String.ofList a), .colonColon, .ident (String.ofList b)] := by
    show (nameTokens name = _ ∧ _) ∨ ∃ a b, _ ∧ nameTokens name = _
    unfold nameTokens exprEdge
    cases hsplit : splitPath name.toList with
    | none => exact .inl ⟨rfl, if_pos rfl⟩
    | some p => exact .inr ⟨p.1, p.2, rfl, rfl⟩
  refine parses_of_readsAt ?_ (fun m rest hlen hstops => ?_) fun hl => absurd hl.1 (Nat.lt_irrefl 13)
  · rcases hshape with ⟨h, -⟩ | ⟨a, b, -, h⟩
    · refine ⟨⟨_, _, h, rfl, fun _ => rfl⟩, fun rest hrest => ?_⟩
      rw [h]
      cases rest with
      | nil => rfl
      | cons t ts => cases t with
        | colon => exact absurd rfl (hrest ts)
        | _ => rfl
    · refine ⟨⟨_, _, h, rfl, fun _ => rfl⟩, fun rest _ => ?_⟩
      rw [h]
      rfl
  · rw [tokensAt_of_le (Nat.le_refl _)]
    rcases hshape with ⟨h, hedge⟩ | ⟨a, b, hsplit, h⟩
    · rw [edgeAt_of_le (Nat.le_refl _), hedge] at hstops
      rw [h]
      refine reads_peekToken.then ?_
      refine Reads.then (reads_advance (t := .ident name) fun h => Token.noConfusion h) ?_
      exact leads_afterIdent hstops
    · rw [h]
      refine reads_peekToken.then ?_
      refine Reads.then (reads_advance (t := .ident (String.ofList a)) fun h => Token.noConfusion h) ?_
      refine (reads_check .lBrace).then (reads_looksLikeStructInit.then ?_)
      refine (reads_advanceIf_false (by decide)).then ?_
      refine Reads.then (reads_advanceIf (t := .colonColon) fun h => Token.noConfusion h) ?_
      have hnode := Reads.node (f := fun variant =>
        Expr.ident (String.ofList a ++ "::" ++ variant))
        (show Reads tokens (parseIdent tokens) (.ident (String.ofList b) :: rest) _ rest from
          reads_parseIdent)
        (Nat.lt_succ_self _)
      rw [ofList_splitPath hsplit] at hnode
      exact hnode

/-! ## operators -/

theorem stops_binOp {op : BinOp} (hangle : op = .lt → edge ≠ .typeName) (ts : List Token) :
    Stops (op.level + 1) edge (op.token :: ts) := by
  refine ⟨op.token, ts, rfl, fun k hk => ?_, ?_, ?_, ?_, ?_⟩
  · rw [level_token, Option.some.injEq] at hk
    exact .inl (hk ▸ Nat.lt_succ_self _)
  · cases op <;> nofun
  · cases op <;> nofun
  · cases op <;> nofun
  · cases op <;> first | exact fun _ => hangle rfl | nofun

/-- **Left recursion.** The loop of a level reads what follows the operand to the left. -/
theorem parses_of_suffix {a : Expr} {suffix : List Token} (ha : Parses isUppercase tokens a)
    (hl : HasLoop e.level) (hshape : exprTokens e = tokensAt e.level a ++ t :: suffix)
    (hcolon : t ≠ .colon) (hstop : ∀ ts, Stops (e.level + 1) (edgeAt e.level a) (t :: ts)) (hstep :
    ∀ m rest k, suffix.length + 1 < m → Stops (e.level + 1) (exprEdge e) rest → Leads tokens
    (levelLoop tokens (parsers isUppercase tokens m) isUppercase e.level (k + 1) a) (t :: (suffix ++
    rest)) (levelLoop tokens (parsers isUppercase tokens m) isUppercase e.level k e) rest) :
    Parses isUppercase tokens e := by
  obtain ⟨u, us, hus, hopens, hunary⟩ := ha.heads.at e.level
  refine parses_of_enters ⟨⟨u, us ++ t :: suffix, ?_, hopens, hunary⟩, fun rest hrest => ?_⟩ hl
    fun m rest hlen hstops => ?_
  · rw [hshape, hus]
    rfl
  · rw [hshape, append_assoc]
    exact ha.heads.fields_at _ fun ts h => hcolon (List.cons.inj h).1
  · rw [edgeAt_of_le (Nat.le_refl _)] at hstops
    rw [tokensAt_of_le (Nat.le_refl _), hshape, length_append, length_cons] at *
    have hpos : 0 < (tokensAt e.level a).length := by
      rw [hus]
      exact Nat.succ_pos _
    obtain ⟨k, hk, hleads⟩ := ha.enters e.level hl m (t :: (suffix ++ rest)) (by omega) (hstop _)
    obtain ⟨k, rfl⟩ := Nat.exists_eq_succ_of_ne_zero (show k ≠ 0 by omega)
    refine ⟨k, by omega, ?_⟩
    rw [append_assoc]
    exact hleads.trans (hstep m rest k (by omega) hstops)

theorem parses_binary {op : BinOp} {left right : Expr} (hleft : Parses isUppercase tokens left)
    (hright : Parses isUppercase tokens right)
    (hangle : op = .lt → edgeAt op.level left ≠ .typeName) :
    Parses isUppercase tokens (.binary op left right) := by
  have hle := op.level_le
  refine parses_of_suffix hleft ⟨?_, ?_⟩ rfl (by cases op <;> nofun) (stops_binOp hangle)
    fun m rest k hlen hstops => Leads.of_length fun hin => ?_
  · exact Nat.lt_of_le_of_lt hle (by decide)
  · exact Nat.ne_of_lt (Nat.lt_of_le_of_lt hle (by decide))
  · show Leads tokens (levelLoop _ _ _ op.level _ _) _ (levelLoop _ _ _ op.level _ _) _
    rw [levelLoop_eq (by omega) (by omega)]
    refine reads_peekToken.then ?_
    rw [levelOps_token]
    refine Reads.then (reads_advance (by cases op <;> nofun)) ?_
    refine (hright.readsAt (op.level + 1) (by omega) m rest (Nat.le_of_lt (Nat.lt_of_succ_lt hlen))
      hstops).then (Reads.bind (reads_node ?_))
    rw [length_cons, length_append] at hin
    omega

theorem parses_unary {op : UnOp} (he : Parses isUppercase tokens e) :
    Parses isUppercase tokens (.unary op e) := by
  refine parses_of_readsAt ⟨⟨op.token, tokensAt 10 e, rfl, ?_, fun h => ?_⟩, fun rest _ => ?_⟩
    (fun m rest hlen hstops => ?_) fun hl => absurd rfl hl.2
  · cases op <;> rfl
  · exact absurd (show 11 ≤ 10 from h) (by decide)
  · cases op <;> rfl
  · have htokens : tokensAt 10 (.unary op e) = op.token :: tokensAt 10 e :=
      tokensAt_of_le (Nat.le_refl _)
    replace hlen : (tokensAt 10 (.unary op e)).length ≤ m := hlen
    rw [htokens, length_cons] at *
    obtain ⟨m, rfl⟩ := Nat.exists_eq_succ_of_ne_zero (show m ≠ 0 by omega)
    have hop : unaryOp op.token = some op := by cases op <;> rfl
    obtain ⟨t, ts, hts, -⟩ := he.heads.at 10
    refine reads_peekToken.then ?_
    rw [hop]
    refine Reads.then (reads_advance (by cases op <;> nofun)) ?_
    refine Reads.node (he.readsAt 10 (by decide) m rest (by omega) hstops) ?_
    show rest.length < (tokensAt 10 e ++ rest).length
    rw [hts, length_append, length_cons]
    omega

/-! ## casts -/

theorem reads_wordType (h : wordType t = some ty) (hne : t ≠ .eof) :
    Reads tokens (parseType tokens p) (t :: ts) ty ts := by
  refine reads_peekToken.then ?_
  rw [h]
  exact Reads.bind (reads_advance hne)

theorem reads_parseIntLiteral {n : Int64} :
    Reads tokens (parseIntLiteral tokens) (.intLit n :: ts) n ts := by
  refine reads_peekToken.then ?_
  exact Reads.bind (reads_advance nofun)

def isReadable : Ty → Bool
  | .array elem size => isReadable elem && decide (size < 2 ^ 63)
  | .result ok err => isReadable ok && isReadable err
  | .option inner => isReadable inner
  | .infer => false
  | _ => true

theorem toNat_ofNat_size {size : Nat} (h : size < 2 ^ 63) :
    (Int64.ofNat size).toUInt64.toNat = size := by
  exact Nat.mod_eq_of_lt (by omega)

theorem reads_type (hty : isReadable ty = true) (m : Nat) (hlen : ty.tokens.length ≤ m)
    (ht : t = .lt → tyEdge ty ≠ .typeName) :
    Reads tokens (parseType tokens (parsers isUppercase tokens m)) (ty.tokens ++ t :: ts) ty
      (t :: ts) := by
  induction ty generalizing m t ts with
  | unit =>
    refine reads_peekToken.then (Reads.then (reads_advance (t := .lParen) nofun) ?_)
    exact Reads.bind (reads_consume (t := .rParen) nofun)
  | infer => cases hty
  | named name =>
    refine reads_peekToken.then (Reads.then (reads_advance (t := .ident name) nofun) ?_)
    refine (reads_advanceIf_false fun h => ht (eq_of_ctorIdx h rfl) rfl).then ?_
    exact leads_self _ _
  | array elem size ih =>
    obtain ⟨helem, hsize⟩ := Bool.and_eq_true_iff.mp hty
    unfold Ty.tokens at hlen ⊢
    simp only [length_append, length_cons, append_assoc, cons_append] at hlen ⊢
    obtain ⟨m, rfl⟩ := Nat.exists_eq_succ_of_ne_zero (show m ≠ 0 by omega)
    refine reads_peekToken.then (Reads.then (reads_advance (t := .lBracket) nofun) ?_)
    refine (ih helem m (by omega) (t := .semicolon) nofun).then ?_
    refine Reads.then (reads_consume (t := .semicolon) nofun) ?_
    refine reads_parseIntLiteral.then ?_
    refine Reads.then (reads_consume (t := .rBracket) nofun) ?_
    rw [toNat_ofNat_size (of_decide_eq_true hsize)]
    exact leads_self _ _
  | result ok err ihok iherr =>
    obtain ⟨hok, herr⟩ := Bool.and_eq_true_iff.mp hty
    unfold Ty.tokens at hlen ⊢
    simp only [length_append, length_cons, append_assoc, cons_append] at hlen ⊢
    obtain ⟨m, rfl⟩ := Nat.exists_eq_succ_of_ne_zero (show m ≠ 0 by omega)
    refine reads_peekToken.then (Reads.then (reads_advance (t := .ident "Result") nofun) ?_)
    refine Reads.then (reads_advanceIf (t := .lt) nofun) ?_
    refine (ihok hok m (by omega) (t := .comma) nofun).then ?_
    refine Reads.then (reads_consume (t := .comma) nofun) ?_
    refine (iherr herr m (by omega) (t := .gt) nofun).then ?_
    exact Reads.bind (reads_consume (t := .gt) nofun)
  | option inner ih =>
    unfold Ty.tokens at hlen ⊢
    simp only [length_append, length_cons, append_assoc, cons_append] at hlen ⊢
    obtain ⟨m, rfl⟩ := Nat.exists_eq_succ_of_ne_zero (show m ≠ 0 by omega)
    refine reads_peekToken.then (Reads.then (reads_advance (t := .ident "Option") nofun) ?_)
    refine Reads.then (reads_advanceIf (t := .lt) nofun) ?_
    refine (ih hty m (by omega) (t := .gt) nofun).then ?_
    exact Reads.bind (reads_consume (t := .gt) nofun)
  | _ => exact reads_wordType rfl nofun

theorem hasLoop_cast : HasLoop 11 := ⟨by decide, by decide⟩

theorem hasLoop_postfix : HasLoop 12 := ⟨by decide, by decide⟩

theorem parses_cast (he : Parses isUppercase tokens e) (hty : isReadable ty = true) :
    Parses isUppercase tokens (.cast e ty) := by
  refine parses_of_suffix (t := .asKw) he hasLoop_cast rfl nofun
    (fun ts => ⟨.asKw, ts, rfl, fun k hk => ?_, nofun, nofun, nofun, nofun⟩)
    fun m rest k hlen hstops => ?_
  · cases hk
    exact .inl (Nat.lt_succ_self 11)
  · obtain ⟨m, rfl⟩ := Nat.exists_eq_succ_of_ne_zero (Nat.ne_of_gt (Nat.zero_lt_of_lt hlen))
    obtain ⟨t, ts, rfl, hstop⟩ := hstops
    refine Leads.of_length fun hin => Reads.then (reads_advanceIf (t := .asKw) nofun) ?_
    refine (reads_type hty m (by omega) hstop.arguments).then (Reads.bind (reads_node ?_))
    rw [length_cons, length_append] at hin
    omega

/-! ## fields, methods, elements -/

theorem reads_exprs {m : Nat} {close : Token} {es : List Expr}
    (hclose : close = .rParen ∨ close = .rBracket) (hes : ∀ e ∈ es, Parses isUppercase tokens e)
    (hlen : (separated (exprsTokens es)).length ≤ m) :
    Reads tokens
      (elements tokens close (parsers isUppercase tokens (m + 1)).parseExpr (m + 1))
      (separated (exprsTokens es) ++ close :: rest) es (close :: rest) := by
  rw [exprsTokens_eq] at *
  refine reads_elements ?_ es (fun e he => ?_) (fun e he t ts ht => ?_) ?_
  · rcases hclose with rfl | rfl <;> decide
  · obtain ⟨t, ts, hts, hopens, -⟩ := (hes e he).heads.first
    exact ⟨t, ts, hts, ctorIdx_ne_of_opens hopens (hclose.imp_right .inr)⟩
  · have hread := (hes e he).readsAt 0 (Nat.zero_le _) m (t :: ts)
    refine hread (Nat.le_trans (length_le_separated (mem_map_of_mem he)) hlen) ?_
    rcases ht with rfl | rfl
    · exact stops_of_level rfl nofun nofun nofun
    · rcases hclose with rfl | rfl <;> exact stops_of_level rfl nofun nofun nofun
  · have hcount : (es.map exprTokens).length ≤ (separated (es.map exprTokens)).length := by
      refine count_le_separated fun part hpart => ?_
      obtain ⟨e, he, rfl⟩ := mem_map.mp hpart
      exact (hes e he).heads.ne_nil
    rw [length_map] at hcount
    omega

theorem stops_suffix (h : t = .dot ∨ t = .lBracket) (ts : List Token) :
    Stops 13 edge (t :: ts) := by
  have hlevel : level t = some 12 := by rcases h with rfl | rfl <;> rfl
  refine ⟨t, ts, rfl, fun k hk => ?_, ?_, ?_, ?_, ?_⟩
  · rw [hlevel] at hk
    cases hk
    exact .inl (Nat.lt_succ_self 12)
  · rintro rfl
    cases hlevel
  · rintro rfl
    cases hlevel
  · rintro rfl
    cases hlevel
  · rintro rfl
    cases hlevel

theorem parses_fieldAccess {field : String} (he : Parses isUppercase tokens e) :
    Parses isUppercase tokens (.fieldAccess e field) := by
  refine parses_of_suffix (t := .dot) he hasLoop_postfix rfl nofun (stops_suffix (.inl rfl))
    fun m rest k hlen hstops => Leads.of_length fun hin => ?_
  refine reads_peekToken.then (Reads.then (reads_advance (t := .dot) nofun) (Reads.bind ?_))
  refine reads_parseIdent.then ?_
  obtain ⟨t, ts, rfl, hstop⟩ := hstops
  refine (reads_advanceIf_false fun h => (hstop.call (eq_of_ctorIdx h rfl)).2 rfl).then ?_
  exact reads_node (Nat.lt_of_succ_le (Nat.le_of_succ_le hin))

theorem parses_methodCall {method : String} {args : List Expr}
    (he : Parses isUppercase tokens e) (hargs : ∀ a ∈ args, Parses isUppercase tokens a) :
    Parses isUppercase tokens (.methodCall e method args) := by
  have hshape : exprTokens (.methodCall e method args) = tokensAt 12 e ++
      Token.dot :: (Token.ident method :: Token.lParen :: separated (exprsTokens args) ++
        [Token.rParen]) :=
    append_assoc _ _ _
  refine parses_of_suffix (t := .dot) he hasLoop_postfix hshape nofun (stops_suffix (.inl rfl))
    fun m rest k hlen hstops => ?_
  obtain ⟨m, rfl⟩ := Nat.exists_eq_succ_of_ne_zero (Nat.ne_of_gt (Nat.zero_lt_of_lt hlen))
  simp only [length_append, length_cons] at hlen
  rw [append_assoc]
  refine reads_peekToken.then (Reads.then (reads_advance (t := .dot) nofun) (Reads.bind ?_))
  refine reads_parseIdent.then (Reads.then (reads_advanceIf (t := .lParen) nofun) ?_)
  refine (reads_exprs (.inl rfl) hargs (by omega)).then ?_
  exact Reads.node (reads_consume (t := .rParen) nofun) (Nat.lt_succ_self _)

theorem parses_index {index : Expr} (he : Parses isUppercase tokens e)
    (hindex : Parses isUppercase tokens index) :
    Parses isUppercase tokens (.index e index) := by
  have hshape : exprTokens (.index e index) =
      tokensAt 12 e ++ Token.lBracket :: (exprTokens index ++ [Token.rBracket]) :=
    append_assoc _ _ _
  refine parses_of_suffix (t := .lBracket) he hasLoop_postfix hshape nofun (stops_suffix (.inr rfl))
    fun m rest k hlen hstops => ?_
  obtain ⟨m, rfl⟩ := Nat.exists_eq_succ_of_ne_zero (Nat.ne_of_gt (Nat.zero_lt_of_lt hlen))
  rw [length_append] at hlen
  rw [append_assoc]
  refine reads_peekToken.then (Reads.then (reads_advance (t := .lBracket) nofun) (Reads.bind ?_))
  have hread := hindex.readsAt 0 (Nat.zero_le _) m (Token.rBracket :: rest)
  rw [tokensAt_of_le (Nat.zero_le _)] at hread
  refine (hread (by omega) (stops_of_level rfl nofun nofun nofun)).then ?_
  exact Reads.node (reads_consume (t := .rBracket) nofun) (Nat.lt_succ_self _)

/-! ## calls, initializers, conditions -/

theorem parses_of_primary (hlevel : e.level = 13) (hshape : exprTokens e = t :: ts)
    (hopens : opens t = true) (hunary : unaryOp t = none)
    (hfields : ∀ rest, (∀ ts, rest ≠ Token.colon :: ts) → startsField (t :: (ts ++ rest)) = false)
    (hread : ∀ m rest, ts.length ≤ m → Reads tokens (parsePrimaryExpr tokens (parsers isUppercase
    tokens (m + 1)) isUppercase) (t :: (ts ++ rest)) e rest) : Parses isUppercase tokens e := by
  refine parses_of_readsAt ⟨⟨t, ts, hshape, hopens, fun _ => hunary⟩, fun rest hrest => ?_⟩
    (fun m rest hlen hstops => ?_) fun hl => absurd (hlevel ▸ hl.1) (Nat.lt_irrefl 13)
  · rw [hshape]
    exact hfields rest hrest
  · rw [tokensAt_of_le (Nat.le_refl _), hshape] at *
    rw [hlevel]
    obtain ⟨m, rfl⟩ := Nat.exists_eq_succ_of_ne_zero (Nat.ne_of_gt (Nat.zero_lt_of_lt hlen))
    exact hread m rest (Nat.le_of_succ_le_succ hlen)

theorem parses_call {func : String} {args : List Expr}
    (hargs : ∀ a ∈ args, Parses isUppercase tokens a) :
    Parses isUppercase tokens (.call func args) := by
  have hshape : exprTokens (.call func args) =
      Token.ident func :: (Token.lParen :: separated (exprsTokens args) ++ [Token.rParen]) := rfl
  refine parses_of_primary rfl hshape rfl rfl (fun _ _ => rfl) fun m rest hlen => ?_
  simp only [length_append, length_cons] at hlen
  rw [append_assoc]
  refine reads_peekToken.then (Reads.then (reads_advance (t := .ident func) nofun) ?_)
  refine (reads_check .lBrace).then (reads_looksLikeStructInit.then ?_)
  refine Reads.then (reads_advanceIf (t := .lParen) nofun) ?_
  refine (reads_exprs (.inl rfl) hargs (by omega)).then ?_
  exact Reads.node (reads_consume (t := .rParen) nofun) (Nat.lt_succ_self _)

theorem parses_arrayInit {es : List Expr} (hes : ∀ e ∈ es, Parses isUppercase tokens e) :
    Parses isUppercase tokens (.arrayInit es) := by
  have hshape : exprTokens (.arrayInit es) =
      Token.lBracket :: (separated (exprsTokens es) ++ [Token.rBracket]) := rfl
  refine parses_of_primary rfl hshape rfl rfl (fun _ _ => rfl) fun m rest hlen => ?_
  rw [length_append] at hlen
  rw [append_assoc]
  refine reads_peekToken.then (Reads.then (reads_advance (t := .lBracket) nofun) ?_)
  refine (reads_exprs (.inr rfl) hes (by omega)).then ?_
  exact Reads.node (reads_consume (t := .rBracket) nofun) (Nat.lt_succ_self _)

theorem reads_fields {m : Nat} (hfields : ∀ f ∈ fields, Parses isUppercase tokens f.2)
    (hlen : (separated (fieldsTokens fields)).length ≤ m) :
    Reads tokens
      (elements tokens .rBrace (fieldInit tokens (parsers isUppercase tokens (m + 1))) (m + 1))
      (separated (fieldsTokens fields) ++ Token.rBrace :: rest) fields (Token.rBrace :: rest) := by
  rw [fieldsTokens_eq] at *
  refine reads_elements ?_ fields (fun f hf => ⟨_, _, rfl, ?_⟩) (fun f hf t ts ht => ?_) ?_
  · decide
  · exact nofun
  · have hpart := length_le_separated (mem_map_of_mem (f := fieldTokens) hf)
    have hlength : (fieldTokens f).length = (exprTokens f.2).length + 2 := rfl
    have hread := (hfields f hf).readsAt 0 (Nat.zero_le _) m (t :: ts)
    rw [tokensAt_of_le (Nat.zero_le _)] at hread
    refine reads_parseIdent.then (Reads.then (reads_consume (t := .colon) nofun) ?_)
    refine Reads.bind (hread (by omega) ?_)
    rcases ht with rfl | rfl <;> exact stops_of_level rfl nofun nofun nofun
  · have hcount : (fields.map fieldTokens).length ≤
        (separated (fields.map fieldTokens)).length := by
      refine count_le_separated fun part hpart => ?_
      obtain ⟨f, hf, rfl⟩ := mem_map.mp hpart
      exact cons_ne_nil _ _
    rw [length_map] at hcount
    omega

theorem startsField_fields (fields : List (String × Expr)) (rest : List Token) :
    startsField (separated (fieldsTokens fields) ++ Token.rBrace :: rest) = true := by
  cases fields with
  | nil => rfl
  | cons f fields => cases fields <;> rfl

theorem parses_structInit (hfields : ∀ f ∈ fields, Parses isUppercase tokens f.2) :
    Parses isUppercase tokens (.structInit name fields) := by
  have hshape : exprTokens (.structInit name fields) =
      Token.ident name :: Token.lBrace :: (separated (fieldsTokens fields) ++ [Token.rBrace]) := rfl
  refine parses_of_primary rfl hshape rfl rfl (fun _ _ => rfl) fun m rest hlen => ?_
  simp only [length_append, length_cons] at hlen
  rw [cons_append, append_assoc]
  refine reads_peekToken.then (Reads.then (reads_advance (t := .ident name) nofun) ?_)
  refine (reads_check .lBrace).then (reads_looksLikeStructInit.then ?_)
  rw [singleton_append, startsField_fields, if_pos (by exact rfl)]
  refine Reads.then (reads_advance (t := .lBrace) nofun) ?_
  refine (reads_fields hfields (by omega)).then ?_
  exact Reads.node (reads_consume (t := .rBrace) nofun) (Nat.lt_succ_self _)

theorem parses_ifExpr {cond thenExpr elseExpr : Expr} (hcond : Parses isUppercase tokens cond)
    (hthen : Parses isUppercase tokens thenExpr) (helse : Parses isUppercase tokens elseExpr) :
    Parses isUppercase tokens (.ifExpr cond thenExpr elseExpr) := by
  have hshape : exprTokens (.ifExpr cond thenExpr elseExpr) =
      Token.ifKw :: (exprTokens cond ++ Token.lBrace :: (exprTokens thenExpr ++
        Token.rBrace :: Token.elseKw :: Token.lBrace ::
          (exprTokens elseExpr ++ [Token.rBrace]))) := by
    simp [exprTokens]
  refine parses_of_primary rfl hshape rfl rfl (fun _ _ => rfl) fun m rest hlen => ?_
  simp only [length_append, length_cons, append_assoc, cons_append] at hlen ⊢
  have hc := hcond.readsAt 0 (Nat.zero_le _) m
  have ht := hthen.readsAt 0 (Nat.zero_le _) m
  have he := helse.readsAt 0 (Nat.zero_le _) m
  simp only [tokensAt_of_le (Nat.zero_le _)] at hc ht he
  refine reads_peekToken.then (Reads.then (reads_advance (t := .ifKw) nofun) ?_)
  refine (hc _ (by omega) ⟨.lBrace, _, rfl, nofun, nofun, nofun, fun _ _ =>
    hthen.heads.fields (Token.rBrace :: _) nofun, nofun⟩).then ?_
  refine Reads.then (reads_consume (t := .lBrace) nofun) ?_
  refine (ht _ (by omega) (stops_of_level (t := .rBrace) rfl nofun nofun nofun)).then ?_
  refine Reads.then (reads_consume (t := .rBrace) nofun) ?_
  refine Reads.then (reads_consume (t := .elseKw) nofun) ?_
  refine Reads.then (reads_consume (t := .lBrace) nofun) ?_
  refine (he _ (by omega) (stops_of_level (t := .rBrace) rfl nofun nofun nofun)).then ?_
  exact Reads.node (reads_consume (t := .rBrace) nofun) (Nat.lt_succ_self _)

end

/-! ## all expressions -/

def isPrimitive : Ty → Bool
  | .i8 | .i16 | .i32 | .i64 | .u8 | .u16 | .u32 | .u64 | .bool | .q16_16 | .unit => true
  | _ => false

theorem isReadable_of_isPrimitive (h : isPrimitive ty = true) : isReadable ty = true := by
  cases ty <;> first | rfl | cases h

/-- expressions without blocks of statements, with casts to primitive types -/
inductive Plain : Expr → Prop
  | literal (value : Literal) : Plain (.literal value)
  | ident (name : String) : Plain (.ident name)
  | binary {op : BinOp} {left right : Expr} : Plain left → Plain right → Plain (.binary op left right)
  | unary {op : UnOp} {expr : Expr} : Plain expr → Plain (.unary op expr)
  | call {func : String} {args : List Expr} : (∀ a ∈ args, Plain a) → Plain (.call func args)
  | methodCall {receiver : Expr} {method : String} {args : List Expr} :
    Plain receiver → (∀ a ∈ args, Plain a) → Plain (.methodCall receiver method args)
  | fieldAccess {expr : Expr} {field : String} : Plain expr → Plain (.fieldAccess expr field)
  | index {expr index : Expr} : Plain expr → Plain index → Plain (.index expr index)
  | structInit {name : String} {fields : List (String × Expr)} :
    (∀ f ∈ fields, Plain f.2) → Plain (.structInit name fields)
  | arrayInit {elements : List Expr} : (∀ e ∈ elements, Plain e) → Plain (.arrayInit elements)
  | cast {expr : Expr} {ty : Ty} : Plain expr → isPrimitive ty = true → Plain (.cast expr ty)
  | ifExpr {cond thenExpr elseExpr : Expr} :
    Plain cond → Plain thenExpr → Plain elseExpr → Plain (.ifExpr cond thenExpr elseExpr)

theorem Plain.edge {e : Expr} (h : Plain e) : exprEdge e ≠ .typeName := by
  induction h with
  | ident name =>
    unfold exprEdge
    split_ifs <;> rintro ⟨⟩
  | binary _ _ _ ih =>
    unfold exprEdge
    split_ifs
    · rintro ⟨⟩
    · exact ih
  | unary _ ih =>
    unfold exprEdge
    split_ifs
    · rintro ⟨⟩
    · exact ih
  | @cast e ty _ hty _ =>
    cases ty with
    | array | named | result | option | infer => cases hty
    | _ => exact fun h => Edge.noConfusion h
  | _ => exact fun h => Edge.noConfusion h

theorem parses_of_plain (isUppercase : Char → Bool) (tokens : List Token) {e : Expr} (h : Plain e) :
    Parses isUppercase tokens e := by
  induction h with
  | literal value => exact parses_literal value
  | ident name => exact parses_ident name
  | binary hleft _ ihleft ihright =>
    refine parses_binary ihleft ihright fun _ => ?_
    unfold edgeAt
    split_ifs
    · nofun
    · exact hleft.edge
  | unary _ ih => exact parses_unary ih
  | call _ ih => exact parses_call ih
  | methodCall _ _ ih ihargs => exact parses_methodCall ih ihargs
  | fieldAccess _ ih => exact parses_fieldAccess ih
  | index _ _ ih ihindex => exact parses_index ih ihindex
  | structInit _ ih => exact parses_structInit ih
  | arrayInit _ ih => exact parses_arrayInit ih
  | cast _ hty ih => exact parses_cast ih (isReadable_of_isPrimitive hty)
  | ifExpr _ _ _ ihcond ihthen ihelse => exact parses_ifExpr ihcond ihthen ihelse

/-- **Main.** The tokens of an expression, followed by ones that do not continue it, are parsed to the
expression, and what follows is left. -/
theorem parseExpr_exprTokens (isUppercase : Char → Bool) {e : Expr} (h : Plain e)
    (before rest : List Token) (hstops : Stops 0 (exprEdge e) rest) {n : Nat}
    (hn : (exprTokens e).length ≤ n) :
    parseExpr (before ++ exprTokens e ++ rest)
        (parsers isUppercase (before ++ exprTokens e ++ rest) n) isUppercase before.length =
      (.ok e, (before ++ exprTokens e).length) := by
  have hread := (parses_of_plain isUppercase (before ++ exprTokens e ++ rest) h).readsAt 0
    (Nat.zero_le _) n rest
  rw [tokensAt_of_le (Nat.zero_le _), edgeAt_of_le (Nat.zero_le _)] at hread
  obtain ⟨pos, hparse, hleft⟩ := hread hn hstops before.length
    ⟨by simp, by rw [append_assoc, drop_left]⟩
  have hlen := hleft.length
  rw [length_append] at hlen
  obtain rfl := Nat.add_right_cancel hlen
  exact hparse

/-- `a - (b - -1 as u8)` -/
def sampleExpr : Expr :=
  .binary .sub (.ident "a") (.binary .sub (.ident "b") (.unary .neg (.cast (.literal (.int 1)) .u8)))

/-- the parentheses are needed: the levels of the binary operators are left-associative -/
theorem parseExpr_sample : exprTokens sampleExpr = [.ident "a", .minus, .lParen, .ident "b", .minus,
      .minus, .intLit 1, .asKw, .u8, Token.rParen] ∧
    parseExpr ([] ++ exprTokens sampleExpr ++ [Token.eof])
        (parsers Char.isUpper ([] ++ exprTokens sampleExpr ++ [Token.eof]) 10) Char.isUpper 0 =
      (.ok sampleExpr, 10) :=
  ⟨by decide, parseExpr_exprTokens Char.isUpper
    (.binary (.ident "a") (.binary (.ident "b") (.unary (.cast (.literal _) rfl)))) [] [Token.eof]
    (stops_of_level rfl nofun nofun nofun) (by decide)⟩

end Parser
end Ekkl
end EkKor
