import EkKor.Ekkl.Parser

/-!
# The parser ends

Each function of the parser reads at least one token or fails, so that the depth of calls and the rounds of
loops are bounded by the number of tokens; and no index lies outside the vector, because the last token
is never passed.

* `Ends`            a run that ends with a value, `d` tokens further, or with an error;
* `Steps`           a function that ends so wherever at most `k` tokens are left;
* `good_parsers`   all functions do.
-/

namespace EkKor
namespace Ekkl
namespace Parser

variable {α β : Type} {tokens : List Token}

/-- the run ends at least `d` tokens further, or with an error -/
def Ends (tokens : List Token) (d pos : Nat) (out : Outcome ParseError α × Nat) : Prop :=
  match out with
  | (.ok _, pos') => pos + d ≤ pos' ∧ pos' < tokens.length
  | (.error _, _) => True
  | (.panic, _) => False
  | (.outOfFuel, _) => False

/-- the function passes at least `d` tokens wherever at most `k` are left -/
def Steps (tokens : List Token) (d k : Nat) (m : Parse α) : Prop :=
  ∀ pos, pos < tokens.length → tokens.length - pos ≤ k → Ends tokens d pos (m pos)

/-! ## one after the other -/

variable {t : Token} {fuel : Nat}

section
variable {d d' k k' pos pos' : Nat} {m : Parse α} {f : α → Parse β}
  {out : Outcome ParseError α × Nat}

theorem Ends.mono (h : Ends tokens d pos' out) (hpos : pos + d' ≤ pos' + d) :
    Ends tokens d' pos out := by
  obtain ⟨_ | _ | _ | _, _⟩ := out
  · exact ⟨Nat.le_trans hpos h.1, h.2⟩
  · trivial
  · exact h
  · exact h

theorem Steps.mono (h : Steps tokens d k m) (hd : d' ≤ d) (hk : k' ≤ k) : Steps tokens d' k' m :=
  fun pos hpos hleft => (h pos hpos (Nat.le_trans hleft hk)).mono (Nat.add_le_add_left hd pos)

theorem Ends.bind (h : Ends tokens d pos (m pos))
    (hf : ∀ a pos', pos + d ≤ pos' → pos' < tokens.length → Ends tokens d' pos (f a pos')) :
    Ends tokens d' pos ((m >>= f) pos) := by
  show Ends tokens d' pos (Eff.bind m f pos)
  unfold Eff.bind
  generalize m pos = out at h
  obtain ⟨_ | _ | _ | _, _⟩ := out
  · exact hf _ _ h.1 h.2
  · trivial
  · exact h
  · exact h

theorem Steps.first (h : Steps tokens 1 (k + 1) m) (hf : ∀ a, Steps tokens 0 k (f a)) :
    Steps tokens 1 (k + 1) (m >>= f) := fun pos hpos hleft =>
  (h pos hpos hleft).bind fun a pos' hle hlt => (hf a pos' hlt (by omega)).mono (by omega)

theorem Steps.next (h : Steps tokens d k m) (hf : ∀ a, Steps tokens d' k (f a)) :
    Steps tokens d' k (m >>= f) := fun pos hpos hleft =>
  (h pos hpos hleft).bind fun a pos' hle hlt => (hf a pos' hlt (by omega)).mono (by omega)

theorem Steps.last (h : Steps tokens 1 k m) (hf : ∀ a, Steps tokens 0 k (f a)) :
    Steps tokens 1 k (m >>= f) := fun pos hpos hleft =>
  (h pos hpos hleft).bind fun a pos' hle hlt => (hf a pos' hlt (by omega)).mono (by omega)

theorem steps_pure (a : α) : Steps tokens 0 k (Pure.pure a : Parse α) :=
  fun _ hpos _ => ⟨Nat.le_refl _, hpos⟩

/-! ## one token -/

theorem peekToken_eq (h : tokens[pos]? = some t) : peekToken tokens pos = (.ok t, pos) := by
  unfold peekToken
  rw [Eff.get_bind, h]
  rfl

theorem Steps.peek {f : Token → Parse α}
    (h : ∀ t pos, tokens[pos]? = some t → pos < tokens.length → tokens.length - pos ≤ k →
      Ends tokens d pos (f t pos)) :
    Steps tokens d k (peekToken tokens >>= f) := by
  intro pos hpos hleft
  have hget : tokens[pos]? = some tokens[pos] := List.getElem?_eq_getElem hpos
  rw [Eff.bind_ok (peekToken_eq hget)]
  exact h _ pos hget hpos hleft

theorem steps_check (token : Token) : Steps tokens 0 k (check tokens token) :=
  Steps.peek fun _ _ _ hpos _ => ⟨Nat.le_refl _, hpos⟩

theorem steps_isAtEnd : Steps tokens 0 k (isAtEnd tokens) :=
  Steps.peek fun _ _ _ hpos _ => ⟨Nat.le_refl _, hpos⟩

theorem check_eq {token : Token} (h : tokens[pos]? = some t) :
    check tokens token pos = (.ok (decide (t.ctorIdx = token.ctorIdx)), pos) := by
  unfold check
  rw [Eff.bind_ok (peekToken_eq h)]
  rfl

theorem advance_eq (h : tokens[pos]? = some t) (hne : t ≠ .eof) :
    advance tokens pos = (.ok t, pos + 1) := by
  unfold advance isAtEnd
  rw [Eff.bind_ok (peekToken_eq h), bind_assoc, Eff.bind_ok (peekToken_eq h), pure_bind,
    decide_eq_false hne]
  rfl

end

theorem eq_eof_of_ctorIdx (h : Token.eof.ctorIdx = t.ctorIdx) : t = .eof := by
  cases t <;> first | rfl | cases h

def EndsWithEof (tokens : List Token) : Prop := tokens.getLast? = some .eof

section
variable {k pos : Nat} (hlast : EndsWithEof tokens)
include hlast

theorem lt_of_ne_eof (h : tokens[pos]? = some t) (hne : t ≠ .eof) : pos + 1 < tokens.length := by
  obtain ⟨hpos, hget⟩ := List.getElem?_eq_some_iff.mp h
  by_contra hover
  have hend : pos = tokens.length - 1 := by omega
  unfold EndsWithEof at hlast
  rw [List.getLast?_eq_getElem?, ← hend, h] at hlast
  exact hne (Option.some.inj hlast)

theorem ends_advance (h : tokens[pos]? = some t) (hne : t ≠ .eof) :
    Ends tokens 1 pos (advance tokens pos) := by
  rw [advance_eq h hne]
  exact ⟨Nat.le_refl _, lt_of_ne_eof hlast h hne⟩

theorem ends_advance_bind {f : Token → Parse α} (h : tokens[pos]? = some t) (hne : t ≠ .eof)
    (hleft : tokens.length - pos ≤ k) (hf : ∀ t, Steps tokens 0 (k - 1) (f t)) :
    Ends tokens 1 pos ((advance tokens >>= f) pos) :=
  (ends_advance hlast h hne).bind fun t pos' hle hlt => (hf t pos' hlt (by omega)).mono (by omega)

theorem steps_advance : Steps tokens 0 k (advance tokens) := by
  intro pos hpos _
  have hget : tokens[pos]? = some tokens[pos] := List.getElem?_eq_getElem hpos
  by_cases heof : tokens[pos] = .eof
  · unfold advance isAtEnd
    rw [Eff.bind_ok (peekToken_eq hget), bind_assoc, Eff.bind_ok (peekToken_eq hget), pure_bind,
      decide_eq_true heof]
    exact ⟨Nat.le_refl _, hpos⟩
  · exact (ends_advance hlast hget heof).mono (Nat.le_succ _)

variable {expected : Token}

theorem steps_consume (msg : String) : Steps tokens 0 k (consume tokens expected msg) := by
  refine (steps_check _).next fun b => ?_
  split_ifs
  · exact steps_advance hlast
  · exact Steps.peek fun _ _ _ _ _ => trivial

theorem steps_advanceIf {token : Token} : Steps tokens 0 k (advanceIf tokens token) := by
  refine (steps_check _).next fun b => ?_
  split_ifs
  · exact (steps_advance hlast).next fun _ => steps_pure _
  · exact steps_pure _

theorem Steps.keyword {msg : String} {f : Token → Parse α} (hne : expected ≠ .eof)
    (hf : ∀ t, Steps tokens 0 k (f t)) :
    Steps tokens 1 (k + 1) (consume tokens expected msg >>= f) := by
  refine Steps.first (fun pos hpos hleft => ?_) hf
  have hget : tokens[pos]? = some tokens[pos] := List.getElem?_eq_getElem hpos
  unfold consume
  rw [Eff.bind_ok (check_eq hget)]
  split_ifs with hsame
  · refine ends_advance hlast hget fun heof => hne (eq_eof_of_ctorIdx ?_)
    rw [← heof]
    exact of_decide_eq_true hsame
  · rw [Eff.bind_ok (peekToken_eq hget)]
    trivial

theorem steps_parseIdent : Steps tokens 1 k (parseIdent tokens) := by
  refine Steps.peek fun t pos hget hpos hleft => ?_
  split
  · exact ends_advance_bind hlast hget nofun hleft fun _ => steps_pure _
  · trivial

theorem steps_parseIntLiteral : Steps tokens 1 k (parseIntLiteral tokens) := by
  refine Steps.peek fun t pos hget hpos hleft => ?_
  split
  · exact ends_advance_bind hlast hget nofun hleft fun _ => steps_pure _
  · trivial

theorem steps_elements {close : Token} {element : Parse α} (hfuel : k ≤ fuel)
    (helement : Steps tokens 1 k element) :
    Steps tokens 0 k (elements tokens close element fuel) := by
  induction fuel generalizing k with
  | zero =>
    intro pos hpos hleft
    omega
  | succ fuel ih =>
    cases k with
    | zero =>
      intro pos hpos hleft
      omega
    | succ k =>
      refine (steps_check _).next fun b => ?_
      split_ifs
      · exact steps_pure _
      · refine Steps.mono (helement.first fun a => (steps_check _).next fun b => ?_)
          (Nat.zero_le 1) (Nat.le_refl _)
        split_ifs
        · exact steps_pure _
        · refine (steps_consume hlast _).next fun _ => ?_
          exact (ih (Nat.le_of_succ_le_succ hfuel)
            (helement.mono (Nat.le_refl 1) (Nat.le_succ k))).next fun _ => steps_pure _

end

/-! ## one function after the other -/

/-- the functions that are called again pass a token wherever at most `k` are left -/
structure Good (tokens : List Token) (p : Parsers) (k : Nat) : Prop where
  fuel : k ≤ p.fuel
  parseType : Steps tokens 1 k p.parseType
  parseExpr : Steps tokens 1 k p.parseExpr
  parseUnaryExpr : Steps tokens 1 k p.parseUnaryExpr
  parseBlock : Steps tokens 1 k p.parseBlock
  parseIfStmt : Steps tokens 1 k p.parseIfStmt

theorem Good.mono {p : Parsers} {k k' : Nat} (good : Good tokens p k) (hk : k' ≤ k) :
    Good tokens p k' where
  fuel := Nat.le_trans hk good.fuel
  parseType := good.parseType.mono (Nat.le_refl 1) hk
  parseExpr := good.parseExpr.mono (Nat.le_refl 1) hk
  parseUnaryExpr := good.parseUnaryExpr.mono (Nat.le_refl 1) hk
  parseBlock := good.parseBlock.mono (Nat.le_refl 1) hk
  parseIfStmt := good.parseIfStmt.mono (Nat.le_refl 1) hk

theorem node_eq {a : α} {pos : Nat} (hpos : pos + 1 ≤ tokens.length) :
    node tokens a (pos + 1) = (.ok a, pos + 1) := by
  have hget : tokens[pos]? = some tokens[pos] := List.getElem?_eq_getElem hpos
  have hlastToken : lastToken tokens (pos + 1) = (.ok tokens[pos], pos + 1) := by
    unfold lastToken
    rw [Eff.get_bind]
    dsimp only
    rw [hget]
    rfl
  unfold node
  rw [Eff.bind_ok hlastToken]
  rfl

section
variable {p : Parsers} {k : Nat} (hlast : EndsWithEof tokens) (good : Good tokens p k)
  (hk : k < tokens.length)

include hk in
theorem steps_node (a : α) : Steps tokens 0 k (node tokens a) := by
  intro pos hpos hleft
  obtain ⟨pos, rfl⟩ := Nat.exists_eq_succ_of_ne_zero (show pos ≠ 0 by omega)
  rw [node_eq (Nat.le_of_lt hpos)]
  exact ⟨Nat.le_refl _, hpos⟩

include hlast good

theorem steps_moreTypes (hfuel : k ≤ fuel) : Steps tokens 0 k (moreTypes tokens p fuel) := by
  have htype := good.parseType
  clear good
  induction fuel generalizing k with
  | zero =>
    intro pos hpos hleft
    omega
  | succ fuel ih =>
    cases k with
    | zero =>
      intro pos hpos hleft
      omega
    | succ k =>
      refine (steps_advanceIf hlast).next fun b => ?_
      split_ifs
      · refine Steps.mono (htype.first fun _ => ?_) (Nat.zero_le 1) (Nat.le_refl _)
        exact ih (Nat.le_of_succ_le_succ hfuel) (htype.mono (Nat.le_refl 1) (Nat.le_succ k))
      · exact steps_pure _

variable (name : String) (expr : Expr) {ops : Token → Option BinOp} {operand : Parse Expr}

theorem steps_typeArguments : Steps tokens 0 k (typeArguments tokens p name) := by
  unfold typeArguments
  split_ifs
  · exact good.parseType.next fun _ => (steps_consume hlast _).next fun _ =>
      good.parseType.next fun _ => (steps_consume hlast _).next fun _ => steps_pure _
  · exact good.parseType.next fun _ => (steps_consume hlast _).next fun _ => steps_pure _
  · exact good.parseType.next fun _ => (steps_moreTypes hlast good good.fuel).next fun _ =>
      (steps_consume hlast _).next fun _ => steps_pure _

theorem steps_parseType : Steps tokens 1 (k + 1) (parseType tokens p) := by
  refine Steps.peek fun t pos hget hpos hleft => ?_
  cases hword : wordType t with
  | some ty =>
    exact ends_advance_bind hlast hget (by rintro rfl; cases hword) hleft fun _ => steps_pure _
  | none =>
    split
    · exact ends_advance_bind hlast hget nofun hleft fun _ =>
        (steps_consume hlast _).next fun _ => steps_pure _
    · refine ends_advance_bind hlast hget nofun hleft fun _ => good.parseType.next fun _ =>
        (steps_consume hlast _).next fun _ => (steps_parseIntLiteral hlast).next fun _ =>
          (steps_consume hlast _).next fun _ => steps_pure _
    · refine ends_advance_bind hlast hget nofun hleft fun _ =>
        (steps_advanceIf hlast).next fun b => ?_
      split_ifs
      · exact steps_typeArguments hlast good _
      · exact steps_pure _
    · trivial

/-! ## statements -/

theorem steps_letType : Steps tokens 0 k (letType tokens p) := by
  refine (steps_advanceIf hlast).next fun b => ?_
  split_ifs
  · exact good.parseType.next fun _ => steps_pure _
  · exact steps_pure _

omit hlast in
theorem steps_returnValue : Steps tokens 0 k (returnValue tokens p) := by
  refine (steps_check _).next fun b => (steps_check _).next fun b' => ?_
  split_ifs
  · exact steps_pure _
  · exact good.parseExpr.next fun _ => steps_pure _

include hk

theorem steps_parseLetStmt : Steps tokens 1 (k + 1) (parseLetStmt tokens p) :=
  Steps.keyword hlast nofun fun _ => (steps_advanceIf hlast).next fun _ =>
    (steps_parseIdent hlast).next fun _ => (steps_letType hlast good).next fun _ =>
      (steps_consume hlast _).next fun _ => good.parseExpr.next fun _ => steps_node hk _

theorem steps_parseReturnStmt : Steps tokens 1 (k + 1) (parseReturnStmt tokens p) :=
  Steps.keyword hlast nofun fun _ => (steps_returnValue good).next fun _ =>
    steps_node hk _

theorem steps_elseBlock : Steps tokens 0 k (elseBlock tokens p) := by
  refine (steps_advanceIf hlast).next fun b => ?_
  split_ifs
  · refine (steps_check _).next fun b' => ?_
    split_ifs
    · exact good.parseIfStmt.next fun _ => steps_node hk _
    · exact good.parseBlock.next fun _ => steps_pure _
  · exact steps_pure _

theorem steps_parseIfStmt : Steps tokens 1 (k + 1) (parseIfStmt tokens p) :=
  Steps.keyword hlast nofun fun _ => good.parseExpr.next fun _ =>
    good.parseBlock.next fun _ => (steps_elseBlock hlast good hk).next fun _ => steps_node hk _

variable {isUppercase : Char → Bool}

omit good hk in
theorem steps_parsePattern : Steps tokens 1 k (parsePattern tokens isUppercase) := by
  refine Steps.peek fun t pos hget hpos hleft => ?_
  cases hliteral : literalOf t with
  | some literal =>
    exact ends_advance_bind hlast hget (by rintro rfl; cases hliteral) hleft fun _ => steps_pure _
  | none =>
    split
    · exact ends_advance_bind hlast hget nofun hleft fun _ => steps_pure _
    · refine ends_advance_bind hlast hget nofun hleft fun _ =>
        (steps_advanceIf hlast).next fun b => ?_
      split_ifs
      · exact (steps_parseIdent hlast).next fun _ => steps_pure _
      · exact steps_pure _
      · exact steps_pure _
    · trivial

theorem steps_parseMatchArm : Steps tokens 1 k (parseMatchArm tokens p isUppercase) :=
  (steps_parsePattern hlast).last fun _ => (steps_consume hlast _).next fun _ =>
    good.parseExpr.next fun _ => steps_node hk _

theorem steps_parseMatchStmt : Steps tokens 1 (k + 1) (parseMatchStmt tokens p isUppercase) :=
  Steps.keyword hlast nofun fun _ => good.parseExpr.next fun _ =>
    (steps_consume hlast _).next fun _ =>
      (steps_elements hlast good.fuel (steps_parseMatchArm hlast good hk)).next fun _ =>
        (steps_consume hlast _).next fun _ => steps_node hk _

theorem steps_parseForStmt : Steps tokens 1 (k + 1) (parseForStmt tokens p) :=
  Steps.keyword hlast nofun fun _ => (steps_parseIdent hlast).next fun _ =>
    (steps_consume hlast _).next fun _ => good.parseExpr.next fun _ =>
      (steps_consume hlast _).next fun _ => good.parseExpr.next fun _ =>
        good.parseBlock.next fun _ => steps_node hk _

theorem steps_parseWhileStmt : Steps tokens 1 (k + 1) (parseWhileStmt tokens p) :=
  Steps.keyword hlast nofun fun _ => good.parseExpr.next fun _ =>
    good.parseBlock.next fun _ => steps_node hk _

omit good hk hlast in
theorem steps_exprToAssignTarget : Steps tokens 0 k (Eff.lift (exprToAssignTarget expr)) := by
  have hends (expr : Expr) : (∃ target, exprToAssignTarget expr = .ok target) ∨
      ∃ e, exprToAssignTarget expr = .error e := by
    fun_induction exprToAssignTarget expr with
    | case1 name => exact .inl ⟨_, rfl⟩
    | case2 expr field ih =>
      rcases ih with ⟨target, h⟩ | ⟨e, h⟩ <;> rw [h]
      · exact .inl ⟨_, rfl⟩
      · exact .inr ⟨_, rfl⟩
    | case3 expr index ih =>
      rcases ih with ⟨target, h⟩ | ⟨e, h⟩ <;> rw [h]
      · exact .inl ⟨_, rfl⟩
      · exact .inr ⟨_, rfl⟩
    | case4 => exact .inr ⟨_, rfl⟩
  intro pos hpos _
  rcases hends expr with ⟨target, h⟩ | ⟨e, h⟩ <;> rw [h]
  · exact ⟨Nat.le_refl _, hpos⟩
  · trivial

theorem steps_parseExprOrAssignStmt : Steps tokens 1 k (parseExprOrAssignStmt tokens p) := by
  refine good.parseExpr.last fun expr => (steps_advanceIf hlast).next fun b => ?_
  split_ifs
  · exact good.parseExpr.next fun _ => (steps_exprToAssignTarget expr).next fun _ =>
      steps_node hk _
  · exact steps_node hk _

theorem steps_parseStmt : Steps tokens 1 k (parseStmt tokens p isUppercase) := by
  refine Steps.peek fun t pos _ hpos hleft => ?_
  split
  · exact steps_parseLetStmt hlast good hk pos hpos (Nat.le_succ_of_le hleft)
  · exact steps_parseReturnStmt hlast good hk pos hpos (Nat.le_succ_of_le hleft)
  · exact steps_parseIfStmt hlast good hk pos hpos (Nat.le_succ_of_le hleft)
  · exact steps_parseMatchStmt hlast good hk pos hpos (Nat.le_succ_of_le hleft)
  · exact steps_parseForStmt hlast good hk pos hpos (Nat.le_succ_of_le hleft)
  · exact steps_parseWhileStmt hlast good hk pos hpos (Nat.le_succ_of_le hleft)
  · exact steps_parseExprOrAssignStmt hlast good hk pos hpos hleft

omit hlast good hk in
theorem steps_statements (hfuel : k ≤ fuel)
    (hstmt : Steps tokens 1 k (parseStmt tokens p isUppercase)) :
    Steps tokens 0 k (statements tokens p isUppercase fuel) := by
  induction fuel generalizing k with
  | zero =>
    intro pos hpos hleft
    omega
  | succ fuel ih =>
    cases k with
    | zero =>
      intro pos hpos hleft
      omega
    | succ k =>
      refine (steps_check _).next fun b => ?_
      split_ifs
      · exact steps_pure _
      · refine Steps.mono (hstmt.first fun _ => ?_) (Nat.zero_le 1) (Nat.le_refl _)
        exact (ih (Nat.le_of_succ_le_succ hfuel)
          (hstmt.mono (Nat.le_refl 1) (Nat.le_succ k))).next fun _ => steps_pure _

theorem steps_parseBlock : Steps tokens 1 (k + 1) (parseBlock tokens p isUppercase) :=
  Steps.keyword hlast nofun fun _ =>
    (steps_statements good.fuel (steps_parseStmt hlast good hk)).next fun _ =>
      (steps_consume hlast _).next fun _ => steps_node hk _

/-! ## expressions -/

omit hlast good in
theorem steps_binaryLoop (hlast : EndsWithEof tokens) (hops : ops .eof = none) (hfuel : k ≤ fuel)
    (hoperand : Steps tokens 1 k operand) (left : Expr) :
    Steps tokens 0 k (binaryLoop tokens ops operand fuel left) := by
  induction fuel generalizing k left with
  | zero =>
    intro pos hpos hleft
    omega
  | succ fuel ih =>
    refine Steps.peek fun t pos hget hpos hleft => ?_
    cases hop : ops t with
    | some op =>
      have hne : t ≠ .eof := by
        rintro rfl
        rw [hops] at hop
        cases hop
      refine (ends_advance_bind hlast hget hne hleft fun _ => ?_).mono (Nat.le_succ _)
      have hless : Steps tokens 1 (k - 1) operand := hoperand.mono (Nat.le_refl 1) (Nat.sub_le _ _)
      refine hless.next fun right => (steps_node (by omega) _).next fun expr => ?_
      exact ih (by omega) (by omega) hless expr
    | none => exact ⟨Nat.le_refl _, hpos⟩

omit hk in
theorem steps_binaryLevel (hops : ops .eof = none) (hk : k < tokens.length)
    (hoperand : Steps tokens 1 (k + 1) operand) :
    Steps tokens 1 (k + 1) (binaryLevel tokens p ops operand) :=
  hoperand.first fun left => steps_binaryLoop hk hlast hops good.fuel
    (hoperand.mono (Nat.le_refl 1) (Nat.le_succ k)) left

omit hk in
theorem steps_parseCallArgs : Steps tokens 0 k (parseCallArgs tokens p) :=
  steps_elements hlast good.fuel good.parseExpr

omit hk in
theorem steps_fieldInit : Steps tokens 1 k (fieldInit tokens p) :=
  (steps_parseIdent hlast).last fun _ => (steps_consume hlast _).next fun _ =>
    good.parseExpr.next fun _ => steps_pure _

omit hlast good hk in
theorem steps_looksLikeStructInit : Steps tokens 0 k (looksLikeStructInit tokens) := by
  intro pos hpos _
  have hahead (n : Nat) : peekAhead tokens n pos = (.ok tokens[pos + n]?, pos) := rfl
  unfold looksLikeStructInit
  rw [Eff.bind_ok (hahead 1)]
  generalize tokens[pos + 1]? = next
  split
  · exact ⟨Nat.le_refl _, hpos⟩
  · rw [Eff.bind_ok (hahead 2)]
    generalize tokens[pos + 2]? = next
    split <;> exact ⟨Nat.le_refl _, hpos⟩
  · exact ⟨Nat.le_refl _, hpos⟩

theorem steps_structInit : Steps tokens 0 k (structInit tokens p name) := by
  have hfield : Steps tokens 1 k (fieldInit tokens p) := steps_fieldInit hlast good
  have hfields : Steps tokens 0 k (elements tokens .rBrace (fieldInit tokens p) p.fuel) :=
    steps_elements hlast good.fuel hfield
  exact (steps_advance hlast).next fun _ => hfields.next fun _ =>
    (steps_consume hlast _).next fun _ => steps_node hk _

theorem steps_afterIdent : Steps tokens 0 k (afterIdent tokens p name) := by
  refine (steps_check _).next fun b => steps_looksLikeStructInit.next fun b' => ?_
  split_ifs
  · exact steps_structInit hlast good hk name
  · refine (steps_advanceIf hlast).next fun b => ?_
    split_ifs
    · exact (steps_parseCallArgs hlast good).next fun _ => (steps_consume hlast _).next fun _ =>
        steps_node hk _
    · refine (steps_advanceIf hlast).next fun b => ?_
      split_ifs
      · exact (steps_parseIdent hlast).next fun _ => steps_node hk _
      · exact steps_pure _

theorem steps_parenthesized : Steps tokens 0 k (parenthesized tokens p) := by
  refine (steps_advanceIf hlast).next fun b => ?_
  split_ifs
  · exact steps_node hk _
  · exact good.parseExpr.next fun _ => (steps_consume hlast _).next fun _ => steps_pure _

theorem steps_arrayInit : Steps tokens 0 k (arrayInit tokens p) :=
  (steps_elements hlast good.fuel good.parseExpr).next fun _ =>
    (steps_consume hlast _).next fun _ => steps_node hk _

theorem steps_ifExpr : Steps tokens 0 k (ifExpr tokens p) :=
  good.parseExpr.next fun _ => (steps_consume hlast _).next fun _ =>
    good.parseExpr.next fun _ => (steps_consume hlast _).next fun _ =>
      (steps_consume hlast _).next fun _ => (steps_consume hlast _).next fun _ =>
        good.parseExpr.next fun _ => (steps_consume hlast _).next fun _ => steps_node hk _

theorem steps_parsePrimaryExpr : Steps tokens 1 (k + 1) (parsePrimaryExpr tokens p isUppercase) := by
  refine Steps.peek fun t pos hget hpos hleft => ?_
  cases hliteral : literalOf t with
  | some literal =>
    exact ends_advance_bind hlast hget (by rintro rfl; cases hliteral) hleft fun _ => steps_pure _
  | none =>
    split
    · exact ends_advance_bind hlast hget nofun hleft fun _ => steps_afterIdent hlast good hk _
    · exact ends_advance_bind hlast hget nofun hleft fun _ => steps_parenthesized hlast good hk
    · exact ends_advance_bind hlast hget nofun hleft fun _ => steps_arrayInit hlast good hk
    · exact ends_advance_bind hlast hget nofun hleft fun _ => steps_ifExpr hlast good hk
    · exact (steps_parseBlock hlast good hk).first (fun _ => steps_node hk _) pos hpos hleft
    · trivial

theorem steps_afterDot : Steps tokens 1 k (afterDot tokens p expr) := by
  refine (steps_parseIdent hlast).last fun field => (steps_advanceIf hlast).next fun b => ?_
  split_ifs
  · exact (steps_parseCallArgs hlast good).next fun _ => (steps_consume hlast _).next fun _ =>
      steps_node hk _
  · exact steps_node hk _

theorem steps_afterBracket : Steps tokens 1 k (afterBracket tokens p expr) :=
  good.parseExpr.last fun _ => (steps_consume hlast _).next fun _ => steps_node hk _

omit hlast in
theorem steps_postfixLoop (hlast : EndsWithEof tokens) (hfuel : k ≤ fuel) (expr : Expr) :
    Steps tokens 0 k (postfixLoop tokens p fuel expr) := by
  induction fuel generalizing k expr with
  | zero =>
    intro pos hpos hleft
    omega
  | succ fuel ih =>
    have good' := good.mono (Nat.sub_le k 1)
    have hk' : k - 1 < tokens.length := Nat.lt_of_le_of_lt (Nat.sub_le k 1) hk
    have hrest (expr : Expr) : Steps tokens 0 (k - 1) (postfixLoop tokens p fuel expr) :=
      ih good' hk' (by omega) expr
    refine Steps.peek fun t pos hget hpos hleft => ?_
    split
    · refine Ends.mono (ends_advance_bind hlast hget nofun hleft fun _ => ?_) (Nat.le_succ pos)
      exact (steps_afterDot hlast good' hk' expr).next hrest
    · refine Ends.mono (ends_advance_bind hlast hget nofun hleft fun _ => ?_) (Nat.le_succ pos)
      exact (steps_afterBracket hlast good' hk' expr).next hrest
    · exact ⟨Nat.le_refl _, hpos⟩

omit hlast in
theorem steps_castLoop (hlast : EndsWithEof tokens) (hfuel : k ≤ fuel) (expr : Expr) :
    Steps tokens 0 k (castLoop tokens p fuel expr) := by
  induction fuel generalizing k expr with
  | zero =>
    intro pos hpos hleft
    omega
  | succ fuel ih =>
    cases k with
    | zero =>
      intro pos hpos hleft
      omega
    | succ k =>
      have hk' : k < tokens.length := Nat.lt_of_succ_lt hk
      refine (steps_advanceIf hlast).next fun b => ?_
      split_ifs
      · refine Steps.mono (good.parseType.first fun ty => ?_) (Nat.zero_le 1) (Nat.le_refl _)
        exact (steps_node hk' _).next fun expr =>
          ih (good.mono (Nat.le_succ k)) hk' (Nat.le_of_succ_le_succ hfuel) expr
      · exact steps_pure _

theorem steps_parseCastExpr : Steps tokens 1 (k + 1) (parseCastExpr tokens p isUppercase) := by
  refine Steps.first ?_ fun expr => steps_castLoop good hk hlast good.fuel expr
  exact (steps_parsePrimaryExpr hlast good hk).first fun expr =>
    steps_postfixLoop good hk hlast good.fuel expr

theorem steps_parseUnaryExpr : Steps tokens 1 (k + 1) (parseUnaryExpr tokens p isUppercase) := by
  refine Steps.peek fun t pos hget hpos hleft => ?_
  cases hop : unaryOp t with
  | some op =>
    exact ends_advance_bind hlast hget (by rintro rfl; cases hop) hleft fun _ =>
      good.parseUnaryExpr.next fun _ => steps_node hk _
  | none => exact steps_parseCastExpr hlast good hk pos hpos hleft

theorem steps_parseExpr : Steps tokens 1 (k + 1) (parseExpr tokens p isUppercase) := by
  have level {ops : Token → Option BinOp} {operand : Parse Expr} (hops : ops .eof = none)
      (hoperand : Steps tokens 1 (k + 1) operand) :
      Steps tokens 1 (k + 1) (binaryLevel tokens p ops operand) :=
    steps_binaryLevel hlast good hops hk hoperand
  exact level rfl (level rfl (level rfl (level rfl (level rfl (level rfl (level rfl (level rfl
    (level rfl (level rfl (steps_parseUnaryExpr hlast good hk))))))))))

/-! ## items -/

omit hk hlast in
theorem steps_params (hlast : EndsWithEof tokens) (hk : k < tokens.length) (hfuel : k ≤ fuel)
    (first : Bool) : Steps tokens 0 k (params tokens p fuel first) := by
  induction fuel generalizing k first with
  | zero =>
    intro pos hpos hleft
    omega
  | succ fuel ih =>
    cases k with
    | zero =>
      intro pos hpos hleft
      omega
    | succ k =>
      have hk' : k < tokens.length := Nat.lt_of_succ_lt hk
      have hcomma : Steps tokens 0 (k + 1) (commaUnless tokens first) := by
        unfold commaUnless
        split_ifs
        · exact steps_pure _
        · exact (steps_consume hlast _).next fun _ => steps_pure _
      have hparam : Steps tokens 1 (k + 1) (parseParam tokens p) :=
        (steps_parseIdent hlast).last fun _ => (steps_consume hlast _).next fun _ =>
          good.parseType.next fun _ => steps_node hk _
      refine (steps_check _).next fun b => ?_
      split_ifs
      · exact steps_pure _
      · refine hcomma.next fun _ => (steps_check _).next fun b => ?_
        split_ifs
        · exact steps_pure _
        · refine Steps.mono (hparam.first fun _ => ?_) (Nat.zero_le 1) (Nat.le_refl _)
          exact (ih (good.mono (Nat.le_succ k)) hk' (Nat.le_of_succ_le_succ hfuel) false).next
            fun _ => steps_pure _

omit hk in
theorem steps_returnType : Steps tokens 0 k (returnType tokens p) := by
  refine (steps_advanceIf hlast).next fun b => ?_
  split_ifs
  · exact good.parseType.next fun _ => steps_pure _
  · exact steps_pure _

theorem steps_parseFnDef : Steps tokens 1 (k + 1) (parseFnDef tokens p) :=
  Steps.keyword hlast nofun fun _ => (steps_parseIdent hlast).next fun _ =>
    (steps_consume hlast _).next fun _ => (steps_params good hlast hk good.fuel true).next fun _ =>
      (steps_consume hlast _).next fun _ => (steps_returnType hlast good).next fun _ =>
        good.parseBlock.next fun _ => steps_node hk _

theorem steps_parseStructDef : Steps tokens 1 (k + 1) (parseStructDef tokens p) := by
  have hfield : Steps tokens 1 k (parseStructField tokens p) :=
    (steps_parseIdent hlast).last fun _ => (steps_consume hlast _).next fun _ =>
      good.parseType.next fun _ => steps_node hk _
  exact Steps.keyword hlast nofun fun _ => (steps_parseIdent hlast).next fun _ =>
    (steps_consume hlast _).next fun _ => (steps_elements hlast good.fuel hfield).next fun _ =>
      (steps_consume hlast _).next fun _ => steps_node hk _

theorem steps_parseEnumDef : Steps tokens 1 (k + 1) (parseEnumDef tokens p) :=
  Steps.keyword hlast nofun fun _ => (steps_parseIdent hlast).next fun _ =>
    (steps_consume hlast _).next fun _ =>
      (steps_elements hlast good.fuel (steps_parseIdent hlast)).next fun _ =>
        (steps_consume hlast _).next fun _ => steps_node hk _

theorem steps_parseConstDef : Steps tokens 1 (k + 1) (parseConstDef tokens p) :=
  Steps.keyword hlast nofun fun _ => (steps_parseIdent hlast).next fun _ =>
    (steps_consume hlast _).next fun _ => good.parseType.next fun _ =>
      (steps_consume hlast _).next fun _ => good.parseExpr.next fun _ => steps_node hk _

theorem steps_parseItem : Steps tokens 1 (k + 1) (parseItem tokens p) := by
  refine Steps.peek fun t pos _ hpos hleft => ?_
  split
  · exact (steps_parseFnDef hlast good hk).first (fun _ => steps_pure _) pos hpos hleft
  · exact (steps_parseStructDef hlast good hk).first (fun _ => steps_pure _) pos hpos hleft
  · exact (steps_parseEnumDef hlast good hk).first (fun _ => steps_pure _) pos hpos hleft
  · exact (steps_parseConstDef hlast good hk).first (fun _ => steps_pure _) pos hpos hleft
  · trivial

end

/-! ## all functions -/

variable {isUppercase : Char → Bool}

/-- **Every function passes a token or fails.** -/
theorem good_parsers (hlast : EndsWithEof tokens) {n k : Nat} (hn : k ≤ n) (hk : k ≤ tokens.length) :
    Good tokens (parsers isUppercase tokens n) k := by
  induction n generalizing k with
  | zero =>
    have hnever {α : Type} (m : Parse α) : Steps tokens 1 k m := fun pos hpos hleft => by omega
    exact ⟨hn, hnever _, hnever _, hnever _, hnever _, hnever _⟩
  | succ n ih =>
    cases k with
    | zero =>
      have hnever {α : Type} (m : Parse α) : Steps tokens 1 0 m := fun pos hpos hleft => by omega
      exact ⟨hn, hnever _, hnever _, hnever _, hnever _, hnever _⟩
    | succ k =>
      have good := ih (Nat.le_of_succ_le_succ hn) (Nat.le_of_succ_le hk)
      exact ⟨hn, steps_parseType hlast good, steps_parseExpr hlast good hk,
        steps_parseUnaryExpr hlast good hk, steps_parseBlock hlast good hk,
        steps_parseIfStmt hlast good hk⟩

theorem steps_items (hlast : EndsWithEof tokens) {p : Parsers} {n k : Nat}
    (hp : ∀ k, k < n → k < tokens.length → Good tokens p k) (hn : k ≤ n) (hk : k ≤ tokens.length)
    (hfuel : k ≤ fuel) : Steps tokens 0 k (items tokens p fuel) := by
  induction fuel generalizing k with
  | zero =>
    intro pos hpos hleft
    omega
  | succ fuel ih =>
    cases k with
    | zero =>
      intro pos hpos hleft
      omega
    | succ k =>
      refine steps_isAtEnd.next fun b => ?_
      split_ifs
      · exact steps_pure _
      · have hitem := steps_parseItem hlast (hp k hn hk) hk
        refine Steps.mono (hitem.first fun _ => ?_) (Nat.zero_le 1) (Nat.le_refl _)
        exact (ih (Nat.le_of_succ_le hn) (Nat.le_of_succ_le hk)
          (Nat.le_of_succ_le_succ hfuel)).next fun _ => steps_pure _

/-- **A program or an error.**  The parser ends on every vector that ends with the end of the text. -/
theorem parseProgram_ends (hlast : EndsWithEof tokens) (hfuel : tokens.length ≤ fuel) :
    (∃ program, parseProgram isUppercase tokens fuel = .ok program) ∨
      ∃ e, parseProgram isUppercase tokens fuel = .error e := by
  have hpos : 0 < tokens.length := by
    refine List.length_pos_iff.mpr ?_
    rintro rfl
    cases hlast
  have hends := steps_items hlast (p := parsers isUppercase tokens fuel)
    (fun k hk hlt => good_parsers hlast (Nat.le_of_lt (Nat.lt_of_lt_of_le hk hfuel)) (Nat.le_of_lt hlt))
    (Nat.le_refl _) (Nat.le_refl _) hfuel 0 hpos (Nat.le_refl _)
  unfold parseProgram
  generalize items tokens (parsers isUppercase tokens fuel) fuel 0 = out at hends
  obtain ⟨_ | _ | _ | _, _⟩ := out
  · exact .inl ⟨_, rfl⟩
  · exact .inr ⟨_, rfl⟩
  · exact hends.elim
  · exact hends.elim

end Parser
end Ekkl
end EkKor
