import Slate.Proofs.Grammar.Levels
import Slate.Proofs.Grammar.StatementReads

/-!
# What is read is derivable

Whatever the readers answer with is derived, up to spans, from exactly the tokens
that they take off the front, and every number among these tokens fits.

In the loop over infix operators the phrase that has been read so far is of some
level, and the operator that comes next stays below the bound of that level.
This is the invariant: it lets the phrase stand to the left of the operator, and
it holds again afterwards because the right operand has taken everything that
binds more strongly.
-/

namespace Slate

/-- The expression of a single token is derived from that token. -/
theorem atom_derivable {t : Token} {e : Expr} (h : readAtom t = .ok e) :
    DerivesExpr .primary [t] e.spanless ∧ NumbersFit [t] := by
  obtain ⟨kind, text, span⟩ := t
  simp only [readAtom] at h
  split at h
  · split at h
    · next hfits =>
      cases h
      exact ⟨.number rfl, by simpa using hfits⟩
    · cases h
  · cases h
    exact ⟨.string rfl, by simp⟩
  · split at h
    · next htext =>
      cases h
      exact ⟨.truth (by simp [Token.isKeyword, htext]), by simp⟩
    · split at h
      · next htext =>
        cases h
        exact ⟨.falsity (by simp [Token.isKeyword, htext]), by simp⟩
      · cases h
  · cases h
    exact ⟨.var rfl, by simp⟩
  · cases h

/-- An infix operator is no number. -/
theorem InfixOp.Signs.kind_ne {op : InfixOp} {t : Token} (h : op.Signs t) : t.kind ≠ .number := by
  cases op with
  | assign => rw [show t.kind = .assign from h]; decide
  | binary op => rw [h.1]; decide

/-- No infix operator binds as strongly as a prefix operator. -/
theorem endsInfixes_bound_unary (ts : List Token) : EndsInfixes Level.unary.bound ts := by
  cases ts with
  | nil => trivial
  | cons t ts =>
      intro op _
      match op with
      | .assign => decide
      | .binary op => cases op <;> decide

mutual

/-- What is read with a least power is a phrase of the level of that power. -/
theorem expression_derivable {least : Nat} {ts rest : List Token} {e : Expr}
    (h : Reads (readExpression least ts) e rest) :
    ∃ used, ts = used ++ rest ∧ DerivesExpr (.ofPower least) used e.spanless ∧
      NumbersFit used ∧ EndsInfixes least rest := by
  obtain ⟨left, middle, hleft, hinfixes⟩ := reads_expression.1 h
  have hshorter : middle.length < ts.length := hleft.left
  obtain ⟨before, rfl, hbefore, hfit⟩ := operand_derivable hleft
  obtain ⟨used, rfl, hused, hfit', hends⟩ := infixes_derivable hbefore
    (endsInfixes_bound_unary middle) (Level.rank_ofPower_le_unary least) hinfixes
  exact ⟨before ++ used, by simp, hused, by simp [hfit, hfit'], hends⟩
termination_by 3 * ts.length + 1

/-- Going on from a phrase reads a phrase of the level of the least power. -/
theorem infixes_derivable {least : Nat} {level : Level} {before ts rest : List Token} {l e : Expr}
    (hl : DerivesExpr level before l.spanless) (hends : EndsInfixes level.bound ts)
    (hle : (Level.ofPower least).rank ≤ level.rank) (h : Reads (readInfixes least l ts) e rest) :
    ∃ used, ts = used ++ rest ∧ DerivesExpr (.ofPower least) (before ++ used) e.spanless ∧
      NumbersFit used ∧ EndsInfixes least rest := by
  by_cases hstop : EndsInfixes least ts
  · obtain ⟨rfl, rfl⟩ := (reads_infixes_of_ends hstop).1 h
    exact ⟨[], rfl, by simpa using hl.weaken hle, numbersFit_nil, hstop⟩
  · cases ts with
    | nil => exact absurd trivial hstop
    | cons t ts =>
        obtain ⟨op, hop, hpower⟩ := exists_signs_of_not_ends hstop
        obtain ⟨right, middle, hright, hmore⟩ := (reads_infixes_of_le hop hpower).1 h
        have hshorter : middle.length < ts.length := hright.left
        obtain ⟨us, rfl, hus, hfit, hnext⟩ := expression_derivable hright
        have htree : DerivesExpr op.level (before ++ t :: us) (op.tree l right).spanless := by
          rw [InfixOp.ofPower_rightPower] at hus
          exact .joined (hl.weaken (InfixOp.rank_leftLevel_le (hends op hop))) hop hus
        obtain ⟨used, rfl, hused, hfit', hends'⟩ := infixes_derivable htree
          (by rw [InfixOp.bound_level]; exact hnext) (InfixOp.rank_ofPower_le hpower) hmore
        exact ⟨t :: (us ++ used), by simp, by simpa using hused,
          by simp [hop.kind_ne, hfit, hfit'], hends'⟩
termination_by 3 * ts.length

/-- What no infix operator splits is a phrase with prefix operators. -/
theorem operand_derivable {ts rest : List Token} {e : Expr} (h : Reads (readOperand ts) e rest) :
    ∃ used, ts = used ++ rest ∧ DerivesExpr .unary used e.spanless ∧ NumbersFit used := by
  cases ts with
  | nil => exact (not_reads_operand_nil h).elim
  | cons t ts =>
      by_cases ho : t.kind = .operator
      · obtain ⟨op, operand, ht, hoperand, rfl⟩ := (reads_operand_of_operator ho).1 h
        obtain ⟨used, rfl, hused, hfit, _⟩ := expression_derivable hoperand
        exact ⟨t :: used, rfl, .unary ⟨ho, ht⟩ hused, by simp [ho, hfit]⟩
      · by_cases hp : t.kind = .leftParen
        · obtain ⟨closing, hinner, hc⟩ := (reads_operand_of_paren hp).1 h
          obtain ⟨used, rfl, hused, hfit, _⟩ := expression_derivable hinner
          exact ⟨t :: (used ++ [closing]), by simp, .next (by decide) (.parens hp hused hc),
            by simp [hp, hc, hfit]⟩
        · by_cases hcall : t.kind = .identifier ∧ startsWith .leftParen ts = true
          · obtain ⟨hk, hs⟩ := hcall
            cases ts with
            | nil => cases hs
            | cons paren ts =>
                have hparen : paren.kind = .leftParen := kind_of_startsWith hs
                obtain ⟨args, close, hargs, rfl⟩ := (reads_operand_of_call hk hparen).1 h
                obtain ⟨used, rfl, hused, hfit⟩ := call_derivable hk hparen hargs
                exact ⟨_, by simp, .next (by decide) hused, by simp [hk, hparen, hfit]⟩
          · obtain ⟨hatom, rfl⟩ := (reads_operand_of_atom ho hp (by simpa using hcall)).1 h
            obtain ⟨hused, hfit⟩ := atom_derivable hatom
            exact ⟨[t], rfl, .next (by decide) hused, hfit⟩
termination_by 3 * ts.length

/-- What is read behind a name and an opening parenthesis makes a call. -/
theorem call_derivable {name opening : Token} {ts rest : List Token} {es : List Expr} {close : Span}
    (hk : name.kind = .identifier) (ho : opening.kind = .leftParen)
    (h : Reads (readArguments ts) (es, close) rest) :
    ∃ used, ts = used ++ rest ∧ DerivesExpr .primary (name :: opening :: used)
      (.call .bare name.text (spanlessArguments es)) ∧ NumbersFit used := by
  cases hs : startsWith .rightParen ts with
  | true =>
      cases ts with
      | nil => cases hs
      | cons closing ts =>
          have hc : closing.kind = .rightParen := kind_of_startsWith hs
          obtain ⟨rfl, rfl, rfl⟩ := (reads_arguments_of_close hc).1 h
          exact ⟨[closing], rfl, .callNone hk ho hc, by simp [hc]⟩
  | false =>
      obtain ⟨used, closing, rfl, hc, hused, hfit⟩ :=
        arguments_derivable ((reads_arguments_of_ne hs).1 h)
      exact ⟨used ++ [closing], by simp, .call hk ho hused hc, by simp [hc, hfit]⟩
termination_by 3 * ts.length + 3

/-- Arguments are derived from the tokens before the parenthesis that closes them. -/
theorem arguments_derivable {ts rest : List Token} {es : List Expr} {close : Span}
    (h : Reads (readMoreArguments ts) (es, close) rest) :
    ∃ used closing, ts = used ++ closing :: rest ∧ closing.kind = .rightParen ∧
      DerivesArguments used (spanlessArguments es) ∧ NumbersFit used := by
  obtain ⟨e, t, middle, he, hmore⟩ := reads_moreArguments.1 h
  have hshorter : (t :: middle).length < ts.length := he.left
  have hmiddle : middle.length < ts.length := Nat.lt_of_succ_lt hshorter
  obtain ⟨used, rfl, hused, hfit, _⟩ := expression_derivable he
  rcases hmore with ⟨ht, others, hothers, rfl⟩ | ⟨ht, rfl, rfl, rfl⟩
  · obtain ⟨more, closing, rfl, hc, hmore, hfit'⟩ := arguments_derivable hothers
    exact ⟨used ++ t :: more, closing, by simp, hc, .more hused ht hmore,
      by simp [ht, hfit, hfit']⟩
  · exact ⟨used, t, rfl, ht, .one hused, hfit⟩
termination_by 3 * ts.length + 2

end

/-! ## Declarations -/

theorem type_derivable {ts rest : List Token} {type : Ty} {span : Span}
    (h : Reads (readType ts) (type, span) rest) :
    ∃ used, ts = used ++ rest ∧ DerivesType used type ∧ NumbersFit used := by
  obtain ⟨name, rfl, hk, _, rfl, _⟩ := reads_type.1 h
  exact ⟨[name], rfl, .name hk, by simp [hk]⟩

theorem var_derivable {ts rest : List Token} {v : Var} {span : Span}
    (h : Reads (readVar ts) (v, span) rest) :
    ∃ used, ts = used ++ rest ∧ DerivesVar used v ∧ NumbersFit used := by
  obtain ⟨name, colon, middle, _, type, rfl, hk, hc, htype, rfl, _⟩ := reads_var.1 h
  obtain ⟨used, rfl, hused, hfit⟩ := type_derivable htype
  exact ⟨name :: colon :: used, rfl, .typed hk hc hused, by simp [hk, hc, hfit]⟩

theorem condition_derivable {ts rest : List Token} {e : Expr}
    (h : Reads (readCondition ts) e rest) :
    ∃ used, ts = used ++ rest ∧ DerivesCondition used e.spanless ∧ NumbersFit used := by
  obtain ⟨opening, middle, closing, rfl, ho, he, hc⟩ := reads_condition.1 h
  obtain ⟨used, rfl, hused, hfit, _⟩ := expression_derivable he
  exact ⟨opening :: (used ++ [closing]), by simp, .parens ho hused hc, by simp [ho, hc, hfit]⟩

/-- A declaration with its semicolon makes a statement behind the keyword. -/
theorem declaration_derivable {t semicolon : Token} {ts rest : List Token} {e : Expr}
    (hword : t.isKeyword "var") (hends : semicolon.kind = .semicolon)
    (h : Reads (readDeclaration ts) e (semicolon :: rest)) :
    ∃ used, t :: ts = used ++ rest ∧ DerivesStmt used (.expression .nowhere e.spanless) ∧
      NumbersFit used := by
  have hk := kind_of_isKeyword hword
  obtain ⟨v, span, middle, hv, hmore⟩ := reads_declaration.1 h
  obtain ⟨vs, rfl, hvs, hfit⟩ := var_derivable hv
  rcases hmore with ⟨_, rfl, rfl⟩ | ⟨sign, after, value, rfl, hsign, hvalue, rfl⟩
  · exact ⟨t :: (vs ++ [semicolon]), by simp, .declare hword hvs hends, by simp [hk, hends, hfit]⟩
  · obtain ⟨es, rfl, hes, hfit', _⟩ := expression_derivable hvalue
    exact ⟨t :: (vs ++ sign :: (es ++ [semicolon])), by simp,
      .declareValue hword hvs hsign hes hends, by simp [hk, hsign, hends, hfit, hfit']⟩

/-! ## Statements -/

mutual

/-- A statement is derived from the tokens that it takes. -/
theorem statement_derivable {ts rest : List Token} {s : Stmt}
    (h : Reads (readStatement ts) s rest) :
    ∃ used, ts = used ++ rest ∧ DerivesStmt used s.spanless ∧ NumbersFit used := by
  cases ts with
  | nil => exact (not_reads_statement_nil h).elim
  | cons t ts =>
      by_cases hret : t.isKeyword "return" = true
      · obtain ⟨value, middle, span, hvalue, hend, rfl⟩ := (reads_statement_of_return hret).1 h
        obtain ⟨semicolon, rfl, hk, _⟩ := reads_end.1 hend
        cases hs : startsWith .semicolon ts with
        | true =>
            obtain ⟨rfl, hts⟩ := (reads_returnValue_of_semicolon hs).1 hvalue
            exact ⟨[t, semicolon], by rw [← hts]; rfl, .ret hret hk,
              by simp [kind_of_isKeyword hret, hk]⟩
        | false =>
            obtain ⟨e, he, rfl⟩ := (reads_returnValue_of_value hs).1 hvalue
            obtain ⟨used, rfl, hused, hfit, _⟩ := expression_derivable he
            exact ⟨t :: (used ++ [semicolon]), by simp, .retValue hret hused hk,
              by simp [kind_of_isKeyword hret, hk, hfit]⟩
      · by_cases hif : t.isKeyword "if" = true
        · obtain ⟨used, rfl, hused, hfit⟩ := if_derivable hif ((reads_statement_of_if hif).1 h)
          exact ⟨t :: used, rfl, .branch hused, by simp [kind_of_isKeyword hif, hfit]⟩
        · by_cases hwhile : t.isKeyword "while" = true
          · obtain ⟨c, middle, body, close, hc, hbody, rfl⟩ := (reads_statement_of_while hwhile).1 h
            have hshorter : middle.length < ts.length := hc.left
            obtain ⟨cs, rfl, hcs, hfit⟩ := condition_derivable hc
            obtain ⟨bs, rfl, hbs, hfit'⟩ := block_derivable hbody
            exact ⟨t :: (cs ++ bs), by simp, .loop hwhile hcs hbs,
              by simp [kind_of_isKeyword hwhile, hfit, hfit']⟩
          · by_cases hvar : t.isKeyword "var" = true
            · obtain ⟨e, middle, span, he, hend, rfl⟩ := (reads_statement_of_var hvar).1 h
              obtain ⟨semicolon, rfl, hk, _⟩ := reads_end.1 hend
              exact declaration_derivable hvar hk he
            · obtain ⟨e, middle, span, he, hend, rfl⟩ := (reads_statement_of_expression
                (by simp [statementWords, hret, hif, hwhile, hvar])).1 h
              obtain ⟨semicolon, rfl, hk, _⟩ := reads_end.1 hend
              obtain ⟨used, hts, hused, hfit, _⟩ := expression_derivable he
              exact ⟨used ++ [semicolon], by simp [hts], .expression hused hk, by simp [hk, hfit]⟩
termination_by 2 * ts.length

/-- What is read behind the keyword makes a conditional. -/
theorem if_derivable {t : Token} {start : Span} {ts rest : List Token} {s : Stmt}
    (hword : t.isKeyword "if") (h : Reads (readIf start ts) s rest) :
    ∃ used, ts = used ++ rest ∧ DerivesIf (t :: used) s.spanless ∧ NumbersFit used := by
  obtain ⟨c, middle, body, close, after, hc, hbody, hmore⟩ := reads_if.1 h
  have hmiddle : middle.length < ts.length := hc.left
  have hafter : after.length < middle.length := hbody.left
  obtain ⟨cs, rfl, hcs, hfit⟩ := condition_derivable hc
  obtain ⟨bs, rfl, hbs, hfit'⟩ := block_derivable hbody
  rcases hmore with ⟨_, rfl, rfl⟩ | ⟨u, more, other, rfl, hu, hother, rfl⟩
  · exact ⟨cs ++ bs, by simp, .ifThen hword hcs hbs, by simp [hfit, hfit']⟩
  · have hshorter : more.length < (u :: more).length := Nat.lt_succ_self _
    obtain ⟨os, rfl, hos, hfit''⟩ := else_derivable hother
    exact ⟨cs ++ (bs ++ u :: os), by simp, .ifElse hword hcs hbs hu hos,
      by simp [kind_of_isKeyword hu, hfit, hfit', hfit'']⟩
termination_by 2 * ts.length

/-- What is read behind `else` is a branch. -/
theorem else_derivable {start : Span} {ts rest : List Token} {s : Stmt}
    (h : Reads (readElse start ts) s rest) :
    ∃ used, ts = used ++ rest ∧ DerivesElse used s.spanless ∧ NumbersFit used := by
  cases ts with
  | nil =>
      rw [readElse] at h
      exact (reads_error h).elim
  | cons t ts =>
      by_cases hif : t.isKeyword "if" = true
      · obtain ⟨nested, hnested, rfl⟩ := (reads_else_of_if hif).1 h
        obtain ⟨used, rfl, hused, hfit⟩ := if_derivable hif hnested
        exact ⟨t :: used, rfl, .nested hused, by simp [kind_of_isKeyword hif, hfit]⟩
      · obtain ⟨body, close, hbody, rfl⟩ := (reads_else_of_block (Bool.eq_false_iff.2 hif)).1 h
        obtain ⟨used, hts, hused, hfit⟩ := block_derivable hbody
        exact ⟨used, hts, .block hused, hfit⟩
termination_by 2 * ts.length + 1

/-- A block is derived from the tokens that it takes. -/
theorem block_derivable {ts rest : List Token} {body : List Stmt} {close : Span}
    (h : Reads (readBlock ts) (body, close) rest) :
    ∃ used, ts = used ++ rest ∧ DerivesBlock used (spanlessBody body) ∧ NumbersFit used := by
  obtain ⟨opening, middle, rfl, ho, hbody⟩ := reads_block.1 h
  obtain ⟨used, closing, rfl, hc, hused, hfit⟩ := statements_derivable hbody
  exact ⟨opening :: (used ++ [closing]), by simp, .braces ho hused hc, by simp [ho, hc, hfit]⟩
termination_by 2 * ts.length

/-- Statements are derived from the tokens before the brace that closes them. -/
theorem statements_derivable {ts rest : List Token} {ss : List Stmt} {close : Span}
    (h : Reads (readStatements ts) (ss, close) rest) :
    ∃ used closing, ts = used ++ closing :: rest ∧ closing.kind = .rightBrace ∧
      DerivesStmts used (spanlessBody ss) ∧ NumbersFit used := by
  cases ts with
  | nil => exact (not_reads_statements_nil h).elim
  | cons t ts =>
      by_cases hclose : t.kind = .rightBrace
      · obtain ⟨rfl, _, rfl⟩ := (reads_statements_of_close hclose).1 h
        exact ⟨[], t, rfl, hclose, .nil, numbersFit_nil⟩
      · obtain ⟨s, middle, others, hs, hothers, rfl⟩ := (reads_statements_of_ne hclose).1 h
        have hshorter : middle.length < (t :: ts).length := hs.left
        obtain ⟨used, hts, hused, hfit⟩ := statement_derivable hs
        obtain ⟨more, closing, rfl, hc, hmore, hfit'⟩ := statements_derivable hothers
        exact ⟨used ++ more, closing, by simp [hts], hc, .cons hused hmore, by simp [hfit, hfit']⟩
termination_by 2 * ts.length + 1

end

end Slate
