import Slate.Proofs.Grammar.Acceptance
import Slate.Proofs.Grammar.Placed

/-!
# What is read is placed

Whatever the readers answer with is placed among exactly the tokens that they take off the
front.  The spans that they are handed, of a token that was read before, are the spans of
the tokens that the statements put in front again (`if_placed`, `else_placed`).

In the loop over infix operators the expression so far is placed among the tokens before;
the tree that the next operator makes is placed among these and the ones of its right
operand.

Functions take all tokens among themselves: each stands in a stretch of its own
(`StandsFunction`), and the next one begins where the stretch ends (`functions_stand`).
-/

namespace Slate

open scoped List

/-- The expression of a single token is placed there. -/
theorem atom_placed {t : Token} {e : Expr} (h : readAtom t = .ok e) : PlacedExpr [t] e := by
  have hmem : t ∈ [t] := List.mem_singleton.2 rfl
  simp only [readAtom] at h
  split at h
  · split at h
    · cases h
      exact .literal hmem
    · cases h
  · cases h
    exact .literal hmem
  · split at h
    · cases h
      exact .literal hmem
    · split at h
      · cases h
        exact .literal hmem
      · cases h
  · cases h
    exact .var hmem
  · cases h

/-- An operator joins what is placed before it and behind it. -/
theorem InfixOp.tree_placed {op : InfixOp} {ls rs : List Token} {t : Token} {l r : Expr}
    (hl : PlacedExpr ls l) (hr : PlacedExpr rs r) : PlacedExpr (ls ++ t :: rs) (op.tree l r) := by
  have hsub : ls ++ rs <+ ls ++ t :: rs :=
    (List.sublist_cons_self t rs).append_left ls
  cases op with
  | assign => exact .assign hsub hl hr
  | binary op => exact .binary hsub hl hr

mutual

/-- The tokens an expression is read from place it. -/
theorem expression_placed {least : Nat} {ts rest : List Token} {e : Expr}
    (h : Reads (readExpression least ts) e rest) :
    ∃ used, ts = used ++ rest ∧ PlacedExpr used e := by
  obtain ⟨left, middle, hleft, hinfixes⟩ := reads_expression.1 h
  have hshorter : middle.length < ts.length := hleft.left
  obtain ⟨before, rfl, hbefore⟩ := operand_placed hleft
  obtain ⟨used, rfl, hused⟩ := infixes_placed hbefore hinfixes
  exact ⟨before ++ used, by simp, hused⟩
termination_by 3 * ts.length + 1

/-- Going on from an expression keeps it placed where it is. -/
theorem infixes_placed {least : Nat} {before ts rest : List Token} {l e : Expr}
    (hl : PlacedExpr before l) (h : Reads (readInfixes least l ts) e rest) :
    ∃ used, ts = used ++ rest ∧ PlacedExpr (before ++ used) e := by
  by_cases hstop : EndsInfixes least ts
  · obtain ⟨rfl, rfl⟩ := (reads_infixes_of_ends hstop).1 h
    exact ⟨[], rfl, by simpa using hl⟩
  · cases ts with
    | nil => exact absurd trivial hstop
    | cons t ts =>
        obtain ⟨op, hop, hpower⟩ := exists_signs_of_not_ends hstop
        obtain ⟨right, middle, hright, hmore⟩ := (reads_infixes_of_le hop hpower).1 h
        have hshorter : middle.length < ts.length := hright.left
        obtain ⟨us, rfl, hus⟩ := expression_placed hright
        -- the loop goes on with the joined tree, which is placed up to its right operand
        obtain ⟨used, rfl, hused⟩ := infixes_placed (InfixOp.tree_placed hl hus) hmore
        exact ⟨t :: (us ++ used), by simp, by simpa using hused⟩
termination_by 3 * ts.length

/-- So do those of an operand. -/
theorem operand_placed {ts rest : List Token} {e : Expr} (h : Reads (readOperand ts) e rest) :
    ∃ used, ts = used ++ rest ∧ PlacedExpr used e := by
  cases ts with
  | nil => exact (not_reads_operand_nil h).elim
  | cons t ts =>
      by_cases ho : t.kind = .operator
      · obtain ⟨op, operand, _, hoperand, rfl⟩ := (reads_operand_of_operator ho).1 h
        obtain ⟨used, rfl, hused⟩ := expression_placed hoperand
        exact ⟨t :: used, rfl, .unary (List.Sublist.refl _) hused⟩
      · by_cases hp : t.kind = .leftParen
        · obtain ⟨closing, hinner, _⟩ := (reads_operand_of_paren hp).1 h
          obtain ⟨used, rfl, hused⟩ := expression_placed hinner
          exact ⟨t :: (used ++ [closing]), by simp,
            hused.mono (sublist_between (List.Sublist.refl _))⟩
        · by_cases hcall : t.kind = .identifier ∧ startsWith .leftParen ts = true
          · obtain ⟨hk, hs⟩ := hcall
            cases ts with
            | nil => cases hs
            | cons paren ts =>
                have hparen : paren.kind = .leftParen := kind_of_startsWith hs
                obtain ⟨args, close, hargs, rfl⟩ := (reads_operand_of_call hk hparen).1 h
                obtain ⟨used, closing, rfl, rfl, hused⟩ := arguments_placed hargs
                have horder : t :: (used ++ [closing]) <+ t :: paren :: (used ++ [closing]) :=
                  (List.sublist_cons_self paren _).cons_cons t
                exact ⟨t :: paren :: (used ++ [closing]), by simp, .call horder hused⟩
          · obtain ⟨hatom, rfl⟩ := (reads_operand_of_atom ho hp (by simpa using hcall)).1 h
            exact ⟨[t], rfl, atom_placed hatom⟩
termination_by 3 * ts.length

/-- Arguments are placed before the parenthesis that closes them. -/
theorem arguments_placed {ts rest : List Token} {es : List Expr} {close : Span}
    (h : Reads (readArguments ts) (es, close) rest) :
    ∃ used closing, ts = used ++ closing :: rest ∧ close = closing.span ∧
      PlacedArguments used es := by
  cases hs : startsWith .rightParen ts with
  | true =>
      cases ts with
      | nil => cases hs
      | cons closing ts =>
          have hc : closing.kind = .rightParen := kind_of_startsWith hs
          obtain ⟨rfl, rfl, rfl⟩ := (reads_arguments_of_close hc).1 h
          exact ⟨[], closing, rfl, rfl, .nil⟩
  | false => exact moreArguments_placed ((reads_arguments_of_ne hs).1 h)
termination_by 3 * ts.length + 3

/-- So do those of the arguments of a call, in front of the closing parenthesis. -/
theorem moreArguments_placed {ts rest : List Token} {es : List Expr} {close : Span}
    (h : Reads (readMoreArguments ts) (es, close) rest) :
    ∃ used closing, ts = used ++ closing :: rest ∧ close = closing.span ∧
      PlacedArguments used es := by
  obtain ⟨e, t, middle, he, hmore⟩ := reads_moreArguments.1 h
  have hshorter : (t :: middle).length < ts.length := he.left
  have hmiddle : middle.length < ts.length := Nat.lt_of_succ_lt hshorter
  obtain ⟨used, rfl, hused⟩ := expression_placed he
  rcases hmore with ⟨_, others, hothers, rfl⟩ | ⟨_, rfl, rfl, rfl⟩
  · obtain ⟨more, closing, rfl, rfl, hmore⟩ := moreArguments_placed hothers
    have horder : used ++ more <+ used ++ t :: more :=
      (List.sublist_cons_self t more).append_left used
    exact ⟨used ++ t :: more, closing, by simp, rfl, .cons horder hused hmore⟩
  · have horder : used ++ [] <+ used := by rw [List.append_nil]
    exact ⟨used, t, rfl, rfl, .cons horder hused .nil⟩
termination_by 3 * ts.length + 2

end

/-! ## Declarations -/

/-- A declared variable is placed from its name through its type. -/
theorem var_placed {ts rest : List Token} {v : Var} {span : Span}
    (h : Reads (readVar ts) (v, span) rest) :
    ∃ name colon type, ts = [name, colon, type] ++ rest ∧
      span = name.span.through type.span := by
  obtain ⟨name, colon, middle, _, type, rfl, _, _, htype, _, rfl⟩ := reads_var.1 h
  obtain ⟨t, rfl, _, _, _, rfl⟩ := reads_type.1 htype
  exact ⟨name, colon, t, rfl, rfl⟩

/-- The tokens of a condition place its expression. -/
theorem condition_placed {ts rest : List Token} {e : Expr} (h : Reads (readCondition ts) e rest) :
    ∃ used, ts = used ++ rest ∧ PlacedExpr used e := by
  obtain ⟨opening, middle, closing, rfl, _, he, _⟩ := reads_condition.1 h
  obtain ⟨used, rfl, hused⟩ := expression_placed he
  exact ⟨opening :: (used ++ [closing]), by simp,
    hused.mono (sublist_between (List.Sublist.refl _))⟩

/-- So do those of a declaration. -/
theorem declaration_placed {ts rest : List Token} {e : Expr}
    (h : Reads (readDeclaration ts) e rest) : ∃ used, ts = used ++ rest ∧ PlacedExpr used e := by
  obtain ⟨v, span, middle, hv, hmore⟩ := reads_declaration.1 h
  obtain ⟨name, colon, type, rfl, rfl⟩ := var_placed hv
  have hdeclared : PlacedExpr [name, colon, type]
      (.declare (.unchecked (name.span.through type.span)) v) :=
    .declare ((List.sublist_cons_self colon [type]).cons_cons name)
  rcases hmore with ⟨_, rfl, rfl⟩ | ⟨sign, after, value, rfl, _, hvalue, rfl⟩
  · exact ⟨_, rfl, hdeclared⟩
  · obtain ⟨es, rfl, hes⟩ := expression_placed hvalue
    exact ⟨[name, colon, type] ++ sign :: es, by simp, InfixOp.tree_placed hdeclared hes⟩

/-! ## Statements -/

/-- An expression before a semicolon is a statement from its first token on. -/
theorem expression_statement_placed {t semicolon : Token} {us : List Token} {e : Expr}
    (he : PlacedExpr (t :: us) e) :
    PlacedStmt (t :: us ++ [semicolon]) (.expression (t.span.through semicolon.span) e) :=
  .expression rfl (List.Sublist.refl _) he

mutual

/-- The tokens a statement is read from place it. -/
theorem statement_placed {ts rest : List Token} {s : Stmt} (h : Reads (readStatement ts) s rest) :
    ∃ used, ts = used ++ rest ∧ PlacedStmt used s := by
  cases ts with
  | nil => exact (not_reads_statement_nil h).elim
  | cons t ts =>
      by_cases hret : t.isKeyword "return" = true
      · obtain ⟨value, middle, span, hvalue, hend, rfl⟩ := (reads_statement_of_return hret).1 h
        obtain ⟨semicolon, rfl, _, rfl⟩ := reads_end.1 hend
        cases hs : startsWith .semicolon ts with
        | true =>
            obtain ⟨rfl, rfl⟩ := (reads_returnValue_of_semicolon hs).1 hvalue
            exact ⟨[t, semicolon], rfl, .ret (List.Sublist.refl _)⟩
        | false =>
            obtain ⟨e, he, rfl⟩ := (reads_returnValue_of_value hs).1 hvalue
            obtain ⟨used, rfl, hused⟩ := expression_placed he
            exact ⟨t :: (used ++ [semicolon]), by simp, .retValue (List.Sublist.refl _) hused⟩
      · by_cases hif : t.isKeyword "if" = true
        · obtain ⟨used, rfl, hused⟩ := if_placed t rfl ((reads_statement_of_if hif).1 h)
          exact ⟨t :: used, rfl, hused⟩
        · by_cases hwhile : t.isKeyword "while" = true
          · obtain ⟨c, middle, body, close, hc, hbody, rfl⟩ := (reads_statement_of_while hwhile).1 h
            have hshorter : middle.length < ts.length := hc.left
            obtain ⟨cs, rfl, hcs⟩ := condition_placed hc
            obtain ⟨bs, closing, rfl, rfl, hbs⟩ := block_placed hbody
            exact ⟨t :: (cs ++ (bs ++ [closing])), by simp, .loop (List.Sublist.refl _) hcs hbs⟩
          · by_cases hvar : t.isKeyword "var" = true
            · obtain ⟨e, middle, span, he, hend, rfl⟩ := (reads_statement_of_var hvar).1 h
              obtain ⟨semicolon, rfl, _, rfl⟩ := reads_end.1 hend
              obtain ⟨used, rfl, hused⟩ := declaration_placed he
              exact ⟨t :: used ++ [semicolon], by simp,
                expression_statement_placed (hused.mono (List.sublist_cons_self t used))⟩
            · obtain ⟨e, middle, span, he, hend, rfl⟩ := (reads_statement_of_expression
                (by simp [statementWords, hret, hif, hwhile, hvar])).1 h
              obtain ⟨semicolon, rfl, _, rfl⟩ := reads_end.1 hend
              -- an expression takes a token at least, so the statement starts with its first one
              have hshorter : (semicolon :: rest).length < (t :: ts).length := he.left
              obtain ⟨used, hts, hused⟩ := expression_placed he
              cases used with
              | nil =>
                  rw [hts] at hshorter
                  exact absurd hshorter (Nat.lt_irrefl _)
              | cons first used =>
                  obtain ⟨rfl, rfl⟩ := List.cons_eq_cons.1 hts
                  exact ⟨t :: used ++ [semicolon], by simp, expression_statement_placed hused⟩
termination_by 2 * ts.length

/-- Behind its keyword, a conditional is placed from the keyword on. -/
theorem if_placed (t : Token) {start : Span} (hstart : start = t.span) {ts rest : List Token}
    {s : Stmt} (h : Reads (readIf start ts) s rest) :
    ∃ used, ts = used ++ rest ∧ PlacedStmt (t :: used) s := by
  obtain ⟨c, middle, body, close, after, hc, hbody, hmore⟩ := reads_if.1 h
  subst hstart
  have hmiddle : middle.length < ts.length := hc.left
  have hafter : after.length < middle.length := hbody.left
  obtain ⟨cs, rfl, hcs⟩ := condition_placed hc
  obtain ⟨bs, closing, rfl, rfl, hbs⟩ := block_placed hbody
  rcases hmore with ⟨_, rfl, rfl⟩ | ⟨u, more, other, rfl, _, hother, rfl⟩
  · exact ⟨cs ++ (bs ++ [closing]), by simp, .ifThen (List.Sublist.refl _) hcs hbs⟩
  · have hshorter : more.length < (u :: more).length := Nat.lt_succ_self _
    obtain ⟨os, rfl, hos⟩ := else_placed u rfl hother
    -- the brace between the block and `else` belongs to neither
    have horder : t :: (cs ++ (bs ++ u :: os)) <+ t :: (cs ++ (bs ++ closing :: u :: os)) :=
      (((List.sublist_cons_self closing _).append_left bs).append_left cs).cons_cons t
    exact ⟨cs ++ (bs ++ closing :: u :: os), by simp, .ifElse horder hcs hbs hos⟩
termination_by 2 * ts.length

/-- Behind `else`, a branch is placed from that keyword on. -/
theorem else_placed (t : Token) {start : Span} (hstart : start = t.span) {ts rest : List Token}
    {s : Stmt} (h : Reads (readElse start ts) s rest) :
    ∃ used, ts = used ++ rest ∧ PlacedStmt (t :: used) s := by
  cases ts with
  | nil =>
      rw [readElse] at h
      exact (reads_error h).elim
  | cons u ts =>
      by_cases hif : u.isKeyword "if" = true
      · obtain ⟨nested, hnested, rfl⟩ := (reads_else_of_if hif).1 h
        obtain ⟨used, rfl, hused⟩ := if_placed u rfl hnested
        subst hstart
        exact ⟨u :: used, rfl, .nested (List.Sublist.refl _) hused⟩
      · obtain ⟨body, close, hbody, rfl⟩ := (reads_else_of_block (Bool.eq_false_iff.2 hif)).1 h
        obtain ⟨used, closing, hts, rfl, hused⟩ := block_placed hbody
        subst hstart
        exact ⟨used ++ [closing], by simp [hts], .block (List.Sublist.refl _) hused⟩
termination_by 2 * ts.length + 1

/-- The statements of a block are placed before the brace that closes it. -/
theorem block_placed {ts rest : List Token} {body : List Stmt} {close : Span}
    (h : Reads (readBlock ts) (body, close) rest) :
    ∃ used closing, ts = used ++ closing :: rest ∧ close = closing.span ∧
      PlacedStmts used body := by
  obtain ⟨opening, middle, rfl, _, hbody⟩ := reads_block.1 h
  obtain ⟨used, closing, rfl, rfl, hused⟩ := statements_placed hbody
  exact ⟨opening :: used, closing, rfl, rfl, hused.mono (List.sublist_cons_self opening used)⟩
termination_by 2 * ts.length

/-- So do those of the statements in front of a closing brace. -/
theorem statements_placed {ts rest : List Token} {ss : List Stmt} {close : Span}
    (h : Reads (readStatements ts) (ss, close) rest) :
    ∃ used closing, ts = used ++ closing :: rest ∧ close = closing.span ∧
      PlacedStmts used ss := by
  cases ts with
  | nil => exact (not_reads_statements_nil h).elim
  | cons t ts =>
      by_cases hclose : t.kind = .rightBrace
      · obtain ⟨rfl, rfl, rfl⟩ := (reads_statements_of_close hclose).1 h
        exact ⟨[], t, rfl, rfl, .nil⟩
      · obtain ⟨s, middle, others, hs, hothers, rfl⟩ := (reads_statements_of_ne hclose).1 h
        have hshorter : middle.length < (t :: ts).length := hs.left
        obtain ⟨used, hts, hused⟩ := statement_placed hs
        obtain ⟨more, closing, rfl, rfl, hmore⟩ := statements_placed hothers
        exact ⟨used ++ more, closing, by simp [hts], rfl,
          .cons (List.Sublist.refl _) hused hmore⟩
termination_by 2 * ts.length + 1

end

/-! ## Functions -/

/-- The tokens are those of the function: its mark if it is a builtin, its result type, its
name, its arguments in parentheses, and its body or a semicolon.  Its span runs from the first
of them through the parenthesis that closes the arguments. -/
inductive StandsFunction : List Token → Function → Prop
  | parts {first name opening closing behind : Token} {ms rs ps bs : List Token} {f : Function}
      {body : Option (List Stmt)} (mark : DerivesMark ms f.builtin)
      (type : DerivesType rs f.result) (kind : name.kind = .identifier)
      (named : name.text = f.name) (opens : opening.kind = .leftParen)
      (parameters : DerivesParameterList ps f.arguments) (closes : closing.kind = .rightParen)
      (ending : DerivesBody (behind :: bs) body) (unplaced : body.getD [] = spanlessBody f.body)
      (starts : (ms ++ rs).head? = some first) (span : f.span = first.span.through closing.span)
      (placed : PlacedStmts bs f.body) :
      StandsFunction (ms ++ (rs ++ name :: opening :: (ps ++ closing :: behind :: bs))) f

/-- The tokens are those of the functions, one behind the other. -/
inductive StandsFunctions : List Token → List Function → Prop
  | nil : StandsFunctions [] []
  | cons {ts us : List Token} {f : Function} {fs : List Function} (first : StandsFunction ts f)
      (others : StandsFunctions us fs) : StandsFunctions (ts ++ us) (f :: fs)

/-- Each of the functions has a stretch of the tokens. -/
theorem StandsFunctions.each {ts : List Token} {fs : List Function} (h : StandsFunctions ts fs) :
    ∀ f ∈ fs, ∃ used, used <:+: ts ∧ StandsFunction used f := by
  induction h with
  | nil => exact List.forall_mem_nil _
  | @cons ts us f fs first others ih =>
      refine List.forall_mem_cons.2 ⟨⟨ts, (List.prefix_append ts us).isInfix, first⟩, ?_⟩
      intro g hg
      obtain ⟨used, hused, hstands⟩ := ih g hg
      exact ⟨used, hused.trans (List.suffix_append ts us).isInfix, hstands⟩

/-- A function that stands in the tokens is placed there. -/
theorem StandsFunction.placed {ts : List Token} {f : Function} (h : StandsFunction ts f) :
    PlacedFunction ts f := by
  cases h with
  | @parts first name opening closing behind ms rs ps bs f body mark type kind named opens
      parameters closes ending unplaced starts span placed =>
      obtain ⟨as, has⟩ := List.head?_eq_some_iff.1 starts
      have htokens : ms ++ (rs ++ name :: opening :: (ps ++ closing :: behind :: bs)) =
          first :: (as ++ name :: opening :: ps) ++ closing :: behind :: bs := by
        rw [← List.append_assoc, has]
        simp
      rw [htokens]
      exact ⟨first, _, closing, behind :: bs, rfl,
        (List.sublist_append_right _ (closing :: behind :: bs)).cons_cons first, span,
        placed.mono (List.sublist_cons_self behind bs)⟩

/-- The body of a function is placed behind the brace that opens it. -/
theorem functionBody_placed {builtin : Bool} {ts rest : List Token} {body : List Stmt}
    (h : Reads (readBody builtin ts) body rest) :
    ∃ behind used, ts = behind :: used ++ rest ∧ PlacedStmts used body := by
  cases builtin with
  | true =>
      obtain ⟨semicolon, rfl, _, rfl⟩ := reads_body_of_builtin.1 h
      exact ⟨semicolon, [], rfl, .nil⟩
  | false =>
      obtain ⟨close, hblock⟩ := reads_body_of_block.1 h
      obtain ⟨opening, middle, rfl, _, hbody⟩ := reads_block.1 hblock
      obtain ⟨used, closing, rfl, _, hused⟩ := statements_placed hbody
      exact ⟨opening, used ++ [closing], by simp,
        hused.mono (List.sublist_append_left used [closing])⟩

/-- What is read behind the keyword of a builtin, or without it, are the tokens of a function. -/
theorem signatureAndBody_stands {taken : List String} {builtin : Bool} {first : Token}
    {ms ts rest : List Token} {f : Function} (hmark : DerivesMark ms builtin)
    (hfirst : (ms ++ ts).head? = some first)
    (h : Reads (readSignatureAndBody taken builtin first.span ts) f rest) :
    ∃ used, ts = used ++ rest ∧ StandsFunction (ms ++ used) f := by
  obtain ⟨result, typeSpan, afterType, name, afterName, arguments, close, afterArguments, body,
    htype, hname, harguments, hbody, rfl⟩ := reads_signatureAndBody.1 h
  obtain ⟨type, rfl, hidentifier, _, rfl, _⟩ := reads_type.1 htype
  obtain ⟨t, rfl, hk, rfl, _⟩ := reads_functionName.1 hname
  obtain ⟨opening, ps, closing, rfl, rfl, ho, hc, hps, _⟩ := argumentList_derivable harguments
  obtain ⟨bs, ending, rfl, hbs, _, _, hgetD⟩ := body_derivable hbody
  obtain ⟨behind, us, htokens, hplaced⟩ := functionBody_placed hbody
  obtain rfl : bs = behind :: us := List.append_cancel_right htokens
  refine ⟨[type] ++ t :: opening :: (ps ++ closing :: behind :: us), by simp,
    .parts hmark (.name hidentifier) hk rfl ho hps hc hbs hgetD ?_ rfl hplaced⟩
  cases hmark <;> exact hfirst

/-- The tokens a function is read from are those it stands in. -/
theorem function_stands {taken : List String} {ts rest : List Token} {f : Function}
    (h : Reads (readFunction taken ts) f rest) :
    ∃ used, ts = used ++ rest ∧ StandsFunction used f := by
  cases ts with
  | nil => exact (not_reads_function_nil h).elim
  | cons t ts =>
      by_cases hmark : t.isKeyword "builtin" = true
      · obtain ⟨used, rfl, hused⟩ :=
          signatureAndBody_stands (.present hmark) rfl ((reads_function_of_builtin hmark).1 h)
        exact ⟨t :: used, rfl, hused⟩
      · exact signatureAndBody_stands .absent rfl
          ((reads_function_of_block (Bool.eq_false_iff.2 hmark)).1 h)

/-- **The functions that are read** stand in the tokens. -/
theorem functions_stand {taken : List String} {ts : List Token} {fs : List Function}
    (h : readFunctions taken ts = .ok fs) : StandsFunctions ts fs := by
  cases ts with
  | nil =>
      rw [readFunctions] at h
      cases h
      exact .nil
  | cons t ts =>
      obtain ⟨f, rest, others, hf, hothers, rfl⟩ := readFunctions_cons.1 h
      have hshorter : rest.length < (t :: ts).length := hf.left
      obtain ⟨used, hused, hstands⟩ := function_stands hf
      rw [hused]
      exact .cons hstands (functions_stand hothers)
termination_by ts.length

/-- **The spans of a program that was read are spans of its tokens.** -/
theorem parse_spans_from {ts : List Token} {file : Option String} {p : Program}
    (h : Program.parse ts file = .ok p) : ∀ f ∈ p.functions, ∀ s ∈ f.spans, s.From ts := by
  intro f hf
  obtain ⟨used, hused, hstands⟩ := (functions_stand (parse_eq_ok.1 h).1).each f hf
  exact spans_mono hstands.placed.spans_from hused.sublist

end Slate
