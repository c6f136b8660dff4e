import Slate.Proofs.Grammar.Completeness

/-!
# What is derivable is read: statements

The counterpart of `Completeness` for declarations, statements and blocks.  A
conditional is read whole before everything but an `else`, and no statement
starts with one (`DerivesStmt.starts`).
-/

namespace Slate

/-! ## Declarations -/

/-- A derived type is read where no bracket follows. -/
theorem type_reads {ts : List Token} (rest : List Token) {type : Ty} (h : DerivesType ts type)
    (hb : startsWith .leftBracket rest = false) :
    ∃ span, Reads (readType (ts ++ rest)) (type, span) rest := by
  cases h with
  | @name t kind => exact ⟨t.span, reads_type.2 ⟨t, rfl, kind, hb, rfl, rfl⟩⟩

/-- So is a derived variable. -/
theorem var_reads {ts : List Token} (rest : List Token) {v : Var} (h : DerivesVar ts v)
    (hb : startsWith .leftBracket rest = false) :
    ∃ span, Reads (readVar (ts ++ rest)) (v, span) rest := by
  cases h with
  | @typed name colon ts type kind separates typing =>
      obtain ⟨typeSpan, htype⟩ := type_reads rest typing hb
      exact ⟨_, reads_var.2
        ⟨name, colon, ts ++ rest, typeSpan, type, rfl, kind, separates, htype, rfl, rfl⟩⟩

/-- A derived condition is read. -/
theorem condition_reads {ts : List Token} (rest : List Token) {e : Expr} (h : DerivesCondition ts e)
    (hfit : NumbersFit ts) :
    ∃ e' : Expr, e'.spanless = e ∧ Reads (readCondition (ts ++ rest)) e' rest := by
  cases h with
  | @parens opening closing ts e opens inner closes =>
      obtain ⟨e', he', hread⟩ := expression_reads rest inner hfit.tail.left
        (show closing.kind ∈ endKinds by rw [closes]; decide)
      refine ⟨e', he', reads_condition.2 ⟨opening, ts ++ closing :: rest, closing, ?_, opens, hread,
        closes⟩⟩
      rw [List.cons_append, List.append_assoc]
      rfl

/-- A semicolon is read as the end of a statement. -/
theorem end_reads {start : Span} {semicolon : Token} {rest : List Token}
    (h : semicolon.kind = .semicolon) :
    Reads (readEnd start (semicolon :: rest)) (start.through semicolon.span) rest :=
  reads_end.2 ⟨semicolon, rfl, h, rfl⟩

/-! ## First tokens -/

mutual

/-- A derived statement begins with no closing brace and no `else`. -/
theorem DerivesStmt.starts {ts : List Token} {s : Stmt} :
    DerivesStmt ts s →
      ∃ t us, ts = t :: us ∧ t.kind ≠ .rightBrace ∧ t.isKeyword "else" = false
  | .ret word _ =>
      ⟨_, _, rfl, by rw [kind_of_isKeyword word]; decide, isKeyword_eq_false word (by decide)⟩
  | .retValue word _ _ =>
      ⟨_, _, rfl, by rw [kind_of_isKeyword word]; decide, isKeyword_eq_false word (by decide)⟩
  | .branch branches => by
      obtain ⟨t, us, rfl, word⟩ := branches.starts
      exact ⟨t, us, rfl, by rw [kind_of_isKeyword word]; decide,
        isKeyword_eq_false word (by decide)⟩
  | .loop word _ _ =>
      ⟨_, _, rfl, by rw [kind_of_isKeyword word]; decide, isKeyword_eq_false word (by decide)⟩
  | .declare word _ _ =>
      ⟨_, _, rfl, by rw [kind_of_isKeyword word]; decide, isKeyword_eq_false word (by decide)⟩
  | .declareValue word _ _ _ _ =>
      ⟨_, _, rfl, by rw [kind_of_isKeyword word]; decide, isKeyword_eq_false word (by decide)⟩
  | .expression value _ => by
      obtain ⟨t, us, rfl, ht⟩ := value.starts
      exact ⟨t, _, rfl, ht.kind_ne (by decide), ht.isKeyword_eq_false (by decide)⟩

/-- A derived conditional begins with `if`. -/
theorem DerivesIf.starts {ts : List Token} {s : Stmt} :
    DerivesIf ts s → ∃ t us, ts = t :: us ∧ t.isKeyword "if" = true
  | .ifThen word _ _ => ⟨_, _, rfl, word⟩
  | .ifElse word _ _ _ _ => ⟨_, _, rfl, word⟩

end

/-- A derived block begins with a brace. -/
theorem DerivesBlock.starts {ts : List Token} {body : List Stmt} (h : DerivesBlock ts body) :
    ∃ t us, ts = t :: us ∧ t.kind = .leftBrace := by
  cases h with
  | braces opens _ _ => exact ⟨_, _, rfl, opens⟩

/-- What follows a statement in a block does not start with `else`. -/
theorem DerivesStmts.startsWithWord_else {ts rest : List Token} {ss : List Stmt} {closing : Token}
    (h : DerivesStmts ts ss) (hc : closing.kind = .rightBrace) :
    startsWithWord "else" (ts ++ closing :: rest) = false := by
  cases h with
  | nil =>
      apply Bool.eq_false_iff.2
      intro hword
      rw [kind_of_isKeyword hword] at hc
      cases hc
  | cons first others =>
      obtain ⟨t, us, rfl, _, ht⟩ := first.starts
      exact ht

/-! ## Statements -/

mutual

/-- A derived statement is read whole, unless an `else` follows. -/
theorem statement_reads {ts : List Token} {s : Stmt} :
    DerivesStmt ts s → NumbersFit ts → ∀ rest : List Token, startsWithWord "else" rest = false →
      ∃ s' : Stmt, s'.spanless = s ∧ Reads (readStatement (ts ++ rest)) s' rest
  | @DerivesStmt.ret t semicolon word ends => by
      intro _ rest _
      have hstarts : startsWith .semicolon (semicolon :: rest) = true := by
        simp [startsWith_cons, ends]
      exact ⟨_, rfl, (reads_statement_of_return word).2 ⟨none, semicolon :: rest, _,
        (reads_returnValue_of_semicolon hstarts).2 ⟨rfl, rfl⟩, end_reads ends, rfl⟩⟩
  | @DerivesStmt.retValue t semicolon us _ word value ends => by
      intro hfit rest _
      obtain ⟨e, rfl, he⟩ := expression_reads rest value hfit.tail.left
        (show semicolon.kind ∈ endKinds by rw [ends]; decide)
      have hstarts : startsWith .semicolon (us ++ semicolon :: rest) = false := by
        obtain ⟨u, us, rfl, hu⟩ := value.starts
        have hne : u.kind ≠ .semicolon := hu.kind_ne (by decide)
        simp [startsWith_cons, hne]
      refine ⟨.ret (t.span.through semicolon.span) (some e), rfl, ?_⟩
      rw [List.cons_append, List.append_assoc]
      exact (reads_statement_of_return word).2 ⟨some e, semicolon :: rest, _,
        (reads_returnValue_of_value hstarts).2 ⟨e, he, rfl⟩, end_reads ends, rfl⟩
  | .branch branches => by
      intro hfit rest helse
      obtain ⟨t, us, rfl, word, s', hs', hread⟩ := if_reads branches hfit rest helse
      exact ⟨s', hs', (reads_statement_of_if word).2 hread⟩
  | @DerivesStmt.loop t cs bs _ _ word condition block => by
      intro hfit rest _
      obtain ⟨c, rfl, hc⟩ := condition_reads (bs ++ rest) condition hfit.tail.left
      obtain ⟨body, close, rfl, hbody⟩ := block_reads block hfit.tail.right rest
      refine ⟨.loop (t.span.through close) c body, rfl, ?_⟩
      rw [List.cons_append, List.append_assoc]
      exact (reads_statement_of_while word).2 ⟨c, bs ++ rest, body, close, hc, hbody, rfl⟩
  | @DerivesStmt.declare t semicolon us v word declared ends => by
      intro _ rest _
      obtain ⟨span, hv⟩ := var_reads (semicolon :: rest) declared
        (by simp [startsWith_cons, ends])
      refine ⟨.expression (t.span.through semicolon.span) (.declare (.unchecked span) v), rfl, ?_⟩
      rw [List.cons_append, List.append_assoc]
      refine (reads_statement_of_var word).2 ⟨_, semicolon :: rest, _, ?_, end_reads ends, rfl⟩
      exact reads_declaration.2 ⟨v, span, semicolon :: rest, hv,
        .inl ⟨by simp [startsWith_cons, ends], rfl, rfl⟩⟩
  | @DerivesStmt.declareValue t sign semicolon us vs v _ word declared assigns value ends => by
      intro hfit rest _
      obtain ⟨span, hv⟩ := var_reads (sign :: (vs ++ semicolon :: rest)) declared
        (by simp [startsWith_cons, assigns])
      obtain ⟨e, rfl, he⟩ := expression_reads rest value hfit.tail.right.tail.left
        (show semicolon.kind ∈ endKinds by rw [ends]; decide)
      refine ⟨.expression (t.span.through semicolon.span)
        (InfixOp.assign.tree (.declare (.unchecked span) v) e), rfl, ?_⟩
      rw [List.cons_append, List.append_assoc, List.cons_append, List.append_assoc]
      refine (reads_statement_of_var word).2 ⟨_, semicolon :: rest, _, ?_, end_reads ends, rfl⟩
      exact reads_declaration.2 ⟨v, span, sign :: (vs ++ semicolon :: rest), hv,
        .inr ⟨sign, vs ++ semicolon :: rest, e, rfl, assigns, he, rfl⟩⟩
  | @DerivesStmt.expression semicolon us _ value ends => by
      intro hfit rest _
      obtain ⟨e, rfl, he⟩ := expression_reads rest value hfit.left
        (show semicolon.kind ∈ endKinds by rw [ends]; decide)
      obtain ⟨u, us, rfl, hu⟩ := value.starts
      have hwords : ∀ word ∈ statementWords, u.isKeyword word = false := by
        intro word hword
        simp only [statementWords, List.mem_cons, List.not_mem_nil, or_false] at hword
        rcases hword with rfl | rfl | rfl | rfl <;> exact hu.isKeyword_eq_false (by decide)
      refine ⟨.expression (u.span.through semicolon.span) e, rfl, ?_⟩
      rw [List.append_assoc]
      exact (reads_statement_of_expression hwords).2
        ⟨e, semicolon :: rest, _, he, end_reads ends, rfl⟩

/-- A derived conditional is read behind its keyword, unless an `else` follows. -/
theorem if_reads {ts : List Token} {s : Stmt} :
    DerivesIf ts s → NumbersFit ts → ∀ rest : List Token, startsWithWord "else" rest = false →
      ∃ t us, ts = t :: us ∧ t.isKeyword "if" = true ∧
        ∃ s' : Stmt, s'.spanless = s ∧ Reads (readIf t.span (us ++ rest)) s' rest
  | @DerivesIf.ifThen t cs bs _ _ word condition block => by
      intro hfit rest helse
      obtain ⟨c, rfl, hc⟩ := condition_reads (bs ++ rest) condition hfit.tail.left
      obtain ⟨body, close, rfl, hbody⟩ := block_reads block hfit.tail.right rest
      refine ⟨t, cs ++ bs, rfl, word, .ifThen (t.span.through close) c body, rfl, ?_⟩
      rw [List.append_assoc]
      exact reads_if.2 ⟨c, bs ++ rest, body, close, rest, hc, hbody, .inl ⟨helse, rfl, rfl⟩⟩
  | @DerivesIf.ifElse t u cs bs os _ _ _ word condition block otherwise branch => by
      intro hfit rest helse
      obtain ⟨c, rfl, hc⟩ := condition_reads (bs ++ u :: (os ++ rest)) condition
        hfit.tail.left
      obtain ⟨body, close, rfl, hbody⟩ := block_reads block hfit.tail.right.left (u :: (os ++ rest))
      obtain ⟨other, rfl, hother⟩ := else_reads branch hfit.tail.right.right.tail u.span rest helse
      refine ⟨t, cs ++ (bs ++ u :: os), rfl, word,
        .ifElse (t.span.through other.span) c body other, rfl, ?_⟩
      rw [List.append_assoc, List.append_assoc, List.cons_append]
      exact reads_if.2 ⟨c, bs ++ u :: (os ++ rest), body, close, u :: (os ++ rest), hc, hbody,
        .inr ⟨u, os ++ rest, other, rfl, otherwise, hother, rfl⟩⟩

/-- A derived branch is read behind its `else`, unless another one follows. -/
theorem else_reads {ts : List Token} {s : Stmt} :
    DerivesElse ts s → NumbersFit ts → ∀ (start : Span) (rest : List Token),
      startsWithWord "else" rest = false →
      ∃ s' : Stmt, s'.spanless = s ∧ Reads (readElse start (ts ++ rest)) s' rest
  | .block block => by
      intro hfit start rest _
      obtain ⟨body, close, rfl, hbody⟩ := block_reads block hfit rest
      obtain ⟨opening, us, rfl, ho⟩ := block.starts
      have hword : opening.isKeyword "if" = false := by
        simp [Token.isKeyword, ho]
      exact ⟨.block (start.through close) body, rfl,
        (reads_else_of_block hword).2 ⟨body, close, hbody, rfl⟩⟩
  | .nested branches => by
      intro hfit start rest helse
      obtain ⟨t, us, rfl, word, nested, rfl, hread⟩ := if_reads branches hfit rest helse
      exact ⟨.block (start.through nested.span) [nested], rfl,
        (reads_else_of_if word).2 ⟨nested, hread, rfl⟩⟩

/-- A derived block is read whole. -/
theorem block_reads {ts : List Token} {body : List Stmt} :
    DerivesBlock ts body → NumbersFit ts → ∀ rest : List Token,
      ∃ body' close, spanlessBody body' = body ∧ Reads (readBlock (ts ++ rest)) (body', close) rest
  | @DerivesBlock.braces opening closing us _ opens statements closes => by
      intro hfit rest
      obtain ⟨body, rfl, hbody⟩ := statements_read statements hfit.tail.left closing rest closes
      refine ⟨body, closing.span, rfl, ?_⟩
      rw [List.cons_append, List.append_assoc]
      exact reads_block.2 ⟨opening, us ++ closing :: rest, rfl, opens, hbody⟩

/-- Derived statements are read up to the brace that closes them. -/
theorem statements_read {ts : List Token} {ss : List Stmt} :
    DerivesStmts ts ss → NumbersFit ts → ∀ (closing : Token) (rest : List Token),
      closing.kind = .rightBrace →
      ∃ ss', spanlessBody ss' = ss ∧
        Reads (readStatements (ts ++ closing :: rest)) (ss', closing.span) rest
  | .nil => by
      intro _ closing rest hc
      exact ⟨[], rfl, (reads_statements_of_close hc).2 ⟨rfl, rfl, rfl⟩⟩
  | @DerivesStmts.cons ts us _ _ first others => by
      intro hfit closing rest hc
      obtain ⟨s, rfl, hs⟩ := statement_reads first hfit.left (us ++ closing :: rest)
        (others.startsWithWord_else hc)
      obtain ⟨ss, rfl, hss⟩ := statements_read others hfit.right closing rest hc
      obtain ⟨t, ts, rfl, hne, _⟩ := first.starts
      refine ⟨s :: ss, rfl, ?_⟩
      rw [List.append_assoc]
      exact (reads_statements_of_ne hne).2 ⟨s, us ++ closing :: rest, ss, hs, hss, rfl⟩

end

end Slate
