import Slate.Proofs.Grammar.BudgetExpressions
import Slate.Proofs.Grammar.PromptStatements

/-!
# Statements within a budget

The same for statements.  One loop reads the statements of a block.  An expression statement
starts where its expression does, and the branch behind an `else` where its block does, so
these take a level and no token; a block takes its brace before it goes on to a statement.
Three levels more than two for every token are enough for every kind of phrase here.
-/

namespace Slate

namespace Budget

/-- Reads a condition between parentheses. -/
def condition (expression : Attempt Expr) : Attempt Expr := do
  let _ ← (plain (readKind .leftParen .openParen)).attempt
  let e ← expression
  let _ ← (plain (readKind .rightParen .closeParen)).attempt
  pure e

/-- Reads the value of a `return`, if one stands before the semicolon. -/
def returnValue (expression : Attempt Expr) : Attempt (Option Expr) := fun ts =>
  if startsWith .semicolon ts then (pure none : Attempt (Option Expr)) ts
  else
    (do
      let e ← expression
      pure (some e) : Attempt (Option Expr)) ts

/-- Reads a declaration, with the value assigned to it if there is one. -/
def declaration (expression : Attempt Expr) : Attempt Expr := do
  let (v, span) ← (plain readVar).attempt
  fun ts =>
    if startsWith .assign ts then
      (do
        let value ← expression
        pure (InfixOp.assign.tree (.declare (.unchecked span) v) value) : Attempt Expr) ts.tail
    else (pure (.declare (.unchecked span) v) : Attempt Expr) ts

/-- One round of the loop over the statements of a block: a statement, or the brace that
closes the block. -/
def nextStatement (statement : Attempt Stmt) (earlier : List Stmt) :
    Attempt (List Stmt ⊕ (List Stmt × Span)) := fun ts =>
  match ts with
  | [] => refuse (.unexpected .closeBrace []) []
  | t :: rest =>
    if t.kind = .rightBrace then (pure (.inr (earlier, t.span)) : Attempt _) rest
    else
      (do
        let s ← statement
        pure (.inl (earlier ++ [s])) : Attempt _) (t :: rest)

mutual

/-- Reads one statement. -/
def statement : Nat → Attempt Stmt
  | 0 => exhausted
  | depth + 1 => fun ts =>
    match ts with
    | [] => refuse (.unexpected .statement []) []
    | t :: rest =>
      if t.isKeyword "return" then
        (do
          let value ← returnValue (expression depth 0)
          let span ← (plain (readEnd t.span)).attempt
          pure (.ret span value) : Attempt Stmt) rest
      else if t.isKeyword "if" then conditional depth t.span rest
      else if t.isKeyword "while" then
        (do
          let test ← condition (expression depth 0)
          let (body, close) ← block depth
          pure (.loop (t.span.through close) test body) : Attempt Stmt) rest
      else if t.isKeyword "var" then
        (do
          let e ← declaration (expression depth 0)
          let span ← (plain (readEnd t.span)).attempt
          pure (.expression span e) : Attempt Stmt) rest
      else
        (do
          let e ← expression depth 0
          let span ← (plain (readEnd t.span)).attempt
          pure (.expression span e) : Attempt Stmt) (t :: rest)

/-- Reads an `if` statement whose keyword, at `start`, has been read. -/
def conditional : Nat → Span → Attempt Stmt
  | 0, _ => exhausted
  | depth + 1, start => do
    let test ← condition (expression depth 0)
    let (body, close) ← block depth
    fun ts =>
      match ts with
      | t :: rest =>
        if t.isKeyword "else" then
          (do
            let other ← otherwise depth t.span
            pure (.ifElse (start.through other.span) test body other) : Attempt Stmt) rest
        else (pure (.ifThen (start.through close) test body) : Attempt Stmt) (t :: rest)
      | [] => (pure (.ifThen (start.through close) test body) : Attempt Stmt) []

/-- Reads the branch of an `else` whose keyword, at `start`, has been read. -/
def otherwise : Nat → Span → Attempt Stmt
  | 0, _ => exhausted
  | depth + 1, start => fun ts =>
    match ts with
    | [] => refuse (.unexpected .openBrace []) []
    | t :: rest =>
      if t.isKeyword "if" then
        (do
          let nested ← conditional depth t.span
          pure (.block (start.through nested.span) [nested]) : Attempt Stmt) rest
      else
        (do
          let (body, close) ← block depth
          pure (.block (start.through close) body) : Attempt Stmt) (t :: rest)

/-- Reads statements between braces.  The loop over the statements takes at most as many
rounds as there are tokens, the opening brace being counted. -/
def block : Nat → Attempt (List Stmt × Span)
  | 0 => exhausted
  | depth + 1 => fun ts =>
    (do
      let _ ← (plain (readKind .leftBrace .openBrace)).attempt
      rounds (nextStatement (statement depth)) ts.length [] : Attempt (List Stmt × Span)) ts

end

/-! ## How the readers decide -/

section

variable (depth : Nat) {t : Token} (us : List Token)

/-- The word `return` decides for a return statement. -/
theorem statement_of_return (h : t.isKeyword "return" = true) :
    statement (depth + 1) (t :: us) =
      (do
        let value ← returnValue (expression depth 0)
        let span ← (plain (readEnd t.span)).attempt
        pure (.ret span value) : Attempt Stmt) us := by
  rw [statement]
  simp only [if_pos h]

/-- The word `if` decides for a conditional. -/
theorem statement_of_if (h : t.isKeyword "if" = true) :
    statement (depth + 1) (t :: us) = conditional depth t.span us := by
  have h₁ := isKeyword_eq_false h (show "if" ≠ "return" by decide)
  rw [statement]
  simp only [h₁, Bool.false_eq_true, if_false, if_pos h]

/-- The word `while` decides for a loop. -/
theorem statement_of_while (h : t.isKeyword "while" = true) :
    statement (depth + 1) (t :: us) =
      (do
        let test ← condition (expression depth 0)
        let (body, close) ← block depth
        pure (.loop (t.span.through close) test body) : Attempt Stmt) us := by
  have h₁ := isKeyword_eq_false h (show "while" ≠ "return" by decide)
  have h₂ := isKeyword_eq_false h (show "while" ≠ "if" by decide)
  rw [statement]
  simp only [h₁, h₂, Bool.false_eq_true, if_false, if_pos h]

/-- The word `var` decides for a declaration. -/
theorem statement_of_var (h : t.isKeyword "var" = true) :
    statement (depth + 1) (t :: us) =
      (do
        let e ← declaration (expression depth 0)
        let span ← (plain (readEnd t.span)).attempt
        pure (.expression span e) : Attempt Stmt) us := by
  have h₁ := isKeyword_eq_false h (show "var" ≠ "return" by decide)
  have h₂ := isKeyword_eq_false h (show "var" ≠ "if" by decide)
  have h₃ := isKeyword_eq_false h (show "var" ≠ "while" by decide)
  rw [statement]
  simp only [h₁, h₂, h₃, Bool.false_eq_true, if_false, if_pos h]

/-- Where no word decides, the statement is an expression. -/
theorem statement_of_expression (h : ∀ word ∈ statementWords, t.isKeyword word = false) :
    statement (depth + 1) (t :: us) =
      (do
        let e ← expression depth 0
        let span ← (plain (readEnd t.span)).attempt
        pure (.expression span e) : Attempt Stmt) (t :: us) := by
  have h₁ := h "return" (by decide)
  have h₂ := h "if" (by decide)
  have h₃ := h "while" (by decide)
  have h₄ := h "var" (by decide)
  rw [statement]
  simp only [h₁, h₂, h₃, h₄, Bool.false_eq_true, if_false]

end

/-! ## Parts of statements -/

section

variable {read : Attempt Expr} {ts : List Token}

/-- A condition comes out as it is read where its expression does. -/
theorem condition_comes
    (hread : ∀ us, us.length < ts.length → Comes read (plain (readExpression 0)) us) :
    Comes (condition read) (plain readCondition) ts := by
  rw [plain_readCondition]
  refine .behind fun opening rest hopening => ?_
  have hshorter : rest.length < ts.length := (forget_eq_ok.1 hopening).left
  refine (hread rest hshorter).bind fun e after _ => ?_
  exact .behind fun close left _ => .answer e left

/-- So does what is returned. -/
theorem returnValue_comes (hread : Comes read (plain (readExpression 0)) ts) :
    Comes (returnValue read) (plain readReturnValue) ts := by
  cases hsemicolon : startsWith .semicolon ts with
  | true =>
      refine (Comes.answer none ts).congr ?_ (plain_readReturnValue_of_semicolon hsemicolon)
      simp only [returnValue, hsemicolon, if_true]
  | false =>
      have hvalue : Comes
          (do
            let e ← read
            pure (some e))
          (do
            let e ← plain (readExpression 0)
            pure (some e)) ts := hread.bind fun e rest _ => .answer (some e) rest
      refine hvalue.congr ?_ (plain_readReturnValue_of_value hsemicolon)
      simp only [returnValue, hsemicolon, Bool.false_eq_true, if_false]

/-- So does a declaration. -/
theorem declaration_comes
    (hread : ∀ us, us.length < ts.length → Comes read (plain (readExpression 0)) us) :
    Comes (declaration read) (plain readDeclaration) ts := by
  rw [plain_readDeclaration]
  refine .behind fun v rest hvar => ?_
  have hshorter : rest.length < ts.length := (forget_eq_ok.1 hvar).left
  obtain ⟨v, span⟩ := v
  refine .decided (fun _ => ?_) fun _ => .answer _ rest
  have htail : rest.tail.length < ts.length := by
    rw [List.length_tail]
    omega
  exact (hread rest.tail htail).bind fun value after _ => .answer _ after

end

/-! ## Single rounds -/

/-- The statements that stand behind earlier ones. -/
def statementsAfter (earlier : List Stmt) : Reader (List Stmt × Span) := do
  let (ss, close) ← plain readStatements
  pure (earlier ++ ss, close)

/-- All statements are those behind none. -/
theorem statementsAfter_nil (ts : List Token) :
    plain readStatements ts = statementsAfter [] ts := by
  unfold statementsAfter
  simp only [List.nil_append]
  rw [bind_pure]

/-- A closing brace ends them. -/
theorem statementsAfter_of_close {t : Token} (h : t.kind = .rightBrace) (earlier : List Stmt)
    (us : List Token) : statementsAfter earlier (t :: us) = .ok ((earlier, t.span), us) := by
  show (plain readStatements (t :: us) >>= fun r => _) = _
  rw [plain_readStatements_of_close h]
  exact congrArg (fun ss => Except.ok ((ss, t.span), us)) earlier.append_nil

/-- Any other token begins one more. -/
theorem statementsAfter_of_ne {t : Token} (h : t.kind ≠ .rightBrace) (earlier : List Stmt)
    (us : List Token) :
    statementsAfter earlier (t :: us) =
      (do
        let s ← plain readStatement
        statementsAfter (earlier ++ [s]) : Reader (List Stmt × Span)) (t :: us) := by
  show (plain readStatements (t :: us) >>= fun r => pure ((earlier ++ r.1.1, r.1.2), r.2)) = _
  rw [plain_readStatements_of_ne h]
  show (forget (readStatement (t :: us)) >>= _) >>= _ = forget (readStatement (t :: us)) >>= _
  cases forget (readStatement (t :: us)) with
  | error f => rfl
  | ok r =>
      show (forget (readStatements r.2) >>= _) >>= _ = forget (readStatements r.2) >>= _
      cases forget (readStatements r.2) with
      | error f => rfl
      | ok q => exact congrArg (fun ss => Except.ok ((ss, q.1.2), q.2)) (List.append_cons ..)

/-- One statement of a block, or the end of the block. -/
theorem nextStatement_turn {read : Attempt Stmt} {ts : List Token}
    (hread : Comes read (plain readStatement) ts) (earlier : List Stmt) :
    Turn statementsAfter ts.length (nextStatement read earlier ts)
      (statementsAfter earlier ts) := by
  cases ts with
  | nil =>
      have hreader : statementsAfter earlier [] = .error (.unexpected .closeBrace []) := by
        show (forget (readStatements []) >>= fun r => _) = _
        rw [readStatements]
        rfl
      rw [hreader]
      exact .fails _
  | cons t ts =>
      by_cases hclose : t.kind = .rightBrace
      · rw [statementsAfter_of_close hclose]
        simp only [nextStatement, if_pos hclose]
        exact .ends (earlier, t.span) ts
      · rw [statementsAfter_of_ne hclose]
        simp only [nextStatement, if_neg hclose]
        refine .bind hread fun s rest hs => ?_
        exact .goesOn (earlier ++ [s]) (forget_eq_ok.1 hs).left

/-! ## All rounds -/

/-- A reader that is handed the end of a statement. -/
theorem ends_comes {β : Type} (start : Span) (finish : Span → β) (ts : List Token) :
    Comes
      (do
        let span ← (plain (readEnd start)).attempt
        pure (finish span))
      (do
        let span ← plain (readEnd start)
        pure (finish span)) ts :=
  .behind fun span rest _ => .answer (finish span) rest

mutual

/-- **Three levels more than two for every token are enough for a statement.** -/
theorem statement_comes (depth : Nat) (ts : List Token) (hdepth : 2 * ts.length + 3 ≤ depth) :
    Comes (statement depth) (plain readStatement) ts := by
  cases depth with
  | zero => omega
  | succ depth =>
      cases ts with
      | nil =>
          refine .refused (f := .unexpected .statement []) (by rw [statement]) ?_
          show forget (readStatement []) = _
          rw [readStatement]
          rfl
      | cons t ts =>
          have hlength : (t :: ts).length = ts.length + 1 := rfl
          have hexpression : ∀ us : List Token, us.length ≤ ts.length + 1 →
              Comes (expression depth 0) (plain (readExpression 0)) us :=
            fun us hus => expression_comes depth 0 us (by omega)
          by_cases hreturn : t.isKeyword "return" = true
          · refine .congr ?_ (statement_of_return depth ts hreturn)
              (plain_readStatement_of_return hreturn ts)
            refine (returnValue_comes (hexpression ts (by omega))).bind fun value rest _ => ?_
            exact ends_comes t.span (fun span => Stmt.ret span value) rest
          by_cases hif : t.isKeyword "if" = true
          · exact (conditional_comes depth t.span ts (by omega)).congr
              (statement_of_if depth ts hif) (plain_readStatement_of_if hif ts)
          by_cases hwhile : t.isKeyword "while" = true
          · refine .congr ?_ (statement_of_while depth ts hwhile)
              (plain_readStatement_of_while hwhile ts)
            refine (condition_comes fun us hus => hexpression us (by omega)).bind
              fun test rest htest => ?_
            have hshorter : rest.length < ts.length := (forget_eq_ok.1 htest).left
            exact (block_comes depth rest (by omega)).bind fun body after _ => .answer _ after
          by_cases hvar : t.isKeyword "var" = true
          · refine .congr ?_ (statement_of_var depth ts hvar) (plain_readStatement_of_var hvar ts)
            refine (declaration_comes fun us hus => hexpression us (by omega)).bind
              fun e rest _ => ?_
            exact ends_comes t.span (fun span => Stmt.expression span e) rest
          have hnone : ∀ word ∈ statementWords, t.isKeyword word = false := by
            simp [statementWords, hreturn, hif, hwhile, hvar]
          refine .congr ?_ (statement_of_expression depth ts hnone)
            (plain_readStatement_of_expression hnone ts)
          refine (hexpression (t :: ts) (Nat.le_of_eq hlength)).bind fun e rest _ => ?_
          exact ends_comes t.span (fun span => Stmt.expression span e) rest
termination_by depth

/-- A conditional comes out as it is read. -/
theorem conditional_comes (depth : Nat) (start : Span) (ts : List Token)
    (hdepth : 2 * ts.length + 3 ≤ depth) :
    Comes (conditional depth start) (plain (readIf start)) ts := by
  cases depth with
  | zero => omega
  | succ depth =>
      rw [plain_readIf, conditional]
      refine (condition_comes fun us hus => expression_comes depth 0 us (by omega)).bind
        fun test rest htest => ?_
      have hshorter : rest.length < ts.length := (forget_eq_ok.1 htest).left
      refine (block_comes depth rest (by omega)).bind fun body after hbody => ?_
      have hafter : after.length < rest.length := (forget_eq_ok.1 hbody).left
      obtain ⟨body, close⟩ := body
      cases after with
      | nil => exact .answer _ []
      | cons t after =>
          rw [List.length_cons] at hafter
          have hother : Comes
              (do
                let other ← otherwise depth t.span
                pure (Stmt.ifElse (start.through other.span) test body other))
              (do
                let other ← plain (readElse t.span)
                pure (Stmt.ifElse (start.through other.span) test body other)) after :=
            (otherwise_comes depth t.span after (by omega)).bind fun other left _ =>
              .answer _ left
          by_cases helse : t.isKeyword "else" = true
          · refine hother.congr ?_ ?_
            · simp only [helse, if_true]
            · simp only [elseBehind, helse, if_true]
          · refine (Comes.answer (.ifThen (start.through close) test body) (t :: after)).congr ?_ ?_
            · simp only [helse, Bool.false_eq_true, if_false]
            · simp only [elseBehind, helse, Bool.false_eq_true, if_false]
termination_by depth

/-- So does what stands behind `else`. -/
theorem otherwise_comes (depth : Nat) (start : Span) (ts : List Token)
    (hdepth : 2 * ts.length + 3 ≤ depth) :
    Comes (otherwise depth start) (plain (readElse start)) ts := by
  cases depth with
  | zero => omega
  | succ depth =>
      cases ts with
      | nil =>
          refine .refused (f := .unexpected .openBrace []) (by rw [otherwise]) ?_
          show forget (readElse start []) = _
          rw [readElse]
          rfl
      | cons t ts =>
          have hlength : (t :: ts).length = ts.length + 1 := rfl
          cases hif : t.isKeyword "if" with
          | true =>
              have hnested : Comes
                  (do
                    let nested ← conditional depth t.span
                    pure (Stmt.block (start.through nested.span) [nested]))
                  (do
                    let nested ← plain (readIf t.span)
                    pure (Stmt.block (start.through nested.span) [nested])) ts :=
                (conditional_comes depth t.span ts (by omega)).bind fun nested rest _ =>
                  .answer _ rest
              refine hnested.congr ?_ (plain_readElse_of_if hif ts)
              simp only [otherwise, hif, if_true]
          | false =>
              have hbody : Comes
                  (do
                    let (body, close) ← block depth
                    pure (Stmt.block (start.through close) body))
                  (do
                    let (body, close) ← plain readBlock
                    pure (Stmt.block (start.through close) body)) (t :: ts) :=
                (block_comes depth (t :: ts) (by omega)).bind fun body rest _ => .answer _ rest
              refine hbody.congr ?_ (plain_readElse_of_block hif ts)
              simp only [otherwise, hif, Bool.false_eq_true, if_false]
termination_by depth

/-- So does a block. -/
theorem block_comes (depth : Nat) (ts : List Token) (hdepth : 2 * ts.length + 2 ≤ depth) :
    Comes (block depth) (plain readBlock) ts := by
  cases depth with
  | zero => omega
  | succ depth =>
      rw [plain_readBlock]
      refine .same ?_ (by rw [block])
      refine .behind fun opening rest hopening => ?_
      have hshorter : rest.length < ts.length := (forget_eq_ok.1 hopening).left
      have hloop : Comes (rounds (nextStatement (statement depth)) ts.length [])
          (statementsAfter []) rest := by
        refine rounds_eq (fun earlier us hus => nextStatement_turn ?_ earlier) [] rest hshorter
        exact statement_comes depth us (by omega)
      exact hloop.congr rfl (statementsAfter_nil rest)
termination_by depth

end

end Budget

end Slate
