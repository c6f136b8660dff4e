import Slate.Proofs.Grammar.PromptFunctions
import Slate.Proofs.Grammar.Relocated

/-!
# Reading programs moves with the tokens

The same for declarations, statements, functions and programs.  Readers that are handed the
place of a keyword, such as `readIf`, are handed the moved place on the moved tokens; what
they are handed ends up in the span of a tree and nowhere else.
-/

namespace Slate

variable {move : Position → Position}

/-! ## Types and variables -/

/-- What is read together with its span, which is moved. -/
def spannedRelocated (move : Position → Position) {α : Type} (r : α × Span) : α × Span :=
  (r.1, r.2.relocated move)

/-- A type is read from moved tokens as it was, with its span moved. -/
theorem type_moves (ts : List Token) :
    Moves move (spannedRelocated move) (plain readType) (plain readType) ts := by
  cases ts with
  | nil => rfl
  | cons t ts =>
      by_cases hk : t.kind = .identifier
      · have hk' : (t.relocated move).kind = .identifier := hk
        cases hbracket : startsWith .leftBracket ts with
        | false =>
            have hbracket' := (startsWith_relocated move _ ts).trans hbracket
            exact .answered rfl (plain_readType_of_name hk hbracket)
              (plain_readType_of_name hk' hbracket')
        | true =>
            cases ts with
            | nil => cases hbracket
            | cons u ts =>
                have hu : u.kind = .leftBracket := kind_of_startsWith hbracket
                have hu' : (u.relocated move).kind = .leftBracket := hu
                exact .refused (plain_readType_of_bracket hk hu ts)
                  (plain_readType_of_bracket hk' hu' _)
      · have hrefused : ∀ (u : Token) us, u.kind ≠ .identifier →
            plain readType (u :: us) = .error (.unexpected .typeName (u :: us)) := by
          intro u us hu
          show forget (readType (u :: us)) = _
          simp only [readType, readKind, if_neg hu]
          rfl
        refine .refused (hrefused t ts hk) ?_
        rw [← SyntaxFault.unexpected_relocated]
        exact hrefused (t.relocated move) _ hk

/-- So is a variable. -/
theorem var_moves (ts : List Token) :
    Moves move (spannedRelocated move) (plain readVar) (plain readVar) ts := by
  rw [plain_readVar]
  refine .token fun name rest => ?_
  refine .token fun colon rest => ?_
  exact (type_moves rest).bind fun type rest _ => .answer rfl

/-! ## Parts of statements -/

/-- A condition is read from moved tokens as it was. -/
theorem condition_moves (ts : List Token) :
    Moves move (Expr.relocated move) (plain readCondition) (plain readCondition) ts := by
  rw [plain_readCondition]
  refine .token fun opening rest => ?_
  refine (expression_moves 0 rest).bind fun e rest _ => ?_
  exact .token fun close rest => .answer rfl

/-- So is the end of a statement. -/
theorem end_moves (start : Span) (ts : List Token) :
    Moves move (Span.relocated move) (plain (readEnd start))
      (plain (readEnd (start.relocated move))) ts := by
  rw [plain_readEnd, plain_readEnd]
  exact .token fun semicolon rest => .answer rfl

/-- So is what is returned. -/
theorem returnValue_moves (ts : List Token) :
    Moves move (Option.map (Expr.relocated move)) (plain readReturnValue) (plain readReturnValue)
      ts := by
  have hstarts := startsWith_relocated move .semicolon ts
  cases hsemicolon : startsWith .semicolon ts with
  | true =>
      rw [hsemicolon] at hstarts
      exact .answered rfl (plain_readReturnValue_of_semicolon hsemicolon)
        (plain_readReturnValue_of_semicolon hstarts)
  | false =>
      rw [hsemicolon] at hstarts
      refine .congr ?_ (plain_readReturnValue_of_value hsemicolon)
        (plain_readReturnValue_of_value hstarts)
      exact (expression_moves 0 ts).bind fun e rest _ => .answer rfl

/-- So is a declaration. -/
theorem declaration_moves (ts : List Token) :
    Moves move (Expr.relocated move) (plain readDeclaration) (plain readDeclaration) ts := by
  rw [plain_readDeclaration]
  refine (var_moves ts).bind fun v rest _ => ?_
  have hstarts := startsWith_relocated move .assign rest
  cases hassign : startsWith .assign rest with
  | true =>
      rw [hassign] at hstarts
      have hvalue : Moves move (Expr.relocated move)
          (do
            let value ← plain (readExpression 0)
            pure (InfixOp.assign.tree (.declare (.unchecked v.2) v.1) value))
          (do
            let value ← plain (readExpression 0)
            pure (InfixOp.assign.tree (.declare (.unchecked (v.2.relocated move)) v.1) value))
          rest.tail :=
        (expression_moves 0 rest.tail).bind fun value left _ =>
          .answer (InfixOp.assign.relocated_tree (.declare (.unchecked v.2) v.1) value)
      refine hvalue.congr ?_ ?_
      · simp only [valueBehind, hassign, if_true]
      · simp only [valueBehind, hstarts, if_true, ← List.map_tail]
        rfl
  | false =>
      rw [hassign] at hstarts
      have hnone : Moves move (Expr.relocated move) (pure (.declare (.unchecked v.2) v.1))
          (pure (.declare (.unchecked (v.2.relocated move)) v.1)) rest :=
        .answer rfl
      refine hnone.congr ?_ ?_
      · simp only [valueBehind, hassign, Bool.false_eq_true, if_false]
      · simp only [valueBehind, hstarts, Bool.false_eq_true, if_false]
        rfl

/-! ## Statements -/

/-- Statements and the place where they are closed, moved. -/
def closedBodyRelocated (move : Position → Position) (r : List Stmt × Span) :
    List Stmt × Span :=
  (relocatedBody move r.1, r.2.relocated move)

mutual

/-- **The readers of statements move.** -/
theorem statement_moves (ts : List Token) :
    Moves move (Stmt.relocated move) (plain readStatement) (plain readStatement) ts := by
  cases ts with
  | nil =>
      have hread : plain readStatement [] = .error (.unexpected .statement []) := by
        show forget (readStatement []) = _
        rw [readStatement]
        rfl
      exact .refused hread hread
  | cons t ts =>
      by_cases hret : t.isKeyword "return" = true
      · have hret' : (t.relocated move).isKeyword "return" = true := hret
        refine .congr ?_ (plain_readStatement_of_return hret ts)
          (plain_readStatement_of_return hret' _)
        refine (returnValue_moves ts).bind fun value rest _ => ?_
        exact (end_moves t.span rest).bind fun span rest _ => .answer rfl
      · by_cases hif : t.isKeyword "if" = true
        · have hif' : (t.relocated move).isKeyword "if" = true := hif
          exact .congr (if_moves t.span ts) (plain_readStatement_of_if hif ts)
            (plain_readStatement_of_if hif' _)
        · by_cases hwhile : t.isKeyword "while" = true
          · have hwhile' : (t.relocated move).isKeyword "while" = true := hwhile
            refine .congr ?_ (plain_readStatement_of_while hwhile ts)
              (plain_readStatement_of_while hwhile' _)
            refine (condition_moves ts).bind fun condition rest hread => ?_
            have hshorter : rest.length < ts.length := (forget_eq_ok.1 hread).left
            exact (block_moves rest).bind fun body rest _ => .answer rfl
          · by_cases hvar : t.isKeyword "var" = true
            · have hvar' : (t.relocated move).isKeyword "var" = true := hvar
              refine .congr ?_ (plain_readStatement_of_var hvar ts)
                (plain_readStatement_of_var hvar' _)
              refine (declaration_moves ts).bind fun e rest _ => ?_
              exact (end_moves t.span rest).bind fun span rest _ => .answer rfl
            · have hwords : ∀ word ∈ statementWords, t.isKeyword word = false := by
                simp [statementWords, hret, hif, hwhile, hvar]
              have hwords' : ∀ word ∈ statementWords, (t.relocated move).isKeyword word = false :=
                hwords
              refine .congr ?_ (plain_readStatement_of_expression hwords ts)
                (plain_readStatement_of_expression hwords' _)
              refine (expression_moves 0 (t :: ts)).bind fun e rest _ => ?_
              exact (end_moves t.span rest).bind fun span rest _ => .answer rfl
termination_by 2 * ts.length

/-- So is a conditional. -/
theorem if_moves (start : Span) (ts : List Token) :
    Moves move (Stmt.relocated move) (plain (readIf start))
      (plain (readIf (start.relocated move))) ts := by
  rw [plain_readIf, plain_readIf]
  refine (condition_moves ts).bind fun condition rest hread => ?_
  have hshorter : rest.length < ts.length := (forget_eq_ok.1 hread).left
  refine (block_moves rest).bind fun body after hread => ?_
  have hshorter' : after.length < rest.length := (forget_eq_ok.1 hread).left
  obtain ⟨body, close⟩ := body
  have halone : ∀ us, Moves move (Stmt.relocated move)
      (pure (.ifThen (start.through close) condition body))
      (pure (.ifThen ((start.through close).relocated move) (condition.relocated move)
        (relocatedBody move body))) us :=
    fun us => .answer rfl
  cases after with
  | nil => exact halone []
  | cons t after =>
      show Moves move (Stmt.relocated move) (elseBehind start close condition body)
        (elseBehind (start.relocated move) (close.relocated move) (condition.relocated move)
          (relocatedBody move body)) (t :: after)
      by_cases helse : t.isKeyword "else" = true
      · have hafter : after.length < (t :: after).length := Nat.lt_succ_self _
        have helse' : (t.relocated move).isKeyword "else" = true := helse
        have hother : Moves move (Stmt.relocated move)
            (do
              let other ← plain (readElse t.span)
              pure (.ifElse (start.through other.span) condition body other))
            (do
              let other ← plain (readElse (t.span.relocated move))
              pure (.ifElse ((start.relocated move).through other.span) (condition.relocated move)
                (relocatedBody move body) other)) after :=
          (else_moves t.span after).bind fun other left _ =>
            .answer (by rw [other.span_relocated]; rfl)
        refine hother.congr ?_ ?_
        · simp only [elseBehind, helse, if_true]
        · simp only [elseBehind, List.map_cons, helse', if_true]
          rfl
      · have helse' : ¬ (t.relocated move).isKeyword "else" = true := helse
        refine (halone (t :: after)).congr ?_ ?_
        · simp only [elseBehind, helse, Bool.false_eq_true, if_false]
        · simp only [elseBehind, List.map_cons, helse', Bool.false_eq_true, if_false]
          rfl
termination_by 2 * ts.length

/-- So is what stands behind `else`. -/
theorem else_moves (start : Span) (ts : List Token) :
    Moves move (Stmt.relocated move) (plain (readElse start))
      (plain (readElse (start.relocated move))) ts := by
  cases ts with
  | nil =>
      have hread : ∀ place, plain (readElse place) [] = .error (.unexpected .openBrace []) := by
        intro place
        show forget (readElse place []) = _
        rw [readElse]
        rfl
      exact .refused (hread start) (hread (start.relocated move))
  | cons t ts =>
      cases hif : t.isKeyword "if" with
      | true =>
          have hif' : (t.relocated move).isKeyword "if" = true := hif
          refine .congr ?_ (plain_readElse_of_if hif ts) (plain_readElse_of_if hif' _)
          refine (if_moves t.span ts).bind fun nested rest _ => .answer ?_
          rw [nested.span_relocated]
          rfl
      | false =>
          have hif' : (t.relocated move).isKeyword "if" = false := hif
          refine .congr ?_ (plain_readElse_of_block hif ts)
            (plain_readElse_of_block hif' _)
          exact (block_moves (t :: ts)).bind fun body rest _ => .answer rfl
termination_by 2 * ts.length + 1

/-- So is a block. -/
theorem block_moves (ts : List Token) :
    Moves move (closedBodyRelocated move) (plain readBlock) (plain readBlock) ts := by
  rw [plain_readBlock]
  refine (kind_moves .leftBrace .openBrace ts).bind fun opening rest hread => ?_
  have hshorter : rest.length < ts.length := (forget_eq_ok.1 hread).left
  exact statements_move rest
termination_by 2 * ts.length

/-- So are the statements up to a closing brace. -/
theorem statements_move (ts : List Token) :
    Moves move (closedBodyRelocated move) (plain readStatements) (plain readStatements) ts := by
  cases ts with
  | nil =>
      have hread : plain readStatements [] = .error (.unexpected .closeBrace []) := by
        show forget (readStatements []) = _
        rw [readStatements]
        rfl
      exact .refused hread hread
  | cons t ts =>
      by_cases hclose : t.kind = .rightBrace
      · have hclose' : (t.relocated move).kind = .rightBrace := hclose
        exact .answered rfl (plain_readStatements_of_close hclose ts)
          (plain_readStatements_of_close hclose' _)
      · have hclose' : (t.relocated move).kind ≠ .rightBrace := hclose
        refine .congr ?_ (plain_readStatements_of_ne hclose ts)
          (plain_readStatements_of_ne hclose' _)
        refine (statement_moves (t :: ts)).bind fun s rest hread => ?_
        have hshorter : rest.length < (t :: ts).length := (forget_eq_ok.1 hread).left
        exact (statements_move rest).bind fun ss left _ => .answer rfl
termination_by 2 * ts.length + 1
decreasing_by all_goals omega

end

/-! ## Functions -/

/-- Parameters have no span of their own and stay the same. -/
theorem parameters_move (earlier : List String) (ts : List Token) :
    Moves move id (plain (readParameters earlier)) (plain (readParameters earlier)) ts := by
  rw [plain_readParameters]
  refine (var_moves ts).bind fun v rest hread => ?_
  have hshorter : rest.length < ts.length := (forget_eq_ok.1 hread).left
  obtain ⟨v, span⟩ := v
  show Moves move id (if v.name ∈ earlier then fun _ => .error (.found span .argumentRepeated)
      else parametersBehind earlier v)
    (if v.name ∈ earlier then fun _ => .error (.found (span.relocated move) .argumentRepeated)
      else parametersBehind earlier v) rest
  by_cases hname : v.name ∈ earlier
  · rw [if_pos hname, if_pos hname]
    exact .refused rfl rfl
  · rw [if_neg hname, if_neg hname]
    unfold parametersBehind
    have hstarts := startsWith_relocated move .comma rest
    cases hcomma : startsWith .comma rest with
    | true =>
        rw [hcomma] at hstarts
        have htail : rest.tail.length < ts.length := by
          rw [List.length_tail]
          omega
        have hmore : Moves move id
            (do
              let vs ← plain (readParameters (v.name :: earlier))
              pure (v :: vs))
            (do
              let vs ← plain (readParameters (v.name :: earlier))
              pure (v :: vs)) rest.tail :=
          (parameters_move (v.name :: earlier) rest.tail).bind fun vs left _ => .answer rfl
        refine hmore.congr ?_ ?_
        · simp only [hcomma, if_true]
        · simp only [hstarts, if_true, ← List.map_tail]
    | false =>
        rw [hcomma] at hstarts
        have hlast : Moves move id (pure [v]) (pure [v]) rest := .answer rfl
        refine hlast.congr ?_ ?_
        · simp only [hcomma, Bool.false_eq_true, if_false]
        · simp only [hstarts, Bool.false_eq_true, if_false]
termination_by ts.length

/-- The list of the parameters has the span of its closing parenthesis, which moves. -/
theorem argumentList_moves (ts : List Token) :
    Moves move (spannedRelocated move) (plain readArgumentList) (plain readArgumentList) ts := by
  rw [plain_readArgumentList]
  refine .token fun opening rest => ?_
  have hstarts := startsWith_relocated move .rightParen rest
  cases hclose : startsWith .rightParen rest with
  | true =>
      rw [hclose] at hstarts
      have hnone : Moves move (spannedRelocated move)
          (do
            let close ← plain (readKind .rightParen .commaOrCloseParen)
            pure (([] : List Var), close.span))
          (do
            let close ← plain (readKind .rightParen .commaOrCloseParen)
            pure ([], close.span)) rest :=
        .token fun close left => .answer rfl
      refine hnone.congr ?_ ?_
      · simp only [parametersInside, hclose, if_true]
      · simp only [parametersInside, hstarts, if_true]
  | false =>
      rw [hclose] at hstarts
      have hsome : Moves move (spannedRelocated move)
          (do
            let vs ← plain (readParameters [])
            let close ← plain (readKind .rightParen .commaOrCloseParen)
            pure (vs, close.span))
          (do
            let vs ← plain (readParameters [])
            let close ← plain (readKind .rightParen .commaOrCloseParen)
            pure (vs, close.span)) rest :=
        (parameters_move [] rest).bind fun vs left _ => .token fun close left => .answer rfl
      refine hsome.congr ?_ ?_
      · simp only [parametersInside, hclose, Bool.false_eq_true, if_false]
      · simp only [parametersInside, hstarts, Bool.false_eq_true, if_false]

/-- The name of a function stays the same. -/
theorem functionName_moves (taken : List String) (ts : List Token) :
    Moves move id (plain (readFunctionName taken)) (plain (readFunctionName taken)) ts := by
  have hname : plain (readFunctionName taken) = (do
      let name ← plain (readKind .identifier .functionName)
      if name.text = syscallName then fun _ => .error (.found name.span .reservedName)
      else if name.text ∈ taken then fun _ => .error (.found name.span .functionRedefined)
      else pure name.text) := by
    funext us
    show forget (readFunctionName taken us) = _
    rw [readFunctionName]
    refine forget_bind fun name rest _ => ?_
    by_cases hreserved : name.text = syscallName
    · simp only [if_pos hreserved]
      rfl
    · by_cases htaken : name.text ∈ taken
      · simp only [if_neg hreserved, if_pos htaken]
        rfl
      · simp only [if_neg hreserved, if_neg htaken]
        rfl
  rw [hname]
  refine .token fun name rest => ?_
  show Moves move id
    (if name.text = syscallName then fun _ => .error (.found name.span .reservedName)
      else if name.text ∈ taken then fun _ => .error (.found name.span .functionRedefined)
      else pure name.text)
    (if name.text = syscallName then
        fun _ => .error (.found (name.span.relocated move) .reservedName)
      else if name.text ∈ taken then
        fun _ => .error (.found (name.span.relocated move) .functionRedefined)
      else pure name.text) rest
  by_cases hreserved : name.text = syscallName
  · rw [if_pos hreserved, if_pos hreserved]
    exact .refused rfl rfl
  · rw [if_neg hreserved, if_neg hreserved]
    by_cases htaken : name.text ∈ taken
    · rw [if_pos htaken, if_pos htaken]
      exact .refused rfl rfl
    · rw [if_neg htaken, if_neg htaken]
      exact .answer rfl

/-- A body moves with its tokens. -/
theorem body_moves (builtin : Bool) (ts : List Token) :
    Moves move (relocatedBody move) (plain (readBody builtin)) (plain (readBody builtin)) ts := by
  cases builtin with
  | false =>
      rw [plain_readBody_of_block]
      exact (block_moves ts).bind fun body rest _ => .answer rfl
  | true =>
      cases ts with
      | nil => rfl
      | cons t ts =>
          by_cases hbrace : t.kind = .leftBrace
          · have hrefused : ∀ (u : Token) us, u.kind = .leftBrace →
                plain (readBody true) (u :: us) = .error (.found u.span .builtinWithBody) := by
              intro u us hu
              refine forget_eq_error.2 ?_
              simp only [readBody, if_true, if_pos hu]
            exact .refused (hrefused t ts hbrace) (hrefused (t.relocated move) _ hbrace)
          · have hends : ∀ (u : Token) us, u.kind ≠ .leftBrace → plain (readBody true) (u :: us) =
                (do
                  let _ ← plain (readKind .semicolon .semicolon)
                  pure [] : Reader (List Stmt)) (u :: us) := by
              intro u us hu
              show forget (readBody true (u :: us)) = _
              simp only [readBody, if_true, if_neg hu]
              exact forget_bind fun semicolon rest _ => rfl
            refine .congr ?_ (hends t ts hbrace) (hends (t.relocated move) _ hbrace)
            exact .token fun semicolon rest => .answer rfl

/-- So does what stands behind the mark of a function. -/
theorem signatureAndBody_moves (taken : List String) (builtin : Bool) (start : Span)
    (ts : List Token) :
    Moves move (Function.relocated move) (plain (readSignatureAndBody taken builtin start))
      (plain (readSignatureAndBody taken builtin (start.relocated move))) ts := by
  rw [plain_readSignatureAndBody, plain_readSignatureAndBody]
  refine (type_moves ts).bind fun result rest _ => ?_
  refine (functionName_moves taken rest).bind fun name rest _ => ?_
  refine (argumentList_moves rest).bind fun arguments rest _ => ?_
  exact (body_moves builtin rest).bind fun body rest _ => .answer rfl

/-- So does a function. -/
theorem function_moves (taken : List String) (ts : List Token) :
    Moves move (Function.relocated move) (plain (readFunction taken)) (plain (readFunction taken))
      ts := by
  cases ts with
  | nil => rfl
  | cons t ts =>
      cases hbuiltin : t.isKeyword "builtin" with
      | true =>
          have hbuiltin' : (t.relocated move).isKeyword "builtin" = true := hbuiltin
          exact .congr (signatureAndBody_moves taken true t.span ts)
            (plain_readFunction_of_builtin hbuiltin ts) (plain_readFunction_of_builtin hbuiltin' _)
      | false =>
          have hbuiltin' : (t.relocated move).isKeyword "builtin" = false := hbuiltin
          exact .congr (signatureAndBody_moves taken false t.span (t :: ts))
            (plain_readFunction_of_block hbuiltin ts) (plain_readFunction_of_block hbuiltin' _)

/-! ## Programs -/

/-- Function definitions are read as `readFunction` reads them. -/
theorem readFunctions_eq (taken : List String) (t : Token) (ts : List Token) :
    readFunctions taken (t :: ts) = (do
      let (f, rest) ← plain (readFunction taken) (t :: ts)
      let fs ← readFunctions (f.name :: taken) rest
      pure (f :: fs)) := by
  rw [readFunctions]
  unfold plain
  cases readFunction taken (t :: ts) <;> rfl

/-- So do all functions of a program, and its error if there is one. -/
theorem readFunctions_relocated (taken : List String) (ts : List Token) :
    readFunctions taken (ts.map (Token.relocated move)) =
      resultRelocated move (List.map (Function.relocated move)) (readFunctions taken ts) := by
  cases ts with
  | nil =>
      rw [List.map_nil, readFunctions]
      rfl
  | cons t ts =>
      have hfirst : Moves move (Function.relocated move) _ _ (t :: ts) :=
        function_moves taken (t :: ts)
      unfold Moves at hfirst
      rw [List.map_cons] at hfirst ⊢
      rw [readFunctions_eq, readFunctions_eq, hfirst]
      cases hread : plain (readFunction taken) (t :: ts) with
      | error f => rfl
      | ok r =>
          have hshorter : r.2.length < (t :: ts).length :=
            (forget_eq_ok.1 (show _ = Except.ok (r.1, r.2) from hread)).left
          have hothers := readFunctions_relocated (r.1.name :: taken) r.2
          show (readFunctions (r.1.name :: taken) (r.2.map (Token.relocated move)) >>= fun fs =>
              pure (r.1.relocated move :: fs)) =
            resultRelocated move _ (readFunctions (r.1.name :: taken) r.2 >>= fun fs =>
              pure (r.1 :: fs))
          rw [hothers]
          cases readFunctions (r.1.name :: taken) r.2 <;> rfl
termination_by ts.length
decreasing_by exact hshorter

end Slate
