import Slate.Proofs.Grammar.PromptExpressions

/-!
# Statements are read promptly

The same for declarations and statements.  A statement is decided by its first token, and
so is what stands behind the block of a conditional.  Behind every part that has been read
there is a way to complete the statement, and a way to complete what stands around it: one
closing brace for a block, one semicolon for a statement.
-/

namespace Slate

/-! ## How the readers decide -/

/-- A name with an opening bracket behind it would be an array type, which there is none of. -/
theorem plain_readType_of_bracket {name t : Token} (hk : name.kind = .identifier)
    (ht : t.kind = .leftBracket) (us : List Token) :
    plain readType (name :: t :: us) = .error (.found t.span .arrayType) := by
  show forget (readType (name :: t :: us)) = _
  simp only [readType, readKind, if_pos hk]
  show forget (if t.kind = .leftBracket then _ else _) = _
  rw [if_pos ht]
  rfl

/-- Any other name is a type by itself. -/
theorem plain_readType_of_name {name : Token} {us : List Token} (hk : name.kind = .identifier)
    (h : startsWith .leftBracket us = false) :
    plain readType (name :: us) = .ok ((.named name.text, name.span), us) :=
  forget_eq_ok.2 (reads_type.2 ⟨name, rfl, hk, h, rfl, rfl⟩)

/-- A variable is a name, a colon and a type. -/
theorem plain_readVar :
    plain readVar = (do
      let name ← plain (readKind .identifier .variableName)
      let _ ← plain (readKind .typeIndicator .colon)
      let (type, typeSpan) ← plain readType
      pure (⟨name.text, type⟩, name.span.through typeSpan)) := by
  funext ts
  show forget (readVar ts) = _
  rw [readVar]
  refine forget_bind fun name rest _ => ?_
  refine forget_bind fun colon rest _ => ?_
  exact forget_bind fun type rest _ => rfl

/-- A condition is an expression in parentheses. -/
theorem plain_readCondition :
    plain readCondition = (do
      let _ ← plain (readKind .leftParen .openParen)
      let e ← plain (readExpression 0)
      let _ ← plain (readKind .rightParen .closeParen)
      pure e) := by
  funext ts
  show forget (readCondition ts) = _
  rw [readCondition]
  refine forget_bind fun opening rest _ => ?_
  refine forget_bind fun e rest _ => ?_
  exact forget_bind fun close rest _ => rfl

/-- A statement ends in a semicolon. -/
theorem plain_readEnd (start : Span) :
    plain (readEnd start) = (do
      let semicolon ← plain (readKind .semicolon .semicolon)
      pure (start.through semicolon.span)) := by
  funext ts
  show forget (readEnd start ts) = _
  rw [readEnd]
  exact forget_bind fun semicolon rest _ => rfl

/-- A return statement whose next token ends it has no value. -/
theorem plain_readReturnValue_of_semicolon {us : List Token}
    (h : startsWith .semicolon us = true) : plain readReturnValue us = .ok (none, us) :=
  forget_eq_ok.2 ((reads_returnValue_of_semicolon h).2 ⟨rfl, rfl⟩)

/-- Any other return statement has an expression as its value. -/
theorem plain_readReturnValue_of_value {us : List Token} (h : startsWith .semicolon us = false) :
    plain readReturnValue us =
      (do
        let e ← plain (readExpression 0)
        pure (some e) : Reader (Option Expr)) us := by
  show forget (readReturnValue us) = _
  simp only [readReturnValue, h, Bool.false_eq_true, if_false]
  exact forget_bind fun e rest _ => rfl

/-- What stands behind a declaration: the value that is assigned, or nothing. -/
def valueBehind (declaration : Expr) : Reader Expr := fun ts =>
  if startsWith .assign ts then
    (do
      let value ← plain (readExpression 0)
      pure (InfixOp.assign.tree declaration value) : Reader Expr) ts.tail
  else (pure declaration : Reader Expr) ts

/-- A declaration is a variable, and what is assigned to it if anything is. -/
theorem plain_readDeclaration :
    plain readDeclaration = (do
      let (v, span) ← plain readVar
      valueBehind (.declare (.unchecked span) v)) := by
  funext ts
  show forget (readDeclaration ts) = _
  rw [readDeclaration]
  refine forget_bind fun v rest left => ?_
  cases rest with
  | nil => rfl
  | cons t rest =>
      unfold valueBehind
      by_cases ht : t.kind = .assign
      · simp only [startsWith_cons, ht, decide_true, if_true]
        exact forget_bind fun value rest _ => rfl
      · simp only [startsWith_cons, ht, decide_false, Bool.false_eq_true, if_false]
        rfl

/-- A statement behind its first token, if that is one of the keywords. -/
theorem plain_readStatement_of_return {t : Token} (h : t.isKeyword "return" = true)
    (us : List Token) :
    plain readStatement (t :: us) =
      (do
        let value ← plain readReturnValue
        let span ← plain (readEnd t.span)
        pure (.ret span value) : Reader Stmt) us := by
  show forget (readStatement (t :: us)) = _
  rw [readStatement, if_pos h]
  refine forget_bind fun value rest _ => ?_
  exact forget_bind fun span rest _ => rfl

/-- The word `if` decides for a conditional. -/
theorem plain_readStatement_of_if {t : Token} (h : t.isKeyword "if" = true) (us : List Token) :
    plain readStatement (t :: us) = plain (readIf t.span) us := by
  have h₁ := isKeyword_eq_false h (show "if" ≠ "return" by decide)
  show forget (readStatement (t :: us)) = forget (readIf t.span us)
  simp only [readStatement, h₁, Bool.false_eq_true, if_false, if_pos h]
  cases readIf t.span us <;> rfl

/-- The word `while` decides for a loop. -/
theorem plain_readStatement_of_while {t : Token} (h : t.isKeyword "while" = true)
    (us : List Token) :
    plain readStatement (t :: us) =
      (do
        let condition ← plain readCondition
        let (body, close) ← plain readBlock
        pure (.loop (t.span.through close) condition body) : Reader Stmt) us := by
  have h₁ := isKeyword_eq_false h (show "while" ≠ "return" by decide)
  have h₂ := isKeyword_eq_false h (show "while" ≠ "if" by decide)
  show forget (readStatement (t :: us)) = _
  simp only [readStatement, h₁, h₂, Bool.false_eq_true, if_false, if_pos h]
  refine forget_bind fun condition rest _ => ?_
  exact forget_bind fun body rest _ => rfl

/-- The word `var` decides for a declaration. -/
theorem plain_readStatement_of_var {t : Token} (h : t.isKeyword "var" = true) (us : List Token) :
    plain readStatement (t :: us) =
      (do
        let e ← plain readDeclaration
        let span ← plain (readEnd t.span)
        pure (.expression span e) : Reader Stmt) us := by
  have h₁ := isKeyword_eq_false h (show "var" ≠ "return" by decide)
  have h₂ := isKeyword_eq_false h (show "var" ≠ "if" by decide)
  have h₃ := isKeyword_eq_false h (show "var" ≠ "while" by decide)
  show forget (readStatement (t :: us)) = _
  simp only [readStatement, h₁, h₂, h₃, Bool.false_eq_true, if_false, if_pos h]
  refine forget_bind fun e rest _ => ?_
  exact forget_bind fun span rest _ => rfl

/-- Where no word decides, the statement is an expression. -/
theorem plain_readStatement_of_expression {t : Token}
    (h : ∀ word ∈ statementWords, t.isKeyword word = false) (us : List Token) :
    plain readStatement (t :: us) =
      (do
        let e ← plain (readExpression 0)
        let span ← plain (readEnd t.span)
        pure (.expression span e) : Reader Stmt) (t :: us) := by
  have h₁ := h "return" (by decide)
  have h₂ := h "if" (by decide)
  have h₃ := h "while" (by decide)
  have h₄ := h "var" (by decide)
  show forget (readStatement (t :: us)) = _
  simp only [readStatement, h₁, h₂, h₃, h₄, Bool.false_eq_true, if_false]
  refine forget_bind fun e rest _ => ?_
  exact forget_bind fun span rest _ => rfl

/-- What stands behind the block of a conditional: a further branch, or nothing. -/
def elseBehind (start close : Span) (condition : Expr) (body : List Stmt) : Reader Stmt :=
  fun ts =>
    match ts with
    | t :: rest =>
      if t.isKeyword "else" then
        (do
          let other ← plain (readElse t.span)
          pure (.ifElse (start.through other.span) condition body other) : Reader Stmt) rest
      else (pure (.ifThen (start.through close) condition body) : Reader Stmt) (t :: rest)
    | [] => (pure (.ifThen (start.through close) condition body) : Reader Stmt) []

/-- A conditional is a condition, a block, and what may stand behind the block. -/
theorem plain_readIf (start : Span) :
    plain (readIf start) = (do
      let condition ← plain readCondition
      let (body, close) ← plain readBlock
      elseBehind start close condition body) := by
  funext ts
  show forget (readIf start ts) = _
  rw [readIf]
  refine forget_bind fun condition rest _ => ?_
  refine forget_bind fun body rest left => ?_
  cases rest with
  | nil => rfl
  | cons t rest =>
      unfold elseBehind
      by_cases ht : t.isKeyword "else" = true
      · simp only [ht, if_true]
        exact forget_bind fun other rest _ => rfl
      · simp only [ht, Bool.false_eq_true, if_false]
        rfl

/-- Behind `else`, the word `if` decides for a nested conditional. -/
theorem plain_readElse_of_if {start : Span} {t : Token} (h : t.isKeyword "if" = true)
    (us : List Token) :
    plain (readElse start) (t :: us) =
      (do
        let nested ← plain (readIf t.span)
        pure (.block (start.through nested.span) [nested]) : Reader Stmt) us := by
  show forget (readElse start (t :: us)) = _
  simp only [readElse, if_pos h]
  exact forget_bind fun nested rest _ => rfl

/-- Any other token behind `else` is taken for the beginning of a block. -/
theorem plain_readElse_of_block {start : Span} {t : Token} (h : t.isKeyword "if" = false)
    (us : List Token) :
    plain (readElse start) (t :: us) =
      (do
        let (body, close) ← plain readBlock
        pure (.block (start.through close) body) : Reader Stmt) (t :: us) := by
  show forget (readElse start (t :: us)) = _
  simp only [readElse, h, Bool.false_eq_true, if_false]
  exact forget_bind fun body rest _ => rfl

/-- A block is its opening brace and the statements behind it. -/
theorem plain_readBlock :
    plain readBlock = (do
      let _ ← plain (readKind .leftBrace .openBrace)
      plain readStatements) := by
  funext ts
  show forget (readBlock ts) = _
  rw [readBlock]
  refine forget_bind fun opening rest _ => ?_
  show _ = forget (readStatements rest)
  dsimp only
  cases readStatements rest <;> rfl

/-- A closing brace ends the statements. -/
theorem plain_readStatements_of_close {t : Token} (h : t.kind = .rightBrace) (us : List Token) :
    plain readStatements (t :: us) = .ok (([], t.span), us) :=
  forget_eq_ok.2 ((reads_statements_of_close h).2 ⟨rfl, rfl, rfl⟩)

/-- Any other token is taken for the beginning of a statement. -/
theorem plain_readStatements_of_ne {t : Token} (h : t.kind ≠ .rightBrace) (us : List Token) :
    plain readStatements (t :: us) =
      (do
        let s ← plain readStatement
        let (ss, close) ← plain readStatements
        pure (s :: ss, close) : Reader (List Stmt × Span)) (t :: us) := by
  show forget (readStatements (t :: us)) = _
  rw [readStatements, if_neg h]
  refine forget_bind fun s rest _ => ?_
  exact forget_bind fun ss rest _ => rfl

/-! ## How phrases are opened -/

section

variable {t : Token} {us : List Token}

/-- Behind its parenthesis, what opens an expression opens a condition. -/
theorem OpensPhrase.condition (ht : t.kind = .leftParen)
    (h : OpensPhrase (DerivesExpr .assignment) us) : OpensPhrase DerivesCondition (t :: us) :=
  h.inside [t] [.sample .rightParen ")"] (by simp [ht]) (by simp [Token.sample])
    fun part e he => ⟨e, .parens ht he rfl⟩

/-- The block that a completion ends with. -/
def sampleBlock : List Token := [.sample .leftBrace "\x7b", .sample .rightBrace "\x7d"]

/-- The sample is an empty block. -/
theorem derives_sampleBlock : DerivesBlock sampleBlock [] :=
  .braces rfl .nil rfl

/-- No number stands in the sample. -/
theorem numbersFit_sampleBlock : NumbersFit sampleBlock := by
  simp [sampleBlock, Token.sample]

/-- Behind its brace, what opens statements opens a block. -/
theorem OpensPhrase.block (ht : t.kind = .leftBrace) (h : OpensPhrase DerivesStmts us) :
    OpensPhrase DerivesBlock (t :: us) :=
  h.inside [t] [.sample .rightBrace "\x7d"] (by simp [ht]) (by simp [Token.sample])
    fun part ss hss => ⟨ss, .braces ht hss rfl⟩

/-- A block can begin anywhere. -/
theorem opensBlock_nil : OpensPhrase DerivesBlock [] :=
  OpensPhrase.shorten sampleBlock (.whole derives_sampleBlock numbersFit_sampleBlock)

/-- A condition can begin anywhere. -/
theorem opensCondition_nil : OpensPhrase DerivesCondition [] :=
  OpensPhrase.shorten [_]
    (OpensPhrase.condition (t := .sample .leftParen "(") rfl (opensExpr_nil _))

/-- Behind `return`, what opens an expression opens a statement. -/
theorem OpensPhrase.returned (ht : t.isKeyword "return" = true)
    (h : OpensPhrase (DerivesExpr .assignment) us) : OpensPhrase DerivesStmt (t :: us) :=
  h.inside [t] [.sample .semicolon ";"] (by simp [kind_of_isKeyword ht])
    (by simp [Token.sample]) fun part e he => ⟨_, .retValue ht he rfl⟩

/-- Behind `while`, what opens a condition opens a statement. -/
theorem OpensPhrase.loopTest (ht : t.isKeyword "while" = true)
    (h : OpensPhrase DerivesCondition us) : OpensPhrase DerivesStmt (t :: us) :=
  h.inside [t] sampleBlock (by simp [kind_of_isKeyword ht]) numbersFit_sampleBlock
    fun part c hc => ⟨_, show DerivesStmt (t :: (part ++ sampleBlock)) _ from
      .loop ht hc derives_sampleBlock⟩

/-- Behind the condition of a loop, what opens a block opens a statement. -/
theorem OpensPhrase.loopBody {cs : List Token} {c : Expr} (ht : t.isKeyword "while" = true)
    (hc : DerivesCondition cs c) (hfit : NumbersFit cs) (h : OpensPhrase DerivesBlock us) :
    OpensPhrase DerivesStmt (t :: (cs ++ us)) :=
  h.inside (t :: cs) [] (by simp [kind_of_isKeyword ht, hfit]) numbersFit_nil
    fun part body hbody => ⟨_, by simpa using DerivesStmt.loop ht hc hbody⟩

/-- Behind `var`, what opens a variable opens a statement. -/
theorem OpensPhrase.declared (ht : t.isKeyword "var" = true) (h : OpensPhrase DerivesVar us) :
    OpensPhrase DerivesStmt (t :: us) :=
  h.inside [t] [.sample .semicolon ";"] (by simp [kind_of_isKeyword ht])
    (by simp [Token.sample]) fun part v hv => ⟨_, .declare ht hv rfl⟩

/-- Behind a declared variable and a sign of assignment, what opens an expression opens a statement.
-/
theorem OpensPhrase.declaredValue {sign : Token} {vs : List Token} {v : Var}
    (ht : t.isKeyword "var" = true) (hv : DerivesVar vs v) (hfit : NumbersFit vs)
    (hsign : sign.kind = .assign) (h : OpensPhrase (DerivesExpr .assignment) us) :
    OpensPhrase DerivesStmt (t :: (vs ++ sign :: us)) := by
  have hopens : OpensPhrase DerivesStmt (t :: (vs ++ [sign]) ++ us) :=
    h.inside (t :: (vs ++ [sign])) [.sample .semicolon ";"]
      (by simp [kind_of_isKeyword ht, hfit, hsign]) (by simp [Token.sample]) fun part e he =>
        ⟨_, by simpa using DerivesStmt.declareValue ht hv hsign he rfl⟩
  simpa using hopens

/-- What opens an expression opens a statement. -/
theorem OpensPhrase.statementExpr (h : OpensPhrase (DerivesExpr .assignment) us) :
    OpensPhrase DerivesStmt us :=
  h.inside [] [.sample .semicolon ";"] numbersFit_nil (by simp [Token.sample])
    fun part e he => ⟨_, .expression he rfl⟩

/-- What opens a conditional opens a statement. -/
theorem OpensPhrase.branch (h : OpensPhrase DerivesIf us) : OpensPhrase DerivesStmt us := by
  obtain ⟨more, s, hs, hfit⟩ := h
  exact ⟨more, s, .branch hs, hfit⟩

/-- Behind `if`, what opens a condition opens a conditional. -/
theorem OpensPhrase.ifTest (ht : t.isKeyword "if" = true) (h : OpensPhrase DerivesCondition us) :
    OpensPhrase DerivesIf (t :: us) :=
  h.inside [t] sampleBlock (by simp [kind_of_isKeyword ht]) numbersFit_sampleBlock
    fun part c hc => ⟨_, show DerivesIf (t :: (part ++ sampleBlock)) _ from
      .ifThen ht hc derives_sampleBlock⟩

/-- Behind the condition, what opens a block opens a conditional. -/
theorem OpensPhrase.ifBody {cs : List Token} {c : Expr} (ht : t.isKeyword "if" = true)
    (hc : DerivesCondition cs c) (hfit : NumbersFit cs) (h : OpensPhrase DerivesBlock us) :
    OpensPhrase DerivesIf (t :: (cs ++ us)) :=
  h.inside (t :: cs) [] (by simp [kind_of_isKeyword ht, hfit]) numbersFit_nil
    fun part body hbody => ⟨_, by simpa using DerivesIf.ifThen ht hc hbody⟩

/-- Behind the block and `else`, what opens an alternative opens a conditional. -/
theorem OpensPhrase.otherwise {u : Token} {cs bs : List Token} {c : Expr} {body : List Stmt}
    (ht : t.isKeyword "if" = true) (hc : DerivesCondition cs c) (hb : DerivesBlock bs body)
    (hfit : NumbersFit cs) (hfit' : NumbersFit bs) (hu : u.isKeyword "else" = true)
    (h : OpensPhrase DerivesElse us) : OpensPhrase DerivesIf (t :: (cs ++ (bs ++ u :: us))) := by
  have hopens : OpensPhrase DerivesIf (t :: (cs ++ (bs ++ [u])) ++ us) :=
    h.inside (t :: (cs ++ (bs ++ [u]))) []
      (by simp [kind_of_isKeyword ht, kind_of_isKeyword hu, hfit, hfit']) numbersFit_nil
      fun part other ho => ⟨_, by simpa using DerivesIf.ifElse ht hc hb hu ho⟩
  simpa using hopens

/-- What opens a conditional opens an alternative. -/
theorem OpensPhrase.elseIf (h : OpensPhrase DerivesIf us) : OpensPhrase DerivesElse us := by
  obtain ⟨more, s, hs, hfit⟩ := h
  exact ⟨more, _, .nested hs, hfit⟩

/-- What opens a block opens an alternative. -/
theorem OpensPhrase.elseBlock (h : OpensPhrase DerivesBlock us) : OpensPhrase DerivesElse us := by
  obtain ⟨more, body, hbody, hfit⟩ := h
  exact ⟨more, _, .block hbody, hfit⟩

/-- Statements can begin anywhere: there may be none. -/
theorem opensStatements_nil : OpensPhrase DerivesStmts [] :=
  .whole .nil numbersFit_nil

/-- What opens a statement opens statements. -/
theorem OpensPhrase.firstStatement (h : OpensPhrase DerivesStmt us) :
    OpensPhrase DerivesStmts us :=
  h.inside [] [] numbersFit_nil numbersFit_nil
    fun part s hs => ⟨[s], by simpa using DerivesStmts.cons hs .nil⟩

/-- Behind a statement, what opens statements opens statements. -/
theorem OpensPhrase.otherStatements {ts : List Token} {s : Stmt} (hs : DerivesStmt ts s)
    (hfit : NumbersFit ts) (h : OpensPhrase DerivesStmts us) :
    OpensPhrase DerivesStmts (ts ++ us) :=
  h.inside ts [] hfit numbersFit_nil
    fun part ss hss => ⟨_, by simpa using DerivesStmts.cons hs hss⟩

end

/-! ## Reading declarations -/

/-- A fault of a single token that is not of the kind. -/
theorem SyntaxFault.found_at (t : Token) (ts : List Token) (cause : SyntaxCause) :
    (found t.span cause).At (t :: ts) :=
  ⟨t, List.mem_cons_self, rfl⟩

/-- A type can begin anywhere. -/
theorem opensType_nil : OpensPhrase DerivesType [] :=
  OpensPhrase.shorten [_]
    (.whole (.name (t := .sample .identifier "i32") rfl) (by simp [Token.sample]))

/-- Types are read promptly. -/
theorem type_prompt (ts : List Token) : Prompt (OpensPhrase DerivesType) (plain readType) ts := by
  have hkind : ∀ us, (plain readType) us = (do
      let name ← plain (readKind .identifier .typeName)
      fun rest => plain readType (name :: rest) : Reader (Ty × Span)) us := by
    intro us
    cases us with
    | nil => rfl
    | cons name us =>
        show _ = (plain (readKind .identifier .typeName) (name :: us)).bind _
        by_cases hk : name.kind = .identifier
        · rw [plain_kind_eq_ok.2 ⟨rfl, hk⟩]
          rfl
        · simp only [plain, readType, readKind, if_neg hk]
          rfl
  refine Prompt.congr (fun us _ => hkind us) ?_
  refine .token opensType_nil ?_
  intro name rest hts hk
  cases hbracket : startsWith .leftBracket rest with
  | true =>
      cases rest with
      | nil => cases hbracket
      | cons t rest =>
          have ht : t.kind = .leftBracket := kind_of_startsWith hbracket
          refine Prompt.refuse ?_ (SyntaxFault.found_at t rest .arrayType)
            (.whole (.name hk) (by simp [hk]))
          intro us hus
          obtain ⟨more, rfl⟩ := List.head?_eq_some_iff.1 hus
          exact plain_readType_of_bracket hk ht more
  | false =>
      refine Prompt.congr (s := pure (.named name.text, name.span)) ?_ (.answer _ _)
      exact fun us hus => plain_readType_of_name hk ((startsWith_of_head _ hus).trans hbracket)

/-- Behind a name and a colon, what opens a type opens a variable. -/
theorem OpensPhrase.typed {name colon : Token} {us : List Token} (hk : name.kind = .identifier)
    (hc : colon.kind = .typeIndicator) (h : OpensPhrase DerivesType us) :
    OpensPhrase DerivesVar (name :: colon :: us) :=
  h.inside [name, colon] [] (by simp [hk, hc]) numbersFit_nil
    fun part type htype => ⟨_, by simpa using DerivesVar.typed hk hc htype⟩

/-- A name opens its declaration. -/
theorem opensVar_name (name : Token) (hk : name.kind = .identifier) :
    OpensPhrase DerivesVar [name] :=
  OpensPhrase.shorten [.sample .typeIndicator ":"] (OpensPhrase.typed hk rfl opensType_nil)

/-- A variable can begin anywhere. -/
theorem opensVar_nil : OpensPhrase DerivesVar [] :=
  OpensPhrase.shorten [_] (opensVar_name (.sample .identifier "x") rfl)

/-- Variables are read promptly. -/
theorem var_prompt (ts : List Token) : Prompt (OpensPhrase DerivesVar) (plain readVar) ts := by
  rw [plain_readVar]
  refine .token opensVar_nil ?_
  intro name afterName hts hk
  refine .token (opensVar_name name hk) ?_
  intro colon afterColon hts hc
  refine (type_prompt afterColon).bind ?_ ?_
  · exact fun us _ _ hus => hus.typed hk hc
  · exact fun type used rest _ _ => .answer _ _

/-- Conditions are read promptly. -/
theorem condition_prompt (ts : List Token) :
    Prompt (OpensPhrase DerivesCondition) (plain readCondition) ts := by
  rw [plain_readCondition]
  refine .token opensCondition_nil ?_
  intro opening rest hts ho
  refine (expression_prompt 0 rest).bind ?_ ?_
  · exact fun us _ _ hus => hus.condition ho
  · intro e used rest' hread hts
    obtain ⟨before, hbefore, he, hfit, _⟩ := expression_derivable (forget_eq_ok.1 hread)
    obtain rfl := used_eq hts hbefore
    have hopen := (OpensPhrase.whole he hfit).condition ho
    exact .token (by simpa using hopen) fun close rest _ _ => .answer _ _

/-- The semicolon behind a statement that has been read up to it. -/
theorem end_prompt {β : Type} {Opens : List Token → Prop} (start : Span) (answer : Span → β)
    (ts : List Token) (hopens : Opens []) :
    Prompt Opens (plain (readEnd start) >>= fun span => pure (answer span)) ts := by
  rw [plain_readEnd, bind_assoc]
  exact .token hopens fun semicolon rest _ _ => .answer _ _

/-- What is returned is read promptly, behind `return`. -/
theorem returnValue_prompt {t : Token} (ht : t.isKeyword "return" = true) (ts : List Token) :
    Prompt (fun us => OpensPhrase DerivesStmt (t :: us)) (plain readReturnValue) ts := by
  cases hsemicolon : startsWith .semicolon ts with
  | true =>
      refine Prompt.congr (s := pure none) ?_ (.answer _ _)
      exact fun us hus =>
        plain_readReturnValue_of_semicolon ((startsWith_of_head _ hus).trans hsemicolon)
  | false =>
      refine Prompt.congr (fun us hus =>
        plain_readReturnValue_of_value ((startsWith_of_head _ hus).trans hsemicolon)) ?_
      refine (expression_prompt 0 ts).bind ?_ ?_
      · exact fun us _ _ hus => hus.returned ht
      · exact fun e used rest _ _ => .answer _ _

/-- What is read behind `return` opens the statement. -/
theorem opensReturn {t : Token} (ht : t.isKeyword "return" = true) {ts used rest : List Token}
    {value : Option Expr} (hread : plain readReturnValue ts = .ok (value, rest))
    (hts : ts = used ++ rest) : OpensPhrase DerivesStmt (t :: used) := by
  have hreads := forget_eq_ok.1 hread
  cases hsemicolon : startsWith .semicolon ts with
  | true =>
      obtain ⟨_, hrest⟩ := (reads_returnValue_of_semicolon hsemicolon).1 hreads
      obtain rfl := used_eq hts (show ts = [] ++ rest from hrest.symm)
      exact OpensPhrase.returned ht (opensExpr_nil _)
  | false =>
      obtain ⟨e, he, _⟩ := (reads_returnValue_of_value hsemicolon).1 hreads
      obtain ⟨before, hbefore, hexpr, hfit, _⟩ := expression_derivable he
      obtain rfl := used_eq hts hbefore
      exact (OpensPhrase.whole hexpr hfit).returned ht

/-- Declarations are read promptly, behind `var`. -/
theorem declaration_prompt {t : Token} (ht : t.isKeyword "var" = true) (ts : List Token) :
    Prompt (fun us => OpensPhrase DerivesStmt (t :: us)) (plain readDeclaration) ts := by
  rw [plain_readDeclaration]
  refine (var_prompt ts).bind ?_ ?_
  · exact fun us _ _ hus => hus.declared ht
  · intro r used rest hread hts
    obtain ⟨v, span⟩ := r
    obtain ⟨before, hbefore, hv, hfit⟩ := var_derivable (forget_eq_ok.1 hread)
    obtain rfl := used_eq hts hbefore
    cases hassign : startsWith .assign rest with
    | true =>
        cases rest with
        | nil => cases hassign
        | cons sign rest =>
            have hsign : sign.kind = .assign := kind_of_startsWith hassign
            refine Prompt.skip (s := do
              let value ← plain (readExpression 0)
              pure (InfixOp.assign.tree (.declare (.unchecked span) v) value)) ?_ ?_
            · intro us
              simp only [valueBehind, startsWith_cons, hsign, decide_true, if_true,
                List.tail_cons]
            · refine (expression_prompt 0 rest).bind ?_ ?_
              · exact fun us _ _ hus => hus.declaredValue ht hv hfit hsign
              · exact fun value used rest _ _ => .answer _ _
    | false =>
        refine Prompt.congr (s := pure (.declare (.unchecked span) v)) ?_ (.answer _ _)
        intro us hus
        have hno := (startsWith_of_head _ hus).trans hassign
        simp only [valueBehind, hno, Bool.false_eq_true, if_false]

/-- What is read behind `var` opens the statement. -/
theorem opensDeclaration {t : Token} (ht : t.isKeyword "var" = true) {ts used rest : List Token}
    {e : Expr} (hread : plain readDeclaration ts = .ok (e, rest)) (hts : ts = used ++ rest) :
    OpensPhrase DerivesStmt (t :: used) := by
  obtain ⟨v, span, middle, hvar, hmore⟩ := reads_declaration.1 (forget_eq_ok.1 hread)
  obtain ⟨vs, hvs, hv, hfit⟩ := var_derivable hvar
  rcases hmore with ⟨_, _, rfl⟩ | ⟨sign, after, value, rfl, hsign, hvalue, _⟩
  · obtain rfl := used_eq hts hvs
    exact (OpensPhrase.whole hv hfit).declared ht
  · obtain ⟨es, rfl, he, hfit', _⟩ := expression_derivable hvalue
    obtain rfl := used_eq hts (show ts = (vs ++ sign :: es) ++ rest by simp [hvs])
    exact (OpensPhrase.whole he hfit').declaredValue ht hv hfit hsign

/-! ## Reading statements -/

mutual

/-- **Statements are read promptly.** -/
theorem statement_prompt (ts : List Token) :
    Prompt (OpensPhrase DerivesStmt) (plain readStatement) ts := by
  cases ts with
  | nil =>
      refine Prompt.refuse ?_ (SyntaxFault.unexpected_at .statement [])
        (OpensPhrase.statementExpr (opensExpr_nil _))
      intro us hus
      rw [List.head?_eq_none_iff.1 hus]
      show forget (readStatement []) = _
      rw [readStatement]
      rfl
  | cons t ts =>
      by_cases hret : t.isKeyword "return" = true
      · refine Prompt.skip (plain_readStatement_of_return hret) ?_
        refine (returnValue_prompt hret ts).bind (fun _ _ _ h => h) ?_
        intro value used rest hread hts
        exact end_prompt _ _ _ (by simpa using opensReturn hret hread hts)
      · by_cases hif : t.isKeyword "if" = true
        · refine Prompt.skip (plain_readStatement_of_if hif) ?_
          exact (if_prompt hif ts).mono fun us _ _ hus => hus.branch
        · by_cases hwhile : t.isKeyword "while" = true
          · refine Prompt.skip (plain_readStatement_of_while hwhile) ?_
            refine (condition_prompt ts).bind (fun us _ _ hus => hus.loopTest hwhile) ?_
            intro c used rest hread hts
            have hreads := forget_eq_ok.1 hread
            have hshorter : rest.length < ts.length := hreads.left
            obtain ⟨before, hbefore, hc, hfit⟩ := condition_derivable hreads
            obtain rfl := used_eq hts hbefore
            refine (block_prompt rest).bind (fun us _ _ hus => hus.loopBody hwhile hc hfit) ?_
            exact fun body used rest _ _ => .answer _ _
          · by_cases hvar : t.isKeyword "var" = true
            · refine Prompt.skip (plain_readStatement_of_var hvar) ?_
              refine (declaration_prompt hvar ts).bind (fun _ _ _ h => h) ?_
              intro e used rest hread hts
              exact end_prompt _ _ _ (by simpa using opensDeclaration hvar hread hts)
            · have hwords : ∀ word ∈ statementWords, t.isKeyword word = false := by
                simp [statementWords, hret, hif, hwhile, hvar]
              refine Prompt.congr (s := do
                let e ← plain (readExpression 0)
                let span ← plain (readEnd t.span)
                pure (.expression span e)) ?_ ?_
              · intro us hus
                obtain ⟨more, rfl⟩ := List.head?_eq_some_iff.1 hus
                exact plain_readStatement_of_expression hwords more
              · refine (expression_prompt 0 (t :: ts)).bind
                  (fun us _ _ hus => hus.statementExpr) ?_
                intro e used rest hread hts
                obtain ⟨before, hbefore, he, hfit, _⟩ := expression_derivable (forget_eq_ok.1 hread)
                obtain rfl := used_eq hts hbefore
                have hopen := (OpensPhrase.whole he hfit).statementExpr
                exact end_prompt _ _ _ (by simpa using hopen)
termination_by 2 * ts.length

/-- Conditionals are read promptly, behind `if`. -/
theorem if_prompt {t : Token} {start : Span} (ht : t.isKeyword "if" = true) (ts : List Token) :
    Prompt (fun us => OpensPhrase DerivesIf (t :: us)) (plain (readIf start)) ts := by
  rw [plain_readIf]
  refine (condition_prompt ts).bind (fun us _ _ hus => hus.ifTest ht) ?_
  intro c used rest hread hts
  have hreads := forget_eq_ok.1 hread
  have hshorter : rest.length < ts.length := hreads.left
  obtain ⟨before, hbefore, hc, hfit⟩ := condition_derivable hreads
  obtain rfl := used_eq hts hbefore
  refine (block_prompt rest).bind (fun us _ _ hus => hus.ifBody ht hc hfit) ?_
  intro r used' after hread hts
  obtain ⟨body, close⟩ := r
  have hreads := forget_eq_ok.1 hread
  have hshorter' : after.length < rest.length := hreads.left
  obtain ⟨before, hbefore, hb, hfit'⟩ := block_derivable hreads
  obtain rfl := used_eq hts hbefore
  have hend : ∀ us, startsWithWord "else" us = false →
      elseBehind start close c body us = .ok (.ifThen (start.through close) c body, us) := by
    intro us hus
    unfold elseBehind
    cases us with
    | nil => rfl
    | cons u us =>
        have hu : u.isKeyword "else" = false := hus
        simp only [hu, Bool.false_eq_true, if_false]
        rfl
  cases after with
  | nil =>
      refine Prompt.congr (s := pure (.ifThen (start.through close) c body)) ?_ (.answer _ _)
      intro us hus
      rw [List.head?_eq_none_iff.1 hus]
      exact hend [] rfl
  | cons u after =>
      by_cases hu : u.isKeyword "else" = true
      · refine Prompt.skip (s := do
          let other ← plain (readElse u.span)
          pure (.ifElse (start.through other.span) c body other)) ?_ ?_
        · intro us
          simp only [elseBehind, hu, if_true]
        · have hafter : after.length < (u :: after).length := Nat.lt_succ_self _
          refine (else_prompt after).bind
            (fun us _ _ hus => hus.otherwise ht hc hb hfit hfit' hu) ?_
          exact fun other used rest _ _ => .answer _ _
      · refine Prompt.congr (s := pure (.ifThen (start.through close) c body)) ?_ (.answer _ _)
        intro us hus
        obtain ⟨more, rfl⟩ := List.head?_eq_some_iff.1 hus
        exact hend (u :: more) (Bool.eq_false_iff.2 hu)
termination_by 2 * ts.length

/-- Alternatives are read promptly. -/
theorem else_prompt {start : Span} (ts : List Token) :
    Prompt (OpensPhrase DerivesElse) (plain (readElse start)) ts := by
  cases ts with
  | nil =>
      refine Prompt.refuse ?_ (SyntaxFault.unexpected_at .openBrace []) opensBlock_nil.elseBlock
      intro us hus
      rw [List.head?_eq_none_iff.1 hus]
      show forget (readElse start []) = _
      rw [readElse]
      rfl
  | cons t ts =>
      by_cases hif : t.isKeyword "if" = true
      · refine Prompt.skip (plain_readElse_of_if hif) ?_
        refine (if_prompt hif ts).bind (fun us _ _ hus => hus.elseIf) ?_
        exact fun nested used rest _ _ => .answer _ _
      · refine Prompt.congr (s := do
          let (body, close) ← plain readBlock
          pure (.block (start.through close) body)) ?_ ?_
        · intro us hus
          obtain ⟨more, rfl⟩ := List.head?_eq_some_iff.1 hus
          exact plain_readElse_of_block (Bool.eq_false_iff.2 hif) more
        · refine (block_prompt (t :: ts)).bind (fun us _ _ hus => hus.elseBlock) ?_
          exact fun body used rest _ _ => .answer _ _
termination_by 2 * ts.length + 1

/-- Blocks are read promptly. -/
theorem block_prompt (ts : List Token) :
    Prompt (OpensPhrase DerivesBlock) (plain readBlock) ts := by
  rw [plain_readBlock]
  refine .token opensBlock_nil ?_
  intro opening rest hts ho
  have hshorter : rest.length < ts.length := by
    rw [hts]
    exact Nat.lt_succ_self _
  exact (statements_prompt rest).mono fun us _ _ hus => hus.block ho
termination_by 2 * ts.length

/-- Statements are read promptly, with the brace behind them. -/
theorem statements_prompt (ts : List Token) :
    Prompt (OpensPhrase DerivesStmts) (plain readStatements) ts := by
  cases ts with
  | nil =>
      refine Prompt.refuse ?_ (SyntaxFault.unexpected_at .closeBrace []) opensStatements_nil
      intro us hus
      rw [List.head?_eq_none_iff.1 hus]
      show forget (readStatements []) = _
      rw [readStatements]
      rfl
  | cons t ts =>
      by_cases hclose : t.kind = .rightBrace
      · exact Prompt.skip (s := pure ([], t.span)) (plain_readStatements_of_close hclose)
          (.answer _ _)
      · refine Prompt.congr (s := do
          let s ← plain readStatement
          let (ss, close) ← plain readStatements
          pure (s :: ss, close)) ?_ ?_
        · intro us hus
          obtain ⟨more, rfl⟩ := List.head?_eq_some_iff.1 hus
          exact plain_readStatements_of_ne hclose more
        · refine (statement_prompt (t :: ts)).bind (fun us _ _ hus => hus.firstStatement) ?_
          intro s used rest hread hts
          have hreads := forget_eq_ok.1 hread
          have hshorter : rest.length < ts.length + 1 := hreads.left
          obtain ⟨before, hbefore, hs, hfit⟩ := statement_derivable hreads
          obtain rfl := used_eq hts hbefore
          refine (statements_prompt rest).bind
            (fun us _ _ hus => hus.otherStatements hs hfit) ?_
          exact fun ss used rest _ _ => .answer _ _
termination_by 2 * ts.length + 1

end

end Slate
