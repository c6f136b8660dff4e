import Slate.Proofs.Grammar.PromptExpressions

/-!
# Reading by recursive descent

The reader of expressions knows no levels.  Here is a reader that knows nothing else: it has
a procedure for every level, and each of them reads what its production says, as far as it
goes.

    assignment      :=  equality ('=' assignment)?
    equality        :=  additive (('==' | '!=') additive)*
    additive        :=  multiplicative (('+' | '-') multiplicative)*
    multiplicative  :=  unary ('*' unary)*
    unary           :=  ('-' | '!' | '~') unary  |  primary

No binding power occurs in it (`Descent.phrase`).
-/

namespace Slate

/-- The prefix operator that a token is, if it is one. -/
def UnaryOp.ofToken? (t : Token) : Option UnaryOp :=
  if t.kind = .operator then ofSymbol? t.text else none

/-- The operator of a level that a token is, if it is one. -/
def BinaryOp.ofToken? (level : Level) (t : Token) : Option BinaryOp :=
  match InfixOp.ofToken? t with
  | some (.binary op) => if op.level = level then some op else none
  | _ => none

/-- A token is an operator of a level if it signs one. -/
theorem BinaryOp.ofToken?_eq_some {level : Level} {t : Token} {op : BinaryOp} :
    ofToken? level t = some op ↔ (InfixOp.binary op).Signs t ∧ op.level = level := by
  rw [← Slate.ofToken?_eq_some, ofToken?]
  cases InfixOp.ofToken? t with
  | none => simp
  | some other =>
      cases other with
      | assign => simp
      | binary other =>
          by_cases hlevel : other.level = level
          · simp only [if_pos hlevel, Option.some.injEq, InfixOp.binary.injEq]
            constructor
            · rintro rfl
              exact ⟨rfl, hlevel⟩
            · exact And.left
          · simp only [if_neg hlevel, Option.some.injEq, InfixOp.binary.injEq]
            constructor
            · intro h
              cases h
            · rintro ⟨rfl, h⟩
              exact absurd h hlevel

/-- A token is a unary operator exactly if it has the operator's symbol. -/
theorem UnaryOp.ofToken?_eq_some {t : Token} {op : UnaryOp} :
    ofToken? t = some op ↔ t.IsOperator op.symbol := by
  unfold ofToken? Token.IsOperator
  split
  · next hkind => rw [ofSymbol?_eq_some, and_iff_right hkind]
  · next hkind => simp [hkind]

namespace Descent

/-- What stands behind the first token is no longer. -/
theorem length_tail_le (ts : List Token) : ts.tail.length ≤ ts.length := by
  rw [List.length_tail]
  exact Nat.sub_le _ _

mutual

/-- Reads a phrase of a level. -/
def phrase (level : Level) (ts : List Token) : Reading Expr ts :=
  match level with
  | .assignment => do
    let (left, ⟨rest, _⟩) ← phrase .equality ts
    let (e, ⟨rest, _⟩) ← assigned left rest
    pure (e, ⟨rest, by omega⟩)
  | .equality => do
    let (left, ⟨rest, _⟩) ← phrase .additive ts
    let (e, ⟨rest, _⟩) ← joined .equality left rest
    pure (e, ⟨rest, by omega⟩)
  | .additive => do
    let (left, ⟨rest, _⟩) ← phrase .multiplicative ts
    let (e, ⟨rest, _⟩) ← joined .additive left rest
    pure (e, ⟨rest, by omega⟩)
  | .multiplicative => do
    let (left, ⟨rest, _⟩) ← phrase .unary ts
    let (e, ⟨rest, _⟩) ← joined .multiplicative left rest
    pure (e, ⟨rest, by omega⟩)
  | .unary =>
    match ts with
    | [] => primary []
    | t :: rest =>
      match UnaryOp.ofToken? t with
      | some op => do
        let (operand, afterOperand) ← phrase .unary rest
        pure (.unary (.unchecked (t.span.through operand.span)) op operand,
          afterOperand.within Rest.le_cons)
      | none => primary (t :: rest)
  | .primary => primary ts
termination_by (ts.length, 6 - level.rank)
decreasing_by all_goals first | decreasing_tactic | exact .right _ (by decide)

/-- Reads the assigned value behind a left side, if there is one. -/
def assigned (left : Expr) (ts : List Token) :
    Except SyntaxFault (Expr × { rest : List Token // rest.length ≤ ts.length }) :=
  match ts with
  | [] => pure (left, ⟨[], Nat.le_refl _⟩)
  | t :: rest =>
    if t.kind = .assign then do
      let (right, ⟨afterRight, shorter⟩) ← phrase .assignment rest
      pure (InfixOp.assign.tree left right,
        ⟨afterRight, Rest.le_cons_trans (Nat.le_refl _) shorter⟩)
    else pure (left, ⟨t :: rest, Nat.le_refl _⟩)
termination_by (ts.length, 0)

/-- Reads the operators of a level and their right operands, as long as there are any. -/
def joined (level : Level) (left : Expr) (ts : List Token) :
    Except SyntaxFault (Expr × { rest : List Token // rest.length ≤ ts.length }) :=
  match ts with
  | [] => pure (left, ⟨[], Nat.le_refl _⟩)
  | t :: rest =>
    match BinaryOp.ofToken? level t with
    | some op => do
      let (right, ⟨afterRight, shorter⟩) ← phrase level.next rest
      let (e, ⟨afterAll, noLonger⟩) ← joined level ((InfixOp.binary op).tree left right) afterRight
      pure (e, ⟨afterAll, Rest.le_cons_trans noLonger shorter⟩)
    | none => pure (left, ⟨t :: rest, Nat.le_refl _⟩)
termination_by (ts.length, 0)

/-- Reads parentheses, a call or an expression of one token. -/
def primary (ts : List Token) : Reading Expr ts :=
  match ts with
  | [] => .error (.unexpected .expression [])
  | t :: rest =>
    if t.kind = .leftParen then do
      let (e, ⟨afterInner, shorter⟩) ← phrase .assignment rest
      let (_, afterClose) ← readKind .rightParen .closeParen afterInner
      pure (e, afterClose.within (Rest.le_cons_trans (Nat.le_refl _) shorter))
    else if t.kind = .identifier ∧ startsWith .leftParen rest then do
      let ((args, close), afterArgs) ← arguments rest.tail
      pure (.call (.unchecked (t.span.through close)) t.text args,
        afterArgs.within (Nat.le_succ_of_le (length_tail_le rest)))
    else do
      let e ← readAtom t
      pure (e, ⟨rest, Nat.lt_succ_self _⟩)
termination_by (ts.length, 0)

/-- Reads the arguments of a call, if there are any, and the closing parenthesis. -/
def arguments (ts : List Token) : Reading (List Expr × Span) ts :=
  match ts with
  | [] => moreArguments []
  | t :: rest =>
    if t.kind = .rightParen then pure (([], t.span), ⟨rest, Nat.lt_succ_self _⟩)
    else moreArguments (t :: rest)
termination_by (ts.length, 8)

/-- Reads an argument, the further ones and the closing parenthesis. -/
def moreArguments (ts : List Token) : Reading (List Expr × Span) ts := do
  let (e, ⟨rest, shorter⟩) ← phrase .assignment ts
  if startsWith .comma rest then do
    have shorterTail : rest.tail.length < ts.length :=
      Nat.lt_of_le_of_lt (length_tail_le rest) shorter
    let ((es, close), afterMore) ← moreArguments rest.tail
    pure ((e :: es, close), afterMore.within (Nat.le_of_lt shorterTail))
  else do
    let (close, afterClose) ← readKind .rightParen .commaOrCloseParen rest
    pure (([e], close.span), afterClose.within (Nat.le_of_lt shorter))
termination_by (ts.length, 7)

end

/-! ## What the procedures do -/

/-- At the weakest level, an assignment may stand behind what is compared. -/
theorem plain_phrase_assignment :
    plain (phrase .assignment) = (do
      let left ← plain (phrase .equality)
      plain (assigned left)) := by
  funext ts
  show forget (phrase .assignment ts) = _
  rw [phrase]
  refine forget_bind fun left rest _ => ?_
  show _ = forget (assigned left rest)
  dsimp only
  cases assigned left rest <;> rfl

/-- At the level of a binary operator, operators of it may stand behind the first operand. -/
theorem plain_phrase_joined (op : BinaryOp) :
    plain (phrase op.level) = (do
      let left ← plain (phrase op.level.next)
      plain (joined op.level left)) := by
  funext ts
  show forget (phrase op.level ts) = _
  cases op <;>
  · simp only [BinaryOp.level, Level.next]
    rw [phrase]
    refine forget_bind fun left rest _ => ?_
    show _ = forget (joined _ left rest)
    dsimp only
    cases joined _ left rest <;> rfl

/-- A unary operator is read with the operand behind it. -/
theorem plain_phrase_unary_of_operator {t : Token} {op : UnaryOp} (hop : t.IsOperator op.symbol)
    (us : List Token) :
    plain (phrase .unary) (t :: us) = (do
      let operand ← plain (phrase .unary)
      pure (.unary (.unchecked (t.span.through operand.span)) op operand) : Reader Expr) us := by
  have hsome : UnaryOp.ofToken? t = some op := by
    rw [UnaryOp.ofToken?, if_pos hop.1, ofSymbol?_eq_some.2 hop.2]
  show forget (phrase .unary (t :: us)) = _
  rw [phrase]
  simp only [hsome]
  exact forget_bind fun operand rest _ => rfl

/-- Where no unary operator stands, a primary expression is read. -/
theorem plain_phrase_unary_of_none {t : Token} (hnone : UnaryOp.ofToken? t = none)
    (us : List Token) : plain (phrase .unary) (t :: us) = plain primary (t :: us) := by
  show forget (phrase .unary (t :: us)) = forget (primary (t :: us))
  rw [phrase]
  simp only [hnone]

/-- Behind a sign of assignment, the value is read at the same level: assignments group to the
right. -/
theorem plain_assigned_of_sign {t : Token} {left : Expr} (hsign : t.kind = .assign)
    (us : List Token) :
    plain (assigned left) (t :: us) = (do
      let right ← plain (phrase .assignment)
      pure (InfixOp.assign.tree left right) : Reader Expr) us := by
  show forget (assigned left (t :: us)) = _
  rw [assigned, if_pos hsign]
  exact forget_bind fun right rest _ => rfl

/-- Behind an operator of the level, the right operand is read at the next one: the operators group
to the left. -/
theorem plain_joined_of_operator {level : Level} {t : Token} {left : Expr} {op : BinaryOp}
    (hop : BinaryOp.ofToken? level t = some op) (us : List Token) :
    plain (joined level left) (t :: us) = (do
      let right ← plain (phrase level.next)
      plain (joined level ((InfixOp.binary op).tree left right)) : Reader Expr) us := by
  show forget (joined level left (t :: us)) = _
  rw [joined]
  simp only [hop]
  refine forget_bind fun right rest _ => ?_
  show _ = forget (joined level ((InfixOp.binary op).tree left right) rest)
  cases joined level ((InfixOp.binary op).tree left right) rest <;> rfl

theorem plain_joined_nil (level : Level) (left : Expr) :
    plain (joined level left) [] = .ok (left, []) := by
  show forget (joined level left []) = _
  rw [joined]
  rfl

/-- At any other token the operators of the level end. -/
theorem plain_joined_of_none {level : Level} {t : Token} {left : Expr}
    (hnone : BinaryOp.ofToken? level t = none) (us : List Token) :
    plain (joined level left) (t :: us) = .ok (left, t :: us) := by
  show forget (joined level left (t :: us)) = _
  rw [joined]
  simp only [hnone]
  rfl

theorem plain_assigned_nil (left : Expr) : plain (assigned left) [] = .ok (left, []) := by
  show forget (assigned left []) = _
  rw [assigned]
  rfl

/-- At any other token there is no assignment. -/
theorem plain_assigned_of_ne {t : Token} {left : Expr} (hsign : t.kind ≠ .assign)
    (us : List Token) : plain (assigned left) (t :: us) = .ok (left, t :: us) := by
  show forget (assigned left (t :: us)) = _
  rw [assigned, if_neg hsign]
  rfl

/-- An expression is missing at the end of the tokens. -/
theorem plain_phrase_unary_nil :
    plain (phrase .unary) [] = .error (.unexpected .expression []) := by
  show forget (phrase .unary []) = _
  rw [phrase, primary]
  rfl

/-- An opening parenthesis begins an expression that is closed again. -/
theorem plain_primary_of_paren {t : Token} (hkind : t.kind = .leftParen) (us : List Token) :
    plain primary (t :: us) = (do
      let e ← plain (phrase .assignment)
      let _ ← plain (readKind .rightParen .closeParen)
      pure e : Reader Expr) us := by
  show forget (primary (t :: us)) = _
  rw [primary, if_pos hkind]
  refine forget_bind fun e rest _ => ?_
  exact forget_bind fun close rest _ => rfl

/-- A name with an opening parenthesis behind it is a call. -/
theorem plain_primary_of_call {t paren : Token} (hkind : t.kind = .identifier)
    (hparen : paren.kind = .leftParen) (us : List Token) :
    plain primary (t :: paren :: us) = (do
      let (args, close) ← plain arguments
      pure (.call (.unchecked (t.span.through close)) t.text args) : Reader Expr) us := by
  have hcall : t.kind = .identifier ∧ startsWith .leftParen (paren :: us) := by
    simp [hkind, hparen, startsWith_cons]
  show forget (primary (t :: paren :: us)) = _
  rw [primary, if_neg (by simp [hkind]), if_pos hcall]
  exact forget_bind fun args rest _ => rfl

/-- Any other token is an atom by itself. -/
theorem plain_primary_of_atom {t : Token} {us : List Token} (hp : t.kind ≠ .leftParen)
    (hc : t.kind = .identifier → startsWith .leftParen us = false) :
    plain primary (t :: us) = (readAtom t).map fun e => (e, us) := by
  have hcall : ¬ (t.kind = .identifier ∧ startsWith .leftParen us = true) := by
    rintro ⟨hk, hstarts⟩
    rw [hc hk] at hstarts
    cases hstarts
  show forget (primary (t :: us)) = _
  rw [primary, if_neg hp, if_neg hcall]
  cases readAtom t <;> rfl

/-- A closing parenthesis ends a list of no arguments. -/
theorem plain_arguments_of_close {t : Token} (hkind : t.kind = .rightParen) (us : List Token) :
    plain arguments (t :: us) = .ok (([], t.span), us) := by
  show forget (arguments (t :: us)) = _
  rw [arguments, if_pos hkind]
  rfl

/-- Any other token is taken for the beginning of the first argument. -/
theorem plain_arguments_of_ne {us : List Token} (h : startsWith .rightParen us = false) :
    plain arguments us = plain moreArguments us := by
  show forget (arguments us) = forget (moreArguments us)
  cases us with
  | nil => rw [arguments]
  | cons t us =>
      have hne : t.kind ≠ .rightParen := kind_ne_of_startsWith h
      rw [arguments, if_neg hne]

/-- Behind an argument there is a comma and the next one, or the closing parenthesis. -/
theorem plain_moreArguments :
    plain moreArguments = (do
      let e ← plain (phrase .assignment)
      fun rest =>
        if startsWith .comma rest then
          (do
            let (es, close) ← plain moreArguments
            pure (e :: es, close) : Reader (List Expr × Span)) rest.tail
        else
          (do
            let close ← plain (readKind .rightParen .commaOrCloseParen)
            pure ([e], close.span) : Reader (List Expr × Span)) rest) := by
  funext ts
  show forget (moreArguments ts) = _
  rw [moreArguments]
  refine forget_bind fun e rest left => ?_
  dsimp only
  split
  · exact forget_bind fun es rest _ => rfl
  · exact forget_bind fun close rest _ => rfl

end Descent

end Slate
