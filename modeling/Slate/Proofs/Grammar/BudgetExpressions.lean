import Slate.Proofs.Grammar.Budget
import Slate.Proofs.Grammar.PromptExpressions

/-!
# Expressions within a budget

Expressions, with a count of the levels that phrases may still lie inside each other.  Two
loops read lists: one the operators behind an operand, the other the arguments of a call.

An expression and its first operand start at the same token, and so does an argument of a
call; so a call of a reader does not always leave fewer tokens.  It leaves fewer tokens or
goes from an expression to its operand, and two levels for every token are enough
(`expression_comes`).
-/

namespace Slate

namespace Budget

/-- One round of the loop over the operators behind an operand: the next operator, if it
binds strongly enough, with its right operand. -/
def nextInfix (least : Nat) (expression : Nat → Attempt Expr) (left : Expr) :
    Attempt (Expr ⊕ Expr) := fun ts =>
  match ts with
  | [] => (pure (.inr left) : Attempt _) []
  | t :: rest =>
    match InfixOp.ofToken? t with
    | none => (pure (.inr left) : Attempt _) (t :: rest)
    | some op =>
      if op.leftPower < least then (pure (.inr left) : Attempt _) (t :: rest)
      else
        (do
          let right ← expression op.rightPower
          pure (.inl (op.tree left right)) : Attempt _) rest

/-- One round of the loop over the arguments of a call: an argument with the comma behind it,
or with the parenthesis that closes them all. -/
def nextArgument (expression : Nat → Attempt Expr) (earlier : List Expr) :
    Attempt (List Expr ⊕ (List Expr × Span)) := do
  let e ← expression 0
  fun ts =>
    if startsWith .comma ts then (pure (.inl (earlier ++ [e])) : Attempt _) ts.tail
    else
      (do
        let close ← (plain (readKind .rightParen .commaOrCloseParen)).attempt
        pure (.inr (earlier ++ [e], close.span)) : Attempt _) ts

mutual

/-- Reads an expression.  The loop over its operators takes at most as many rounds as the
expression has tokens to read. -/
def expression : Nat → Nat → Attempt Expr
  | 0, _ => exhausted
  | depth + 1, least => fun ts =>
    (do
      let left ← operand depth
      rounds (nextInfix least (expression depth)) ts.length left : Attempt Expr) ts

/-- Reads an expression that no infix operator splits. -/
def operand : Nat → Attempt Expr
  | 0 => exhausted
  | depth + 1 => fun ts =>
    match ts with
    | [] => refuse (.unexpected .expression []) []
    | t :: rest =>
      match t.kind with
      | .operator =>
        match UnaryOp.ofSymbol? t.text with
        | none => refuse (.unexpected .expression (t :: rest)) (t :: rest)
        | some op =>
          (do
            let value ← expression depth prefixPower
            pure (.unary (.unchecked (t.span.through value.span)) op value) : Attempt Expr) rest
      | .leftParen =>
        (do
          let e ← expression depth 0
          let _ ← (plain (readKind .rightParen .closeParen)).attempt
          pure e : Attempt Expr) rest
      | .identifier =>
        if startsWith .leftParen rest then
          (do
            let (args, close) ← arguments depth
            pure (.call (.unchecked (t.span.through close)) t.text args) : Attempt Expr) rest.tail
        else ExceptT.mk (some ((readAtom t).map fun e => (e, rest)))
      | _ => ExceptT.mk (some ((readAtom t).map fun e => (e, rest)))

/-- Reads the arguments of a call and the parenthesis that closes them.  The loop over the
arguments takes at most as many rounds as there are tokens, the opening parenthesis being
counted. -/
def arguments : Nat → Attempt (List Expr × Span)
  | 0 => exhausted
  | depth + 1 => fun ts =>
    if startsWith .rightParen ts then
      (do
        let close ← (plain (readKind .rightParen .commaOrCloseParen)).attempt
        pure ([], close.span) : Attempt (List Expr × Span)) ts
    else rounds (nextArgument (expression depth)) (ts.length + 1) [] ts

end

/-! ## How the readers decide -/

section

variable (depth : Nat) {t : Token} (us : List Token)

/-- A unary operator is read with the operand behind it. -/
theorem operand_of_operator {op : UnaryOp} (hop : t.IsOperator op.symbol) :
    operand (depth + 1) (t :: us) =
      (do
        let value ← expression depth prefixPower
        pure (.unary (.unchecked (t.span.through value.span)) op value) : Attempt Expr) us := by
  simp only [operand, hop.1, ofSymbol?_eq_some.2 hop.2]

/-- An opening parenthesis begins an expression that is closed again. -/
theorem operand_of_paren (hkind : t.kind = .leftParen) :
    operand (depth + 1) (t :: us) =
      (do
        let e ← expression depth 0
        let _ ← (plain (readKind .rightParen .closeParen)).attempt
        pure e : Attempt Expr) us := by
  simp only [operand, hkind]

/-- A name with an opening parenthesis behind it is a call. -/
theorem operand_of_call (hkind : t.kind = .identifier) {paren : Token}
    (hparen : paren.kind = .leftParen) :
    operand (depth + 1) (t :: paren :: us) =
      (do
        let (args, close) ← arguments depth
        pure (.call (.unchecked (t.span.through close)) t.text args) : Attempt Expr) us := by
  simp only [operand, hkind, startsWith_cons, hparen, decide_true, if_true, List.tail_cons]

end

/-! ## Single rounds -/

/-- One operator and its right operand. -/
theorem nextInfix_turn {least : Nat} {read : Nat → Attempt Expr} {ts : List Token}
    (hread : ∀ power us, us.length < ts.length →
      Comes (read power) (plain (readExpression power)) us) (l : Expr) :
    Turn (fun l => plain (readInfixes least l)) ts.length (nextInfix least read l ts)
      (plain (readInfixes least l) ts) := by
  by_cases hstop : EndsInfixes least ts
  · have hround : nextInfix least read l ts = ExceptT.mk (some (.ok (.inr l, ts))) := by
      cases ts with
      | nil => rfl
      | cons t ts =>
          cases hop : InfixOp.ofToken? t with
          | none =>
              simp only [nextInfix, hop]
              rfl
          | some op =>
              have hweak := hstop op (ofToken?_eq_some.1 hop)
              simp only [nextInfix, hop, if_pos hweak]
              rfl
    rw [hround, plain_readInfixes_of_ends hstop]
    exact .ends l ts
  · cases ts with
    | nil => exact absurd trivial hstop
    | cons t ts =>
        obtain ⟨op, hop, hpower⟩ := exists_signs_of_not_ends hstop
        have hround : nextInfix least read l (t :: ts) =
            (do
              let right ← read op.rightPower
              pure (.inl (op.tree l right)) : Attempt (Expr ⊕ Expr)) ts := by
          simp only [nextInfix, ofToken?_eq_some.2 hop, if_neg (Nat.not_lt.2 hpower)]
        rw [hround, plain_readInfixes_of_le hop hpower ts]
        refine .bind (hread op.rightPower ts (Nat.lt_succ_self _)) fun right rest hright => ?_
        have hshorter : rest.length < ts.length := (forget_eq_ok.1 hright).left
        exact .goesOn (op.tree l right) (Nat.lt_succ_of_lt hshorter)

/-- The arguments that stand behind earlier ones. -/
def argumentsAfter (earlier : List Expr) : Reader (List Expr × Span) := do
  let (es, close) ← plain readMoreArguments
  pure (earlier ++ es, close)

/-- Behind some arguments one more is read. -/
theorem argumentsAfter_eq (earlier : List Expr) :
    argumentsAfter earlier = (do
      let e ← plain (readExpression 0)
      fun ts =>
        if startsWith .comma ts then argumentsAfter (earlier ++ [e]) ts.tail
        else
          (do
            let close ← plain (readKind .rightParen .commaOrCloseParen)
            pure (earlier ++ [e], close.span) : Reader (List Expr × Span)) ts) := by
  have hfirst : argumentsAfter earlier = (do
      let e ← plain (readExpression 0)
      let (es, close) ← argumentsBehind e
      pure (earlier ++ es, close)) := by
    unfold argumentsAfter
    rw [plain_readMoreArguments, bind_assoc]
  rw [hfirst]
  funext ts
  refine bind_congr_reader rfl fun e rest _ => ?_
  show (argumentsBehind e rest >>= fun r => pure ((earlier ++ r.1.1, r.1.2), r.2)) = _
  unfold argumentsBehind
  cases startsWith .comma rest with
  | true =>
      show (forget (readMoreArguments rest.tail) >>= _) >>= _ =
        forget (readMoreArguments rest.tail) >>= _
      cases forget (readMoreArguments rest.tail) with
      | error f => rfl
      | ok r => exact congrArg (fun es => Except.ok ((es, r.1.2), r.2)) (List.append_cons ..)
  | false =>
      show (forget (readKind _ _ rest) >>= _) >>= _ = forget (readKind _ _ rest) >>= _
      cases forget (readKind .rightParen .commaOrCloseParen rest) <;> rfl

/-- One argument, and what stands behind it. -/
theorem nextArgument_turn {read : Nat → Attempt Expr} {ts : List Token}
    (hread : Comes (read 0) (plain (readExpression 0)) ts) (earlier : List Expr) :
    Turn argumentsAfter ts.length (nextArgument read earlier ts) (argumentsAfter earlier ts) := by
  rw [argumentsAfter_eq]
  refine .bind hread fun e rest he => ?_
  have hshorter : rest.length < ts.length := (forget_eq_ok.1 he).left
  cases startsWith .comma rest with
  | true =>
      have htail : rest.tail.length < ts.length := by
        rw [List.length_tail]
        omega
      exact .goesOn (earlier ++ [e]) htail
  | false =>
      exact .bind (.attempt _ _) fun close left _ => .ends (earlier ++ [e], close.span) left

/-! ## All rounds -/

mutual

/-- **Two levels for every token are enough for an expression.** -/
theorem expression_comes (depth least : Nat) (ts : List Token)
    (hdepth : 2 * ts.length + 2 ≤ depth) :
    Comes (expression depth least) (plain (readExpression least)) ts := by
  cases depth with
  | zero => omega
  | succ depth =>
      rw [plain_readExpression]
      refine .same ?_ (by rw [expression])
      refine (operand_comes depth ts (by omega)).bind fun left rest hleft => ?_
      have hshorter : rest.length < ts.length := (forget_eq_ok.1 hleft).left
      refine rounds_eq (fun l us hus => nextInfix_turn ?_ l) left rest hshorter
      exact fun power vs hvs => expression_comes depth power vs (by omega)
termination_by depth

/-- An operand comes out as it is read. -/
theorem operand_comes (depth : Nat) (ts : List Token) (hdepth : 2 * ts.length + 1 ≤ depth) :
    Comes (operand depth) (plain readOperand) ts := by
  cases depth with
  | zero => omega
  | succ depth =>
      cases ts with
      | nil =>
          refine .refused (f := .unexpected .expression []) ?_ ?_
          · rw [operand]
          · show forget (readOperand []) = _
            rw [readOperand.eq_def]
            rfl
      | cons t ts =>
          have hlength : (t :: ts).length = ts.length + 1 := rfl
          by_cases ho : t.kind = .operator
          · cases hsymbol : UnaryOp.ofSymbol? t.text with
            | none =>
                refine .refused ?_ (plain_readOperand_of_symbol ho hsymbol ts)
                simp only [operand, ho, hsymbol]
            | some op =>
                have hop : t.IsOperator op.symbol := ⟨ho, ofSymbol?_eq_some.1 hsymbol⟩
                refine .congr ?_ (operand_of_operator depth ts hop)
                  (plain_readOperand_of_operator hop ts)
                exact (expression_comes depth prefixPower ts (by omega)).bind
                  fun value rest _ => .answer _ rest
          · by_cases hp : t.kind = .leftParen
            · refine .congr ?_ (operand_of_paren depth ts hp) (plain_readOperand_of_paren hp ts)
              refine (expression_comes depth 0 ts (by omega)).bind fun e rest _ => ?_
              exact .behind fun close left _ => .answer e left
            · by_cases hcall : t.kind = .identifier ∧ startsWith .leftParen ts = true
              · obtain ⟨hk, hstarts⟩ := hcall
                cases ts with
                | nil => cases hstarts
                | cons paren ts =>
                    have hparen : paren.kind = .leftParen := kind_of_startsWith hstarts
                    refine .congr ?_ (operand_of_call depth ts hk hparen)
                      (plain_readOperand_of_call hk hparen ts)
                    have hlength : (t :: paren :: ts).length = ts.length + 2 := rfl
                    exact (arguments_comes depth ts (by omega)).bind
                      fun args rest _ => .answer _ rest
              · have hc : t.kind = .identifier → startsWith .leftParen ts = false :=
                  fun hk => Bool.eq_false_iff.2 fun hstarts => hcall ⟨hk, hstarts⟩
                show operand (depth + 1) (t :: ts) = ExceptT.mk (some _)
                rw [plain_readOperand_of_atom ho hp hc, operand]
                dsimp only
                split
                · next h => exact (ho h).elim
                · next h => exact (hp h).elim
                · next h => rw [hc h]; rfl
                · rfl
termination_by depth

/-- The loop over the arguments of a call starts behind the parenthesis that opens them. -/
theorem arguments_comes (depth : Nat) (ts : List Token) (hdepth : 2 * ts.length + 3 ≤ depth) :
    Comes (arguments depth) (plain readArguments) ts := by
  cases depth with
  | zero => omega
  | succ depth =>
      cases hclose : startsWith .rightParen ts with
      | true =>
          cases ts with
          | nil => cases hclose
          | cons t ts =>
              have hkind : t.kind = .rightParen := kind_of_startsWith hclose
              show arguments (depth + 1) (t :: ts) = ExceptT.mk (some _)
              rw [plain_readArguments_of_close hkind]
              simp only [arguments, hclose, if_true]
              show (Reader.attempt _ (t :: ts) >>= _) = _
              have hread : plain (readKind .rightParen .commaOrCloseParen) (t :: ts) =
                  .ok (t, ts) := plain_kind_eq_ok.2 ⟨rfl, hkind⟩
              unfold Reader.attempt
              rw [hread]
              rfl
      | false =>
          have hloop : Comes (rounds (nextArgument (expression depth)) (ts.length + 1) [])
              (argumentsAfter []) ts := by
            refine rounds_eq (fun earlier us hus => nextArgument_turn ?_ earlier) [] ts
              (Nat.lt_succ_self _)
            exact expression_comes depth 0 us (by omega)
          refine hloop.congr ?_ ?_
          · simp only [arguments, hclose, Bool.false_eq_true, if_false]
          · rw [plain_readArguments_of_ne hclose]
            unfold argumentsAfter
            simp
termination_by depth

end

end Budget

end Slate
