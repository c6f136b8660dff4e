import Slate.Proofs.Grammar.PromptExpressions
import Slate.Proofs.Tree.Relocated

/-!
# Reading moves with its tokens

Positions are copied from tokens into the spans of trees and faults; no reader asks for one or
counts with it.  So a map of positions may be applied to the tokens or to what is read from
them.  A reader *moves* at some tokens when, on the moved tokens, it answers with the moved
tree, leaves what is left moved, and fails with the fault at the moved place.

This is an equation about one run.  Runs on tokens that differ in their spans alone are
compared through moves: of a text that starts later in another one, the tokens are moved; and
tokens without their spans are moved to where no text is.

* `Moves.bind` — one reader after another moves if each does.
* `expression_moves` — the readers of expressions move.
-/

namespace Slate

variable (move : Position → Position)

/-- How tokens start is no matter of positions. -/
@[simp] theorem startsWith_relocated (kind : TokenKind) (ts : List Token) :
    startsWith kind (ts.map (Token.relocated move)) = startsWith kind ts := by
  cases ts <;> rfl

/-- The fault at the moved place, if it has one. -/
def SyntaxFault.relocated (f : SyntaxFault) : SyntaxFault :=
  ⟨f.cause, f.span.map (Span.relocated move)⟩

/-- An unexpected token is reported where it was moved to. -/
theorem SyntaxFault.unexpected_relocated (wanted : Wanted) (ts : List Token) :
    unexpected wanted (ts.map (Token.relocated move)) = (unexpected wanted ts).relocated move := by
  cases ts with
  | nil => rfl
  | cons t ts =>
      obtain ⟨kind, text, span⟩ := t
      show unexpected wanted (⟨kind, text, span.relocated move⟩ ::
        ts.map (Token.relocated move)) = _
      unfold unexpected
      dsimp only
      split
      · split <;> rfl
      · rfl

/-! ## Readers that move -/

section

variable {α α' β β' : Type}

/-- What has been read, at the moved place; `change` moves the answer. -/
def resultRelocated (change : α → α') : Except SyntaxFault α → Except SyntaxFault α'
  | .ok a => .ok (change a)
  | .error f => .error (f.relocated move)

/-- The second reader makes of the moved tokens what the first one makes of the tokens, but
moved. -/
def Moves (change : α → α') (r : Reader α) (s : Reader α') (ts : List Token) : Prop :=
  s (ts.map (Token.relocated move)) =
    resultRelocated move (fun x => (change x.1, x.2.map (Token.relocated move))) (r ts)

namespace Moves

variable {move} {change : α → α'} {r r' : Reader α} {s s' : Reader α'} {ts us : List Token}

/-- Readers that go on with others. -/
theorem congr (h : Moves move change r' s' us) (hr : r ts = r' us)
    (hs : s (ts.map (Token.relocated move)) = s' (us.map (Token.relocated move))) :
    Moves move change r s ts :=
  hs.trans (h.trans (congrArg (resultRelocated move _) hr.symm))

/-- A reader that takes nothing. -/
theorem answer {a : α} {b : α'} (h : b = change a) : Moves move change (pure a) (pure b) ts :=
  congrArg (fun b => Except.ok (b, ts.map (Token.relocated move))) h

/-- A reader that has its answer. -/
theorem answered {a : α} {b : α'} (h : b = change a) (hr : r ts = .ok (a, us))
    (hs : s (ts.map (Token.relocated move)) = .ok (b, us.map (Token.relocated move))) :
    Moves move change r s ts :=
  .congr (.answer h) hr hs

/-- A reader that fails. -/
theorem refused {f : SyntaxFault} (hr : r ts = .error f)
    (hs : s (ts.map (Token.relocated move)) = .error (f.relocated move)) :
    Moves move change r s ts :=
  hs.trans (congrArg (resultRelocated move _) hr.symm)

/-- **One reader after another.** -/
theorem bind {finish : β → β'} {k : α → Reader β} {l : α' → Reader β'}
    (h : Moves move change r s ts)
    (hk : ∀ a rest, r ts = .ok (a, rest) → Moves move finish (k a) (l (change a)) rest) :
    Moves move finish (r >>= k) (s >>= l) ts := by
  show (s (ts.map (Token.relocated move)) >>= fun x => l x.1 x.2) =
    resultRelocated move _ (r ts >>= fun x => k x.1 x.2)
  rw [h]
  cases hr : r ts with
  | error f => rfl
  | ok x => exact hk x.1 x.2 hr

end Moves

end

variable {move}

/-! ## Single tokens -/

/-- A token of a kind is read from moved tokens as it was. -/
theorem kind_moves (kind : TokenKind) (wanted : Wanted) (ts : List Token) :
    Moves move (Token.relocated move) (plain (readKind kind wanted))
      (plain (readKind kind wanted)) ts := by
  cases ts with
  | nil => rfl
  | cons t ts =>
      by_cases hkind : t.kind = kind
      · have hread : ∀ us, plain (readKind kind wanted) (t :: us) = .ok (t, us) :=
          fun us => plain_kind_eq_ok.2 ⟨rfl, hkind⟩
        exact .answered rfl (hread ts) (plain_kind_eq_ok.2 ⟨rfl, hkind⟩)
      · refine .refused (f := .unexpected wanted (t :: ts)) ?_ ?_
        · show forget (readKind kind wanted (t :: ts)) = _
          rw [readKind, if_neg hkind]
          rfl
        · rw [← SyntaxFault.unexpected_relocated]
          show forget (readKind kind wanted (t.relocated move :: ts.map (Token.relocated move))) = _
          rw [readKind, if_neg (show (t.relocated move).kind ≠ kind from hkind)]
          rfl

/-- **One token of a kind**, and what goes on behind it. -/
theorem Moves.token {β β' : Type} {finish : β → β'} {kind : TokenKind} {wanted : Wanted}
    {k : Token → Reader β} {l : Token → Reader β'} {ts : List Token}
    (hk : ∀ t rest, Moves move finish (k t) (l (t.relocated move)) rest) :
    Moves move finish (plain (readKind kind wanted) >>= k) (plain (readKind kind wanted) >>= l)
      ts :=
  (kind_moves kind wanted ts).bind fun t rest _ => hk t rest

/-! ## Trees of expressions -/

/-- Trees are put together of their parts, whatever the spans are. -/
theorem InfixOp.relocated_tree (op : InfixOp) (left right : Expr) :
    op.tree (left.relocated move) (right.relocated move) = (op.tree left right).relocated move := by
  cases op <;> simp only [tree, Expr.span_relocated] <;> rfl

/-- So is an atom. -/
theorem readAtom_relocated (t : Token) :
    readAtom (t.relocated move) = resultRelocated move (Expr.relocated move) (readAtom t) := by
  have hfault : Except.error (.unexpected .expression [(t.relocated move)]) =
      resultRelocated move (Expr.relocated move) (.error (.unexpected .expression [t])) :=
    congrArg Except.error (SyntaxFault.unexpected_relocated move .expression [t])
  obtain ⟨kind, text, span⟩ := t
  show readAtom ⟨kind, text, span.relocated move⟩ = _
  unfold readAtom
  dsimp only
  cases kind with
  | number =>
      dsimp only
      split <;> rfl
  | keyword =>
      dsimp only
      split
      · rfl
      · split
        · rfl
        · exact hfault
  | string => rfl
  | identifier => rfl
  | _ => exact hfault

/-! ## Expressions -/

/-- The arguments of a call and the place where they are closed, moved. -/
def closedArgumentsRelocated (move : Position → Position) (r : List Expr × Span) :
    List Expr × Span :=
  (relocatedArguments move r.1, r.2.relocated move)

/-- Where operators end does not depend on spans. -/
theorem EndsInfixes.relocated {power : Nat} {ts : List Token} (h : EndsInfixes power ts) :
    EndsInfixes power (ts.map (Token.relocated move)) := by
  cases ts with
  | nil => trivial
  | cons t ts => exact h

/-- A token that is an expression by itself, with other tokens behind it. -/
theorem atom_moves {t : Token} (ho : t.kind ≠ .operator) (hp : t.kind ≠ .leftParen)
    {ts : List Token} (hc : t.kind = .identifier → startsWith .leftParen ts = false) :
    Moves move (Expr.relocated move) (plain readOperand) (plain readOperand) (t :: ts) := by
  have hread := plain_readOperand_of_atom ho hp hc
  have hc' : (t.relocated move).kind = .identifier →
      startsWith .leftParen (ts.map (Token.relocated move)) = false :=
    fun hk => (startsWith_relocated move _ ts).trans (hc hk)
  have hread' := plain_readOperand_of_atom (t := (t.relocated move)) ho hp hc'
  rw [readAtom_relocated] at hread'
  cases hatom : readAtom t with
  | ok e =>
      rw [hatom] at hread hread'
      exact .answered rfl hread hread'
  | error f =>
      rw [hatom] at hread hread'
      exact .refused hread hread'

mutual

/-- **The readers of expressions move.** -/
theorem expression_moves (least : Nat) (ts : List Token) :
    Moves move (Expr.relocated move) (plain (readExpression least))
      (plain (readExpression least)) ts := by
  rw [plain_readExpression]
  refine (operand_moves ts).bind fun left rest hread => ?_
  have hshorter : rest.length < ts.length := (forget_eq_ok.1 hread).left
  exact infixes_move least left rest
termination_by 3 * ts.length + 1

/-- The operators behind an operand are read from moved tokens as they were. -/
theorem infixes_move (least : Nat) (l : Expr) (ts : List Token) :
    Moves move (Expr.relocated move) (plain (readInfixes least l))
      (plain (readInfixes least (l.relocated move)))      ts := by
  by_cases hstop : EndsInfixes least ts
  · exact .answered rfl (plain_readInfixes_of_ends hstop)
      (plain_readInfixes_of_ends hstop.relocated)
  · cases ts with
    | nil => exact absurd trivial hstop
    | cons t ts =>
        obtain ⟨op, hop, hpower⟩ := exists_signs_of_not_ends hstop
        have hop' : op.Signs (t.relocated move) := hop
        refine .congr ?_ (plain_readInfixes_of_le hop hpower ts)
          (plain_readInfixes_of_le hop' hpower _)
        refine (expression_moves op.rightPower ts).bind fun right rest hread => ?_
        have hshorter : rest.length < ts.length := (forget_eq_ok.1 hread).left
        rw [op.relocated_tree]
        exact infixes_move least (op.tree l right) rest
termination_by 3 * ts.length

/-- So is an operand. -/
theorem operand_moves (ts : List Token) :
    Moves move (Expr.relocated move) (plain readOperand) (plain readOperand) ts := by
  cases ts with
  | nil =>
      have hread : plain readOperand [] = .error (.unexpected .expression []) := by
        show forget (readOperand []) = _
        rw [readOperand.eq_def]
        rfl
      exact .refused hread hread
  | cons t ts =>
      by_cases ho : t.kind = .operator
      · cases hsymbol : UnaryOp.ofSymbol? t.text with
        | none =>
            refine .refused (plain_readOperand_of_symbol ho hsymbol ts) ?_
            rw [← SyntaxFault.unexpected_relocated]
            exact plain_readOperand_of_symbol (t := (t.relocated move)) ho hsymbol _
        | some op =>
            have hop : t.IsOperator op.symbol := ⟨ho, ofSymbol?_eq_some.1 hsymbol⟩
            have hop' : (t.relocated move).IsOperator op.symbol := hop
            refine .congr ?_ (plain_readOperand_of_operator hop ts)
              (plain_readOperand_of_operator hop' _)
            refine (expression_moves prefixPower ts).bind fun operand rest _ => .answer ?_
            rw [operand.span_relocated]
            rfl
      · by_cases hp : t.kind = .leftParen
        · have hp' : (t.relocated move).kind = .leftParen := hp
          refine .congr ?_ (plain_readOperand_of_paren hp ts) (plain_readOperand_of_paren hp' _)
          refine (expression_moves 0 ts).bind fun e rest _ => ?_
          exact .token fun close rest => .answer rfl
        · by_cases hcall : t.kind = .identifier ∧ startsWith .leftParen ts = true
          · obtain ⟨hk, hstarts⟩ := hcall
            cases ts with
            | nil => cases hstarts
            | cons paren ts =>
                have hparen : paren.kind = .leftParen := kind_of_startsWith hstarts
                have hk' : (t.relocated move).kind = .identifier := hk
                have hparen' : (paren.relocated move).kind = .leftParen := hparen
                refine .congr ?_ (plain_readOperand_of_call hk hparen ts)
                  (plain_readOperand_of_call hk' hparen' _)
                refine (arguments_move ts).bind fun args rest _ => ?_
                exact .answer rfl
          · refine atom_moves ho hp fun hk => ?_
            exact Bool.eq_false_iff.2 fun hstarts => hcall ⟨hk, hstarts⟩
termination_by 3 * ts.length

/-- So are the arguments of a call. -/
theorem arguments_move (ts : List Token) :
    Moves move (closedArgumentsRelocated move) (plain readArguments) (plain readArguments) ts := by
  cases hclose : startsWith .rightParen ts with
  | true =>
      cases ts with
      | nil => cases hclose
      | cons t ts =>
          have hkind : t.kind = .rightParen := kind_of_startsWith hclose
          have hkind' : (t.relocated move).kind = .rightParen := hkind
          exact .answered rfl (plain_readArguments_of_close hkind ts)
            (plain_readArguments_of_close hkind' _)
  | false =>
      have hclose' := (startsWith_relocated move _ ts).trans hclose
      exact .congr (moreArguments_move ts) (plain_readArguments_of_ne hclose)
        (plain_readArguments_of_ne hclose')
termination_by 3 * ts.length + 3

/-- So are one argument or more. -/
theorem moreArguments_move (ts : List Token) :
    Moves move (closedArgumentsRelocated move) (plain readMoreArguments)
      (plain readMoreArguments) ts := by
  rw [plain_readMoreArguments]
  refine (expression_moves 0 ts).bind fun e rest hread => ?_
  have hshorter : rest.length < ts.length := (forget_eq_ok.1 hread).left
  have hstarts := startsWith_relocated move .comma rest
  cases hcomma : startsWith .comma rest with
  | true =>
      rw [hcomma] at hstarts
      have htail : rest.tail.length < ts.length := by
        rw [List.length_tail]
        omega
      have hmore : Moves move (closedArgumentsRelocated move)
          (do
            let (es, close) ← plain readMoreArguments
            pure (e :: es, close))
          (do
            let (es, close) ← plain readMoreArguments
            pure ((e.relocated move) :: es, close)) rest.tail :=
        (moreArguments_move rest.tail).bind fun es left _ => .answer rfl
      refine hmore.congr ?_ ?_
      · simp only [argumentsBehind, hcomma, if_true]
      · simp only [argumentsBehind, hstarts, if_true, ← List.map_tail]
  | false =>
      rw [hcomma] at hstarts
      have hclose : Moves move (closedArgumentsRelocated move)
          (do
            let close ← plain (readKind .rightParen .commaOrCloseParen)
            pure ([e], close.span))
          (do
            let close ← plain (readKind .rightParen .commaOrCloseParen)
            pure ([(e.relocated move)], close.span)) rest :=
        .token fun close left => .answer rfl
      refine hclose.congr ?_ ?_
      · simp only [argumentsBehind, hcomma, Bool.false_eq_true, if_false]
      · simp only [argumentsBehind, hstarts, Bool.false_eq_true, if_false]
termination_by 3 * ts.length + 2

end

end Slate
