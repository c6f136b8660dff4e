import Slate.Proofs.Grammar.Written

/-!
# No parentheses without need

Of all token sequences that are derived as a program, what the program is written as has
the fewest opening parentheses.  So a pair that is written cannot be left out.

The induction is on derivations.  A derivation takes parentheses where it likes; what is
written has them only where the level of an expression is too weak for its place.  Asking
for a stronger level can only add a pair (`Expr.pairs_mono`), and never more than one
(`Expr.pairs_le_succ`), which is the one that the derivation itself has then.
-/

namespace Slate

open Lexeme

/-- The number of opening parentheses. -/
def openings (ts : List Token) : Nat := ts.countP fun t => t.kind = .leftParen

/-- The number of pairs of parentheses that are written. -/
def Lexeme.pairs (xs : List Lexeme) : Nat := xs.countP fun x => x.kind = .leftParen

/-! ## Lexemes -/

namespace Lexeme

variable {xs ys : List Lexeme}

@[simp] theorem pairs_nil : pairs [] = 0 := rfl

/-- The parentheses of two pieces are those of the first and those of the second. -/
@[simp] theorem pairs_append : pairs (xs ++ ys) = pairs xs + pairs ys :=
  List.countP_append

/-- Any other lexeme opens no parenthesis. -/
theorem pairs_cons_of_ne {x : Lexeme} (h : x.kind ≠ .leftParen) :
    pairs (x :: xs) = pairs xs := by
  simp [pairs, h]

/-- A word opens none. -/
@[simp] theorem pairs_word (name : String) : pairs (word name :: xs) = pairs xs := by
  refine pairs_cons_of_ne ?_
  show wordKind name.toList ≠ .leftParen
  unfold wordKind
  split <;> nofun

@[simp] theorem pairs_operator (symbol : String) :
    pairs (operator symbol :: xs) = pairs xs :=
  pairs_cons_of_ne nofun

@[simp] theorem pairs_assignSign : pairs (assignSign :: xs) = pairs xs :=
  pairs_cons_of_ne nofun

@[simp] theorem pairs_comma : pairs (comma :: xs) = pairs xs :=
  pairs_cons_of_ne nofun

@[simp] theorem pairs_colon : pairs (colon :: xs) = pairs xs :=
  pairs_cons_of_ne nofun

@[simp] theorem pairs_semicolon : pairs (semicolon :: xs) = pairs xs :=
  pairs_cons_of_ne nofun

/-- Parentheses around a piece are one pair more. -/
@[simp] theorem pairs_parens : pairs (parens xs) = pairs xs + 1 := by
  simp [pairs, parens, between, leftParen, rightParen, whole]

/-- Braces around a piece add no pair. -/
@[simp] theorem pairs_braces : pairs (braces xs) = pairs xs := by
  simp [pairs, braces, between, leftBrace, rightBrace, whole]

/-- The lexeme of a literal opens none. -/
@[simp] theorem pairs_literal (value : Literal) : pairs (value.lexeme :: xs) = pairs xs := by
  cases value with
  | bool b => cases b <;> exact pairs_word _
  | int _ => exact pairs_cons_of_ne nofun
  | string _ => exact pairs_cons_of_ne nofun

/-- A declared variable has no parentheses. -/
@[simp] theorem pairs_var (v : Var) : pairs v.lexemes = 0 := by
  simp [Var.lexemes]

/-- Where the weakest level is wanted, nothing is enclosed. -/
@[simp] theorem enclosed_assignment (own : Level) (xs : List Lexeme) :
    enclosed .assignment own xs = xs :=
  if_neg (Nat.not_lt_zero _)

/-- A stronger level asks for no fewer parentheses. -/
theorem pairs_enclosed_mono {weaker level : Level} (h : weaker.rank ≤ level.rank)
    (own : Level) (xs : List Lexeme) :
    pairs (enclosed weaker own xs) ≤ pairs (enclosed level own xs) := by
  unfold enclosed
  by_cases hweaker : own.rank < weaker.rank
  · refine Nat.le_of_eq ?_
    rw [if_pos hweaker, if_pos (Nat.lt_of_lt_of_le hweaker h)]
  · rw [if_neg hweaker]
    split
    · rw [pairs_parens]
      omega
    · exact Nat.le_refl _

/-- A phrase gets one pair more at most. -/
theorem pairs_enclosed_le (wanted own : Level) (xs : List Lexeme) :
    pairs (enclosed wanted own xs) ≤ pairs xs + 1 := by
  unfold enclosed
  split
  · exact Nat.le_of_eq pairs_parens
  · exact Nat.le_succ _

/-- A level of its own is enough. -/
@[simp] theorem enclosed_self (own : Level) (xs : List Lexeme) : enclosed own own xs = xs :=
  if_neg (Nat.lt_irrefl _)

end Lexeme

/-! ## Expressions -/

/-- The next level is no weaker. -/
theorem Level.rank_le_next (level : Level) : level.rank ≤ level.next.rank := by
  cases level <;> decide

/-- A stronger level asks for no fewer parentheses. -/
theorem Expr.pairs_mono {weaker level : Level} (h : weaker.rank ≤ level.rank) (e : Expr) :
    pairs (e.phrase weaker) ≤ pairs (e.phrase level) := by
  cases e with
  | assign _ _ _ => exact pairs_enclosed_mono h _ _
  | binary _ _ _ _ => exact pairs_enclosed_mono h _ _
  | unary _ _ _ => exact pairs_enclosed_mono h _ _
  | cast _ operand => exact operand.pairs_mono h
  | _ => exact Nat.le_refl _

/-- No level asks for more than one pair around the expression. -/
theorem Expr.pairs_le_succ (wanted : Level) (e : Expr) :
    pairs (e.phrase wanted) ≤ pairs (e.phrase .assignment) + 1 := by
  cases e with
  | assign _ _ _ =>
      rw [Expr.phrase, Expr.phrase, enclosed_assignment]
      exact pairs_enclosed_le _ _ _
  | binary _ _ _ _ =>
      rw [Expr.phrase, Expr.phrase, enclosed_assignment]
      exact pairs_enclosed_le _ _ _
  | unary _ _ _ =>
      rw [Expr.phrase, Expr.phrase, enclosed_assignment]
      exact pairs_enclosed_le _ _ _
  | cast _ operand => exact operand.pairs_le_succ wanted
  | _ => exact Nat.le_succ _

/-- The opening parentheses of two lists are those of the first and those of the second. -/
theorem openings_append (ts us : List Token) :
    openings (ts ++ us) = openings ts + openings us :=
  List.countP_append

/-- An opening parenthesis in front counts for one. -/
theorem openings_cons_of_eq {t : Token} (h : t.kind = .leftParen) (ts : List Token) :
    openings (t :: ts) = openings ts + 1 := by
  simp [openings, h]

/-- A token in front takes no opening parenthesis away. -/
theorem openings_le_cons (t : Token) (ts : List Token) : openings ts ≤ openings (t :: ts) := by
  simp [openings, List.countP_cons]

mutual

/-- **A derivation of an expression has the parentheses that are written**, or more. -/
theorem DerivesExpr.openings_le {level : Level} {ts : List Token} {e : Expr} :
    DerivesExpr level ts e → pairs (e.phrase level) ≤ openings ts
  | @DerivesExpr.assign t ls rs l r left sign right => by
      have hl := left.openings_le
      have hr := right.openings_le
      have ht := openings_le_cons t rs
      rw [Expr.phrase, enclosed_self, pairs_append, pairs_assignSign, openings_append]
      omega
  | @DerivesExpr.binary op t ls rs l r left sign right => by
      have hl := left.openings_le
      have hr := right.openings_le
      have ht := openings_le_cons t rs
      rw [Expr.phrase, enclosed_self, pairs_append, pairs_operator, openings_append]
      omega
  | @DerivesExpr.unary op t ts e sign operand => by
      have he := operand.openings_le
      have ht := openings_le_cons t ts
      rw [Expr.phrase, enclosed_self, pairs_operator]
      omega
  | @DerivesExpr.next level ts e _ phrase =>
      Nat.le_trans (e.pairs_mono level.rank_le_next) phrase.openings_le
  | .number _ => by
      simp [Expr.phrase]
  | .string _ => by
      simp [Expr.phrase]
  | .truth _ => by
      simp [Expr.phrase]
  | .falsity _ => by
      simp [Expr.phrase]
  | .var _ => by
      simp [Expr.phrase]
  | @DerivesExpr.callNone name opening closing kind opens closes => by
      have hopening := openings_cons_of_eq opens [closing]
      have hname := openings_le_cons name [opening, closing]
      rw [Expr.phrase, pairs_word, pairs_parens, argumentPhrases, commas, pairs_nil]
      omega
  | @DerivesExpr.call name opening closing ts es kind opens arguments closes => by
      have harguments := arguments.openings_le
      have hopening := openings_cons_of_eq opens (ts ++ [closing])
      have hname := openings_le_cons name (opening :: (ts ++ [closing]))
      rw [openings_append] at hopening
      rw [Expr.phrase, pairs_word, pairs_parens]
      omega
  | @DerivesExpr.parens opening closing ts e opens inner closes => by
      have hinner := inner.openings_le
      have hopening := openings_cons_of_eq opens (ts ++ [closing])
      have hprimary := e.pairs_le_succ .primary
      rw [openings_append] at hopening
      omega

/-- The same for written arguments. -/
theorem DerivesArguments.openings_le {ts : List Token} {es : List Expr} :
    DerivesArguments ts es → pairs (commas (argumentPhrases es)) ≤ openings ts
  | .one argument => argument.openings_le
  | @DerivesArguments.more comma ts us e es argument separates others => by
      have he := argument.openings_le
      have hes := others.openings_le
      have hcomma := openings_le_cons comma us
      cases es with
      | nil => cases others
      | cons f es =>
          rw [argumentPhrases, argumentPhrases, commas, pairs_append, pairs_comma,
            ← argumentPhrases, openings_append]
          omega

end

/-! ## Statements -/

/-- A condition is derived from one opening parenthesis more than its expression. -/
theorem DerivesCondition.openings_le {ts : List Token} {e : Expr} (h : DerivesCondition ts e) :
    pairs e.condition ≤ openings ts := by
  cases h with
  | @parens opening closing ts _ opens inner _ =>
      have hinner := inner.openings_le
      have hopening := openings_cons_of_eq opens (ts ++ [closing])
      rw [openings_append] at hopening
      rw [Expr.condition, pairs_parens]
      omega

/-- Braces or not, what is written behind `else` has the parentheses of the statements. -/
theorem pairs_block (span : Span) (body : List Stmt) :
    pairs (Stmt.block span body).lexemes = pairs (bodyLexemes body) := by
  rw [Stmt.lexemes]
  split
  · rfl
  · exact pairs_braces

mutual

/-- No statement is written with more parentheses than any tokens that derive it have. -/
theorem DerivesStmt.openings_le {ts : List Token} {s : Stmt} :
    DerivesStmt ts s → pairs s.lexemes ≤ openings ts
  | .ret _ _ => by
      simp [Stmt.lexemes]
  | @DerivesStmt.retValue t semicolon ts e _ value _ => by
      have hvalue := value.openings_le
      have ht := openings_le_cons t (ts ++ [semicolon])
      rw [openings_append] at ht
      rw [Stmt.lexemes, pairs_word, pairs_append, pairs_semicolon, pairs_nil]
      omega
  | .branch branches => branches.openings_le
  | @DerivesStmt.loop t cs bs _ _ _ condition block => by
      have hcondition := condition.openings_le
      have hblock := block.openings_le
      have ht := openings_le_cons t (cs ++ bs)
      rw [openings_append] at ht
      rw [Stmt.lexemes, pairs_word, pairs_append, pairs_braces]
      omega
  | .declare _ _ _ => by
      simp [Stmt.lexemes, Expr.phrase]
  | @DerivesStmt.declareValue t sign semicolon ts vs _ _ _ _ _ value _ => by
      have hvalue := value.openings_le
      have hsign := openings_le_cons sign (vs ++ [semicolon])
      have ht := openings_le_cons t (ts ++ sign :: (vs ++ [semicolon]))
      rw [openings_append] at hsign ht
      rw [Stmt.lexemes, Expr.phrase, enclosed_assignment, Expr.phrase, pairs_append, pairs_append,
        pairs_word, pairs_var, pairs_assignSign, pairs_semicolon, pairs_nil]
      omega
  | @DerivesStmt.expression semicolon ts _ value _ => by
      have hvalue := value.openings_le
      rw [Stmt.lexemes, pairs_append, pairs_semicolon, pairs_nil, openings_append]
      omega

/-- The same for a conditional. -/
theorem DerivesIf.openings_le {ts : List Token} {s : Stmt} :
    DerivesIf ts s → pairs s.lexemes ≤ openings ts
  | @DerivesIf.ifThen t cs bs _ _ _ condition block => by
      have hcondition := condition.openings_le
      have hblock := block.openings_le
      have ht := openings_le_cons t (cs ++ bs)
      rw [openings_append] at ht
      rw [Stmt.lexemes, pairs_word, pairs_append, pairs_braces]
      omega
  | @DerivesIf.ifElse t u cs bs os _ _ _ _ condition block _ branch => by
      have hcondition := condition.openings_le
      have hblock := block.openings_le
      have hbranch := branch.openings_le
      have hu := openings_le_cons u os
      have ht := openings_le_cons t (cs ++ (bs ++ u :: os))
      rw [openings_append, openings_append] at ht
      rw [Stmt.lexemes, pairs_word, pairs_append, pairs_append, pairs_braces, pairs_word]
      omega

/-- The same for what stands behind `else`. -/
theorem DerivesElse.openings_le {ts : List Token} {s : Stmt} :
    DerivesElse ts s → pairs s.lexemes ≤ openings ts
  | .block block => by
      rw [pairs_block]
      exact block.openings_le
  | .nested branches => by
      rw [pairs_block, bodyLexemes, bodyLexemes, List.append_nil]
      exact branches.openings_le

/-- The same for a block. -/
theorem DerivesBlock.openings_le {ts : List Token} {body : List Stmt} :
    DerivesBlock ts body → pairs (bodyLexemes body) ≤ openings ts
  | @DerivesBlock.braces opening closing ts _ _ statements _ => by
      have hstatements := statements.openings_le
      have hopening := openings_le_cons opening (ts ++ [closing])
      rw [openings_append] at hopening
      omega

/-- The same for a list of statements. -/
theorem DerivesStmts.openings_le {ts : List Token} {ss : List Stmt} :
    DerivesStmts ts ss → pairs (bodyLexemes ss) ≤ openings ts
  | .nil => Nat.le_refl _
  | .cons first others => by
      have hfirst := first.openings_le
      have hothers := others.openings_le
      rw [bodyLexemes, pairs_append, openings_append]
      omega

end

/-! ## Functions -/

/-- Parameters are written with no parentheses of their own. -/
theorem pairs_parameters (vs : List Var) : pairs (commas (vs.map Var.lexemes)) = 0 := by
  induction vs with
  | nil => rfl
  | cons v vs ih =>
      cases vs with
      | nil => exact pairs_var v
      | cons w vs =>
          rw [List.map_cons] at ih ⊢
          rw [List.map_cons, commas, pairs_append, pairs_var, pairs_comma, ih]

/-- The same for what ends a function, its block or nothing. -/
theorem DerivesBody.openings_le {ts : List Token} {body : Option (List Stmt)}
    (h : DerivesBody ts body) : pairs (bodyLexemes (body.getD [])) ≤ openings ts := by
  cases h with
  | block block => exact block.openings_le
  | semicolon _ => exact Nat.zero_le _

/-- A function is written with the parentheses of its body and one pair around its parameters. -/
theorem Function.pairs_lexemes_le (f : Function) :
    pairs f.lexemes ≤ pairs (bodyLexemes f.body) + 1 := by
  have hmark : pairs (if f.builtin then [word "builtin"] else []) = 0 := by
    split <;> simp
  have hending : pairs f.ending ≤ pairs (bodyLexemes f.body) := by
    unfold Function.ending
    split <;> simp
  rw [Function.lexemes, pairs_append, pairs_word, pairs_word, pairs_append, pairs_parens,
    pairs_parameters, hmark]
  omega

/-- The same for a function, whose parameters are behind an opening parenthesis. -/
theorem DerivesFunction.openings_le {ts : List Token} {d : Definition}
    (h : DerivesFunction ts d) : pairs d.function.lexemes ≤ openings ts := by
  cases h with
  | @parts name opening closing ms rs ps bs _ _ _ _ _ _ _ opens _ _ ending =>
      have hclosing := openings_le_cons closing bs
      have hopening := openings_cons_of_eq opens (ps ++ closing :: bs)
      have hname := openings_le_cons name (opening :: (ps ++ closing :: bs))
      rw [openings_append] at hopening
      have htotal : openings bs + 1 ≤
          openings (ms ++ (rs ++ name :: opening :: (ps ++ closing :: bs))) := by
        rw [openings_append, openings_append]
        omega
      exact Nat.le_trans (Function.pairs_lexemes_le _)
        (Nat.le_trans (Nat.succ_le_succ ending.openings_le) htotal)

/-- The same for all functions of a program. -/
theorem DerivesProgram.openings_le {ts : List Token} {ds : List Definition}
    (h : DerivesProgram ts ds) :
    pairs (ds.flatMap fun d => d.function.lexemes) ≤ openings ts := by
  induction h with
  | nil => exact Nat.le_refl _
  | cons first _ ih =>
      have hfirst := first.openings_le
      rw [List.flatMap_cons, pairs_append, openings_append]
      omega

end Slate
