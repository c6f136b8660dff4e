import Slate.Proofs.Grammar.Acceptance
import Slate.Proofs.Grammar.Written
import Slate.Proofs.Token.Classified

/-!
# Names in trees

The lexer gives identifiers only for words that are no keywords (`namesFit_tokensOf`).  The
names in a tree are texts of identifiers, so they are such words too: the names of
variables and of functions, and the types of declared variables, which are no references
because the grammar has no way to write one.

Tokens that were not made by the lexer could have identifiers with any text.  So this is said
of tokens first (`NamesFit`), then of derivations, and so of what is read
(`parse_wellNamed`).
-/

namespace Slate

/-- Every identifier is a word that is no keyword. -/
def NamesFit (ts : List Token) : Prop :=
  ∀ t ∈ ts, t.kind = .identifier → isName t.text = true

@[simp] theorem namesFit_cons {t : Token} {ts : List Token} :
    NamesFit (t :: ts) ↔ (t.kind = .identifier → isName t.text = true) ∧ NamesFit ts :=
  List.forall_mem_cons

/-- The names of two lists fit exactly if those of each do. -/
@[simp] theorem namesFit_append {ts us : List Token} :
    NamesFit (ts ++ us) ↔ NamesFit ts ∧ NamesFit us :=
  List.forall_mem_append

/-! ## Trees -/

mutual

/-- The names in the expression are words that are no keywords. -/
def Expr.WellNamed : Expr → Prop
  | .literal _ _ => True
  | .declare _ declared => declared.Writable
  | .var _ name => isName name = true
  | .assign _ left right => left.WellNamed ∧ right.WellNamed
  | .call _ name args => isName name = true ∧ ArgumentsWellNamed args
  | .binary _ _ left right => left.WellNamed ∧ right.WellNamed
  | .unary _ _ operand => operand.WellNamed
  | .cast _ operand => operand.WellNamed

/-- The names in the arguments are words that are no keywords. -/
def ArgumentsWellNamed : List Expr → Prop
  | [] => True
  | e :: es => e.WellNamed ∧ ArgumentsWellNamed es

end

mutual

/-- The names in the statement are words that are no keywords. -/
def Stmt.WellNamed : Stmt → Prop
  | .expression _ e => e.WellNamed
  | .ret _ none => True
  | .ret _ (some e) => e.WellNamed
  | .ifThen _ condition body => condition.WellNamed ∧ BodyWellNamed body
  | .ifElse _ condition body otherwise =>
    condition.WellNamed ∧ BodyWellNamed body ∧ otherwise.WellNamed
  | .loop _ condition body => condition.WellNamed ∧ BodyWellNamed body
  | .block _ body => BodyWellNamed body

/-- The names in the statements are words that are no keywords. -/
def BodyWellNamed : List Stmt → Prop
  | [] => True
  | s :: ss => s.WellNamed ∧ BodyWellNamed ss

end

/-! ## Spans do not matter -/

mutual

/-- The names of an expression do not depend on spans. -/
theorem Expr.wellNamed_spanless : ∀ e : Expr, e.spanless.WellNamed ↔ e.WellNamed
  | .literal _ _ => .rfl
  | .declare _ _ => .rfl
  | .var _ _ => .rfl
  | .assign _ left right => and_congr left.wellNamed_spanless right.wellNamed_spanless
  | .call _ _ args => and_congr_right' (argumentsWellNamed_spanless args)
  | .binary _ _ left right => and_congr left.wellNamed_spanless right.wellNamed_spanless
  | .unary _ _ operand => operand.wellNamed_spanless
  | .cast _ operand => operand.wellNamed_spanless

/-- The same for the arguments of a call. -/
theorem argumentsWellNamed_spanless :
    ∀ es : List Expr, ArgumentsWellNamed (spanlessArguments es) ↔ ArgumentsWellNamed es
  | [] => .rfl
  | e :: es => and_congr e.wellNamed_spanless (argumentsWellNamed_spanless es)

end

mutual

/-- The same for a statement. -/
theorem Stmt.wellNamed_spanless : ∀ s : Stmt, s.spanless.WellNamed ↔ s.WellNamed
  | .expression _ e => e.wellNamed_spanless
  | .ret _ none => .rfl
  | .ret _ (some e) => e.wellNamed_spanless
  | .ifThen _ condition body =>
      and_congr condition.wellNamed_spanless (bodyWellNamed_spanless body)
  | .ifElse _ condition body otherwise =>
      and_congr condition.wellNamed_spanless
        (and_congr (bodyWellNamed_spanless body) otherwise.wellNamed_spanless)
  | .loop _ condition body =>
      and_congr condition.wellNamed_spanless (bodyWellNamed_spanless body)
  | .block _ body => bodyWellNamed_spanless body

/-- The same for a list of statements. -/
theorem bodyWellNamed_spanless :
    ∀ ss : List Stmt, BodyWellNamed (spanlessBody ss) ↔ BodyWellNamed ss
  | [] => .rfl
  | s :: ss => and_congr s.wellNamed_spanless (bodyWellNamed_spanless ss)

end

/-! ## Derivations -/

mutual

/-- An expression takes its names from the tokens that derive it. -/
theorem DerivesExpr.wellNamed {level : Level} {ts : List Token} {e : Expr} :
    DerivesExpr level ts e → NamesFit ts → e.WellNamed
  | .assign left _ right, hfit => by
      simp only [namesFit_append, namesFit_cons] at hfit
      exact ⟨left.wellNamed hfit.1, right.wellNamed hfit.2.2⟩
  | .binary left _ right, hfit => by
      simp only [namesFit_append, namesFit_cons] at hfit
      exact ⟨left.wellNamed hfit.1, right.wellNamed hfit.2.2⟩
  | .unary _ operand, hfit => operand.wellNamed (namesFit_cons.1 hfit).2
  | .next _ phrase, hfit => phrase.wellNamed hfit
  | .number _, _ => trivial
  | .string _, _ => trivial
  | .truth _, _ => trivial
  | .falsity _, _ => trivial
  | .var kind, hfit => (namesFit_cons.1 hfit).1 kind
  | .callNone kind _ _, hfit => ⟨(namesFit_cons.1 hfit).1 kind, trivial⟩
  | .call kind _ arguments _, hfit => by
      simp only [namesFit_append, namesFit_cons] at hfit
      exact ⟨hfit.1 kind, arguments.wellNamed hfit.2.2.1⟩
  | .parens _ inner _, hfit => by
      simp only [namesFit_append, namesFit_cons] at hfit
      exact inner.wellNamed hfit.2.1

/-- The same for written arguments. -/
theorem DerivesArguments.wellNamed {ts : List Token} {es : List Expr} :
    DerivesArguments ts es → NamesFit ts → ArgumentsWellNamed es
  | .one argument, hfit => ⟨argument.wellNamed hfit, trivial⟩
  | .more argument _ others, hfit => by
      simp only [namesFit_append, namesFit_cons] at hfit
      exact ⟨argument.wellNamed hfit.1, others.wellNamed hfit.2.2⟩

end

/-- A declared variable has its name and its type from the tokens, so it can be written. -/
theorem DerivesVar.writable {ts : List Token} {v : Var} (h : DerivesVar ts v)
    (hfit : NamesFit ts) : v.Writable := by
  cases h with
  | typed kind _ typing =>
      cases typing with
      | name typeKind =>
          simp only [namesFit_cons] at hfit
          exact ⟨hfit.1 kind, hfit.2.2.1 typeKind, rfl⟩

/-- The same for a condition. -/
theorem DerivesCondition.wellNamed {ts : List Token} {e : Expr} (h : DerivesCondition ts e)
    (hfit : NamesFit ts) : e.WellNamed := by
  cases h with
  | parens _ inner _ =>
      simp only [namesFit_append, namesFit_cons] at hfit
      exact inner.wellNamed hfit.2.1

mutual

/-- A statement takes its names from the tokens that derive it. -/
theorem DerivesStmt.wellNamed {ts : List Token} {s : Stmt} :
    DerivesStmt ts s → NamesFit ts → s.WellNamed
  | .ret _ _, _ => trivial
  | .retValue _ value _, hfit => by
      simp only [namesFit_append, namesFit_cons] at hfit
      exact value.wellNamed hfit.2.1
  | .branch branches, hfit => branches.wellNamed hfit
  | .loop _ condition block, hfit => by
      simp only [namesFit_append, namesFit_cons] at hfit
      exact ⟨condition.wellNamed hfit.2.1, block.wellNamed hfit.2.2⟩
  | .declare _ declared _, hfit => by
      simp only [namesFit_append, namesFit_cons] at hfit
      exact declared.writable hfit.2.1
  | .declareValue _ declared _ value _, hfit => by
      simp only [namesFit_append, namesFit_cons] at hfit
      exact ⟨declared.writable hfit.2.1, value.wellNamed hfit.2.2.2.1⟩
  | .expression value _, hfit => value.wellNamed (namesFit_append.1 hfit).1

/-- The same for a conditional. -/
theorem DerivesIf.wellNamed {ts : List Token} {s : Stmt} :
    DerivesIf ts s → NamesFit ts → s.WellNamed
  | .ifThen _ condition block, hfit => by
      simp only [namesFit_append, namesFit_cons] at hfit
      exact ⟨condition.wellNamed hfit.2.1, block.wellNamed hfit.2.2⟩
  | .ifElse _ condition block _ branch, hfit => by
      simp only [namesFit_append, namesFit_cons] at hfit
      exact ⟨condition.wellNamed hfit.2.1, block.wellNamed hfit.2.2.1,
        branch.wellNamed hfit.2.2.2.2⟩

/-- The same for what stands behind `else`. -/
theorem DerivesElse.wellNamed {ts : List Token} {s : Stmt} :
    DerivesElse ts s → NamesFit ts → s.WellNamed
  | .block block, hfit => block.wellNamed hfit
  | .nested branches, hfit => ⟨branches.wellNamed hfit, trivial⟩

/-- The same for a block. -/
theorem DerivesBlock.wellNamed {ts : List Token} {body : List Stmt} :
    DerivesBlock ts body → NamesFit ts → BodyWellNamed body
  | .braces _ statements _, hfit => by
      simp only [namesFit_append, namesFit_cons] at hfit
      exact statements.wellNamed hfit.2.1

/-- The same for a list of statements. -/
theorem DerivesStmts.wellNamed {ts : List Token} {ss : List Stmt} :
    DerivesStmts ts ss → NamesFit ts → BodyWellNamed ss
  | .nil, _ => trivial
  | .cons first others, hfit => by
      obtain ⟨hfirst, hothers⟩ := namesFit_append.1 hfit
      exact ⟨first.wellNamed hfirst, others.wellNamed hothers⟩

end

/-- The names in the function, and that of the function itself, are words that are no
keywords. -/
def Function.WellNamed (f : Function) : Prop := isName f.name = true ∧ BodyWellNamed f.body

/-- The names of a function are texts of identifiers. -/
theorem DerivesFunction.wellNamed {ts : List Token} {d : Definition} (h : DerivesFunction ts d)
    (hfit : NamesFit ts) : d.function.WellNamed := by
  cases h with
  | parts _ _ kind _ _ _ ending =>
      simp only [namesFit_append, namesFit_cons] at hfit
      refine ⟨hfit.2.2.1 kind, ?_⟩
      cases ending with
      | block block => exact block.wellNamed hfit.2.2.2.2.2.2
      | semicolon _ => trivial

/-- The same for every function of a program. -/
theorem DerivesProgram.wellNamed {ts : List Token} {ds : List Definition}
    (h : DerivesProgram ts ds) (hfit : NamesFit ts) : ∀ d ∈ ds, d.function.WellNamed := by
  induction h with
  | nil => exact List.forall_mem_nil _
  | cons first _ ih =>
      obtain ⟨hfirst, hothers⟩ := namesFit_append.1 hfit
      exact List.forall_mem_cons.2 ⟨first.wellNamed hfirst, ih hothers⟩

/-- **The names in what is read are words that are no keywords**, when those in its tokens
are. -/
theorem parse_wellNamed {ts : List Token} {file : Option String} {p : Program}
    (h : Program.parse ts file = .ok p) (hfit : NamesFit ts) :
    ∀ f ∈ p.functions, f.WellNamed := by
  obtain ⟨ds, hds, hmap, _⟩ := parse_derivable h
  intro f hf
  obtain ⟨d, hd, heq⟩ := definition_of_mem hmap hf
  have hname : d.function.name = f.spanless.name := congrArg Function.name heq
  have hbody : d.function.body = spanlessBody f.body := congrArg Function.body heq
  obtain ⟨hfirst, hsecond⟩ := hds.wellNamed hfit d hd
  exact ⟨hname ▸ hfirst, (bodyWellNamed_spanless f.body).1 (hbody ▸ hsecond)⟩

/-! ## Tokens of a text -/

/-- The lexer takes nothing but names for identifiers. -/
theorem Lexeme.Classified.isName {x : Lexeme} {after : List Char} (h : x.Classified after)
    (hkind : x.kind = .identifier) : isName (String.ofList x.text) = true := by
  cases h with
  | @identifier c more _ first others longest other =>
      have hword : isWord (String.ofList (c :: more)) = true := by
        unfold isWord
        rw [String.toList_ofList]
        exact Bool.and_eq_true_iff.2 ⟨first, List.all_eq_true.2 others⟩
      exact Bool.and_eq_true_iff.2 ⟨hword, decide_eq_true other⟩
  | @mark c kind _ known =>
      obtain rfl : kind = .identifier := hkind
      exact absurd known (by simp [Lexeme.marks])
  | _ => cases hkind

/-- The identifiers that the lexer gives are words that are no keywords. -/
theorem namesFit_tokensOf (source : String) : NamesFit (tokensOf source) := by
  intro t ht hkind
  obtain ⟨i, hi⟩ := List.mem_iff_getElem?.1 ht
  have hstart : (Cursor.ofText source).position = .behind [] := rfl
  obtain ⟨gaps, last, _, hclassified⟩ := (Cursor.ofText source).tokens_classified hstart
  have hname := (hclassified i t hi).isName hkind
  rwa [Token.lexeme, String.ofList_toList] at hname

end Slate
