import Slate.Grammar.Program

/-!
# Derivations of the grammar

The documented grammar, as relations between token sequences and the trees that
they stand for.  There is one relation per nonterminal and one constructor per
alternative; nothing here knows how a token sequence is read.

Expressions are derived at a `Level`.  A level is what its own operators join,
or a phrase of the next stronger level:

    assignment      :=  equality  |  equality '=' assignment
    equality        :=  additive  |  equality ('==' | '!=') additive
    additive        :=  multiplicative  |  additive ('+' | '-') multiplicative
    multiplicative  :=  unary  |  multiplicative '*' unary
    unary           :=  primary  |  ('-' | '!' | '~') unary

The trees carry no spans (`Note.bare`), so a derivation says which tree is meant
and not where it was written.  What a definition says of its body is kept apart
from the function that it defines (`Definition`): the grammar lets every
definition end in a block or in a semicolon.
-/

namespace Slate

/-- The levels of expressions, the one that binds most weakly first. -/
inductive Level where
  | assignment
  | equality
  | additive
  | multiplicative
  | unary
  | primary
deriving DecidableEq

/-- The next stronger level.  There is none that is stronger than `primary`. -/
def Level.next : Level → Level
  | assignment => equality
  | equality => additive
  | additive => multiplicative
  | multiplicative => unary
  | unary => primary
  | primary => primary

/-- The level of the phrases that an operator joins. -/
def BinaryOp.level : BinaryOp → Level
  | equal => .equality
  | notEqual => .equality
  | plus => .additive
  | minus => .additive
  | times => .multiplicative

/-- The note of a tree that does not say where it was read. -/
def Note.bare : Note := .unchecked .nowhere

/-- The token is the operator that is written so. -/
def Token.IsOperator (t : Token) (symbol : String) : Prop :=
  t.kind = .operator ∧ t.text = symbol

mutual

/-- The expressions of a level. -/
inductive DerivesExpr : Level → List Token → Expr → Prop
  | assign {t : Token} {ls rs : List Token} {l r : Expr}
      (left : DerivesExpr .equality ls l) (sign : t.kind = .assign)
      (right : DerivesExpr .assignment rs r) :
      DerivesExpr .assignment (ls ++ t :: rs) (.assign .bare l r)
  | binary {op : BinaryOp} {t : Token} {ls rs : List Token} {l r : Expr}
      (left : DerivesExpr op.level ls l) (sign : t.IsOperator op.symbol)
      (right : DerivesExpr op.level.next rs r) :
      DerivesExpr op.level (ls ++ t :: rs) (.binary .bare op l r)
  | unary {op : UnaryOp} {t : Token} {ts : List Token} {e : Expr}
      (sign : t.IsOperator op.symbol) (operand : DerivesExpr .unary ts e) :
      DerivesExpr .unary (t :: ts) (.unary .bare op e)
  | next {level : Level} {ts : List Token} {e : Expr} (weaker : level ≠ .primary)
      (phrase : DerivesExpr level.next ts e) : DerivesExpr level ts e
  | number {t : Token} (kind : t.kind = .number) :
      DerivesExpr .primary [t]
        (.literal .bare (.int (Int32.ofNat (decimalValue t.text.toList))))
  | string {t : Token} (kind : t.kind = .string) :
      DerivesExpr .primary [t] (.literal .bare (.string t.text))
  | truth {t : Token} (word : t.isKeyword "true") :
      DerivesExpr .primary [t] (.literal .bare (.bool true))
  | falsity {t : Token} (word : t.isKeyword "false") :
      DerivesExpr .primary [t] (.literal .bare (.bool false))
  | var {t : Token} (kind : t.kind = .identifier) :
      DerivesExpr .primary [t] (.var .bare t.text)
  | callNone {name opening closing : Token}
      (kind : name.kind = .identifier) (opens : opening.kind = .leftParen)
      (closes : closing.kind = .rightParen) :
      DerivesExpr .primary [name, opening, closing] (.call .bare name.text [])
  | call {name opening closing : Token} {ts : List Token} {es : List Expr}
      (kind : name.kind = .identifier) (opens : opening.kind = .leftParen)
      (arguments : DerivesArguments ts es) (closes : closing.kind = .rightParen) :
      DerivesExpr .primary (name :: opening :: (ts ++ [closing])) (.call .bare name.text es)
  | parens {opening closing : Token} {ts : List Token} {e : Expr}
      (opens : opening.kind = .leftParen) (inner : DerivesExpr .assignment ts e)
      (closes : closing.kind = .rightParen) :
      DerivesExpr .primary (opening :: (ts ++ [closing])) e

/-- At least one argument, with commas between them. -/
inductive DerivesArguments : List Token → List Expr → Prop
  | one {ts : List Token} {e : Expr} (argument : DerivesExpr .assignment ts e) :
      DerivesArguments ts [e]
  | more {comma : Token} {ts us : List Token} {e : Expr} {es : List Expr}
      (argument : DerivesExpr .assignment ts e) (separates : comma.kind = .comma)
      (others : DerivesArguments us es) :
      DerivesArguments (ts ++ comma :: us) (e :: es)

end

/-- Every number denotes an integer that can be written.  The grammar has a place
for every number; this is what it takes for the tree to have one. -/
def NumbersFit (ts : List Token) : Prop :=
  ∀ t ∈ ts, t.kind = .number → decimalValue t.text.toList ≤ maxInteger

@[simp] theorem numbersFit_nil : NumbersFit [] :=
  fun _ ht => nomatch ht

@[simp] theorem numbersFit_cons {t : Token} {ts : List Token} :
    NumbersFit (t :: ts) ↔
      (t.kind = .number → decimalValue t.text.toList ≤ maxInteger) ∧ NumbersFit ts :=
  List.forall_mem_cons

/-- The numbers of two lists fit exactly if those of each do. -/
@[simp] theorem numbersFit_append {ts us : List Token} :
    NumbersFit (ts ++ us) ↔ NumbersFit ts ∧ NumbersFit us :=
  List.forall_mem_append

/-- The name of a type. -/
inductive DerivesType : List Token → Ty → Prop
  | name {t : Token} (kind : t.kind = .identifier) : DerivesType [t] (.named t.text)

/-- The declaration of a variable. -/
inductive DerivesVar : List Token → Var → Prop
  | typed {name colon : Token} {ts : List Token} {type : Ty}
      (kind : name.kind = .identifier) (separates : colon.kind = .typeIndicator)
      (typing : DerivesType ts type) :
      DerivesVar (name :: colon :: ts) ⟨name.text, type⟩

/-- A condition between parentheses. -/
inductive DerivesCondition : List Token → Expr → Prop
  | parens {opening closing : Token} {ts : List Token} {e : Expr}
      (opens : opening.kind = .leftParen) (inner : DerivesExpr .assignment ts e)
      (closes : closing.kind = .rightParen) :
      DerivesCondition (opening :: (ts ++ [closing])) e

mutual

/-- Statements. -/
inductive DerivesStmt : List Token → Stmt → Prop
  | ret {t semicolon : Token}
      (word : t.isKeyword "return") (ends : semicolon.kind = .semicolon) :
      DerivesStmt [t, semicolon] (.ret .nowhere none)
  | retValue {t semicolon : Token} {ts : List Token} {e : Expr}
      (word : t.isKeyword "return") (value : DerivesExpr .assignment ts e)
      (ends : semicolon.kind = .semicolon) :
      DerivesStmt (t :: (ts ++ [semicolon])) (.ret .nowhere (some e))
  | branch {ts : List Token} {s : Stmt} (branches : DerivesIf ts s) : DerivesStmt ts s
  | loop {t : Token} {cs bs : List Token} {c : Expr} {body : List Stmt}
      (word : t.isKeyword "while") (condition : DerivesCondition cs c)
      (block : DerivesBlock bs body) :
      DerivesStmt (t :: (cs ++ bs)) (.loop .nowhere c body)
  | declare {t semicolon : Token} {ts : List Token} {v : Var}
      (word : t.isKeyword "var") (declared : DerivesVar ts v)
      (ends : semicolon.kind = .semicolon) :
      DerivesStmt (t :: (ts ++ [semicolon])) (.expression .nowhere (.declare .bare v))
  | declareValue {t sign semicolon : Token} {ts vs : List Token} {v : Var} {e : Expr}
      (word : t.isKeyword "var") (declared : DerivesVar ts v) (assigns : sign.kind = .assign)
      (value : DerivesExpr .assignment vs e) (ends : semicolon.kind = .semicolon) :
      DerivesStmt (t :: (ts ++ sign :: (vs ++ [semicolon])))
        (.expression .nowhere (.assign .bare (.declare .bare v) e))
  | expression {semicolon : Token} {ts : List Token} {e : Expr}
      (value : DerivesExpr .assignment ts e) (ends : semicolon.kind = .semicolon) :
      DerivesStmt (ts ++ [semicolon]) (.expression .nowhere e)

/-- Statements that start with `if`. -/
inductive DerivesIf : List Token → Stmt → Prop
  | ifThen {t : Token} {cs bs : List Token} {c : Expr} {body : List Stmt}
      (word : t.isKeyword "if") (condition : DerivesCondition cs c)
      (block : DerivesBlock bs body) :
      DerivesIf (t :: (cs ++ bs)) (.ifThen .nowhere c body)
  | ifElse {t u : Token} {cs bs os : List Token} {c : Expr} {body : List Stmt} {other : Stmt}
      (word : t.isKeyword "if") (condition : DerivesCondition cs c)
      (block : DerivesBlock bs body) (otherwise : u.isKeyword "else")
      (branch : DerivesElse os other) :
      DerivesIf (t :: (cs ++ (bs ++ u :: os))) (.ifElse .nowhere c body other)

/-- What stands behind `else`: a block, or a further `if`. -/
inductive DerivesElse : List Token → Stmt → Prop
  | block {ts : List Token} {body : List Stmt} (block : DerivesBlock ts body) :
      DerivesElse ts (.block .nowhere body)
  | nested {ts : List Token} {s : Stmt} (branches : DerivesIf ts s) :
      DerivesElse ts (.block .nowhere [s])

/-- Statements between braces. -/
inductive DerivesBlock : List Token → List Stmt → Prop
  | braces {opening closing : Token} {ts : List Token} {body : List Stmt}
      (opens : opening.kind = .leftBrace) (statements : DerivesStmts ts body)
      (closes : closing.kind = .rightBrace) :
      DerivesBlock (opening :: (ts ++ [closing])) body

/-- Statements one after the other. -/
inductive DerivesStmts : List Token → List Stmt → Prop
  | nil : DerivesStmts [] []
  | cons {ts us : List Token} {s : Stmt} {ss : List Stmt}
      (first : DerivesStmt ts s) (others : DerivesStmts us ss) :
      DerivesStmts (ts ++ us) (s :: ss)

end

/-- What a function definition says.  The body is missing when a semicolon
stands in its place. -/
structure Definition where
  builtin : Bool
  result : Ty
  name : String
  arguments : List Var
  body : Option (List Stmt)

/-- The function that is defined. -/
def Definition.function (d : Definition) : Function :=
  ⟨d.name, d.result, d.arguments, [], d.builtin, .nowhere, d.body.getD []⟩

/-- The keyword of a builtin, if it is there. -/
inductive DerivesMark : List Token → Bool → Prop
  | absent : DerivesMark [] false
  | present {t : Token} (word : t.isKeyword "builtin") : DerivesMark [t] true

/-- At least one argument declaration, with commas between them. -/
inductive DerivesParameters : List Token → List Var → Prop
  | one {ts : List Token} {v : Var} (declared : DerivesVar ts v) : DerivesParameters ts [v]
  | more {comma : Token} {ts us : List Token} {v : Var} {vs : List Var}
      (declared : DerivesVar ts v) (separates : comma.kind = .comma)
      (others : DerivesParameters us vs) :
      DerivesParameters (ts ++ comma :: us) (v :: vs)

/-- Argument declarations, if there are any. -/
inductive DerivesParameterList : List Token → List Var → Prop
  | none : DerivesParameterList [] []
  | some {ts : List Token} {vs : List Var} (parameters : DerivesParameters ts vs) :
      DerivesParameterList ts vs

/-- A block, or a semicolon in its place. -/
inductive DerivesBody : List Token → Option (List Stmt) → Prop
  | block {ts : List Token} {body : List Stmt} (block : DerivesBlock ts body) :
      DerivesBody ts (some body)
  | semicolon {t : Token} (kind : t.kind = .semicolon) : DerivesBody [t] none

/-- A function definition. -/
inductive DerivesFunction : List Token → Definition → Prop
  | parts {name opening closing : Token} {ms rs ps bs : List Token} {builtin : Bool} {result : Ty}
      {arguments : List Var} {body : Option (List Stmt)}
      (mark : DerivesMark ms builtin) (type : DerivesType rs result)
      (kind : name.kind = .identifier) (opens : opening.kind = .leftParen)
      (parameters : DerivesParameterList ps arguments) (closes : closing.kind = .rightParen)
      (ending : DerivesBody bs body) :
      DerivesFunction (ms ++ (rs ++ name :: opening :: (ps ++ closing :: bs)))
        ⟨builtin, result, name.text, arguments, body⟩

/-- A program: function definitions one after the other. -/
inductive DerivesProgram : List Token → List Definition → Prop
  | nil : DerivesProgram [] []
  | cons {ts us : List Token} {d : Definition} {ds : List Definition}
      (first : DerivesFunction ts d) (others : DerivesProgram us ds) :
      DerivesProgram (ts ++ us) (d :: ds)

end Slate
