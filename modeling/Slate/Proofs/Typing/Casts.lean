import Slate.Proofs.Typing.Accepted
import Slate.Proofs.Typing.Erased
import Slate.Proofs.Typing.Sound

/-!
# Where casts stand

What an expression is there for is told by what it stands in (`Role`): its value is used,
it is assigned to, a cast reads it, or it is looked at as a whole.  `Expr.standings` and its
companions go through a tree and list the expressions in it, each with its role.

An elaborated tree has a cast around each place whose value is used, and no other cast.
Half of this is in the typing judgment, which asks for the type of a value wherever a value
is used and lets a cast only read a place (`TypedExpr.standings`).  The judgment does not
forbid a cast elsewhere, and does not look at spans.  But the checker makes casts in one way
only, by letting the expressions decay whose values are used; this holds of whatever a
check leaves, passed or failed (`ChecksExpr.tidyAs`).

* `elaboration_canonical` — both halves together, and that erasing undoes the elaboration.
-/

namespace Slate

/-- What an expression is there for. -/
inductive Role where
  /-- Its value is used: by an operator, a call, an assignment or a `return`. -/
  | value
  /-- It is assigned to. -/
  | target
  /-- A cast reads it. -/
  | source
  /-- It is a condition or a statement. -/
  | whole
deriving DecidableEq

/-- An expression in a tree, with its role. -/
structure Standing where
  role : Role
  expr : Expr

mutual

/-- The expression in the role, and the expressions in it. -/
def Expr.standings (role : Role) : Expr → List Standing
  | .literal n value => [⟨role, .literal n value⟩]
  | .declare n v => [⟨role, .declare n v⟩]
  | .var n name => [⟨role, .var n name⟩]
  | .assign n left right =>
    ⟨role, .assign n left right⟩ :: (right.standings .value ++ left.standings .target)
  | .call n name args => ⟨role, .call n name args⟩ :: argumentStandings args
  | .binary n op left right =>
    ⟨role, .binary n op left right⟩ :: (left.standings .value ++ right.standings .value)
  | .unary n op operand => ⟨role, .unary n op operand⟩ :: operand.standings .value
  | .cast n operand => ⟨role, .cast n operand⟩ :: operand.standings .source

/-- The expressions in the arguments. -/
def argumentStandings : List Expr → List Standing
  | [] => []
  | e :: es => e.standings .value ++ argumentStandings es

end

mutual

/-- The expressions in the statement. -/
def Stmt.standings : Stmt → List Standing
  | .expression _ e => e.standings .whole
  | .ret _ none => []
  | .ret _ (some e) => e.standings .value
  | .ifThen _ condition body => condition.standings .whole ++ bodyStandings body
  | .ifElse _ condition body otherwise =>
    condition.standings .whole ++ (bodyStandings body ++ otherwise.standings)
  | .loop _ condition body => condition.standings .whole ++ bodyStandings body
  | .block _ body => bodyStandings body

/-- The expressions in the statements. -/
def bodyStandings : List Stmt → List Standing
  | [] => []
  | s :: ss => s.standings ++ bodyStandings ss

end

/-- The expressions in the function. -/
def Function.standings (f : Function) : List Standing :=
  bodyStandings f.body

namespace Expr

/-- Whether the expression is a cast. -/
def isCast : Expr → Bool
  | cast _ _ => true
  | _ => false

/-- Whether the expression stands for a place that can be assigned to. -/
def isPlace : Expr → Bool
  | declare _ _ => true
  | var _ _ => true
  | assign _ _ _ => true
  | _ => false

/-- The expression without the cast around it, if there is one. -/
def bare : Expr → Expr
  | cast _ operand => operand
  | e => e

/-- Whether the type that is noted is a reference. -/
def isReference (e : Expr) : Bool := e.type?.any Ty.isReference

end Expr

/-- How an expression stands in an elaborated tree. -/
structure Standing.Canonical (s : Standing) : Prop where
  /-- Its type is noted, and is a reference exactly if the expression is a place. -/
  noted : ∃ t, s.expr.type? = some t ∧ t.isReference = s.expr.isPlace
  /-- It is a cast exactly if its value is used and what it is without a cast is a
  reference. -/
  cast_iff : s.expr.isCast = true ↔ s.role = .value ∧ s.expr.bare.isReference = true
  /-- A cast stands where its operand does, and has the type of the value there. -/
  note : ∀ n operand, s.expr = .cast n operand → n = ⟨operand.type?.map Ty.value, operand.span⟩

/-! ## What the judgment says of standings -/

/-- The type of the expression is noted and fits its role, and a cast reads a place. -/
structure Standing.Typed (s : Standing) : Prop where
  noted : ∃ t, s.expr.type? = some t ∧ t.isReference = s.expr.isPlace
  value : s.role = .value → s.expr.isReference = false
  reads : ∀ n operand, s.expr = .cast n operand →
    operand.isReference = true ∧ n.type = operand.type?.map Ty.value

/-- No unary operator works on references. -/
theorem UnaryOp.isReference_operandType (op : UnaryOp) : op.operandType.isReference = false := by
  cases op <;> rfl

/-- No literal is a reference. -/
theorem Literal.isReference_type (value : Literal) : value.type.isReference = false := by
  cases value <;> rfl

/-- No binary operator gives a reference. -/
theorem BinaryOp.isReference_resultType {op : BinaryOp} {operand result : Ty}
    (h : op.resultType operand = .ok result) : result.isReference = false := by
  rcases op.resultType_eq_ok h with ⟨_, _, _, rfl⟩ | ⟨_, _, rfl⟩ <;> rfl

variable {env : Env}

/-- References are the types of places. -/
theorem TypedExpr.isPlace_eq (henv : env.Plain) {before after : List Var} {e : Expr} {t : Ty}
    (h : TypedExpr env before e t after) : e.isPlace = t.isReference := by
  cases h with
  | literal _ => exact (Literal.isReference_type _).symm
  | declare _ _ _ _ => rfl
  | var _ _ => rfl
  | assign _ _ reference _ => exact reference.symm
  | syscall _ _ _ => rfl
  | call _ known _ _ => exact (henv.signatures _ _ known).2.symm
  | binary _ _ _ defined _ => exact (BinaryOp.isReference_resultType defined).symm
  | unary _ _ => exact (UnaryOp.isReference_operandType _).symm
  | cast _ _ _ => rfl

/-- What is checked to be a reference is what records a type of references. -/
theorem TypedExpr.isReference_eq {before after : List Var} {e : Expr} {t : Ty}
    (h : TypedExpr env before e t after) : e.isReference = t.isReference := by
  rw [Expr.isReference, h.type?_eq, Option.any_some]

/-- A typed expression that is no cast fits its role, if a value is no reference. -/
theorem TypedExpr.standing (henv : env.Plain) {before after : List Var} {e : Expr} {t : Ty}
    (h : TypedExpr env before e t after) {role : Role}
    (hvalue : role = .value → t.isReference = false) (hcast : e.isCast = false) :
    Standing.Typed ⟨role, e⟩ where
  noted := ⟨t, h.type?_eq, (h.isPlace_eq henv).symm⟩
  value hrole := h.isReference_eq.trans (hvalue hrole)
  reads n operand heq := by
    cases heq
    cases hcast

mutual

/-- **Expressions in typed expressions fit their roles.** -/
theorem TypedExpr.standings (henv : env.Plain) {before after : List Var} {e : Expr} {t : Ty}
    {role : Role} : TypedExpr env before e t after → (role = .value → t.isReference = false) →
      ∀ s ∈ e.standings role, s.Typed
  | h@(.literal _) => fun hvalue => List.forall_mem_singleton.2 (h.standing henv hvalue rfl)
  | h@(.declare _ _ _ _) => fun hvalue => List.forall_mem_singleton.2 (h.standing henv hvalue rfl)
  | h@(.var _ _) => fun hvalue => List.forall_mem_singleton.2 (h.standing henv hvalue rfl)
  | h@(.assign value place _ _) => by
      intro hvalue
      refine List.forall_mem_cons.2 ⟨h.standing henv hvalue rfl, List.forall_mem_append.2 ⟨?_, ?_⟩⟩
      · exact value.standings henv fun _ => rfl
      · exact place.standings henv fun hrole => nomatch hrole
  | h@(.syscall _ arguments _) => fun hvalue =>
      List.forall_mem_cons.2 ⟨h.standing henv hvalue rfl, arguments.standings henv⟩
  | h@(.call _ _ arguments _) => fun hvalue =>
      List.forall_mem_cons.2 ⟨h.standing henv hvalue rfl, arguments.standings henv⟩
  | h@(.binary first second plain _ _) => by
      intro hvalue
      refine List.forall_mem_cons.2 ⟨h.standing henv hvalue rfl, List.forall_mem_append.2 ⟨?_, ?_⟩⟩
      · exact first.standings henv fun _ => plain
      · exact second.standings henv fun _ => plain
  | h@(.unary value _) => fun hvalue =>
      List.forall_mem_cons.2 ⟨h.standing henv hvalue rfl,
        value.standings henv fun _ => UnaryOp.isReference_operandType _⟩
  | .cast place reference noted => by
      intro _
      have hcast := (TypedExpr.cast place reference noted).isReference_eq
      refine List.forall_mem_cons.2 ⟨⟨⟨_, noted, rfl⟩, fun _ => hcast, ?_⟩,
        place.standings henv fun hrole => nomatch hrole⟩
      intro n operand heq
      cases heq
      rw [place.isReference_eq, place.type?_eq]
      exact ⟨reference, noted⟩

/-- The same for the arguments of a call. -/
theorem TypedArguments.standings (henv : env.Plain) {before after : List Var} {es : List Expr}
    {ts : List Ty} : TypedArguments env before es ts after → ∀ s ∈ argumentStandings es, s.Typed
  | .nil => List.forall_mem_nil _
  | .cons argument plain others =>
      List.forall_mem_append.2 ⟨argument.standings henv fun _ => plain, others.standings henv⟩

end

mutual

/-- **Expressions in typed statements fit their roles.** -/
theorem TypedStmt.standings (henv : env.Plain) {before after : List Var} {s : Stmt} :
    TypedStmt env before s after → ∀ x ∈ s.standings, x.Typed
  | .expression value => value.standings henv fun hrole => nomatch hrole
  | .ret _ => List.forall_mem_nil _
  | .retValue _ value => value.standings henv fun _ => henv.result
  | .ifThen test branch =>
      List.forall_mem_append.2 ⟨test.standings henv (fun hrole => nomatch hrole),
        branch.standings henv⟩
  | .ifElse test branch other =>
      List.forall_mem_append.2 ⟨test.standings henv (fun hrole => nomatch hrole),
        List.forall_mem_append.2 ⟨branch.standings henv, other.standings henv⟩⟩
  | .loop test rounds =>
      List.forall_mem_append.2 ⟨test.standings henv (fun hrole => nomatch hrole),
        rounds.standings henv⟩
  | .block inner => inner.standings henv

/-- The same for a list of statements. -/
theorem TypedStmts.standings (henv : env.Plain) {before after : List Var} {ss : List Stmt} :
    TypedStmts env before ss after → ∀ x ∈ bodyStandings ss, x.Typed
  | .nil => List.forall_mem_nil _
  | .cons first others =>
      List.forall_mem_append.2 ⟨first.standings henv, others.standings henv⟩

end

/-! ## How the checker makes casts -/

/-- If the expression is a cast, its value is used, and its span is that of its operand. -/
def Standing.Tidy (s : Standing) : Prop :=
  ∀ n operand, s.expr = .cast n operand → s.role = .value ∧ n.span = operand.span

/-- What is no cast is tidy in every role. -/
theorem Standing.tidy_of_isCast {role : Role} {e : Expr} (h : e.isCast = false) :
    Standing.Tidy ⟨role, e⟩ := by
  intro n operand heq
  cases heq
  cases h

/-- Casts in the expression stand tidily, if the expression is in the role. -/
def Expr.TidyAs (role : Role) (e : Expr) : Prop := ∀ s ∈ e.standings role, s.Tidy

/-- Casts in the arguments stand tidily. -/
def ArgumentsTidy (es : List Expr) : Prop := ∀ s ∈ argumentStandings es, s.Tidy

/-- Casts in the statement stand tidily. -/
def Stmt.Tidy (s : Stmt) : Prop := ∀ x ∈ s.standings, x.Tidy

/-- Casts in the statements stand tidily. -/
def BodyTidy (ss : List Stmt) : Prop := ∀ x ∈ bodyStandings ss, x.Tidy

section

variable {role : Role}

@[simp] theorem tidyAs_literal (n : Note) (value : Literal) :
    (Expr.literal n value).TidyAs role :=
  List.forall_mem_singleton.2 (Standing.tidy_of_isCast rfl)

@[simp] theorem tidyAs_declare (n : Note) (v : Var) : (Expr.declare n v).TidyAs role :=
  List.forall_mem_singleton.2 (Standing.tidy_of_isCast rfl)

@[simp] theorem tidyAs_var (n : Note) (name : String) : (Expr.var n name).TidyAs role :=
  List.forall_mem_singleton.2 (Standing.tidy_of_isCast rfl)

/-- An assignment is tidy if its value is so as a value and its place as a target. -/
@[simp] theorem tidyAs_assign {n : Note} {left right : Expr} :
    (Expr.assign n left right).TidyAs role ↔ right.TidyAs .value ∧ left.TidyAs .target :=
  List.forall_mem_cons.trans <|
    (and_iff_right (Standing.tidy_of_isCast rfl)).trans List.forall_mem_append

/-- A call is tidy if its arguments are. -/
@[simp] theorem tidyAs_call {n : Note} {name : String} {args : List Expr} :
    (Expr.call n name args).TidyAs role ↔ ArgumentsTidy args :=
  List.forall_mem_cons.trans (and_iff_right (Standing.tidy_of_isCast rfl))

/-- A binary operation is tidy if its operands are so as values. -/
@[simp] theorem tidyAs_binary {n : Note} {op : BinaryOp} {left right : Expr} :
    (Expr.binary n op left right).TidyAs role ↔ left.TidyAs .value ∧ right.TidyAs .value :=
  List.forall_mem_cons.trans <|
    (and_iff_right (Standing.tidy_of_isCast rfl)).trans List.forall_mem_append

/-- A unary operation is tidy if its operand is so as a value. -/
@[simp] theorem tidyAs_unary {n : Note} {op : UnaryOp} {operand : Expr} :
    (Expr.unary n op operand).TidyAs role ↔ operand.TidyAs .value :=
  List.forall_mem_cons.trans (and_iff_right (Standing.tidy_of_isCast rfl))

@[simp] theorem argumentsTidy_nil : ArgumentsTidy [] :=
  List.forall_mem_nil _

/-- Arguments are tidy if each of them is so as a value. -/
@[simp] theorem argumentsTidy_cons {e : Expr} {es : List Expr} :
    ArgumentsTidy (e :: es) ↔ e.TidyAs .value ∧ ArgumentsTidy es :=
  List.forall_mem_append

/-- An expression by itself is tidy as a whole. -/
@[simp] theorem tidy_expression {span : Span} {e : Expr} :
    (Stmt.expression span e).Tidy ↔ e.TidyAs .whole :=
  .rfl

/-- A returned expression is tidy as a value. -/
@[simp] theorem tidy_ret {span : Span} {value : Option Expr} :
    (Stmt.ret span value).Tidy ↔ ∀ e ∈ value, e.TidyAs .value := by
  cases value with
  | none => simp [Stmt.Tidy, Stmt.standings]
  | some e => simp [Stmt.Tidy, Stmt.standings, Expr.TidyAs]

/-- The condition of a conditional is tidy as a whole. -/
@[simp] theorem tidy_ifThen {span : Span} {condition : Expr} {body : List Stmt} :
    (Stmt.ifThen span condition body).Tidy ↔ condition.TidyAs .whole ∧ BodyTidy body :=
  List.forall_mem_append

/-- So it is where there is an alternative. -/
@[simp] theorem tidy_ifElse {span : Span} {condition : Expr} {body : List Stmt}
    {otherwise : Stmt} :
    (Stmt.ifElse span condition body otherwise).Tidy ↔
      condition.TidyAs .whole ∧ BodyTidy body ∧ otherwise.Tidy :=
  List.forall_mem_append.trans (and_congr_right' List.forall_mem_append)

/-- The condition of a loop is tidy as a whole. -/
@[simp] theorem tidy_loop {span : Span} {condition : Expr} {body : List Stmt} :
    (Stmt.loop span condition body).Tidy ↔ condition.TidyAs .whole ∧ BodyTidy body :=
  List.forall_mem_append

@[simp] theorem tidy_block {span : Span} {body : List Stmt} :
    (Stmt.block span body).Tidy ↔ BodyTidy body :=
  .rfl

@[simp] theorem bodyTidy_nil : BodyTidy [] :=
  List.forall_mem_nil _

/-- Statements are tidy if each of them is. -/
@[simp] theorem bodyTidy_cons {s : Stmt} {ss : List Stmt} :
    BodyTidy (s :: ss) ↔ s.Tidy ∧ BodyTidy ss :=
  List.forall_mem_append

end

/-- An expression that is no cast and whose casts stand tidily decays tidily. -/
theorem tidyAs_decayed {e : Expr} (h : ∀ role, e.TidyAs role) (t : Ty) :
    (e.decayed t).TidyAs .value := by
  unfold Expr.decayed
  split
  · refine List.forall_mem_cons.2 ⟨fun n operand heq => ?_, h .source⟩
    cases heq
    exact ⟨rfl, rfl⟩
  · exact h .value

mutual

/-- What was read has no casts. -/
theorem Expr.AsRead.tidy (role : Role) : ∀ {e : Expr}, e.AsRead → e.TidyAs role
  | .literal _ _, _ => tidyAs_literal _ _
  | .declare _ _, _ => tidyAs_declare _ _
  | .var _ _, _ => tidyAs_var _ _
  | .assign _ _ _, ⟨_, hleft, hright⟩ => tidyAs_assign.2 ⟨hright.tidy .value, hleft.tidy .target⟩
  | .call _ _ _, ⟨_, hargs⟩ => tidyAs_call.2 (ArgumentsAsRead.tidy hargs)
  | .binary _ _ _ _, ⟨_, hleft, hright⟩ =>
      tidyAs_binary.2 ⟨hleft.tidy .value, hright.tidy .value⟩
  | .unary _ _ _, ⟨_, hoperand⟩ => tidyAs_unary.2 (hoperand.tidy .value)

/-- The same for the arguments of a call. -/
theorem ArgumentsAsRead.tidy : ∀ {es : List Expr}, ArgumentsAsRead es → ArgumentsTidy es
  | [], _ => argumentsTidy_nil
  | _ :: _, ⟨he, hes⟩ => argumentsTidy_cons.2 ⟨he.tidy .value, ArgumentsAsRead.tidy hes⟩

end

mutual

/-- A statement as it was read is tidy, for it has no casts. -/
theorem Stmt.AsRead.tidy : ∀ {s : Stmt}, s.AsRead → s.Tidy
  | .expression _ _, h => tidy_expression.2 (Expr.AsRead.tidy .whole h)
  | .ret _ none, _ => by simp
  | .ret _ (some e), h => by simpa using Expr.AsRead.tidy (e := e) .value h
  | .ifThen _ _ _, ⟨hcondition, hbody⟩ =>
      tidy_ifThen.2 ⟨hcondition.tidy .whole, BodyAsRead.tidy hbody⟩
  | .ifElse _ _ _ _, ⟨hcondition, hbody, hotherwise⟩ =>
      tidy_ifElse.2 ⟨hcondition.tidy .whole, BodyAsRead.tidy hbody, hotherwise.tidy⟩
  | .loop _ _ _, ⟨hcondition, hbody⟩ =>
      tidy_loop.2 ⟨hcondition.tidy .whole, BodyAsRead.tidy hbody⟩
  | .block _ _, h => tidy_block.2 (BodyAsRead.tidy h)

/-- The same for a list of statements. -/
theorem BodyAsRead.tidy : ∀ {ss : List Stmt}, BodyAsRead ss → BodyTidy ss
  | [], _ => bodyTidy_nil
  | _ :: _, ⟨hs, hss⟩ => bodyTidy_cons.2 ⟨hs.tidy, BodyAsRead.tidy hss⟩

end

variable {env : Env}

mutual

/-- **A check puts casts only around values that are used**, whether it passes or fails. -/
theorem ChecksExpr.tidyAs {before after : List Var} {e e' : Expr}
    {verdict : Except TypeFault Ty} :
    ChecksExpr env before e ⟨e', after, verdict⟩ → e.AsRead → ∀ role, e'.TidyAs role
  | .literal, _, _ => tidyAs_literal _ _
  | .unstorable _, _, _ => tidyAs_declare _ _
  | .redeclared _ _, _, _ => tidyAs_declare _ _
  | .declare _ _, _, _ => tidyAs_declare _ _
  | .unknown _, _, _ => tidyAs_var _ _
  | .var _, _, _ => tidyAs_var _ _
  | .assignRight value, ⟨_, hleft, hright⟩, _ =>
      tidyAs_assign.2 ⟨value.tidyAs hright .value, hleft.tidy .target⟩
  | .assignLeft value place, ⟨_, hleft, hright⟩, _ =>
      tidyAs_assign.2 ⟨value.tidyAs hright .value, place.tidyAs hleft .target⟩
  | .assignValue value place _, ⟨_, hleft, hright⟩, _ =>
      tidyAs_assign.2 ⟨value.tidyAs hright .value, place.tidyAs hleft .target⟩
  | .assignDiffers value place _ _, ⟨_, hleft, hright⟩, _ =>
      tidyAs_assign.2 ⟨value.tidyAs hright .value, place.tidyAs hleft .target⟩
  | .assign value place _ _, ⟨_, hleft, hright⟩, _ =>
      tidyAs_assign.2 ⟨tidyAs_decayed (value.tidyAs hright) _, place.tidyAs hleft .target⟩
  | .refused _, ⟨_, hargs⟩, _ => tidyAs_call.2 (ArgumentsAsRead.tidy hargs)
  | .callArguments _ arguments, ⟨_, hargs⟩, _ => tidyAs_call.2 (arguments.tidy hargs)
  | .call _ arguments, ⟨_, hargs⟩, _ => tidyAs_call.2 (arguments.tidy hargs)
  | .binaryFirst first, ⟨_, hleft, hright⟩, _ =>
      tidyAs_binary.2 ⟨first.tidyAs hleft .value, hright.tidy .value⟩
  | .binarySecond first second, ⟨_, hleft, hright⟩, _ =>
      tidyAs_binary.2 ⟨first.tidyAs hleft .value, second.tidyAs hright .value⟩
  | .binaryDiffers first second _, ⟨_, hleft, hright⟩, _ =>
      tidyAs_binary.2 ⟨first.tidyAs hleft .value, second.tidyAs hright .value⟩
  | .binaryUndefined first second _ _, ⟨_, hleft, hright⟩, _ =>
      tidyAs_binary.2 ⟨tidyAs_decayed (first.tidyAs hleft) _,
        tidyAs_decayed (second.tidyAs hright) _⟩
  | .binary first second _ _, ⟨_, hleft, hright⟩, _ =>
      tidyAs_binary.2 ⟨tidyAs_decayed (first.tidyAs hleft) _,
        tidyAs_decayed (second.tidyAs hright) _⟩
  | .unaryOperand value, ⟨_, hoperand⟩, _ => tidyAs_unary.2 (value.tidyAs hoperand .value)
  | .unaryDiffers value _, ⟨_, hoperand⟩, _ =>
      tidyAs_unary.2 (tidyAs_decayed (value.tidyAs hoperand) _)
  | .unary value _, ⟨_, hoperand⟩, _ =>
      tidyAs_unary.2 (tidyAs_decayed (value.tidyAs hoperand) _)

/-- The check makes tidy arguments of what was read. -/
theorem ChecksArguments.tidy {before after : List Var} {expected : List Ty}
    {es es' : List Expr} {verdict : Except TypeFault Unit} :
    ChecksArguments env before expected es ⟨es', after, verdict⟩ → ArgumentsAsRead es →
      ArgumentsTidy es'
  | .nil, _ => argumentsTidy_nil
  | .first argument, ⟨he, hes⟩ =>
      argumentsTidy_cons.2 ⟨argument.tidyAs he .value, ArgumentsAsRead.tidy hes⟩
  | .free argument others, ⟨he, hes⟩ =>
      argumentsTidy_cons.2 ⟨tidyAs_decayed (argument.tidyAs he) _, others.tidy hes⟩
  | .differs argument _, ⟨he, hes⟩ =>
      argumentsTidy_cons.2 ⟨tidyAs_decayed (argument.tidyAs he) _, ArgumentsAsRead.tidy hes⟩
  | .cons argument _ others, ⟨he, hes⟩ =>
      argumentsTidy_cons.2 ⟨tidyAs_decayed (argument.tidyAs he) _, others.tidy hes⟩

end

/-- A condition is tidy as a whole: one that is a reference is cast. -/
theorem ChecksCondition.tidyAs {before after : List Var} {e e' : Expr}
    {verdict : Except TypeFault Unit} :
    ChecksCondition env before e ⟨e', after, verdict⟩ → e.AsRead → e'.TidyAs .whole
  | .stops value, hread => value.tidyAs hread .whole
  | .other value _, hread => value.tidyAs hread .whole
  | .pass value, hread => value.tidyAs hread .whole

/-- A returned value is tidy behind the check. -/
theorem ChecksReturn.tidy {before after : List Var} {span : Span} {value value' : Option Expr}
    {verdict : Except TypeFault Unit} :
    ChecksReturn env before span value ⟨value', after, verdict⟩ → (Stmt.ret span value).AsRead →
      (Stmt.ret span value').Tidy
  | .nothing _, _ => tidy_ret.2 (by simp)
  | .missing _, _ => tidy_ret.2 (by simp)
  | .unwanted _, hread => tidy_ret.2 (by simpa using Expr.AsRead.tidy .value hread)
  | .stops _ value, hread => tidy_ret.2 (by simpa using value.tidyAs hread .value)
  | .differs _ value _, hread => tidy_ret.2 (by simpa using value.tidyAs hread .value)
  | .value _ value _, hread =>
      tidy_ret.2 (by simpa using tidyAs_decayed (value.tidyAs hread) _)

mutual

/-- A check of a statement puts casts only around values that are used. -/
theorem ChecksStmt.tidy {before after : List Var} {s s' : Stmt}
    {verdict : Except TypeFault Unit} :
    ChecksStmt env before s ⟨s', after, verdict⟩ → s.AsRead → s'.Tidy
  | .expressionStops value, hread => value.tidyAs hread .whole
  | .expression value, hread => value.tidyAs hread .whole
  | .ret returned, hread => returned.tidy hread
  | .ifThenStops test, ⟨htest, hbranch⟩ =>
      tidy_ifThen.2 ⟨test.tidyAs htest, BodyAsRead.tidy hbranch⟩
  | .ifThen test branch, ⟨htest, hbranch⟩ =>
      tidy_ifThen.2 ⟨test.tidyAs htest, branch.tidy hbranch⟩
  | .ifElseStops test, ⟨htest, hbranch, hother⟩ =>
      tidy_ifElse.2 ⟨test.tidyAs htest, BodyAsRead.tidy hbranch, hother.tidy⟩
  | .ifElseBranch test branch, ⟨htest, hbranch, hother⟩ =>
      tidy_ifElse.2 ⟨test.tidyAs htest, branch.tidy hbranch, hother.tidy⟩
  | .ifElse test branch other, ⟨htest, hbranch, hother⟩ =>
      tidy_ifElse.2 ⟨test.tidyAs htest, branch.tidy hbranch, other.tidy hother⟩
  | .loopStops test, ⟨htest, hrounds⟩ =>
      tidy_loop.2 ⟨test.tidyAs htest, BodyAsRead.tidy hrounds⟩
  | .loop test rounds, ⟨htest, hrounds⟩ =>
      tidy_loop.2 ⟨test.tidyAs htest, rounds.tidy hrounds⟩
  | .block inner, hread => tidy_block.2 (inner.tidy hread)

/-- The same for a list of statements. -/
theorem ChecksStmts.tidy {before after : List Var} {ss ss' : List Stmt}
    {verdict : Except TypeFault Unit} :
    ChecksStmts env before ss ⟨ss', after, verdict⟩ → BodyAsRead ss → BodyTidy ss'
  | .nil, _ => bodyTidy_nil
  | .first first, ⟨hfirst, hothers⟩ =>
      bodyTidy_cons.2 ⟨first.tidy hfirst, BodyAsRead.tidy hothers⟩
  | .cons first others, ⟨hfirst, hothers⟩ =>
      bodyTidy_cons.2 ⟨first.tidy hfirst, others.tidy hothers⟩

end

/-- What a check of a function leaves has casts only around values that are used. -/
theorem Function.tidy_check (signatures : Signatures) {f : Function} (h : f.AsRead) :
    BodyTidy (f.check signatures).1.body := by
  unfold Function.check
  split
  · exact BodyAsRead.tidy h.body
  · split
    · exact BodyAsRead.tidy h.body
    · exact (checksStmts _ [] f.body).tidy h.body

/-! ## Elaborated programs -/

/-- What is typed and tidy stands as in an elaborated tree. -/
theorem Standing.Typed.canonical {s : Standing} (htyped : s.Typed) (htidy : s.Tidy) :
    s.Canonical where
  noted := htyped.noted
  cast_iff := by
    obtain ⟨role, e⟩ := s
    constructor
    · intro hcast
      cases e with
      | cast n operand => exact ⟨(htidy n operand rfl).1, (htyped.reads n operand rfl).1⟩
      | _ => cases hcast
    · rintro ⟨hrole, hreference⟩
      have hvalue := htyped.value hrole
      cases e with
      | cast n operand => rfl
      | _ => exact absurd (hreference.symm.trans hvalue) (by decide)
  note n operand heq := by
    obtain ⟨type, span⟩ := n
    obtain ⟨-, htype⟩ := htyped.reads _ _ heq
    obtain ⟨-, hspan⟩ := htidy _ _ heq
    simp only at htype hspan
    rw [htype, hspan]

/-- The program without what a check adds to its functions. -/
def Program.erased (p : Program) : Program :=
  { p with functions := p.functions.map Function.erased }

/-- Erasing undoes the check of a program that was read. -/
theorem checked_erased {ts : List Token} {file : Option String} {p q : Program}
    (hparse : Program.parse ts file = .ok p) (hcheck : p.check = .ok q) : q.erased = p := by
  obtain ⟨_, rfl⟩ := Program.check_eq_ok.1 hcheck
  have hback : ∀ f ∈ p.functions, (f.check p.signatures).1.erased = f := fun f hf =>
    (f.erased_check p.signatures).trans (parse_asRead hparse f hf).erased
  have hfunctions : (p.functions.map fun f => (f.check p.signatures).1).map Function.erased =
      p.functions := by
    rw [List.map_map]
    exact (List.map_congr_left hback).trans (List.map_id _)
  simp only [Program.erased, hfunctions]

/-- In a function as read that passes, expressions stand as in an elaborated tree. -/
theorem Function.canonical_check {signatures : Signatures} {f : Function} (hread : f.AsRead)
    (hplain : (f.typingEnv signatures).Plain) (hblock : f.builtin = false)
    (hpass : (f.check signatures).2 = .ok ()) :
    ∀ s ∈ (f.check signatures).1.standings, s.Canonical := by
  have hcause := Function.declarationCause?_of_check hpass
  have hchecks := checksStmts (f.typingEnv signatures) [] f.body
  rcases hbody : checkStmts (f.typingEnv signatures) [] f.body with ⟨body, locals, verdict⟩
  have htidy := f.tidy_check signatures hread
  rw [Function.check_of_body hcause hblock hbody] at hpass htidy ⊢
  obtain rfl : verdict = .ok () := hpass
  rw [hbody] at hchecks
  have htyped := hchecks.typed hplain hread.body
  exact fun s hs => (htyped.standings hplain s hs).canonical (htidy s hs)

/-- **The elaboration is canonical and loses nothing.**  If a program that was read passes the
check, then erasing the casts, the noted types and the recorded locals from the outcome gives
the program back; and in the outcome a cast stands around each expression of reference type
whose value is used, with the span of this expression and with its type as a value, and
nowhere else. -/
theorem elaboration_canonical {ts : List Token} {file : Option String} {p q : Program}
    (hparse : Program.parse ts file = .ok p) (hcheck : p.check = .ok q) :
    q.erased = p ∧ ∀ f ∈ q.functions, ∀ s ∈ f.standings, s.Canonical := by
  have hread := parse_asRead hparse
  refine ⟨checked_erased hparse hcheck, ?_⟩
  obtain ⟨hpass, rfl⟩ := Program.check_eq_ok.1 hcheck
  intro f' hf'
  obtain ⟨f, hf, rfl⟩ := List.mem_map.1 hf'
  cases hblock : f.builtin with
  | false =>
      exact Function.canonical_check (hread f hf) (typingEnv_plain hread hf) hblock (hpass f hf)
  | true =>
      have hcause := Function.declarationCause?_of_check (hpass f hf)
      rw [Function.check_of_builtin hcause hblock, Function.standings,
        parse_builtin hparse f hf hblock]
      exact List.forall_mem_nil _

/-- A place that is declared, assigned to, passed and returned. -/
def assignedSource : String := "i32 f(n: i32) { var m: i32 = n; return f(m = m + n); }"

/-- Of its places four are used for their values, and each of these has a cast. -/
theorem elaboration_canonical_assigned :
    ∃ p q, Program.parse (tokensOf assignedSource) none = .ok p ∧
      p.check = .ok q ∧ q.erased = p ∧
      (q.functions.flatMap Function.standings).countP (fun s => s.expr.isCast) = 4 ∧
      ∀ f ∈ q.functions, ∀ s ∈ f.standings, s.Canonical := by
  have hcheck : (Program.parse (tokensOf assignedSource) none).toOption.any (fun p =>
        p.check.toOption.any fun q =>
          decide ((q.functions.flatMap Function.standings).countP (fun s => s.expr.isCast) = 4)) =
        true := by
    decide +kernel
  obtain ⟨p, hp, hcheck⟩ := (Option.any_eq_true _ _).1 hcheck
  obtain ⟨q, hq, hcount⟩ := (Option.any_eq_true _ _).1 hcheck
  rw [toOption_eq_some] at hp hq
  obtain ⟨herased, hcanonical⟩ := elaboration_canonical hp hq
  exact ⟨p, q, hp, hq, herased, of_decide_eq_true hcount, hcanonical⟩

end Slate
