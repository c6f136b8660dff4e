import Slate.Proofs.Typing.Names

/-!
# Places in a tree

The text says which locals are known where an expression is reached: those that have been
declared before it, in the order of evaluation within an expression and in the order of
the text from one statement to the next.  `Expr.occurrences` and its companions go through
a tree and list the expressions in it, each with these locals.

The typing judgment threads locals in the same way (`TypedExpr.after_eq`), so every
expression in a typed tree is typed with the locals that it is listed with; and as locals
are only added, these are the first ones of all (`TypedPlace`).
-/

namespace Slate

mutual

/-- The variables that evaluating the expression declares, in order. -/
def Expr.declared : Expr → List Var
  | .literal _ _ => []
  | .declare _ v => [v]
  | .var _ _ => []
  | .assign _ left right => right.declared ++ left.declared
  | .call _ _ args => argumentsDeclared args
  | .binary _ _ left right => left.declared ++ right.declared
  | .unary _ _ operand => operand.declared
  | .cast _ operand => operand.declared

/-- The variables that evaluating the arguments declares, in order. -/
def argumentsDeclared : List Expr → List Var
  | [] => []
  | e :: es => e.declared ++ argumentsDeclared es

end

/-- What arguments declare is what each of them declares. -/
theorem argumentsDeclared_eq (es : List Expr) :
    argumentsDeclared es = es.flatMap Expr.declared := by
  induction es with
  | nil => rfl
  | cons e es ih => rw [argumentsDeclared, ih, List.flatMap_cons]

/-- What is no declaration itself declares what its operands do, in the order in which they
are evaluated. -/
theorem Expr.declared_operands {e : Expr} (h : ∀ n v, e ≠ .declare n v) :
    e.declared = e.operands.flatMap Expr.declared := by
  cases e with
  | declare n v => exact (h n v rfl).elim
  | call n name args => exact argumentsDeclared_eq args
  | _ => simp [Expr.declared, Expr.operands]

mutual

/-- The expression and the expressions in it, each with the locals that are known where it
is reached. -/
def Expr.occurrences (locals : List Var) : Expr → List (List Var × Expr)
  | .literal n value => [(locals, .literal n value)]
  | .declare n v => [(locals, .declare n v)]
  | .var n name => [(locals, .var n name)]
  | .assign n left right =>
    (locals, .assign n left right) ::
      (right.occurrences locals ++ left.occurrences (locals ++ right.declared))
  | .call n name args => (locals, .call n name args) :: argumentOccurrences locals args
  | .binary n op left right =>
    (locals, .binary n op left right) ::
      (left.occurrences locals ++ right.occurrences (locals ++ left.declared))
  | .unary n op operand => (locals, .unary n op operand) :: operand.occurrences locals
  | .cast n operand => (locals, .cast n operand) :: operand.occurrences locals

/-- The expressions in the arguments. -/
def argumentOccurrences (locals : List Var) : List Expr → List (List Var × Expr)
  | [] => []
  | e :: es => e.occurrences locals ++ argumentOccurrences (locals ++ e.declared) es

end

mutual

/-- The variables that the text of the statement declares, in order. -/
def Stmt.declared : Stmt → List Var
  | .expression _ e => e.declared
  | .ret _ none => []
  | .ret _ (some e) => e.declared
  | .ifThen _ condition body => condition.declared ++ bodyDeclared body
  | .ifElse _ condition body otherwise =>
    condition.declared ++ bodyDeclared body ++ otherwise.declared
  | .loop _ condition body => condition.declared ++ bodyDeclared body
  | .block _ body => bodyDeclared body

/-- The variables that the text of the statements declares, in order. -/
def bodyDeclared : List Stmt → List Var
  | [] => []
  | s :: ss => s.declared ++ bodyDeclared ss

end

mutual

/-- The expressions in the statement, each with the locals that are known where it is
reached. -/
def Stmt.occurrences (locals : List Var) : Stmt → List (List Var × Expr)
  | .expression _ e => e.occurrences locals
  | .ret _ none => []
  | .ret _ (some e) => e.occurrences locals
  | .ifThen _ condition body =>
    condition.occurrences locals ++ bodyOccurrences (locals ++ condition.declared) body
  | .ifElse _ condition body otherwise =>
    condition.occurrences locals ++
      (bodyOccurrences (locals ++ condition.declared) body ++
        otherwise.occurrences (locals ++ (condition.declared ++ bodyDeclared body)))
  | .loop _ condition body =>
    condition.occurrences locals ++ bodyOccurrences (locals ++ condition.declared) body
  | .block _ body => bodyOccurrences locals body

/-- The expressions in the statements. -/
def bodyOccurrences (locals : List Var) : List Stmt → List (List Var × Expr)
  | [] => []
  | s :: ss => s.occurrences locals ++ bodyOccurrences (locals ++ s.declared) ss

end

/-- The expressions in the function. -/
def Function.occurrences (f : Function) : List (List Var × Expr) :=
  bodyOccurrences [] f.body

variable {env : Env}

/-! ## Declared variables are the locals added -/

mutual

/-- Behind an expression there are the variables it declares besides those before. -/
theorem TypedExpr.after_eq {before after : List Var} {e : Expr} {t : Ty} :
    TypedExpr env before e t after → after = before ++ e.declared
  | .literal _ => (List.append_nil _).symm
  | .declare _ _ _ _ => rfl
  | .var _ _ => (List.append_nil _).symm
  | .assign value place _ _ => by
      rw [place.after_eq, value.after_eq, List.append_assoc, Expr.declared]
  | .syscall _ arguments _ => arguments.after_eq
  | .call _ _ arguments _ => arguments.after_eq
  | .binary first second _ _ _ => by
      rw [second.after_eq, first.after_eq, List.append_assoc, Expr.declared]
  | .unary value _ => value.after_eq
  | .cast place _ _ => place.after_eq

/-- The same for the arguments of a call. -/
theorem TypedArguments.after_eq {before after : List Var} {es : List Expr} {ts : List Ty} :
    TypedArguments env before es ts after → after = before ++ argumentsDeclared es
  | .nil => (List.append_nil _).symm
  | .cons argument _ others => by
      rw [others.after_eq, argument.after_eq, List.append_assoc, argumentsDeclared]

end

mutual

/-- The same for a statement. -/
theorem TypedStmt.after_eq {before after : List Var} {s : Stmt} :
    TypedStmt env before s after → after = before ++ s.declared
  | .expression value => value.after_eq
  | .ret _ => (List.append_nil _).symm
  | .retValue _ value => value.after_eq
  | .ifThen test branch => by
      rw [branch.after_eq, test.after_eq, List.append_assoc, Stmt.declared]
  | .ifElse test branch other => by
      rw [other.after_eq, branch.after_eq, test.after_eq, Stmt.declared, ← List.append_assoc,
        ← List.append_assoc]
  | .loop test rounds => by
      rw [rounds.after_eq, test.after_eq, List.append_assoc, Stmt.declared]
  | .block inner => inner.after_eq

/-- The same for a list of statements. -/
theorem TypedStmts.after_eq {before after : List Var} {ss : List Stmt} :
    TypedStmts env before ss after → after = before ++ bodyDeclared ss
  | .nil => (List.append_nil _).symm
  | .cons first others => by
      rw [others.after_eq, first.after_eq, List.append_assoc, bodyDeclared]

end

/-! ## Every place is typed -/

/-- The expression is typed where it is reached, and what is known behind it is known
at the end. -/
def TypedPlace (env : Env) (final : List Var) (o : List Var × Expr) : Prop :=
  ∃ t after, TypedExpr env o.1 o.2 t after ∧ after <+: final

/-- A place typed in a scope is so in a longer one. -/
theorem TypedPlace.mono {final more : List Var} {o : List Var × Expr}
    (h : TypedPlace env final o) (hmore : final <+: more) : TypedPlace env more o := by
  obtain ⟨t, after, htyped, hafter⟩ := h
  exact ⟨t, after, htyped, hafter.trans hmore⟩

/-- A typed expression is at a typed place. -/
theorem TypedExpr.place {before after : List Var} {e : Expr} {t : Ty}
    (h : TypedExpr env before e t after) : TypedPlace env after (before, e) :=
  ⟨t, after, h, List.prefix_rfl⟩

mutual

/-- Every occurrence in a typed expression is a typed place. -/
theorem TypedExpr.places {before after : List Var} {e : Expr} {t : Ty} :
    TypedExpr env before e t after → ∀ o ∈ e.occurrences before, TypedPlace env after o
  | .literal noted => List.forall_mem_singleton.2 (TypedExpr.literal noted).place
  | .declare storable plain fresh noted =>
      List.forall_mem_singleton.2 (TypedExpr.declare storable plain fresh noted).place
  | .var known noted => List.forall_mem_singleton.2 (TypedExpr.var known noted).place
  | .assign value place reference noted => by
      refine List.forall_mem_cons.2
        ⟨(TypedExpr.assign value place reference noted).place, List.forall_mem_append.2 ⟨?_, ?_⟩⟩
      · exact fun o ho => (value.places o ho).mono place.locals_kept
      · rw [← value.after_eq]
        exact place.places
  | .syscall few arguments noted =>
      List.forall_mem_cons.2 ⟨(TypedExpr.syscall few arguments noted).place, arguments.places⟩
  | .call other known arguments noted =>
      List.forall_mem_cons.2 ⟨(TypedExpr.call other known arguments noted).place, arguments.places⟩
  | .binary first second plain defined noted => by
      refine List.forall_mem_cons.2
        ⟨(TypedExpr.binary first second plain defined noted).place,
          List.forall_mem_append.2 ⟨?_, ?_⟩⟩
      · exact fun o ho => (first.places o ho).mono second.locals_kept
      · rw [← first.after_eq]
        exact second.places
  | .unary value noted =>
      List.forall_mem_cons.2 ⟨(TypedExpr.unary value noted).place, value.places⟩
  | .cast place reference noted =>
      List.forall_mem_cons.2 ⟨(TypedExpr.cast place reference noted).place, place.places⟩

/-- The same for the arguments of a call. -/
theorem TypedArguments.places {before after : List Var} {es : List Expr} {ts : List Ty} :
    TypedArguments env before es ts after →
      ∀ o ∈ argumentOccurrences before es, TypedPlace env after o
  | .nil => List.forall_mem_nil _
  | .cons argument _ others => by
      refine List.forall_mem_append.2 ⟨?_, ?_⟩
      · exact fun o ho => (argument.places o ho).mono others.locals_kept
      · rw [← argument.after_eq]
        exact others.places

end

mutual

/-- The same for a statement. -/
theorem TypedStmt.places {before after : List Var} {s : Stmt} :
    TypedStmt env before s after → ∀ o ∈ s.occurrences before, TypedPlace env after o
  | .expression value => value.places
  | .ret _ => List.forall_mem_nil _
  | .retValue _ value => value.places
  | .ifThen test branch => by
      refine List.forall_mem_append.2 ⟨?_, ?_⟩
      · exact fun o ho => (test.places o ho).mono branch.locals_kept
      · rw [← test.after_eq]
        exact branch.places
  | .ifElse test branch other => by
      refine List.forall_mem_append.2 ⟨?_, List.forall_mem_append.2 ⟨?_, ?_⟩⟩
      · exact fun o ho => (test.places o ho).mono (branch.locals_kept.trans other.locals_kept)
      · rw [← test.after_eq]
        exact fun o ho => (branch.places o ho).mono other.locals_kept
      · rw [← List.append_assoc, ← test.after_eq, ← branch.after_eq]
        exact other.places
  | .loop test rounds => by
      refine List.forall_mem_append.2 ⟨?_, ?_⟩
      · exact fun o ho => (test.places o ho).mono rounds.locals_kept
      · rw [← test.after_eq]
        exact rounds.places
  | .block inner => inner.places

/-- The same for a list of statements. -/
theorem TypedStmts.places {before after : List Var} {ss : List Stmt} :
    TypedStmts env before ss after → ∀ o ∈ bodyOccurrences before ss, TypedPlace env after o
  | .nil => List.forall_mem_nil _
  | .cons first others => by
      refine List.forall_mem_append.2 ⟨?_, ?_⟩
      · exact fun o ho => (first.places o ho).mono others.locals_kept
      · rw [← first.after_eq]
        exact others.places

end

end Slate
