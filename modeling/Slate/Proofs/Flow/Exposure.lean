import Slate.Tree.Basic

/-!
# Variables that may be missing

Declarations are executed like other expressions, and there are no inner scopes.
So a variable exists from the execution of its declaration on, whatever block that
stands in, and a branch that is not taken or a loop without a round declares
nothing.

The analysis here follows the text with the names that are certainly declared
(`known`).  Expressions run through: behind one, everything in it is declared.
Behind a conditional without `else` and behind a loop only the condition has
certainly run; behind both branches of a conditional, what both declare; and behind
a `return` there is nothing to say, because nothing follows.  A tree *exposes* a
name when it uses the name where it is not known.
-/

namespace Slate

mutual

/-- The names that evaluating the expression declares. -/
def Expr.declares : Expr → List String
  | .literal _ _ => []
  | .declare _ declared => [declared.name]
  | .var _ _ => []
  | .assign _ left right => right.declares ++ left.declares
  | .call _ _ args => argumentsDeclare args
  | .binary _ _ left right => left.declares ++ right.declares
  | .unary _ _ operand => operand.declares
  | .cast _ operand => operand.declares

/-- The names that evaluating the arguments declares. -/
def argumentsDeclare : List Expr → List String
  | [] => []
  | e :: es => e.declares ++ argumentsDeclare es

end

mutual

/-- The names that the expression uses where they are not known. -/
def Expr.exposes (known : List String) : Expr → List String
  | .literal _ _ => []
  | .declare _ _ => []
  | .var _ name => if name ∈ known then [] else [name]
  | .assign _ left right => right.exposes known ++ left.exposes (known ++ right.declares)
  | .call _ _ args => argumentsExpose known args
  | .binary _ _ left right => left.exposes known ++ right.exposes (known ++ left.declares)
  | .unary _ _ operand => operand.exposes known
  | .cast _ operand => operand.exposes known

/-- The names that the arguments use where they are not known. -/
def argumentsExpose (known : List String) : List Expr → List String
  | [] => []
  | e :: es => e.exposes known ++ argumentsExpose (known ++ e.declares) es

end

/-- What is known where two paths meet.  A path that does not get there knows
everything. -/
def meet : Option (List String) → Option (List String) → Option (List String)
  | none, other => other
  | some known, none => some known
  | some known, some other => some (known.filter (· ∈ other))

mutual

/-- The names that are known behind the statement, if anything follows. -/
def Stmt.leaves (known : List String) : Stmt → Option (List String)
  | .expression _ e => some (known ++ e.declares)
  | .ret _ _ => none
  | .ifThen _ condition _ => some (known ++ condition.declares)
  | .ifElse _ condition body otherwise =>
    meet (bodyLeaves (known ++ condition.declares) body)
      (otherwise.leaves (known ++ condition.declares))
  | .loop _ condition _ => some (known ++ condition.declares)
  | .block _ body => bodyLeaves known body

/-- The names that are known behind the statements, if anything follows. -/
def bodyLeaves (known : List String) : List Stmt → Option (List String)
  | [] => some known
  | s :: ss =>
    match s.leaves known with
    | none => none
    | some known => bodyLeaves known ss

end

mutual

/-- The names that the statement uses where they are not known. -/
def Stmt.exposes (known : List String) : Stmt → List String
  | .expression _ e => e.exposes known
  | .ret _ none => []
  | .ret _ (some e) => e.exposes known
  | .ifThen _ condition body =>
    condition.exposes known ++ bodyExposes (known ++ condition.declares) body
  | .ifElse _ condition body otherwise =>
    condition.exposes known ++ (bodyExposes (known ++ condition.declares) body ++
      otherwise.exposes (known ++ condition.declares))
  | .loop _ condition body =>
    condition.exposes known ++ bodyExposes (known ++ condition.declares) body
  | .block _ body => bodyExposes known body

/-- The names that the statements use where they are not known. -/
def bodyExposes (known : List String) : List Stmt → List String
  | [] => []
  | s :: ss =>
    s.exposes known ++
      match s.leaves known with
      | none => []
      | some known => bodyExposes known ss

end

/-- The names that the function uses where they are not known; it starts with its
arguments. -/
def Function.exposes (f : Function) : List String :=
  bodyExposes (f.arguments.map Var.name) f.body

/-! ## What is known stays known -/

/-- A name that is known at both ends is known where they meet. -/
theorem mem_meet {a b : Option (List String)} {known : List String} (h : meet a b = some known)
    {x : String} (ha : ∀ k, a = some k → x ∈ k) (hb : ∀ k, b = some k → x ∈ k) : x ∈ known := by
  cases a with
  | none => exact hb known h
  | some p =>
      cases b with
      | none => exact ha known h
      | some q =>
          cases h
          exact List.mem_filter.2 ⟨ha p rfl, by simpa using hb q rfl⟩

/-- What is known at a meeting point is known on each path to it. -/
theorem meet_subset {a b : Option (List String)} {k : List String} (h : a = some k ∨ b = some k) :
    ∃ known, meet a b = some known ∧ ∀ x ∈ known, x ∈ k := by
  rcases h with rfl | rfl
  · cases b with
    | none => exact ⟨k, rfl, fun _ hx => hx⟩
    | some q => exact ⟨_, rfl, fun _ hx => (List.mem_filter.1 hx).1⟩
  · cases a with
    | none => exact ⟨k, rfl, fun _ hx => hx⟩
    | some p =>
        refine ⟨_, rfl, fun x hx => ?_⟩
        simpa using (List.mem_filter.1 hx).2

mutual

/-- What is known stays known. -/
theorem Stmt.subset_leaves {known after : List String} :
    ∀ s : Stmt, s.leaves known = some after → ∀ x ∈ known, x ∈ after
  | .expression _ e => by
      intro h x hx
      cases h
      exact List.mem_append_left _ hx
  | .ret _ _ => fun h => nomatch h
  | .ifThen _ condition _ => by
      intro h x hx
      cases h
      exact List.mem_append_left _ hx
  | .ifElse _ condition body otherwise => by
      intro h x hx
      have hx' : x ∈ known ++ condition.declares := List.mem_append_left _ hx
      rw [Stmt.leaves] at h
      exact mem_meet h (fun k hk => subset_bodyLeaves body hk x hx')
        (fun k hk => otherwise.subset_leaves hk x hx')
  | .loop _ condition _ => by
      intro h x hx
      cases h
      exact List.mem_append_left _ hx
  | .block _ body => by
      intro h
      exact subset_bodyLeaves body h

/-- Statements take no known name away. -/
theorem subset_bodyLeaves {known after : List String} :
    ∀ ss : List Stmt, bodyLeaves known ss = some after → ∀ x ∈ known, x ∈ after
  | [] => by
      intro h x hx
      cases h
      exact hx
  | s :: ss => by
      intro h x hx
      rw [bodyLeaves] at h
      cases hs : s.leaves known with
      | none =>
          rw [hs] at h
          cases h
      | some middle =>
          rw [hs] at h
          exact subset_bodyLeaves ss h x (s.subset_leaves hs x hx)

end

end Slate
