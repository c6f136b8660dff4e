import Slate.Tree.Basic

/-!
# Trees with other names for variables

A renaming is a map of names.  It is applied to the names of arguments and locals where they
are declared and where they are used, and to nothing else: functions keep their names, calls
keep the names that they call by, and so do spans, noted types and casts.  In a program every
function has a renaming of its own.

A renaming that keeps the names of a few variables apart need not keep others apart.  Those
others do not occur, so they may as well be renamed to names that are too long to be met
(`spreadFrom`).  This renaming is injective, and what is injective need not be asked which
names it is applied to.
-/

namespace Slate

/-- The variable with another name. -/
def Var.renamed (g : String → String) (v : Var) : Var := ⟨g v.name, v.type⟩

mutual

/-- The expression with other names for its variables. -/
def Expr.renamed (g : String → String) : Expr → Expr
  | .literal n value => .literal n value
  | .declare n declared => .declare n (declared.renamed g)
  | .var n name => .var n (g name)
  | .assign n left right => .assign n (left.renamed g) (right.renamed g)
  | .call n name args => .call n name (renamedArguments g args)
  | .binary n op left right => .binary n op (left.renamed g) (right.renamed g)
  | .unary n op operand => .unary n op (operand.renamed g)
  | .cast n operand => .cast n (operand.renamed g)

/-- Arguments with other names for their variables. -/
def renamedArguments (g : String → String) : List Expr → List Expr
  | [] => []
  | e :: es => e.renamed g :: renamedArguments g es

end

mutual

/-- The statement with other names for its variables. -/
def Stmt.renamed (g : String → String) : Stmt → Stmt
  | .expression span e => .expression span (e.renamed g)
  | .ret span value => .ret span (value.map (Expr.renamed g))
  | .ifThen span condition body => .ifThen span (condition.renamed g) (renamedBody g body)
  | .ifElse span condition body otherwise =>
    .ifElse span (condition.renamed g) (renamedBody g body) (otherwise.renamed g)
  | .loop span condition body => .loop span (condition.renamed g) (renamedBody g body)
  | .block span body => .block span (renamedBody g body)

/-- Statements with other names for their variables. -/
def renamedBody (g : String → String) : List Stmt → List Stmt
  | [] => []
  | s :: ss => s.renamed g :: renamedBody g ss

end

/-- The function with other names for its arguments and locals. -/
def Function.renamed (g : String → String) (f : Function) : Function :=
  { f with
    arguments := f.arguments.map (Var.renamed g)
    locals := f.locals.map (Var.renamed g)
    body := renamedBody g f.body }

/-- The program with other names for variables, chosen for each function by its name. -/
def Program.renamed (ρ : String → String → String) (p : Program) : Program :=
  { p with functions := p.functions.map fun f => f.renamed (ρ f.name) }

/-- The names of the arguments and locals of a function. -/
def Function.variableNames (f : Function) : List String :=
  (f.arguments ++ f.locals).map Var.name

/-- The renaming gives two of the names one name only if they are one. -/
def KeepsApart (g : String → String) (names : List String) : Prop :=
  ∀ x ∈ names, ∀ y ∈ names, g x = g y → x = y

instance (g : String → String) (names : List String) : Decidable (KeepsApart g names) :=
  inferInstanceAs (Decidable (∀ x ∈ names, ∀ y ∈ names, g x = g y → x = y))

/-! ## What stays -/

variable {g : String → String}

@[simp] theorem Expr.note_renamed (e : Expr) : (e.renamed g).note = e.note := by
  cases e <;> rfl

@[simp] theorem Expr.span_renamed (e : Expr) : (e.renamed g).span = e.span := by
  rw [Expr.span, e.note_renamed]
  rfl

@[simp] theorem length_renamedArguments (es : List Expr) :
    (renamedArguments g es).length = es.length := by
  induction es with
  | nil => rfl
  | cons e es ih => rw [renamedArguments, List.length_cons, List.length_cons, ih]

/-- The statements of a body are renamed one by one. -/
theorem renamedBody_eq_map (ss : List Stmt) : renamedBody g ss = ss.map (Stmt.renamed g) := by
  induction ss with
  | nil => rfl
  | cons s ss ih => rw [renamedBody, List.map_cons, ih]

/-- A function is found by its name. -/
theorem Program.function?_renamed (ρ : String → String → String) (p : Program) (name : String) :
    (p.renamed ρ).function? name = (p.function? name).map fun f => f.renamed (ρ f.name) := by
  unfold Program.function? Program.renamed
  rw [List.find?_map]
  rfl

/-- A variable is found by its name. -/
theorem findVar?_renamed (hg : Function.Injective g) (vars : List Var) (name : String) :
    findVar? (vars.map (Var.renamed g)) (g name) = (findVar? vars name).map (Var.renamed g) := by
  unfold findVar?
  rw [List.find?_map]
  congr 2
  funext v
  exact decide_eq_decide.2 hg.eq_iff

/-! ## Injective renamings -/

/-- A name that is longer than what any of the names is renamed to. -/
def longName (g : String → String) : List String → String
  | [] => "_"
  | x :: names => g x ++ longName g names

/-- The long name is longer than any of the names it is made for. -/
theorem length_lt_longName {names : List String} {x : String} (hx : x ∈ names) :
    (g x).length < (longName g names).length := by
  have hpos : ∀ names, 0 < (longName g names).length := by
    intro names
    induction names with
    | nil =>
        rw [longName]
        decide
    | cons y names ih =>
        rw [longName, String.length_append]
        omega
  induction names with
  | nil => cases hx
  | cons y names ih =>
      rw [longName, String.length_append]
      rcases List.mem_cons.1 hx with rfl | hmem
      · have hrest := hpos names
        omega
      · have hrest := ih hmem
        omega

/-- The renaming that renames these names as the given one does, and all others to longer
names. -/
def spreadFrom (g : String → String) (names : List String) (x : String) : String :=
  if x ∈ names then g x else longName g names ++ x

/-- Names that are listed are renamed as before. -/
theorem spreadFrom_of_mem {names : List String} {x : String} (hx : x ∈ names) :
    spreadFrom g names x = g x := if_pos hx

/-- **A renaming that keeps names apart is injective beyond them**, for all that matters. -/
theorem spreadFrom_injective {names : List String} (h : KeepsApart g names) :
    Function.Injective (spreadFrom g names) := by
  have hother : ∀ {x y}, x ∈ names → y ∉ names → spreadFrom g names x ≠ spreadFrom g names y := by
    intro x y hx hy heq
    have hlength := congrArg String.length heq
    have hlong := length_lt_longName (g := g) hx
    rw [spreadFrom_of_mem hx, spreadFrom, if_neg hy, String.length_append] at hlength
    omega
  intro x y heq
  by_cases hx : x ∈ names
  · by_cases hy : y ∈ names
    · rw [spreadFrom_of_mem hx, spreadFrom_of_mem hy] at heq
      exact h x hx y hy heq
    · exact (hother hx hy heq).elim
  · by_cases hy : y ∈ names
    · exact (hother hy hx heq.symm).elim
    · rw [spreadFrom, spreadFrom, if_neg hx, if_neg hy] at heq
      exact (String.append_right_inj _).1 heq

end Slate
