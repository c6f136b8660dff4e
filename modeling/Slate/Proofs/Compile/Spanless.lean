import Slate.Compile.Program
import Slate.Proofs.Tree.Spanless

/-!
# Compiled code does not depend on spans

The compiler looks at types, names and values.  A tree without its spans has the same code,
the same labels and the same literals, and where there is no code for it, the same error.
-/

namespace Slate

/-- Spans do not matter for the type that is needed. -/
theorem Expr.needType_spanless (e : Expr) : e.spanless.needType = e.needType := by
  unfold Expr.needType
  rw [e.type?_spanless, e.text_spanless]

mutual

/-- **Expressions have the same code without their spans.** -/
theorem compileExpr_spanless (s : CompileState) :
    ∀ e : Expr, compileExpr s e.spanless = compileExpr s e
  | .literal n value => by
      have hneed := (Expr.literal n value).needType_spanless
      rw [Expr.spanless] at hneed ⊢
      rw [compileExpr.eq_def, compileExpr.eq_def]
      simp only [hneed]
  | .declare n declared => by
      have hneed := (Expr.declare n declared).needType_spanless
      rw [Expr.spanless] at hneed ⊢
      rw [compileExpr, compileExpr, hneed]
  | .var n name => by
      have hneed := (Expr.var n name).needType_spanless
      rw [Expr.spanless] at hneed ⊢
      rw [compileExpr, compileExpr, hneed]
  | .assign n left right => by
      have hneed := (Expr.assign n left right).needType_spanless
      have hright := compileExpr_spanless s right
      have hleft := fun s => compileExpr_spanless s left
      rw [Expr.spanless] at hneed ⊢
      rw [compileExpr, compileExpr, hneed, hright]
      simp only [hleft]
  | .call n name args => by
      have hneed := (Expr.call n name args).needType_spanless
      have hargs := compileArguments_spanless s args
      rw [Expr.spanless] at hneed ⊢
      rw [compileExpr, compileExpr, hneed, hargs, length_spanlessArguments]
  | .binary n op left right => by
      have hneed := (Expr.binary n op left right).needType_spanless
      have hleft := compileExpr_spanless s left
      have hright := fun s => compileExpr_spanless s right
      rw [Expr.spanless] at hneed ⊢
      rw [compileExpr, compileExpr, hneed, hleft]
      simp only [hright]
  | .unary n op operand => by
      have hneed := (Expr.unary n op operand).needType_spanless
      have hoperand := compileExpr_spanless s operand
      rw [Expr.spanless] at hneed ⊢
      rw [compileExpr, compileExpr, hneed, hoperand]
  | .cast n operand => by
      have hneed := (Expr.cast n operand).needType_spanless
      have hoperand := compileExpr_spanless s operand
      rw [Expr.spanless] at hneed ⊢
      rw [compileExpr, compileExpr, hneed, operand.needType_spanless, hoperand]

/-- The same for the arguments of a call. -/
theorem compileArguments_spanless (s : CompileState) :
    ∀ es : List Expr, compileArguments s (spanlessArguments es) = compileArguments s es
  | [] => rfl
  | e :: es => by
      have hfirst := compileExpr_spanless s e
      have hothers := fun s => compileArguments_spanless s es
      rw [spanlessArguments, compileArguments, compileArguments, hfirst]
      simp only [hothers]

end

variable (f : Function)

mutual

/-- **Statements have the same code without their spans.** -/
theorem compileStmt_spanless (s : CompileState) :
    ∀ stmt : Stmt, compileStmt f.spanless s stmt.spanless = compileStmt f s stmt
  | .expression _ e => by
      rw [Stmt.spanless, compileStmt, compileStmt, compileExpr_spanless s e]
  | .ret _ none => rfl
  | .ret _ (some e) => by
      have hvalue := compileExpr_spanless s e
      rw [Stmt.spanless, Option.map_some, compileStmt, compileStmt, hvalue]
      rfl
  | .ifThen _ condition body => by
      have htest := compileExpr_spanless s condition
      have hbody := fun s => compileStmts_spanless s body
      rw [Stmt.spanless, compileStmt, compileStmt, htest]
      simp only [hbody]
      rfl
  | .ifElse _ condition body otherwise => by
      have htest := compileExpr_spanless s condition
      have hbody := fun s => compileStmts_spanless s body
      have hbranch := fun s => compileStmt_spanless s otherwise
      rw [Stmt.spanless, compileStmt, compileStmt, htest]
      simp only [hbody, hbranch]
      rfl
  | .loop _ condition body => by
      have htest := compileExpr_spanless (s.label 2) condition
      have hbody := fun s => compileStmts_spanless s body
      rw [Stmt.spanless, compileStmt, compileStmt, htest]
      simp only [hbody]
      rfl
  | .block _ body => by
      rw [Stmt.spanless, compileStmt, compileStmt, compileStmts_spanless s body]

/-- The same for a list of statements. -/
theorem compileStmts_spanless (s : CompileState) :
    ∀ stmts : List Stmt, compileStmts f.spanless s (spanlessBody stmts) = compileStmts f s stmts
  | [] => rfl
  | stmt :: stmts => by
      have hfirst := compileStmt_spanless s stmt
      have hothers := fun s => compileStmts_spanless s stmts
      rw [spanlessBody, compileStmts, compileStmts, hfirst]
      simp only [hothers]

end

/-- Whether a body ends in a return does not depend on spans. -/
theorem endsInReturn_spanless (body : List Stmt) :
    endsInReturn (spanlessBody body) = endsInReturn body := by
  unfold endsInReturn
  rw [spanlessBody_eq_map, List.getLast?_map]
  cases body.getLast? with
  | none => rfl
  | some s => cases s <;> rfl

/-- So the routine of a function is the same without spans. -/
theorem Function.compile_spanless (literals : List String) :
    f.spanless.compile literals = f.compile literals := by
  have hbody := compileStmts_spanless f (.start f literals) f.body
  have hending := endsInReturn_spanless f.body
  unfold Function.compile
  show (if f.builtin = true then
      if f.name = "print" then .ok (⟨f.name, printRoutine⟩, literals)
      else .error (.unknownBuiltin f.name)
    else compileStmts f.spanless (.start f literals) (spanlessBody f.body) >>= fun r =>
      pure (Routine.mk f.name (codeLines f.prologue ++ r.1 ++
        codeLines (if endsInReturn (spanlessBody f.body) then [] else f.epilogue)),
        r.2.literals)) = _
  rw [hbody, hending]

/-- So are those of all functions. -/
theorem compileFunctions_spanless (fs : List Function) :
    ∀ literals, compileFunctions literals (fs.map Function.spanless) =
      compileFunctions literals fs := by
  induction fs with
  | nil => exact fun literals => rfl
  | cons f fs ih =>
      intro literals
      rw [List.map_cons, compileFunctions, compileFunctions, f.compile_spanless]
      simp only [ih]

/-- **Programs have the same assembly without their spans.** -/
theorem Program.compile_spanless (p : Program) : p.spanless.compile = p.compile := by
  have hmain : p.spanless.hasMain = p.hasMain := by
    unfold Program.hasMain
    rw [p.function?_spanless, Option.isSome_map]
  have hfunctions := compileFunctions_spanless p.functions []
  unfold Program.compile
  rw [hmain]
  exact congrArg (fun r => r >>= fun x => pure (Assembly.mk p.hasMain x.1 x.2)) hfunctions

end Slate
