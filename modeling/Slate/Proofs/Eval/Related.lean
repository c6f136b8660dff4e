import Slate.Proofs.Eval.Concluded
import Slate.Proofs.Tree.Spanless

/-!
# Related evaluations

Two evaluations of one tree can differ in how calls are run, in the host that they are
connected to, in the rounds that loops are given, and in the spans that stand in the tree.
Whatever one wants to say of such a pair is a relation between runs.  If it is kept by the
ways in which runs are put together (`Run.Relation.Compatible`), then it holds of the
evaluations of every expression, as soon as it holds of the calls that are written in it,
and of those of every statement, as soon as it is kept by loops too (`Run.Relation.Loops`).
For a statement without loops the latter is not asked for.

A relation that only speaks of its second run is one way to say something of single runs.
Equality is a relation too, and says that no run depends on spans: no value, no frame and no
error of a run holds one.  Runs are compared as functions of the state, so this is also said
of runs that do not end.

* `evalExpr_related`, `execStmt_related` and their companions follow the tree;
* `Setting.Related.dispatch` and `Setting.Related.enter` follow calls;
* `Setting.Related.runBy` follows runs of programs;
* `Setting.run_spanless` — programs run alike without their spans.
-/

namespace Slate

variable {σ τ : Type}

/-! ## Trees without loops -/

mutual

/-- No loop stands in the statement. -/
def Stmt.loopFree : Stmt → Bool
  | .expression _ _ => true
  | .ret _ _ => true
  | .ifThen _ _ body => bodyLoopFree body
  | .ifElse _ _ body otherwise => bodyLoopFree body && otherwise.loopFree
  | .loop _ _ _ => false
  | .block _ body => bodyLoopFree body

/-- No loop stands in the statements. -/
def bodyLoopFree : List Stmt → Bool
  | [] => true
  | s :: ss => s.loopFree && bodyLoopFree ss

end

/-- No function of the program has a loop. -/
def Program.LoopFree (p : Program) : Prop :=
  ∀ f ∈ p.functions, bodyLoopFree f.body = true

instance (p : Program) : Decidable p.LoopFree :=
  inferInstanceAs (Decidable (∀ f ∈ p.functions, bodyLoopFree f.body = true))

/-! ## Calls that are written in a tree -/

mutual

/-- The names of the functions that the expression calls, in evaluation order. -/
def Expr.callees : Expr → List String
  | .literal _ _ => []
  | .declare _ _ => []
  | .var _ _ => []
  | .assign _ left right => right.callees ++ left.callees
  | .call _ name args => argumentCallees args ++ [name]
  | .binary _ _ left right => left.callees ++ right.callees
  | .unary _ _ operand => operand.callees
  | .cast _ operand => operand.callees

/-- The names of the functions that the arguments call. -/
def argumentCallees : List Expr → List String
  | [] => []
  | e :: es => e.callees ++ argumentCallees es

end

mutual

/-- The names of the functions that the statement calls, in the order of the text. -/
def Stmt.callees : Stmt → List String
  | .expression _ e => e.callees
  | .ret _ value => (value.map Expr.callees).getD []
  | .ifThen _ condition body => condition.callees ++ bodyCallees body
  | .ifElse _ condition body otherwise =>
    condition.callees ++ (bodyCallees body ++ otherwise.callees)
  | .loop _ condition body => condition.callees ++ bodyCallees body
  | .block _ body => bodyCallees body

/-- The names of the functions that the statements call. -/
def bodyCallees : List Stmt → List String
  | [] => []
  | s :: ss => s.callees ++ bodyCallees ss

end

/-! ## Relations between runs -/

/-- A relation between runs on two hosts, for answers of every kind. -/
abbrev Run.Relation (σ τ : Type) := ∀ α : Type, Run σ α → Run τ α → Prop

namespace Run.Relation

/-- The relation is kept by the ways in which runs are put together. -/
structure Compatible (R : Run.Relation σ τ) : Prop where
  answer : ∀ {α : Type} (a : α), R α (pure a) (pure a)
  fail : ∀ {α : Type} (e : EvalError), R α (Run.fail e) (Run.fail e)
  bind : ∀ {α β : Type} {x : Run σ α} {y : Run τ α} {f : α → Run σ β} {k : α → Run τ β},
    R α x y → (∀ a, R β (f a) (k a)) → R β (x >>= f) (y >>= k)

/-- The relation is kept by loops that are given these numbers of rounds. -/
def Loops (R : Run.Relation σ τ) (rounds rounds' : Nat) : Prop :=
  ∀ ⦃condition : Frame → Run σ (Bool × Frame)⦄ ⦃condition' : Frame → Run τ (Bool × Frame)⦄
    ⦃body : Frame → Run σ (Stop × Frame)⦄ ⦃body' : Frame → Run τ (Stop × Frame)⦄,
    (∀ frame, R _ (condition frame) (condition' frame)) →
    (∀ frame, R _ (body frame) (body' frame)) →
    ∀ frame, R _ (runLoop condition body rounds frame) (runLoop condition' body' rounds' frame)

/-- All calls are related. -/
def Calls (R : Run.Relation σ τ) (calls : Calls σ) (other : Calls τ) : Prop :=
  ∀ name args, R Value (calls name args) (other name args)

/-- The calls of these functions are related. -/
def CallsOf (R : Run.Relation σ τ) (names : List String) (calls : Slate.Calls σ)
    (other : Slate.Calls τ) : Prop :=
  ∀ name ∈ names, ∀ args, R Value (calls name args) (other name args)

end Run.Relation

namespace Run.Relation.Compatible

variable {R : Run.Relation σ τ} {rounds rounds' : Nat}

/-- What is known is related to itself. -/
theorem ofExcept (h : R.Compatible) {α : Type} (x : Except EvalError α) :
    R α (Run.ofExcept x) (Run.ofExcept x) := by
  cases x with
  | ok a => exact h.answer a
  | error e => exact h.fail e

/-- **One more round.** -/
theorem loops_succ (h : R.Compatible) (hloops : R.Loops rounds rounds') :
    R.Loops (rounds + 1) (rounds' + 1) := by
  intro condition condition' body body' htest hround frame
  rw [runLoop_succ, runLoop_succ]
  refine h.bind (htest frame) fun tested => ?_
  obtain ⟨truth, tested⟩ := tested
  cases truth with
  | false => exact h.answer _
  | true =>
      refine h.bind (hround tested) fun after => ?_
      obtain ⟨stop, after⟩ := after
      cases stop with
      | some value => exact h.answer _
      | none => exact hloops htest hround after

/-- **Loops of equally many rounds** are related, if loops without a round are. -/
theorem loops (h : R.Compatible)
    (hnone : R (Stop × Frame) (fun state => .unfinished state) (fun state => .unfinished state)) :
    R.Loops rounds rounds := by
  induction rounds with
  | zero => exact fun _ _ _ _ _ _ _ => hnone
  | succ rounds ih => exact h.loops_succ ih

end Run.Relation.Compatible

/-! ## Expressions and statements -/

/-- Spans do not matter for the recorded type. -/
theorem Expr.noted_spanless (e : Expr) : e.spanless.noted = e.noted := by
  unfold Expr.noted
  rw [e.type?_spanless, e.text_spanless]

/-- The type that is noted is found with the spans and without. -/
theorem Run.Relation.Compatible.noted {R : Run.Relation σ τ} (h : R.Compatible) (e : Expr) :
    R Ty (Run.ofExcept e.noted) (Run.ofExcept e.spanless.noted) := by
  rw [e.noted_spanless]
  exact h.ofExcept _

section

variable {R : Run.Relation σ τ} {calls : Calls σ} {other : Calls τ}

mutual

/-- **Expressions evaluate alike**, where the calls in them are run alike. -/
theorem evalExpr_related (h : R.Compatible) (e : Expr) (hcalls : R.CallsOf e.callees calls other)
    (frame : Frame) : R _ (evalExpr calls e frame) (evalExpr other e.spanless frame) := by
  cases e with
  | literal n literal =>
      rw [Expr.spanless, evalExpr, evalExpr]
      exact h.bind (h.noted (.literal n literal)) fun t => h.answer _
  | declare n declared =>
      rw [Expr.spanless, evalExpr, evalExpr]
      exact h.bind (h.noted (.declare n declared)) fun t => h.answer _
  | var n name =>
      rw [Expr.spanless, evalExpr, evalExpr]
      exact h.bind (h.noted (.var n name)) fun t =>
        h.bind (h.ofExcept _) fun slot => h.answer _
  | assign n left right =>
      obtain ⟨hright, hleft⟩ := List.forall_mem_append.1 hcalls
      rw [Expr.spanless, evalExpr, evalExpr]
      refine h.bind (h.noted (.assign n left right)) fun _ => ?_
      refine h.bind (evalExpr_related h right hright frame) fun r => ?_
      refine h.bind (h.ofExcept _) fun v => ?_
      exact h.bind (evalExpr_related h left hleft r.2) fun l =>
        h.bind (h.ofExcept _) fun after => h.answer _
  | call n name args =>
      obtain ⟨hargs, hname⟩ := List.forall_mem_append.1 hcalls
      rw [Expr.spanless, evalExpr, evalExpr]
      refine h.bind (h.noted (.call n name args)) fun _ => ?_
      refine h.bind (evalArguments_related h args hargs frame) fun r => ?_
      exact h.bind (hname name List.mem_cons_self r.1) fun v => h.answer _
  | binary n op left right =>
      obtain ⟨hleft, hright⟩ := List.forall_mem_append.1 hcalls
      rw [Expr.spanless, evalExpr, evalExpr]
      refine h.bind (h.noted (.binary n op left right)) fun _ => ?_
      refine h.bind (evalExpr_related h left hleft frame) fun l => ?_
      exact h.bind (evalExpr_related h right hright l.2) fun r =>
        h.bind (h.ofExcept _) fun v => h.answer _
  | unary n op operand =>
      rw [Expr.spanless, evalExpr, evalExpr]
      refine h.bind (h.noted (.unary n op operand)) fun _ => ?_
      exact h.bind (evalExpr_related h operand hcalls frame) fun v =>
        h.bind (h.ofExcept _) fun result => h.answer _
  | cast n operand =>
      rw [Expr.spanless, evalExpr, evalExpr]
      refine h.bind (h.noted (.cast n operand)) fun t => ?_
      exact h.bind (evalExpr_related h operand hcalls frame) fun v =>
        h.bind (h.ofExcept _) fun result => h.answer _

/-- The same for the arguments of a call. -/
theorem evalArguments_related (h : R.Compatible) (es : List Expr)
    (hcalls : R.CallsOf (argumentCallees es) calls other) (frame : Frame) :
    R _ (evalArguments calls es frame) (evalArguments other (spanlessArguments es) frame) := by
  cases es with
  | nil =>
      rw [spanlessArguments, evalArguments, evalArguments]
      exact h.answer _
  | cons e es =>
      obtain ⟨he, hes⟩ := List.forall_mem_append.1 hcalls
      rw [spanlessArguments, evalArguments, evalArguments]
      refine h.bind (evalExpr_related h e he frame) fun r => h.bind (h.ofExcept _) fun v => ?_
      exact h.bind (evalArguments_related h es hes r.2) fun vs => h.answer _

end

/-- The same for a condition. -/
theorem evalCondition_related (h : R.Compatible) (e : Expr)
    (hcalls : R.CallsOf e.callees calls other) (frame : Frame) :
    R _ (evalCondition calls e frame) (evalCondition other e.spanless frame) :=
  h.bind (evalExpr_related h e hcalls frame) fun _ => h.bind (h.ofExcept _) fun _ => h.answer _

variable {rounds rounds' : Nat}

mutual

/-- **Statements execute alike**, where the calls in them are run alike. -/
theorem execStmt_related (h : R.Compatible) (s : Stmt) (hcalls : R.CallsOf s.callees calls other)
    (hloops : s.loopFree = true ∨ R.Loops rounds rounds') (frame : Frame) :
    R _ (execStmt calls rounds s frame) (execStmt other rounds' s.spanless frame) := by
  cases s with
  | expression span e =>
      rw [Stmt.spanless, execStmt, execStmt]
      exact h.bind (evalExpr_related h e hcalls frame) fun r => h.answer _
  | ret span value =>
      cases value with
      | none =>
          rw [Stmt.spanless, Option.map_none, execStmt, execStmt]
          exact h.answer _
      | some e =>
          rw [Stmt.spanless, Option.map_some, execStmt, execStmt]
          exact h.bind (evalExpr_related h e hcalls frame) fun r =>
            h.bind (h.ofExcept _) fun v => h.answer _
  | ifThen span condition body =>
      obtain ⟨htest, hbody⟩ := List.forall_mem_append.1 hcalls
      rw [Stmt.spanless, execStmt, execStmt]
      refine h.bind (evalCondition_related h condition htest frame) fun r => ?_
      obtain ⟨truth, tested⟩ := r
      cases truth with
      | true => exact execStmts_related h body hbody hloops tested
      | false => exact h.answer _
  | ifElse span condition body otherwise =>
      obtain ⟨htest, hparts⟩ := List.forall_mem_append.1 hcalls
      obtain ⟨hbody, hotherwise⟩ := List.forall_mem_append.1 hparts
      have hfree : (bodyLoopFree body = true ∧ otherwise.loopFree = true) ∨
          R.Loops rounds rounds' :=
        hloops.imp_left (Bool.and_eq_true _ _).mp
      rw [Stmt.spanless, execStmt, execStmt]
      refine h.bind (evalCondition_related h condition htest frame) fun r => ?_
      obtain ⟨truth, tested⟩ := r
      cases truth with
      | true => exact execStmts_related h body hbody (hfree.imp_left And.left) tested
      | false => exact execStmt_related h otherwise hotherwise (hfree.imp_left And.right) tested
  | loop span condition body =>
      obtain ⟨htest, hbody⟩ := List.forall_mem_append.1 hcalls
      have hkept : R.Loops rounds rounds' := hloops.resolve_left Bool.false_ne_true
      rw [Stmt.spanless, execStmt, execStmt]
      exact hkept (evalCondition_related h condition htest)
        (execStmts_related h body hbody (.inr hkept)) frame
  | block span body =>
      rw [Stmt.spanless, execStmt, execStmt]
      exact execStmts_related h body hcalls hloops frame

/-- The same for a list of statements. -/
theorem execStmts_related (h : R.Compatible) (ss : List Stmt)
    (hcalls : R.CallsOf (bodyCallees ss) calls other)
    (hloops : bodyLoopFree ss = true ∨ R.Loops rounds rounds') (frame : Frame) :
    R _ (execStmts calls rounds ss frame) (execStmts other rounds' (spanlessBody ss) frame) := by
  cases ss with
  | nil =>
      rw [spanlessBody, execStmts, execStmts]
      exact h.answer _
  | cons s ss =>
      obtain ⟨hs, hss⟩ := List.forall_mem_append.1 hcalls
      have hfree : (s.loopFree = true ∧ bodyLoopFree ss = true) ∨ R.Loops rounds rounds' :=
        hloops.imp_left (Bool.and_eq_true _ _).mp
      rw [spanlessBody, execStmts, execStmts]
      refine h.bind (execStmt_related h s hs (hfree.imp_left And.left) frame) fun r => ?_
      obtain ⟨stop, after⟩ := r
      cases stop with
      | some value => exact h.answer _
      | none => exact execStmts_related h ss hss (hfree.imp_left And.right) after

end

end

/-! ## The same runs -/

/-- The runs are the same. -/
def Run.Relation.same : Run.Relation σ σ := fun _ x y => x = y

/-- Equality is respected by all that runs are made of. -/
theorem Run.Relation.same_compatible : (Run.Relation.same : Run.Relation σ σ).Compatible where
  answer _ := rfl
  fail _ := rfl
  bind hx hf := by
    cases hx
    exact congrArg _ (funext hf)

/-- Loops with as many rounds are the same. -/
theorem Run.Relation.same_loops (rounds : Nat) :
    (Run.Relation.same : Run.Relation σ σ).Loops rounds rounds :=
  Run.Relation.same_compatible.loops rfl

/-- **Statements execute alike without their spans.** -/
theorem execStmts_spanless (calls : Calls σ) (rounds : Nat) (ss : List Stmt) (frame : Frame) :
    execStmts calls rounds (spanlessBody ss) frame = execStmts calls rounds ss frame :=
  (execStmts_related Run.Relation.same_compatible ss (fun _ _ _ => rfl)
    (.inr (Run.Relation.same_loops rounds)) frame).symm

/-- Statements execute alike where the calls in them are run alike. -/
theorem execStmts_congr {calls other : Calls σ} (rounds : Nat) {ss : List Stmt}
    (hcalls : ∀ name ∈ bodyCallees ss, calls name = other name) (frame : Frame) :
    execStmts calls rounds ss frame = execStmts other rounds ss frame := by
  have hsame := execStmts_related Run.Relation.same_compatible ss
    (fun name hname args => congrFun (hcalls name hname) args)
    (.inr (Run.Relation.same_loops rounds)) frame
  exact hsame.trans (execStmts_spanless other rounds ss frame)

/-! ## Calls -/

/-- The settings have one program, and what reaches their hosts is related. -/
structure Setting.Related (R : Run.Relation σ τ) (setting : Setting σ) (other : Setting τ) :
    Prop where
  compatible : R.Compatible
  program : other.program = setting.program
  print : ∀ bytes, R Unit (setting.host.print bytes) (other.host.print bytes)
  tell : ∀ event, R Unit (setting.host.tell event) (other.host.tell event)

namespace Setting.Related

variable {R : Run.Relation σ τ} {setting : Setting σ} {other : Setting τ} {calls : Calls σ}
  {calls' : Calls τ} {entry : Function → List Value → Run σ Value}
  {entry' : Function → List Value → Run τ Value}

/-- The system calls of related settings are related. -/
theorem systemCall (h : setting.Related R other) (args : List Value) :
    R Value (systemCall setting.host args) (systemCall other.host args) := by
  have hc := h.compatible
  unfold Slate.systemCall
  refine hc.bind (hc.ofExcept _) fun number => ?_
  split
  · exact hc.bind (hc.ofExcept _) fun status => hc.fail _
  · split
    · exact hc.bind (hc.ofExcept _) fun written =>
        hc.bind (h.print written.1) fun _ => hc.answer _
    · exact hc.fail _

/-- So are their builtins. -/
theorem callBuiltin (h : setting.Related R other) (f : Function) (args : List Value) :
    R Value (callBuiltin setting.host f args) (callBuiltin other.host f args) := by
  unfold Slate.callBuiltin
  split
  · split
    · exact h.compatible.bind (h.print _) fun _ => h.compatible.answer _
    · exact h.compatible.fail _
  · exact h.compatible.fail _

/-- So are the bodies of a function. -/
theorem body (h : setting.Related R other) (hcalls : R.Calls calls calls') (f : Function)
    (hloops : bodyLoopFree f.body = true ∨ R.Loops setting.rounds other.rounds)
    (args : List Value) : R Value (setting.body calls f args) (other.body calls' f args) := by
  unfold Setting.body
  have hbody := execStmts_related h.compatible f.body (fun name _ => hcalls name) hloops
    (.ofArguments f.arguments args .empty)
  rw [execStmts_spanless] at hbody
  refine h.compatible.bind hbody fun r => ?_
  obtain ⟨stop, after⟩ := r
  cases stop with
  | some value => exact h.compatible.answer _
  | none =>
      dsimp only
      split
      · exact h.compatible.answer _
      · exact h.compatible.fail _

/-- So is a call by name, where entering a function is. -/
theorem dispatch (h : setting.Related R other)
    (hentry : ∀ f ∈ setting.program.functions, ∀ args, R Value (entry f args) (entry' f args)) :
    R.Calls (setting.dispatch entry) (other.dispatch entry') := by
  intro name args
  unfold Setting.dispatch
  rw [h.program]
  split
  · exact h.systemCall args
  · split
    · exact h.compatible.fail _
    · next f hf =>
      split
      · exact h.compatible.fail _
      · split
        · exact h.callBuiltin f args
        · exact hentry f (List.mem_of_find?_eq_some hf) args

/-- **Functions are entered alike** when calls may nest equally deep, if no function has a
loop or the relation is kept by loops. -/
theorem enter (h : setting.Related R other)
    (hloops : setting.program.LoopFree ∨ R.Loops setting.rounds other.rounds) (allowed : Nat)
    (f : Function)
    (hf : bodyLoopFree f.body = true ∨ R.Loops setting.rounds other.rounds) (args : List Value) :
    R Value (setting.enter allowed f args) (other.enter allowed f args) := by
  induction allowed generalizing f args with
  | zero => exact h.compatible.fail _
  | succ allowed ih =>
      rw [Setting.enter, Setting.enter]
      have hcalls := h.dispatch fun g hg =>
        ih g (hloops.imp_left fun hfree => hfree g hg)
      exact h.compatible.bind (h.tell _) fun _ => h.body hcalls f hf args

/-- What is made of a result is related, if flushing is. -/
theorem conclude (h : setting.Related R other)
    (hflush : R Unit setting.host.flushOutput other.host.flushOutput)
    (r : Except EvalError Value) : R Int32 (setting.conclude r) (other.conclude r) := by
  have hc := h.compatible
  cases r with
  | ok result =>
      exact hc.bind hflush fun _ => hc.bind (h.tell _) fun _ => hc.ofExcept _
  | error e =>
      cases e with
      | exit code => exact hc.bind hflush fun _ => hc.bind (h.tell _) fun _ => hc.answer _
      | _ => exact hc.bind hflush fun _ => hc.fail _

/-- **Runs of the program** are related, if the results of `main` are. -/
theorem runBy (h : setting.Related R other) {others : Calls τ}
    (hflush : R Unit setting.host.flushOutput other.host.flushOutput)
    (hmain : R _ (calls "main" []).result (others "main" []).result) :
    R Int32 (setting.runBy calls) (other.runBy others) := by
  cases hfound : setting.program.function? "main" with
  | none =>
      rw [Setting.runBy_none hfound, Setting.runBy_none (h.program ▸ hfound)]
      exact h.compatible.fail _
  | some f =>
      rw [Setting.runBy_some hfound, Setting.runBy_some (h.program ▸ hfound)]
      exact h.compatible.bind hmain (h.conclude hflush)

end Setting.Related

/-! ## Programs without their spans -/

namespace Setting

variable (setting : Setting σ)

/-- The setting with the program without its spans. -/
def spanless : Setting σ := { setting with program := setting.program.spanless }

/-- A body without its spans does the same. -/
theorem body_spanless (calls : Calls σ) (f : Function) (args : List Value) :
    setting.spanless.body calls f.spanless args = setting.body calls f args := by
  have hbody : ∀ frame, execStmts calls setting.rounds f.spanless.body frame =
      execStmts calls setting.rounds f.body frame :=
    execStmts_spanless calls setting.rounds f.body
  unfold Setting.body
  exact congrArg (fun run => run >>= _) (hbody (.ofArguments f.arguments args .empty))

/-- A call is dispatched to the function without its spans. -/
theorem dispatch_spanless {enter enter' : Function → List Value → Run σ Value}
    (henter : ∀ f args, enter' f.spanless args = enter f args) :
    setting.spanless.dispatch enter' = setting.dispatch enter := by
  funext name args
  unfold dispatch
  have hfunction : setting.spanless.program.function? name =
      (setting.program.function? name).map Function.spanless :=
    setting.program.function?_spanless name
  rw [hfunction]
  cases setting.program.function? name with
  | none => rfl
  | some f =>
      have hbody := henter f args
      dsimp only [Option.map_some]
      rw [hbody]
      rfl

/-- Functions are entered alike, however deep calls may still nest. -/
theorem enter_spanless (allowed : Nat) (f : Function) (args : List Value) :
    setting.spanless.enter allowed f.spanless args = setting.enter allowed f args := by
  induction allowed generalizing f args with
  | zero => rfl
  | succ allowed ih =>
      rw [enter, enter, setting.dispatch_spanless ih, body_spanless]
      rfl

/-- So does a program called without its spans. -/
theorem call_spanless : setting.spanless.call = setting.call :=
  setting.dispatch_spanless (setting.enter_spanless maxCallDepth)

/-- **Programs run alike without their spans.** -/
theorem run_spanless : setting.spanless.run = setting.run := by
  have hmain : setting.spanless.program.function? "main" =
      (setting.program.function? "main").map Function.spanless :=
    setting.program.function?_spanless "main"
  unfold run runBy
  rw [setting.call_spanless, hmain]
  cases setting.program.function? "main" <;> rfl

end Setting

end Slate
