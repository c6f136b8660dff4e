import Mathlib.Logic.Relation
import Slate.Eval.Program

/-!
# Moments of an evaluation

The evaluator is a recursive function, and what is alive while it runs is in the
recursion: the frames of the calls in progress, and the values that expressions have
found and that are still to be used.  A moment writes this down for one call of the
evaluator.  It has what is evaluated, and the activations of the calls that wait for it.

A moment begins others (`Setting.Begins`): the parts of what it evaluates, each from
where the parts before it have ended.  So the moments that are reached from the start of a
call are all the calls of the evaluator during its evaluation, whether that ends or not.

Inside one activation the relation is `Work.Begins`.  As in the evaluator, how calls are
run is a parameter of it.
-/

namespace Slate

variable {σ : Type}

/-- A call in progress: its variables, and the values that its expressions have found and
not used yet. -/
structure Activation where
  frame : Frame
  held : List Value

/-- What is evaluated inside an activation. -/
inductive Task where
  | expression (e : Expr)
  | arguments (es : List Expr)
  | condition (e : Expr)
  | statement (s : Stmt)
  | statements (ss : List Stmt)
  | rounds (condition : Expr) (body : List Stmt) (left : Nat)

/-- An activation with what is evaluated in it, and the state of the host. -/
structure Work (σ : Type) extends Activation where
  task : Task
  state : σ

/-- The parts of what is evaluated inside an activation.  Each begins when those before it
are done, in the frame that they left.  Values that were found before are held meanwhile. -/
inductive Work.Begins (calls : Calls σ) (rounds : Nat) : Work σ → Work σ → Prop
  | assigned {frame held n left right state t}
      (noted : (Expr.assign n left right).noted = .ok t) :
      Begins calls rounds ⟨⟨frame, held⟩, .expression (.assign n left right), state⟩
        ⟨⟨frame, held⟩, .expression right, state⟩
  | place {frame held n left right state t value read after middle}
      (noted : (Expr.assign n left right).noted = .ok t)
      (first : evalExpr calls right frame state = .done (value, after) middle)
      (loaded : after.valueOf value = .ok read) :
      Begins calls rounds ⟨⟨frame, held⟩, .expression (.assign n left right), state⟩
        ⟨⟨after, read :: held⟩, .expression left, middle⟩
  | arguments {frame held n name args state t} (noted : (Expr.call n name args).noted = .ok t) :
      Begins calls rounds ⟨⟨frame, held⟩, .expression (.call n name args), state⟩
        ⟨⟨frame, held⟩, .arguments args, state⟩
  | left {frame held n op left right state t}
      (noted : (Expr.binary n op left right).noted = .ok t) :
      Begins calls rounds ⟨⟨frame, held⟩, .expression (.binary n op left right), state⟩
        ⟨⟨frame, held⟩, .expression left, state⟩
  | right {frame held n op left right state t value after middle}
      (noted : (Expr.binary n op left right).noted = .ok t)
      (first : evalExpr calls left frame state = .done (value, after) middle) :
      Begins calls rounds ⟨⟨frame, held⟩, .expression (.binary n op left right), state⟩
        ⟨⟨after, value :: held⟩, .expression right, middle⟩
  | operand {frame held n op operand state t} (noted : (Expr.unary n op operand).noted = .ok t) :
      Begins calls rounds ⟨⟨frame, held⟩, .expression (.unary n op operand), state⟩
        ⟨⟨frame, held⟩, .expression operand, state⟩
  | converted {frame held n operand state t} (noted : (Expr.cast n operand).noted = .ok t) :
      Begins calls rounds ⟨⟨frame, held⟩, .expression (.cast n operand), state⟩
        ⟨⟨frame, held⟩, .expression operand, state⟩
  | argument {frame held e es state} :
      Begins calls rounds ⟨⟨frame, held⟩, .arguments (e :: es), state⟩
        ⟨⟨frame, held⟩, .expression e, state⟩
  | otherArguments {frame held e es state value read after middle}
      (first : evalExpr calls e frame state = .done (value, after) middle)
      (loaded : after.valueOf value = .ok read) :
      Begins calls rounds ⟨⟨frame, held⟩, .arguments (e :: es), state⟩
        ⟨⟨after, read :: held⟩, .arguments es, middle⟩
  | tested {frame held e state} :
      Begins calls rounds ⟨⟨frame, held⟩, .condition e, state⟩
        ⟨⟨frame, held⟩, .expression e, state⟩
  | effect {frame held span e state} :
      Begins calls rounds ⟨⟨frame, held⟩, .statement (.expression span e), state⟩
        ⟨⟨frame, held⟩, .expression e, state⟩
  | returned {frame held span e state} :
      Begins calls rounds ⟨⟨frame, held⟩, .statement (.ret span (some e)), state⟩
        ⟨⟨frame, held⟩, .expression e, state⟩
  | ifTest {frame held span condition body state} :
      Begins calls rounds ⟨⟨frame, held⟩, .statement (.ifThen span condition body), state⟩
        ⟨⟨frame, held⟩, .condition condition, state⟩
  | ifBody {frame held span condition body state after middle}
      (first : evalCondition calls condition frame state = .done (true, after) middle) :
      Begins calls rounds ⟨⟨frame, held⟩, .statement (.ifThen span condition body), state⟩
        ⟨⟨after, held⟩, .statements body, middle⟩
  | elseTest {frame held span condition body otherwise state} :
      Begins calls rounds ⟨⟨frame, held⟩, .statement (.ifElse span condition body otherwise), state⟩
        ⟨⟨frame, held⟩, .condition condition, state⟩
  | elseBody {frame held span condition body otherwise state after middle}
      (first : evalCondition calls condition frame state = .done (true, after) middle) :
      Begins calls rounds ⟨⟨frame, held⟩, .statement (.ifElse span condition body otherwise), state⟩
        ⟨⟨after, held⟩, .statements body, middle⟩
  | otherwise {frame held span condition body otherwise state after middle}
      (first : evalCondition calls condition frame state = .done (false, after) middle) :
      Begins calls rounds ⟨⟨frame, held⟩, .statement (.ifElse span condition body otherwise), state⟩
        ⟨⟨after, held⟩, .statement otherwise, middle⟩
  | loop {frame held span condition body state} :
      Begins calls rounds ⟨⟨frame, held⟩, .statement (.loop span condition body), state⟩
        ⟨⟨frame, held⟩, .rounds condition body rounds, state⟩
  | block {frame held span body state} :
      Begins calls rounds ⟨⟨frame, held⟩, .statement (.block span body), state⟩
        ⟨⟨frame, held⟩, .statements body, state⟩
  | roundTest {frame held condition body left state} :
      Begins calls rounds ⟨⟨frame, held⟩, .rounds condition body (left + 1), state⟩
        ⟨⟨frame, held⟩, .condition condition, state⟩
  | roundBody {frame held condition body left state after middle}
      (first : evalCondition calls condition frame state = .done (true, after) middle) :
      Begins calls rounds ⟨⟨frame, held⟩, .rounds condition body (left + 1), state⟩
        ⟨⟨after, held⟩, .statements body, middle⟩
  | nextRound {frame held condition body left state tested after middle final}
      (first : evalCondition calls condition frame state = .done (true, tested) middle)
      (second : execStmts calls rounds body tested middle = .done (none, after) final) :
      Begins calls rounds ⟨⟨frame, held⟩, .rounds condition body (left + 1), state⟩
        ⟨⟨after, held⟩, .rounds condition body left, final⟩
  | statement {frame held s ss state} :
      Begins calls rounds ⟨⟨frame, held⟩, .statements (s :: ss), state⟩
        ⟨⟨frame, held⟩, .statement s, state⟩
  | otherStatements {frame held s ss state after middle}
      (first : execStmt calls rounds s frame state = .done (none, after) middle) :
      Begins calls rounds ⟨⟨frame, held⟩, .statements (s :: ss), state⟩
        ⟨⟨after, held⟩, .statements ss, middle⟩

/-- A moment of an evaluation.  The callers are the activations that wait, the innermost
first, and calls may nest `allowed` deeper. -/
inductive Moment (σ : Type) where
  | running (state : σ)
  | calling (callers : List Activation) (allowed : Nat) (name : String) (args : List Value)
      (state : σ)
  | entering (callers : List Activation) (allowed : Nat) (f : Function) (args : List Value)
      (state : σ)
  | binding (callers : List Activation) (frame : Frame)
  | working (callers : List Activation) (allowed : Nat) (work : Work σ)

namespace Moment

/-- The activations that are alive at the moment. -/
def activations : Moment σ → List Activation
  | running _ => []
  | calling callers _ _ _ _ => callers
  | entering callers _ _ _ _ => callers
  | binding callers frame => ⟨frame, []⟩ :: callers
  | working callers _ work => work.toActivation :: callers

/-- The values that are handed to a call. -/
def arguments : Moment σ → List Value
  | calling _ _ _ args _ => args
  | entering _ _ _ args _ => args
  | _ => []

/-- The moment is the start of an evaluation: the program is run, a function is called by
its name, or it is entered. -/
inductive Starts : Moment σ → Prop
  | run (state : σ) : Starts (.running state)
  | call (name : String) (args : List Value) (state : σ) :
      Starts (.calling [] maxCallDepth name args state)
  | enter (f : Function) (args : List Value) (state : σ) :
      Starts (.entering [] maxCallDepth f args state)

end Moment

namespace Setting

/-- How calls are run when they may nest `allowed` deep. -/
def calls (setting : Setting σ) (allowed : Nat) : Calls σ :=
  setting.dispatch (setting.enter allowed)

/-- What is evaluated at the second moment is a part of what is evaluated at the first. -/
inductive Begins (setting : Setting σ) : Moment σ → Moment σ → Prop
  | main {state f} (known : setting.program.function? "main" = some f) :
      Begins setting (.running state) (.calling [] maxCallDepth "main" [] state)
  | entry {callers allowed name f args state} (other : name ≠ syscallName)
      (known : setting.program.function? name = some f)
      (count : f.arguments.length = args.length) (block : f.builtin = false) :
      Begins setting (.calling callers allowed name args state)
        (.entering callers allowed f args state)
  | bind {callers allowed f args state} (declared : Nat) :
      Begins setting (.entering callers (allowed + 1) f args state)
        (.binding callers (.ofArguments (f.arguments.take declared) args .empty))
  | body {callers allowed f args state} :
      Begins setting (.entering callers (allowed + 1) f args state)
        (.working callers allowed
          ⟨⟨.ofArguments f.arguments args .empty, []⟩, .statements f.body,
            setting.host.notice (.entered f.name (maxCallDepth - allowed)) state⟩)
  | inside {callers allowed work next}
      (part : Work.Begins (setting.calls allowed) setting.rounds work next) :
      Begins setting (.working callers allowed work) (.working callers allowed next)
  | call {callers allowed frame held n name args state t values after middle}
      (noted : (Expr.call n name args).noted = .ok t)
      (first : evalArguments (setting.calls allowed) args frame state =
        .done (values, after) middle) :
      Begins setting
        (.working callers allowed ⟨⟨frame, held⟩, .expression (.call n name args), state⟩)
        (.calling (⟨after, held⟩ :: callers) allowed name values middle)

/-- The second moment is a part, or a part of a part, of the evaluation at the first. -/
def Reaches (setting : Setting σ) : Moment σ → Moment σ → Prop :=
  Relation.ReflTransGen setting.Begins

end Setting

end Slate
