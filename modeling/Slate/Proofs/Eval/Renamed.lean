import Slate.Proofs.Eval.Passes
import Slate.Proofs.Flow.Missing
import Slate.Proofs.Typing.Renamed

/-!
# Runs under other names

A frame finds a cell by its name, and a slot once found is a number.  Under an injective
renaming the frame with renamed cells finds the same slots, so a run of the renamed tree in it
goes the way of the run of the tree.  What is different at the end is what shows names: the
frame, and the error of a missing variable.

This is a relation between two runs, of different trees and in different frames: the answer of
the second run is what a map makes of the answer of the first one, and its error is one that
the error of the first one turns into (`Run.Matches`).  The errors are related and not mapped,
since an error does not say in which function it has come up, and every function has a renaming
of its own.
-/

namespace Slate

variable {σ α β γ δ : Type} {g : String → String}

/-! ## Frames -/

/-- The frame with other names for its cells. -/
def Frame.renamed (g : String → String) (frame : Frame) : Frame :=
  ⟨frame.cells.map (Prod.map g id)⟩

namespace Frame

variable (hg : Function.Injective g) (frame : Frame)

include hg in
/-- A variable keeps its slot under its new name. -/
theorem slot?_renamed (name : String) : (frame.renamed g).slot? (g name) = frame.slot? name := by
  unfold slot? renamed
  rw [List.findIdx?_map]
  congr 1
  funext cell
  exact decide_eq_decide.2 hg.eq_iff

include hg in
/-- A declared variable gets the slot it would have got. -/
theorem declare_renamed (name : String) (value : Value) :
    (frame.renamed g).declare (g name) value =
      ((frame.declare name value).1, (frame.declare name value).2.renamed g) := by
  unfold declare
  rw [frame.slot?_renamed hg]
  cases frame.slot? name with
  | some slot =>
      dsimp only [renamed]
      rw [List.map_set]
      rfl
  | none =>
      dsimp only [renamed]
      rw [List.length_map, List.map_append]
      rfl

/-- Slots hold what they held. -/
theorem load_renamed (slot : Nat) : (frame.renamed g).load slot = frame.load slot := by
  unfold load renamed
  rw [List.getElem?_map]
  cases frame.cells[slot]? <;> rfl

/-- Storing into a slot does not look at names. -/
theorem store_renamed (slot : Nat) (data : Data) :
    (frame.renamed g).store slot data = (frame.store slot data).map (renamed g) := by
  unfold store renamed
  rw [List.getElem?_map]
  cases frame.cells[slot]? with
  | none => rfl
  | some cell =>
      dsimp only [Option.map_some, Prod.map, id, Except.map]
      rw [List.map_set]
      rfl

/-- Reading a value does not look at names. -/
theorem valueOf_renamed (value : Value) :
    (frame.renamed g).valueOf value = frame.valueOf value := by
  unfold valueOf
  simp only [frame.load_renamed]

/-- Nor does a cast. -/
theorem cast_renamed (target : Ty) (value : Value) :
    (frame.renamed g).cast target value = frame.cast target value := by
  unfold cast
  simp only [frame.load_renamed]

/-- Nor does an assignment. -/
theorem assign_renamed (left right : Value) :
    (frame.renamed g).assign left right = (frame.assign left right).map (renamed g) := by
  unfold assign
  split
  · exact frame.store_renamed _ _
  · rfl

include hg in
/-- Parameters take their arguments under their new names. -/
theorem ofArguments_renamed (vars : List Var) :
    ∀ (values : List Value) (frame : Frame),
      ofArguments (vars.map (Var.renamed g)) values (frame.renamed g) =
        (ofArguments vars values frame).renamed g := by
  induction vars with
  | nil =>
      intro values frame
      simp only [List.map_nil, ofArguments]
  | cons v vars ih =>
      intro values frame
      cases values with
      | nil => simp only [List.map_cons, ofArguments]
      | cons value values =>
          rw [List.map_cons, ofArguments, ofArguments, ← ih]
          show ofArguments _ values ((frame.renamed g).declare (g v.name) value).2 = _
          rw [frame.declare_renamed hg]

end Frame

/-- An answer that comes with a frame, under other names. -/
def underNames (g : String → String) (r : α × Frame) : α × Frame := (r.1, r.2.renamed g)

/-! ## Matching runs -/

variable {E : EvalError → EvalError → Prop} {view : α → γ} {view' : β → δ}

/-- The second run ends as the first one does, with `view` of its answer, or with an error
that its error turns into. -/
def Run.Matches (E : EvalError → EvalError → Prop) (view : α → γ) (x : Run σ α)
    (y : Run σ γ) : Prop :=
  ∀ state,
    match x state with
    | .done a final => y state = .done (view a) final
    | .failed e final => ∃ e', E e e' ∧ y state = .failed e' final
    | .unfinished final => y state = .unfinished final

namespace Run.Matches

/-- Answers match that are seen as the same. -/
theorem answer (a : α) : Run.Matches E view (pure a : Run σ α) (pure (view a)) :=
  fun _ => rfl

/-- Failures match whose errors are related. -/
theorem fail {e e' : EvalError} (he : E e e') :
    Run.Matches E view (Run.fail e : Run σ α) (Run.fail e') :=
  fun _ => ⟨e', he, rfl⟩

/-- One run after another. -/
theorem bind {x : Run σ α} {y : Run σ γ} {f : α → Run σ β} {k : γ → Run σ δ}
    (hx : Run.Matches E view x y) (hf : ∀ a, Run.Matches E view' (f a) (k (view a))) :
    Run.Matches E view' (x >>= f) (y >>= k) := by
  intro state
  have hstate := hx state
  show match Run.andThen x f state with
    | .done b final => Run.andThen y k state = .done (view' b) final
    | .failed e final => ∃ e', E e e' ∧ Run.andThen y k state = .failed e' final
    | .unfinished final => Run.andThen y k state = .unfinished final
  unfold Run.andThen
  cases hrun : x state with
  | done a middle =>
      rw [hrun] at hstate
      rw [hstate]
      exact hf a middle
  | failed e middle =>
      rw [hrun] at hstate
      obtain ⟨e', he, hother⟩ := hstate
      rw [hother]
      exact ⟨e', he, rfl⟩
  | unfinished middle =>
      rw [hrun] at hstate
      rw [hstate]

/-- A computation that does not touch the host. -/
theorem ofExcept {x : Except EvalError α} {y : Except EvalError γ} (hxy : y = x.map view)
    (herror : ∀ e, x = .error e → E e e) :
    Run.Matches E view (Run.ofExcept x : Run σ α) (Run.ofExcept y) := by
  subst hxy
  cases x with
  | ok a => exact answer a
  | error e => exact fail (herror e rfl)

/-- A computation that is known to succeed, and what follows it. -/
theorem ofExcept_bind {x y : Except EvalError Ty} {t : Ty} {f : Ty → Run σ β} {k : Ty → Run σ δ}
    (hx : x = .ok t) (hy : y = .ok t) (hf : Run.Matches E view' (f t) (k t)) :
    Run.Matches E view' (Run.ofExcept x >>= f) (Run.ofExcept y >>= k) := by
  subst hx hy
  exact hf

/-- Runs that match by some errors match by more. -/
theorem mono {E' : EvalError → EvalError → Prop} {x : Run σ α} {y : Run σ γ}
    (h : Run.Matches E view x y) (herror : ∀ e e', E e e' → E' e e') :
    Run.Matches E' view x y := by
  intro state
  have hstate := h state
  cases hx : x state with
  | done a final =>
      rw [hx] at hstate
      exact hstate
  | failed e final =>
      rw [hx] at hstate
      obtain ⟨e', he, hother⟩ := hstate
      exact ⟨e', herror e e' he, hother⟩
  | unfinished final =>
      rw [hx] at hstate
      exact hstate

/-- A run matches itself if its errors do. -/
theorem refl {x : Run σ α} {P : α → Prop} (h : x.Meets P fun e => E e e) :
    Run.Matches E id x x := by
  intro state
  have hstate := h state
  cases hx : x state with
  | done a final => rfl
  | failed e final =>
      rw [hx] at hstate
      exact ⟨e, hstate, rfl⟩
  | unfinished final => rfl

/-- **Loops.**  Rounds that match make loops that match. -/
theorem loop {condition condition' : Frame → Run σ (Bool × Frame)}
    {body body' : Frame → Run σ (Stop × Frame)}
    (htest : ∀ frame, Run.Matches E (underNames g) (condition frame)
      (condition' (frame.renamed g)))
    (hround : ∀ frame, Run.Matches E (underNames g) (body frame) (body' (frame.renamed g)))
    (rounds : Nat) (frame : Frame) :
    Run.Matches E (underNames g) (runLoop condition body rounds frame)
      (runLoop condition' body' rounds (frame.renamed g)) := by
  induction rounds generalizing frame with
  | zero => exact fun _ => rfl
  | succ rounds ih =>
      rw [runLoop_succ, runLoop_succ]
      refine (htest frame).bind fun tested => ?_
      obtain ⟨truth, tested⟩ := tested
      cases truth with
      | false => exact .answer _
      | true =>
          refine (hround tested).bind fun after => ?_
          obtain ⟨stop, after⟩ := after
          cases stop with
          | some value => exact .answer _
          | none => exact ih after

end Run.Matches

/-! ## Expressions -/

/-- Errors of other kinds than a missing variable stay. -/
def KeepsOthers (E : EvalError → EvalError → Prop) : Prop :=
  ∀ e : EvalError, (e.MissesOnly fun _ => False) → E e e

/-- The error of a missing variable shows its other name, for all variables that are known. -/
def Env.Misses (env : Env) (E : EvalError → EvalError → Prop) (g : String → String)
    (locals : List Var) : Prop :=
  ∀ v ∈ env.arguments ++ locals, E (.unknownVariable v.name) (.unknownVariable (g v.name))

/-- Errors that cover the names of some variables cover those of the first of them. -/
theorem Env.Misses.of_prefix {env : Env} {before after : List Var} (h : env.Misses E g after)
    (hkept : before <+: after) : env.Misses E g before :=
  fun v hv => h v (((List.prefix_append_right_inj _).2 hkept).subset hv)

/-- All calls match. -/
def Calls.Match (E : EvalError → EvalError → Prop) (calls other : Calls σ) : Prop :=
  ∀ name args, Run.Matches E id (calls name args) (other name args)

/-- Looking up a variable matches looking it up under its new name. -/
theorem lookup_matches (hg : Function.Injective g) (frame : Frame) {name : String}
    (hmissing : E (.unknownVariable name) (.unknownVariable (g name))) :
    Run.Matches E id (Run.ofExcept (frame.lookup name) : Run σ Nat)
      (Run.ofExcept ((frame.renamed g).lookup (g name))) := by
  unfold Frame.lookup
  rw [frame.slot?_renamed hg]
  cases frame.slot? name with
  | some slot => exact .answer slot
  | none => exact .fail hmissing

section

variable {env : Env} {calls other : Calls σ}

/-- Reading a value does not show names. -/
theorem valueOf_matches (hE : KeepsOthers E) (frame : Frame) (value : Value) :
    Run.Matches E id (Run.ofExcept (frame.valueOf value) : Run σ Value)
      (Run.ofExcept ((frame.renamed g).valueOf value)) := by
  rw [frame.valueOf_renamed]
  exact .refl (.ofExcept (fun _ _ => trivial) fun e he => hE e (valueOf_error he))

mutual

/-- **Typed expressions evaluate alike under other names.** -/
theorem TypedExpr.matches_renamed (hg : Function.Injective g) (hE : KeepsOthers E)
    (hcalls : calls.Match E other) {before after : List Var} {e : Expr} {t : Ty} :
    TypedExpr env before e t after → env.Misses E g after → ∀ frame : Frame,
      Run.Matches E (underNames g) (evalExpr calls e frame)
        (evalExpr other (e.renamed g) (frame.renamed g))
  | .literal noted, _, frame => by
      rw [Expr.renamed, evalExpr, evalExpr]
      exact .ofExcept_bind (noted_eq_ok noted) (noted_eq_ok noted) (.answer _)
  | @TypedExpr.declare _ _ n v _ _ _ noted, _, frame => by
      rw [Expr.renamed, evalExpr, evalExpr]
      refine .ofExcept_bind (noted_eq_ok noted) (noted_eq_ok noted) ?_
      have hdeclare : (frame.renamed g).declare (v.renamed g).name (.zero (v.renamed g).type) =
          ((frame.declare v.name (.zero v.type)).1,
            (frame.declare v.name (.zero v.type)).2.renamed g) :=
        frame.declare_renamed hg v.name (.zero v.type)
      rw [hdeclare]
      exact .answer _
  | .var known noted, hmisses, frame => by
      obtain ⟨hmem, rfl⟩ := Env.mem_of_find?_eq_some known
      rw [Expr.renamed, evalExpr, evalExpr]
      refine .ofExcept_bind (noted_eq_ok noted) (noted_eq_ok noted) ?_
      exact (lookup_matches hg frame (hmisses _ hmem)).bind fun slot => .answer _
  | .assign value place _ noted, hmisses, frame => by
      rw [Expr.renamed, evalExpr, evalExpr]
      refine .ofExcept_bind (noted_eq_ok noted) (noted_eq_ok noted) ?_
      refine (value.matches_renamed hg hE hcalls (hmisses.of_prefix place.locals_kept)
        frame).bind fun r => ?_
      refine (valueOf_matches hE r.2 r.1).bind fun held => ?_
      refine (place.matches_renamed hg hE hcalls hmisses r.2).bind fun l => ?_
      have hassign : Run.Matches E (Frame.renamed g) (Run.ofExcept (l.2.assign l.1 held))
          (Run.ofExcept ((l.2.renamed g).assign l.1 held) : Run σ Frame) :=
        .ofExcept (l.2.assign_renamed l.1 held) fun e he => hE e (assign_error he)
      exact hassign.bind fun final => .answer _
  | @TypedExpr.syscall _ _ _ _ args _ _ arguments noted, hmisses, frame => by
      rw [Expr.renamed, evalExpr, evalExpr]
      refine .ofExcept_bind (noted_eq_ok noted) (noted_eq_ok noted) ?_
      refine (arguments.match_renamed hg hE hcalls hmisses frame).bind fun r => ?_
      exact (hcalls syscallName r.1).bind fun result => .answer _
  | @TypedExpr.call _ _ _ _ name args _ _ _ arguments noted, hmisses, frame => by
      rw [Expr.renamed, evalExpr, evalExpr]
      refine .ofExcept_bind (noted_eq_ok noted) (noted_eq_ok noted) ?_
      refine (arguments.match_renamed hg hE hcalls hmisses frame).bind fun r => ?_
      exact (hcalls name r.1).bind fun result => .answer _
  | @TypedExpr.binary _ _ _ _ _ op left right _ _ first second _ _ noted, hmisses, frame => by
      rw [Expr.renamed, evalExpr, evalExpr]
      refine .ofExcept_bind (noted_eq_ok noted) (noted_eq_ok noted) ?_
      refine (first.matches_renamed hg hE hcalls (hmisses.of_prefix second.locals_kept)
        frame).bind fun l => ?_
      refine (second.matches_renamed hg hE hcalls hmisses l.2).bind fun r => ?_
      have happly : Run.Matches E id (Run.ofExcept (op.apply l.1 r.1) : Run σ Value)
          (Run.ofExcept (op.apply l.1 r.1)) :=
        .refl (.ofExcept (fun _ _ => trivial) fun e he =>
          hE e (BinaryOp.apply_error he).missesOnly)
      exact happly.bind fun result => .answer _
  | @TypedExpr.unary _ _ _ _ op operand value noted, hmisses, frame => by
      rw [Expr.renamed, evalExpr, evalExpr]
      refine .ofExcept_bind (noted_eq_ok noted) (noted_eq_ok noted) ?_
      refine (value.matches_renamed hg hE hcalls hmisses frame).bind fun r => ?_
      have happly : Run.Matches E id (Run.ofExcept (op.apply r.1) : Run σ Value)
          (Run.ofExcept (op.apply r.1)) :=
        .refl (.ofExcept (fun _ _ => trivial) fun e he =>
          hE e (UnaryOp.apply_error he).missesOnly)
      exact happly.bind fun result => .answer _
  | @TypedExpr.cast _ _ _ _ operand t place _ noted, hmisses, frame => by
      rw [Expr.renamed, evalExpr, evalExpr]
      refine .ofExcept_bind (noted_eq_ok noted) (noted_eq_ok noted) ?_
      refine (place.matches_renamed hg hE hcalls hmisses frame).bind fun r => ?_
      have hcast : Run.Matches E id (Run.ofExcept (r.2.cast t.value r.1) : Run σ Value)
          (Run.ofExcept ((r.2.renamed g).cast t.value r.1)) := by
        rw [r.2.cast_renamed]
        exact .refl (.ofExcept (fun _ _ => trivial) fun e he => hE e (cast_error he))
      exact hcast.bind fun result => .answer _

/-- The same for the arguments of a call. -/
theorem TypedArguments.match_renamed (hg : Function.Injective g) (hE : KeepsOthers E)
    (hcalls : calls.Match E other) {before after : List Var} {es : List Expr} {ts : List Ty} :
    TypedArguments env before es ts after → env.Misses E g after → ∀ frame : Frame,
      Run.Matches E (underNames g) (evalArguments calls es frame)
        (evalArguments other (renamedArguments g es) (frame.renamed g))
  | .nil, _, frame => by
      rw [renamedArguments, evalArguments, evalArguments]
      exact .answer _
  | .cons argument _ others, hmisses, frame => by
      rw [renamedArguments, evalArguments, evalArguments]
      refine (argument.matches_renamed hg hE hcalls (hmisses.of_prefix others.locals_kept)
        frame).bind fun r => ?_
      refine (valueOf_matches hE r.2 r.1).bind fun value => ?_
      exact (others.match_renamed hg hE hcalls hmisses r.2).bind fun rest => .answer _

end

/-! ## Statements -/

/-- A typed condition matches itself under the new names. -/
theorem condition_matches (hg : Function.Injective g) (hE : KeepsOthers E)
    (hcalls : calls.Match E other) {before after : List Var} {e : Expr} {t : Ty}
    (htest : TypedExpr env before e t after) (hmisses : env.Misses E g after) (frame : Frame) :
    Run.Matches E (underNames g) (evalCondition calls e frame)
      (evalCondition other (e.renamed g) (frame.renamed g)) := by
  unfold evalCondition
  refine (htest.matches_renamed hg hE hcalls hmisses frame).bind fun r => ?_
  have hcondition : Run.Matches E id (Run.ofExcept r.1.condition : Run σ Bool)
      (Run.ofExcept r.1.condition) :=
    .refl (.ofExcept (fun _ _ => trivial) fun e he => hE e (Value.condition_error he).missesOnly)
  exact hcondition.bind fun truth => .answer _

variable (rounds : Nat)

mutual

/-- **Typed statements execute alike under other names.** -/
theorem TypedStmt.matches_renamed (hg : Function.Injective g) (hE : KeepsOthers E)
    (hcalls : calls.Match E other) {before after : List Var} {s : Stmt} :
    TypedStmt env before s after → env.Misses E g after → ∀ frame : Frame,
      Run.Matches E (underNames g) (execStmt calls rounds s frame)
        (execStmt other rounds (s.renamed g) (frame.renamed g))
  | .expression value, hmisses, frame => by
      rw [Stmt.renamed, execStmt, execStmt]
      exact (value.matches_renamed hg hE hcalls hmisses frame).bind fun r => .answer _
  | .ret _, _, frame => by
      rw [Stmt.renamed, Option.map_none, execStmt, execStmt]
      exact .answer _
  | .retValue _ value, hmisses, frame => by
      rw [Stmt.renamed, Option.map_some, execStmt, execStmt]
      refine (value.matches_renamed hg hE hcalls hmisses frame).bind fun r => ?_
      exact (valueOf_matches hE r.2 r.1).bind fun held => .answer _
  | .ifThen test branch, hmisses, frame => by
      rw [Stmt.renamed, execStmt, execStmt]
      refine (condition_matches hg hE hcalls test (hmisses.of_prefix branch.locals_kept)
        frame).bind fun r => ?_
      obtain ⟨truth, tested⟩ := r
      cases truth with
      | true => exact branch.match_renamed hg hE hcalls hmisses tested
      | false => exact .answer _
  | .ifElse test branch alternative, hmisses, frame => by
      have hbranch := hmisses.of_prefix alternative.locals_kept
      rw [Stmt.renamed, execStmt, execStmt]
      refine (condition_matches hg hE hcalls test (hbranch.of_prefix branch.locals_kept)
        frame).bind fun r => ?_
      obtain ⟨truth, tested⟩ := r
      cases truth with
      | true => exact branch.match_renamed hg hE hcalls hbranch tested
      | false => exact alternative.matches_renamed hg hE hcalls hmisses tested
  | .loop test body, hmisses, frame => by
      rw [Stmt.renamed, execStmt, execStmt]
      exact .loop (condition_matches hg hE hcalls test (hmisses.of_prefix body.locals_kept))
        (body.match_renamed hg hE hcalls hmisses) rounds frame
  | .block inner, hmisses, frame => by
      rw [Stmt.renamed, execStmt, execStmt]
      exact inner.match_renamed hg hE hcalls hmisses frame

/-- The same for a list of statements. -/
theorem TypedStmts.match_renamed (hg : Function.Injective g) (hE : KeepsOthers E)
    (hcalls : calls.Match E other) {before after : List Var} {ss : List Stmt} :
    TypedStmts env before ss after → env.Misses E g after → ∀ frame : Frame,
      Run.Matches E (underNames g) (execStmts calls rounds ss frame)
        (execStmts other rounds (renamedBody g ss) (frame.renamed g))
  | .nil, _, frame => by
      rw [renamedBody, execStmts, execStmts]
      exact .answer _
  | .cons first others, hmisses, frame => by
      rw [renamedBody, execStmts, execStmts]
      refine (first.matches_renamed hg hE hcalls (hmisses.of_prefix others.locals_kept)
        frame).bind fun r => ?_
      obtain ⟨stop, after⟩ := r
      cases stop with
      | some value => exact .answer _
      | none => exact others.match_renamed hg hE hcalls hmisses after

end

end

/-! ## Calls -/

/-- What an error turns into when the variables of the program have other names: a missing
variable of a function is missing under its other name, and every other error stays. -/
inductive Program.TurnsInto (p : Program) (ρ : String → String → String) :
    EvalError → EvalError → Prop
  | missing {f : Function} {x : String} (hf : f ∈ p.functions) (hx : x ∈ f.variableNames) :
      TurnsInto p ρ (.unknownVariable x) (.unknownVariable (ρ f.name x))
  | other {e : EvalError} (he : ∀ x, e ≠ .unknownVariable x) : TurnsInto p ρ e e

variable {p : Program} {ρ : String → String → String}

/-- A renaming of a program turns no error but that of an unknown variable into another one. -/
theorem Program.keepsOthers (p : Program) (ρ : String → String → String) :
    KeepsOthers (p.TurnsInto ρ) :=
  fun _ he => .other fun x hx => he x hx

section

variable (hp : TypedProgram p) (hρ : ∀ f ∈ p.functions, Function.Injective (ρ f.name))
  (host : Host σ) (rounds : Nat) {f : Function}

/-- Calls match when functions are entered alike. -/
theorem dispatch_matches {enter enter' : Function → List Value → Run σ Value}
    (henter : ∀ f ∈ p.functions, f.builtin = false → ∀ args,
      Run.Matches (p.TurnsInto ρ) id (enter f args) (enter' (f.renamed (ρ f.name)) args)) :
    ((Setting.mk p host rounds).dispatch enter).Match (p.TurnsInto ρ)
      ((Setting.mk (p.renamed ρ) host rounds).dispatch enter') := by
  intro name args
  have hE := p.keepsOthers ρ
  unfold Setting.dispatch
  by_cases hname : name = syscallName
  · rw [if_pos hname, if_pos hname]
    exact .refl ((meets_systemCall args).mono (fun _ h => h)
      fun e he => hE e he.isHostError.missesOnly)
  · rw [if_neg hname, if_neg hname]
    dsimp only
    rw [p.function?_renamed]
    cases hfunction : p.function? name with
    | none => exact .fail (.other fun _ h => nomatch h)
    | some f =>
        have hf : f ∈ p.functions := List.mem_of_find?_eq_some hfunction
        have hlength : (f.renamed (ρ f.name)).arguments.length = f.arguments.length :=
          List.length_map _
        dsimp only [Option.map_some]
        rw [hlength]
        by_cases hcount : f.arguments.length ≠ args.length
        · rw [if_pos hcount, if_pos hcount]
          exact .fail (.other fun _ h => nomatch h)
        · rw [if_neg hcount, if_neg hcount]
          cases hblock : f.builtin with
          | true =>
              have hblock' : (f.renamed (ρ f.name)).builtin = true := hblock
              rw [hblock']
              exact .refl ((meets_callBuiltin f args).mono (fun _ h => h)
                fun e he => hE e he.missesOnly)
          | false =>
              have hblock' : (f.renamed (ρ f.name)).builtin = false := hblock
              rw [hblock']
              exact henter f hf hblock args

include hp hρ

/-- The body of a function runs alike under other names, where calls do. -/
theorem body_matches (hf : f ∈ p.functions) (hblock : f.builtin = false) {calls other : Calls σ}
    (hcalls : calls.Match (p.TurnsInto ρ) other) (args : List Value) :
    Run.Matches (p.TurnsInto ρ) id ((Setting.mk p host rounds).body calls f args)
      ((Setting.mk (p.renamed ρ) host rounds).body other (f.renamed (ρ f.name)) args) := by
  have hmisses : (f.typingEnv p.signatures).Misses (p.TurnsInto ρ) (ρ f.name) f.locals :=
    fun v hv => .missing hf (List.mem_map.2 ⟨v, hv, rfl⟩)
  have hbody := ((hp.each f hf).body hblock).match_renamed rounds (hρ f hf) (p.keepsOthers ρ)
    hcalls hmisses (.ofArguments f.arguments args .empty)
  rw [← Frame.ofArguments_renamed (hρ f hf)] at hbody
  unfold Setting.body
  refine hbody.bind fun r => ?_
  obtain ⟨stop, after⟩ := r
  cases stop with
  | some value => exact .answer value
  | none =>
      refine .refl (P := fun _ => True) ?_
      dsimp only
      split
      · exact .answer trivial
      · exact .fail (.other fun _ h => nomatch h)

/-- **Functions are entered alike under other names**, however deep calls may still nest. -/
theorem enter_matches (allowed : Nat) (hf : f ∈ p.functions) (hblock : f.builtin = false)
    (args : List Value) :
    Run.Matches (p.TurnsInto ρ) id ((Setting.mk p host rounds).enter allowed f args)
      ((Setting.mk (p.renamed ρ) host rounds).enter allowed (f.renamed (ρ f.name)) args) := by
  induction allowed generalizing f args with
  | zero => exact .fail (.other fun _ h => nomatch h)
  | succ allowed ih =>
      have hcalls := dispatch_matches host rounds fun f hf hblock args => ih hf hblock args
      have htell : Run.Matches (p.TurnsInto ρ) id
          (host.tell (.entered f.name (maxCallDepth - allowed)))
          (host.tell (.entered f.name (maxCallDepth - allowed))) :=
        fun _ => rfl
      rw [Setting.enter, Setting.enter]
      exact htell.bind fun _ => body_matches hp hρ host rounds hf hblock hcalls args

/-- **Calls end alike under other names.** -/
theorem call_matches (name : String) (args : List Value) :
    Run.Matches (p.TurnsInto ρ) id ((Setting.mk p host rounds).call name args)
      ((Setting.mk (p.renamed ρ) host rounds).call name args) :=
  dispatch_matches host rounds
    (fun _ hf hblock args => enter_matches hp hρ host rounds maxCallDepth hf hblock args) name args

end

end Slate
