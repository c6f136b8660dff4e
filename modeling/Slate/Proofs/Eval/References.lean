import Slate.Proofs.Eval.HostCalls
import Slate.Proofs.Eval.Moments
import Slate.Proofs.Eval.Storage

/-!
# References stay in their frames

No evaluation stores a reference, hands one to a call or returns one, and none looks for
a slot that its frame does not have.  This holds of every program, checked or not: what
is stored, handed on or returned has always been read once, and nothing that is read is a
reference.  What is read is in the frame, since frames only grow.

For one evaluation this is the invariant of the frame (`evalExpr_keeps`,
`execStmts_keeps`), with calls as an assumption that is discharged by induction on how
deep they may nest.  It then holds at the parts of a moment if it holds at the moment
(`Moment.Sound.begins`), and so at all moments that an evaluation reaches
(`references_stay`).
-/

namespace Slate

variable {σ : Type} {frame : Frame}

/-! ## Errors and values -/

/-- The error is of a slot that the frame did not have. -/
def EvalError.Dangles : EvalError → Prop
  | dangling _ => True
  | _ => False

/-- The error has another reason than a missing slot. -/
def EvalError.FindsSlots (e : EvalError) : Prop :=
  ¬ e.Dangles

/-- An error of the host is none of a slot. -/
theorem EvalError.IsHostError.findsSlots {e : EvalError} (h : e.IsHostError) : e.FindsSlots := by
  cases e with
  | dangling slot => exact h.elim
  | _ => exact id

/-- Nor is an error of operands. -/
theorem EvalError.IsOperandError.findsSlots {e : EvalError} (h : e.IsOperandError) :
    e.FindsSlots := by
  cases e with
  | dangling slot => exact h.elim
  | _ => exact id

/-- Data that fits a type is no reference. -/
theorem Data.Fits.isPlain {data : Data} {t : Ty} (h : data.Fits t) : data.IsPlain := by
  cases h <;> trivial

/-- The value of a literal is no reference. -/
theorem Literal.isPlain (literal : Literal) : literal.data.IsPlain := by
  cases literal <;> trivial

/-- Nor is the value a variable begins with. -/
theorem Value.isPlain_zero (t : Ty) : (Value.zero t).IsPlain := by
  unfold Value.IsPlain Value.zero
  dsimp only
  split
  · trivial
  · split
    · trivial
    · split <;> trivial

/-- What a binary operator yields is not a reference. -/
theorem BinaryOp.isPlain_apply {op : BinaryOp} {left right result : Value}
    (h : op.apply left right = .ok result) : result.IsPlain := by
  unfold BinaryOp.apply at h
  split at h
  · split at h
    · cases h
      trivial
    · cases h
  · split at h
    · cases h
      trivial
    · cases h

/-- A unary operation gives no reference. -/
theorem UnaryOp.isPlain_apply {op : UnaryOp} {operand result : Value}
    (h : op.apply operand = .ok result) : result.IsPlain :=
  (UnaryOp.fits_of_apply h).2.isPlain

/-- A missing type is no error of a slot. -/
theorem Expr.noted_findsSlots {expr : Expr} {e : EvalError} (h : expr.noted = .error e) :
    e.FindsSlots := by
  unfold Expr.noted at h
  split at h <;> cases h
  exact id

/-- An unknown name is no error of a slot. -/
theorem Frame.lookup_findsSlots {name : String} {e : EvalError}
    (h : frame.lookup name = .error e) : e.FindsSlots := by
  obtain ⟨_, rfl⟩ := lookup_eq_error.1 h
  exact id

/-! ## Expressions -/

/-- The second frame is what an evaluation may leave of the first: it is sound, and no
slot is gone. -/
structure Frame.Keeps (frame after : Frame) : Prop where
  sound : after.Sound
  grown : frame.Grown after

/-- A sound frame keeps itself. -/
theorem Frame.Sound.keeps (h : frame.Sound) : frame.Keeps frame :=
  ⟨h, .refl frame⟩

/-- What is kept twice is kept. -/
theorem Frame.Keeps.trans {after last : Frame} (h : frame.Keeps after) (h' : after.Keeps last) :
    frame.Keeps last :=
  ⟨h'.sound, h.grown.trans h'.grown⟩

/-- Calls that are handed no reference return none. -/
def Calls.Contained (calls : Calls σ) : Prop :=
  ∀ name args, (∀ value ∈ args, value.IsPlain) →
    (calls name args).Meets Value.IsPlain EvalError.FindsSlots

/-- What an expression leaves: a frame that is kept, and a value within it. -/
def Frame.Yields (frame : Frame) (r : Value × Frame) : Prop :=
  frame.Keeps r.2 ∧ r.2.Holds r.1

/-- Reading a recorded type never misses a slot. -/
theorem meets_type (e : Expr) :
    (Run.ofExcept e.noted : Run σ Ty).Meets (fun _ => True) EvalError.FindsSlots :=
  .ofExcept (fun _ _ => trivial) fun _ => Expr.noted_findsSlots

/-- What is read of a value within a sound frame. -/
theorem meets_valueOf (h : frame.Sound) {value : Value} (hvalue : frame.Holds value) :
    (Run.ofExcept (frame.valueOf value) : Run σ Value).Meets Value.IsPlain
      EvalError.FindsSlots := by
  obtain ⟨held, hheld⟩ := hvalue.valueOf
  rw [hheld]
  exact .answer (h.valueOf hheld)

variable {calls : Calls σ}

mutual

/-- **Expressions keep frames sound**, and yield references within them. -/
theorem evalExpr_keeps (hcalls : calls.Contained) (e : Expr) (frame : Frame)
    (hframe : frame.Sound) :
    (evalExpr calls e frame).Meets frame.Yields EvalError.FindsSlots := by
  cases e with
  | literal n literal =>
      refine .literal (meets_type _) fun t _ => ?_
      have hplain : Value.IsPlain ⟨t, literal.data⟩ := literal.isPlain
      exact ⟨hframe.keeps, hplain.held frame⟩
  | declare n declared =>
      refine .declare (meets_type _) fun t _ => ?_
      refine ⟨⟨hframe.declare _ (Value.isPlain_zero _), frame.grown_declare _ _⟩, ?_⟩
      intro slot hslot
      cases hslot
      exact frame.slot_declare_lt _ _
  | var n name =>
      have hlookup : (Run.ofExcept (frame.lookup name) : Run σ Nat).Meets
          (fun slot => frame.lookup name = .ok slot) EvalError.FindsSlots :=
        .ofExcept (fun _ h => h) fun _ => Frame.lookup_findsSlots
      refine .var (meets_type _) hlookup fun t slot _ hslot => ⟨hframe.keeps, ?_⟩
      intro other hother
      cases hother
      exact Frame.slot_lookup_lt hslot
  | assign n left right =>
      refine .assign (meets_type _) (evalExpr_keeps hcalls right frame hframe)
        (fun r hr => meets_valueOf hr.1.sound hr.2)
        (fun r v hr _ => evalExpr_keeps hcalls left r.2 hr.1.sound) fun r v l hr hv hl => ?_
      refine .ofExcept (fun after hassign => ?_) fun e he => ?_
      · obtain ⟨hsound, hgrown⟩ := hl.1.sound.assign hv hassign
        exact ⟨(hr.1.trans hl.1).trans ⟨hsound, hgrown⟩, hl.2.grown hgrown⟩
      · rw [hl.2.assign_error he]
        exact id
  | call n name args =>
      refine .call (meets_type _) (evalArguments_keeps hcalls args frame hframe) fun r hr => ?_
      exact (hcalls name r.1 hr.2).imp fun v hv => ⟨hr.1, hv.held r.2⟩
  | binary n op left right =>
      refine .binary (meets_type _) (evalExpr_keeps hcalls left frame hframe)
        (fun l hl => evalExpr_keeps hcalls right l.2 hl.1.sound) fun l r hl hr => ?_
      exact .ofExcept (fun v hv => ⟨hl.1.trans hr.1, (BinaryOp.isPlain_apply hv).held r.2⟩)
        fun _ he => (BinaryOp.apply_error he).findsSlots
  | unary n op operand =>
      refine .unary (meets_type _) (evalExpr_keeps hcalls operand frame hframe) fun r hr => ?_
      exact .ofExcept (fun v hv => ⟨hr.1, (UnaryOp.isPlain_apply hv).held r.2⟩)
        fun _ he => (UnaryOp.apply_error he).findsSlots
  | cast n operand =>
      refine .cast (meets_type _) (evalExpr_keeps hcalls operand frame hframe) fun t r _ hr => ?_
      refine .ofExcept (fun v hv => ⟨hr.1, (hr.1.sound.cast hv).held r.2⟩) fun e he => ?_
      rw [hr.2.cast_error he]
      exact id

/-- Arguments are values that are no references. -/
theorem evalArguments_keeps (hcalls : calls.Contained) (es : List Expr) (frame : Frame)
    (hframe : frame.Sound) :
    (evalArguments calls es frame).Meets
      (fun r => frame.Keeps r.2 ∧ ∀ value ∈ r.1, value.IsPlain) EvalError.FindsSlots := by
  cases es with
  | nil => exact .noArguments ⟨hframe.keeps, fun value hvalue => nomatch hvalue⟩
  | cons e es =>
      refine .arguments (evalExpr_keeps hcalls e frame hframe)
        (fun r hr => meets_valueOf hr.1.sound hr.2) fun r v hr hv => ?_
      refine (evalArguments_keeps hcalls es r.2 hr.1.sound).imp fun rs hrs => ?_
      exact ⟨hr.1.trans hrs.1, List.forall_mem_cons.2 ⟨hv, hrs.2⟩⟩

end

/-! ## Statements -/

/-- A condition keeps the frame it is evaluated in. -/
theorem evalCondition_keeps (hcalls : calls.Contained) (e : Expr) (frame : Frame)
    (hframe : frame.Sound) :
    (evalCondition calls e frame).Meets (fun r => frame.Keeps r.2) EvalError.FindsSlots := by
  refine .condition (evalExpr_keeps hcalls e frame hframe) fun r hr => ?_
  exact .ofExcept (fun _ _ => hr.1) fun _ he => (Value.condition_error he).findsSlots

/-- What statements leave: a frame that is kept, and a returned value that is no
reference. -/
def Frame.Leaves (frame : Frame) (r : Stop × Frame) : Prop :=
  frame.Keeps r.2 ∧ ∀ value ∈ r.1, value.IsPlain

/-- Where a frame is kept and nothing is returned, the statements behind can go on. -/
theorem Frame.Keeps.goesOn {after : Frame} (h : frame.Keeps after) : frame.Leaves (none, after) :=
  ⟨h, fun _ hvalue => nomatch hvalue⟩

/-- What is left behind a kept frame is left by the whole. -/
theorem Frame.Leaves.after {middle : Frame} {r : Stop × Frame} (hfirst : frame.Keeps middle)
    (h : middle.Leaves r) : frame.Leaves r :=
  ⟨hfirst.trans h.1, h.2⟩

/-- What runs behind something that keeps the frame. -/
theorem Run.Meets.after {middle : Frame} {x : Run σ (Stop × Frame)}
    (h : x.Meets middle.Leaves EvalError.FindsSlots) (hfirst : frame.Keeps middle) :
    x.Meets frame.Leaves EvalError.FindsSlots :=
  h.imp fun _ hr => hr.after hfirst

/-- Loops keep frames when their conditions and their bodies do. -/
theorem runLoop_keeps {condition : Frame → Run σ (Bool × Frame)}
    {body : Frame → Run σ (Stop × Frame)}
    (htest : ∀ frame, frame.Sound →
      (condition frame).Meets (fun r => frame.Keeps r.2) EvalError.FindsSlots)
    (hround : ∀ frame, frame.Sound → (body frame).Meets frame.Leaves EvalError.FindsSlots)
    (rounds : Nat) (frame : Frame) (hframe : frame.Sound) :
    Run.Meets (runLoop condition body rounds frame) frame.Leaves EvalError.FindsSlots := by
  refine Run.Meets.loop (I := frame.Keeps) (J := frame.Keeps) ?_ ?_ ?_ rounds frame hframe.keeps
  · exact fun now hnow => (htest now hnow.sound).imp fun _ hr => hnow.trans hr
  · intro now hnow
    refine (hround now hnow.sound).imp ?_
    exact fun r hr => ⟨fun _ => hnow.trans hr.1, fun _ => hr.after hnow⟩
  · exact fun now hnow => hnow.goesOn

mutual

/-- **Statements keep frames sound**, and return no references. -/
theorem execStmt_keeps (hcalls : calls.Contained) (rounds : Nat) (s : Stmt) (frame : Frame)
    (hframe : frame.Sound) :
    (execStmt calls rounds s frame).Meets frame.Leaves EvalError.FindsSlots := by
  cases s with
  | expression span e =>
      exact .expression (evalExpr_keeps hcalls e frame hframe) fun r hr => hr.1.goesOn
  | ret span value =>
      cases value with
      | none =>
          refine .returnNothing ⟨hframe.keeps, ?_⟩
          rintro value ⟨⟩
          trivial
      | some e =>
          refine .returnValue (evalExpr_keeps hcalls e frame hframe) fun r hr => ?_
          refine (meets_valueOf hr.1.sound hr.2).imp fun v hv => ⟨hr.1, ?_⟩
          rintro other ⟨⟩
          exact hv
  | ifThen span condition body =>
      exact .ifThen (evalCondition_keeps hcalls condition frame hframe)
        (fun tested hr => (execStmts_keeps hcalls rounds body tested hr.sound).after hr)
        fun tested hr => hr.goesOn
  | ifElse span condition body otherwise =>
      exact .ifElse (evalCondition_keeps hcalls condition frame hframe)
        (fun tested hr => (execStmts_keeps hcalls rounds body tested hr.sound).after hr)
        fun tested hr => (execStmt_keeps hcalls rounds otherwise tested hr.sound).after hr
  | loop span condition body =>
      exact .whileTrue (runLoop_keeps (evalCondition_keeps hcalls condition)
        (execStmts_keeps hcalls rounds body) rounds frame hframe)
  | block span body => exact .block (execStmts_keeps hcalls rounds body frame hframe)

/-- The same for a list of statements. -/
theorem execStmts_keeps (hcalls : calls.Contained) (rounds : Nat) (ss : List Stmt)
    (frame : Frame) (hframe : frame.Sound) :
    (execStmts calls rounds ss frame).Meets frame.Leaves EvalError.FindsSlots := by
  cases ss with
  | nil => exact .noStatements hframe.keeps.goesOn
  | cons s ss =>
      exact .statements (execStmt_keeps hcalls rounds s frame hframe) (fun v after hr => hr)
        fun after hr => (execStmts_keeps hcalls rounds ss after hr.1.sound).after hr.1

end

/-! ## Calls -/

section

variable {setting : Setting σ}

/-- The body of a function returns no reference. -/
theorem body_contained (hcalls : calls.Contained) (f : Function) {args : List Value}
    (hargs : ∀ value ∈ args, value.IsPlain) :
    (setting.body calls f args).Meets Value.IsPlain EvalError.FindsSlots := by
  unfold Setting.body
  refine (execStmts_keeps hcalls setting.rounds f.body _
    (Frame.sound_empty.ofArguments _ hargs)).bind fun r hr => ?_
  obtain ⟨stop, after⟩ := r
  cases stop with
  | some value => exact .answer (hr.2 value rfl)
  | none =>
      dsimp only
      split
      · exact .answer trivial
      · exact .fail id

/-- A call is contained if entering a function is. -/
theorem dispatch_contained {enter : Function → List Value → Run σ Value}
    (henter : ∀ f args, (∀ value ∈ args, value.IsPlain) →
      (enter f args).Meets Value.IsPlain EvalError.FindsSlots) :
    (setting.dispatch enter).Contained := by
  intro name args hargs
  unfold Setting.dispatch
  split
  · exact (meets_systemCall args).mono (fun _ h => h.2.isPlain)
      fun _ he => he.isHostError.findsSlots
  · split
    · exact .fail id
    · next f _ =>
      split
      · exact .fail id
      · split
        · exact (meets_callBuiltin f args).mono (fun _ h => h.2.isPlain) fun _ he => he.findsSlots
        · exact henter f args hargs

/-- Entering a function with plain arguments gives a plain value, or an error of no slot. -/
theorem enter_contained (setting : Setting σ) (allowed : Nat) (f : Function) (args : List Value)
    (hargs : ∀ value ∈ args, value.IsPlain) :
    (setting.enter allowed f args).Meets Value.IsPlain EvalError.FindsSlots := by
  induction allowed generalizing f args with
  | zero => exact .fail id
  | succ allowed ih =>
      rw [Setting.enter]
      have htell : (setting.host.tell (.entered f.name (maxCallDepth - allowed))).Meets
          (fun _ => True) EvalError.FindsSlots := fun _ => trivial
      exact htell.bind fun _ _ => body_contained (dispatch_contained ih) f hargs

/-- So all calls are contained, however deep they may go. -/
theorem calls_contained (setting : Setting σ) (allowed : Nat) : (setting.calls allowed).Contained :=
  dispatch_contained (enter_contained setting allowed)

/-- A run of a program looks for no slot in vain, however deep its calls may nest. -/
theorem runBy_contained (setting : Setting σ) (allowed : Nat) :
    (setting.runBy (setting.calls allowed)).Meets (fun _ => True) EvalError.FindsSlots := by
  have hcall : (setting.calls allowed "main" []).Meets Value.IsPlain EvalError.FindsSlots :=
    calls_contained setting allowed "main" [] fun _ h => nomatch h
  cases hmain : setting.program.function? "main" with
  | some f => exact Setting.meets_runBy hmain hcall (fun _ => id) fun _ => id
  | none =>
      rw [Setting.runBy_none hmain]
      exact .fail id

/-- So is the run of a program. -/
theorem run_contained (setting : Setting σ) :
    setting.run.Meets (fun _ => True) EvalError.FindsSlots :=
  runBy_contained setting maxCallDepth

end

end Slate
