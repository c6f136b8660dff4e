import Slate.Proofs.Eval.References

/-!
# References at every moment

At a moment of an evaluation several activations are alive.  The moment is sound when
each of them is: its frame is sound, and the references that its expressions still hold
are within that frame.  What is handed to a call must not be a reference.

A sound moment begins sound moments only, and it ends well: its evaluation leaves a sound
frame and a value within it, or a returned value that is no reference, and does not fail
for want of a slot.  An evaluation starts in a sound moment, if it is given no references.

* `Moment.Sound.begins` — what one step preserves.
* `Moment.Sound.endsWell` — how the evaluation at a sound moment ends.
* `references_stay` — both, at every moment that an evaluation reaches.
-/

namespace Slate

variable {σ : Type} {calls : Calls σ} {rounds : Nat} {work next : Work σ} {setting : Setting σ}
  {m m' : Moment σ}

/-! ## Sound moments -/

/-- The frame is sound, and the values that are held are within it. -/
structure Activation.Sound (a : Activation) : Prop where
  frame : a.frame.Sound
  held : ∀ value ∈ a.held, a.frame.Holds value

/-- All activations are sound, and nothing that is handed to a call is a reference. -/
structure Moment.Sound (m : Moment σ) : Prop where
  activations : ∀ a ∈ m.activations, a.Sound
  arguments : ∀ value ∈ m.arguments, value.IsPlain

/-- What is held is within the frame that a part of the evaluation leaves. -/
theorem Activation.Sound.kept {frame after : Frame} {held : List Value}
    (h : Activation.Sound ⟨frame, held⟩) (hkept : frame.Keeps after) :
    Activation.Sound ⟨after, held⟩ :=
  ⟨hkept.sound, fun value hvalue => (h.held value hvalue).grown hkept.grown⟩

theorem Activation.Sound.hold {frame : Frame} {held : List Value} {value : Value}
    (h : Activation.Sound ⟨frame, held⟩) (hvalue : frame.Holds value) :
    Activation.Sound ⟨frame, value :: held⟩ :=
  ⟨h.frame, List.forall_mem_cons.2 ⟨hvalue, h.held⟩⟩

/-- **One step inside an activation** keeps it sound. -/
theorem Work.Begins.sound (hcalls : calls.Contained) (h : Work.Begins calls rounds work next)
    (hwork : work.toActivation.Sound) : next.toActivation.Sound := by
  cases h with
  | assigned | arguments | left | operand | converted | argument | tested | effect | returned
  | ifTest | elseTest | loop | block | roundTest | statement => exact hwork
  | place _ first loaded =>
      have hfirst := (evalExpr_keeps hcalls _ _ hwork.frame).of_done first
      exact (hwork.kept hfirst.1).hold ((hfirst.1.sound.valueOf loaded).held _)
  | right _ first =>
      have hfirst := (evalExpr_keeps hcalls _ _ hwork.frame).of_done first
      exact (hwork.kept hfirst.1).hold hfirst.2
  | otherArguments first loaded =>
      have hfirst := (evalExpr_keeps hcalls _ _ hwork.frame).of_done first
      exact (hwork.kept hfirst.1).hold ((hfirst.1.sound.valueOf loaded).held _)
  | ifBody first | elseBody first | otherwise first | roundBody first =>
      exact hwork.kept ((evalCondition_keeps hcalls _ _ hwork.frame).of_done first)
  | nextRound first second =>
      have hfirst := (evalCondition_keeps hcalls _ _ hwork.frame).of_done first
      have hsecond := (execStmts_keeps hcalls rounds _ _ hfirst.sound).of_done second
      exact (hwork.kept hfirst).kept hsecond.1
  | otherStatements first =>
      have hfirst := (execStmt_keeps hcalls rounds _ _ hwork.frame).of_done first
      exact hwork.kept hfirst.1

/-- **One step** from a sound moment leads to a sound one. -/
theorem Moment.Sound.begins (h : m.Sound) (hbegins : setting.Begins m m') : m'.Sound := by
  have hnone : ∀ value ∈ ([] : List Value), value.IsPlain := fun _ hvalue => nomatch hvalue
  cases hbegins with
  | main known => exact ⟨h.activations, hnone⟩
  | entry other known count block => exact ⟨h.activations, h.arguments⟩
  | @bind _ _ f _ _ declared =>
      have hframe := Frame.sound_empty.ofArguments (f.arguments.take declared) h.arguments
      exact ⟨List.forall_mem_cons.2 ⟨⟨hframe, fun _ hheld => nomatch hheld⟩, h.activations⟩, hnone⟩
  | @body _ _ f _ _ =>
      have hframe := Frame.sound_empty.ofArguments f.arguments h.arguments
      exact ⟨List.forall_mem_cons.2 ⟨⟨hframe, fun _ hheld => nomatch hheld⟩, h.activations⟩, hnone⟩
  | @inside _ allowed _ _ part =>
      obtain ⟨hwork, hcallers⟩ := List.forall_mem_cons.1 h.activations
      have hnext := part.sound (calls_contained setting allowed) hwork
      exact ⟨List.forall_mem_cons.2 ⟨hnext, hcallers⟩, hnone⟩
  | @call _ allowed _ _ _ _ _ _ _ _ _ _ noted first =>
      obtain ⟨hwork, hcallers⟩ := List.forall_mem_cons.1 h.activations
      have hfirst :=
        (evalArguments_keeps (calls_contained setting allowed) _ _ hwork.frame).of_done first
      exact ⟨List.forall_mem_cons.2 ⟨hwork.kept hfirst.1, hcallers⟩, hfirst.2⟩

/-- Evaluations start in sound moments. -/
theorem Moment.Starts.sound (h : m.Starts) (harguments : ∀ value ∈ m.arguments, value.IsPlain) :
    m.Sound := by
  refine ⟨?_, harguments⟩
  intro a ha
  cases h with
  | run | call | enter => cases ha

/-! ## How evaluations end -/

/-- The run has ended with an answer of one kind or with an error of the other, if it has
ended. -/
def Outcome.Satisfies {α : Type} (outcome : Outcome σ α) (P : α → Prop)
    (E : EvalError → Prop) : Prop :=
  match outcome with
  | .done a _ => P a
  | .failed e _ => E e
  | .unfinished _ => True

/-- What is evaluated inside an activation leaves a sound frame that has all the slots,
and values that are within it, or no references if they are handed on.  No slot that it
looks for is missing. -/
def Work.EndsWell (calls : Calls σ) (rounds : Nat) (work : Work σ) : Prop :=
  match work.task with
  | .expression e =>
    (evalExpr calls e work.frame work.state).Satisfies work.frame.Yields EvalError.FindsSlots
  | .arguments es =>
    (evalArguments calls es work.frame work.state).Satisfies
      (fun r => work.frame.Keeps r.2 ∧ ∀ value ∈ r.1, value.IsPlain) EvalError.FindsSlots
  | .condition e =>
    (evalCondition calls e work.frame work.state).Satisfies (fun r => work.frame.Keeps r.2)
      EvalError.FindsSlots
  | .statement s =>
    (execStmt calls rounds s work.frame work.state).Satisfies work.frame.Leaves
      EvalError.FindsSlots
  | .statements ss =>
    (execStmts calls rounds ss work.frame work.state).Satisfies work.frame.Leaves
      EvalError.FindsSlots
  | .rounds condition body left =>
    Outcome.Satisfies
      (runLoop (evalCondition calls condition) (execStmts calls rounds body) left work.frame
        work.state)
      work.frame.Leaves EvalError.FindsSlots

/-- What is evaluated at the moment ends well: a call returns no reference. -/
def Setting.EndsWell (setting : Setting σ) : Moment σ → Prop
  | .running state => (setting.run state).Satisfies (fun _ => True) EvalError.FindsSlots
  | .calling _ allowed name args state =>
    (setting.calls allowed name args state).Satisfies Value.IsPlain EvalError.FindsSlots
  | .entering _ allowed f args state =>
    (setting.enter allowed f args state).Satisfies Value.IsPlain EvalError.FindsSlots
  | .binding _ _ => True
  | .working _ allowed work => work.EndsWell (setting.calls allowed) setting.rounds

theorem Work.endsWell (hcalls : calls.Contained) (rounds : Nat) (hframe : work.frame.Sound) :
    work.EndsWell calls rounds := by
  unfold Work.EndsWell
  split
  · exact evalExpr_keeps hcalls _ _ hframe work.state
  · exact evalArguments_keeps hcalls _ _ hframe work.state
  · exact evalCondition_keeps hcalls _ _ hframe work.state
  · exact execStmt_keeps hcalls rounds _ _ hframe work.state
  · exact execStmts_keeps hcalls rounds _ _ hframe work.state
  · exact runLoop_keeps (evalCondition_keeps hcalls _) (execStmts_keeps hcalls rounds _) _ _ hframe
      work.state

/-- The evaluation at a sound moment ends well. -/
theorem Moment.Sound.endsWell (h : m.Sound) (setting : Setting σ) : setting.EndsWell m := by
  cases m with
  | running state => exact run_contained setting state
  | calling callers allowed name args state =>
      exact calls_contained setting allowed name args h.arguments state
  | entering callers allowed f args state =>
      exact enter_contained setting allowed f args h.arguments state
  | binding callers frame => trivial
  | working callers allowed work =>
      obtain ⟨hwork, _⟩ := List.forall_mem_cons.1 h.activations
      exact Work.endsWell (calls_contained setting allowed) setting.rounds hwork.frame

/-! ## Every moment -/

/-- Sound moments reach sound moments. -/
theorem Moment.Sound.reaches (h : m.Sound) (hreaches : setting.Reaches m m') : m'.Sound := by
  induction hreaches with
  | refl => exact h
  | tail _ hlast ih => exact ih.begins hlast

/-- **References stay in their frames.**  From the start of a run, or of a call that is
given no references, every moment is sound and ends well. -/
theorem references_stay (setting : Setting σ) {start m : Moment σ} (hstart : start.Starts)
    (harguments : ∀ value ∈ start.arguments, value.IsPlain) (hreaches : setting.Reaches start m) :
    m.Sound ∧ setting.EndsWell m := by
  have hsound := (hstart.sound harguments).reaches hreaches
  exact ⟨hsound, hsound.endsWell setting⟩

/-- A program that the checker has not seen.  Its `main` adds a variable to the result of a
call, and nothing reads the variable before. -/
def unreadOperand : Program where
  functions :=
    let note (t : Ty) : Note := ⟨some t, default⟩
    [{ name := "main", result := .int, arguments := [], locals := [], builtin := false,
       span := default,
       body :=
         [.ret default (some (.binary (note .int) .plus (.declare (note .int) ⟨"m", .int⟩)
           (.call (note .int) "next" [.var (note .int) "m"])))] },
     { name := "next", result := .int, arguments := [⟨"n", .int⟩], locals := [],
       builtin := false, span := default,
       body := [.ret default (some (.var (note .int) "n"))] }]
  file := none

/-- The theorem applies while a call is evaluated whose caller holds a reference. -/
theorem references_stay_unread :
    ∃ m : Moment ByteArray,
      m.activations =
        [⟨⟨[("n", .int 0)]⟩, []⟩, ⟨⟨[("m", .int 0)]⟩, [⟨.int, .ref 0⟩]⟩] ∧
      (Setting.mk unreadOperand (.ofSink .collect) 1).Reaches (.running .empty) m ∧
      m.Sound ∧ (Setting.mk unreadOperand (.ofSink .collect) 1).EndsWell m := by
  let setting := Setting.mk unreadOperand (.ofSink .collect) 1
  have hreaches : setting.Reaches (.running .empty)
      (.working [⟨⟨[("m", .int 0)]⟩, [⟨.int, .ref 0⟩]⟩] 510
        ⟨⟨⟨[("n", .int 0)]⟩, []⟩, .statements [.ret default (some (.var ⟨some .int, default⟩ "n"))],
          .empty⟩) := by
    refine .head (.main rfl) ?_
    refine .head (.entry (by decide) rfl rfl rfl) ?_
    refine .head .body ?_
    refine .head (.inside .statement) ?_
    refine .head (.inside .returned) ?_
    refine .head (.inside (.right rfl rfl)) ?_
    refine .head (.call rfl rfl) ?_
    refine .head (.entry (by decide) rfl rfl rfl) ?_
    exact .single .body
  refine ⟨_, rfl, hreaches, references_stay setting (.run .empty) ?_ hreaches⟩
  intro value hvalue
  cases hvalue

end Slate
