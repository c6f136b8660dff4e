import Slate.Proofs.Eval.Concluded

/-!
# What runs meet

A run meets a pair of conditions when, from whatever state of the host, its answer
satisfies the one if it is done, and its error satisfies the other if it fails.  A
run that does not end meets everything; so a statement of this kind says what a run
ends with, and never that it ends.

The rules follow the ways in which runs are put together.  The rule for loops asks
for an invariant of the frame before a round, and for what the condition makes of
it.  There is one rule for every form of expression and of statement, which asks of each
part what the parts before it leave, in the order in which they are evaluated.  The runs of
a form are what the evaluator computes to on it, so its rule is put together of the rules
above as they stand; and what is said of all trees is proved by these rules, and does not
look at the evaluator.  The run of a
program is the call of its `main` and what is done with the result.
-/

namespace Slate

variable {σ α β : Type} {P Q : α → Prop} {R : β → Prop} {E F : EvalError → Prop}

/-- What the run ends with satisfies `P` as an answer and `E` as an error. -/
def Run.Meets (x : Run σ α) (P : α → Prop) (E : EvalError → Prop) : Prop :=
  ∀ state,
    match x state with
    | .done a _ => P a
    | .failed e _ => E e
    | .unfinished _ => True

namespace Run.Meets

/-- An answer meets what holds of it. -/
theorem answer {a : α} (h : P a) : (pure a : Run σ α).Meets P E :=
  fun _ => h

/-- A failure meets what holds of its error. -/
theorem fail {e : EvalError} (h : E e) : (Run.fail e : Run σ α).Meets P E :=
  fun _ => h

/-- What a run meets, it meets in a weaker form. -/
theorem mono {x : Run σ α} (h : x.Meets P E) (hanswer : ∀ a, P a → Q a)
    (herror : ∀ e, E e → F e) : x.Meets Q F := by
  intro state
  have hstate := h state
  cases hx : x state with
  | done a final =>
      rw [hx] at hstate
      exact hanswer a hstate
  | failed e final =>
      rw [hx] at hstate
      exact herror e hstate
  | unfinished final => trivial

/-- The condition on answers alone is weakened. -/
theorem imp {x : Run σ α} (h : x.Meets P E) (hanswer : ∀ a, P a → Q a) : x.Meets Q E :=
  h.mono hanswer fun _ he => he

/-- What is wrong with a run is wrong with its result. -/
theorem result {x : Run σ α} (h : x.Meets P E) :
    x.result.Meets (fun r => match r with | .ok a => P a | .error e => E e) F := by
  intro state
  have hstate := h state
  unfold Run.result
  cases hx : x state with
  | done a final =>
      rw [hx] at hstate
      exact hstate
  | failed e final =>
      rw [hx] at hstate
      exact hstate
  | unfinished final => trivial

/-- One run after another. -/
theorem bind {x : Run σ α} {f : α → Run σ β} (hx : x.Meets P E)
    (hf : ∀ a, P a → (f a).Meets R E) : (x >>= f).Meets R E := by
  intro state
  have hstate := hx state
  show match Run.andThen x f state with
    | .done b _ => R b
    | .failed e _ => E e
    | .unfinished _ => True
  unfold Run.andThen
  cases hrun : x state with
  | done a middle =>
      rw [hrun] at hstate
      exact hf a hstate middle
  | failed e middle =>
      rw [hrun] at hstate
      exact hstate
  | unfinished middle => trivial

/-- A computation that does not touch the host. -/
theorem ofExcept {x : Except EvalError α} (hok : ∀ a, x = .ok a → P a)
    (herror : ∀ e, x = .error e → E e) : (Run.ofExcept x : Run σ α).Meets P E := by
  cases x with
  | ok a => exact answer (hok a rfl)
  | error e => exact fail (herror e rfl)

/-- What a run that is done has met. -/
theorem of_done {x : Run σ α} {a : α} {state final : σ} (h : x.Meets P E)
    (hx : x state = .done a final) : P a := by
  have hstate := h state
  rw [hx] at hstate
  exact hstate

/-- What a run that fails has met. -/
theorem of_failed {x : Run σ α} {e : EvalError} {state final : σ} (h : x.Meets P E)
    (hx : x state = .failed e final) : E e := by
  have hstate := h state
  rw [hx] at hstate
  exact hstate

/-- **Loops.**  `I` holds before every round, and the condition makes `J` of it. -/
theorem loop {I J : Frame → Prop} {S : Stop × Frame → Prop}
    {condition : Frame → Run σ (Bool × Frame)} {body : Frame → Run σ (Stop × Frame)}
    (htest : ∀ frame, I frame → (condition frame).Meets (fun r => J r.2) E)
    (hround : ∀ frame, J frame →
      (body frame).Meets (fun r => (r.1 = none → I r.2) ∧ (r.1 ≠ none → S r)) E)
    (hend : ∀ frame, J frame → S (none, frame)) (rounds : Nat) :
    ∀ frame, I frame → Run.Meets (runLoop condition body rounds frame) S E := by
  induction rounds with
  | zero =>
      intro frame _ state
      simp only [runLoop]
  | succ rounds ih =>
      intro frame hframe state
      simp only [runLoop]
      have hcondition := htest frame hframe state
      cases hc : condition frame state with
      | failed e final =>
          rw [hc] at hcondition
          exact hcondition
      | unfinished final => trivial
      | done answer middle =>
          rw [hc] at hcondition
          obtain ⟨truth, tested⟩ := answer
          cases truth with
          | false => exact hend tested hcondition
          | true =>
              have hbody := hround tested hcondition middle
              dsimp only
              cases hb : body tested middle with
              | failed e final =>
                  rw [hb] at hbody
                  exact hbody
              | unfinished final => trivial
              | done answer final =>
                  rw [hb] at hbody
                  obtain ⟨stop, after⟩ := answer
                  cases stop with
                  | none => exact ih after (hbody.1 rfl) final
                  | some value => exact hbody.2 (by simp)

/-- A computation that is known to succeed. -/
theorem succeeds {x : Except EvalError α} {a : α} (hx : x = .ok a) (hanswer : P a) :
    (Run.ofExcept x : Run σ α).Meets P E := by
  subst hx
  exact answer hanswer

/-- A computation whose answer is known. -/
theorem known {x : Except EvalError α} {a : α} (hx : x = .ok a) :
    (Run.ofExcept x : Run σ α).Meets (· = a) E :=
  succeeds hx rfl

/-! ## Expressions -/

section

variable {calls : Calls σ} {frame : Frame} {Q : Value × Frame → Prop} {N : Ty → Prop}

theorem literal {n : Note} {value : Literal}
    (hnoted : (Run.ofExcept (Expr.literal n value).noted : Run σ Ty).Meets N E)
    (hanswer : ∀ t, N t → Q (⟨t, value.data⟩, frame)) :
    (evalExpr calls (.literal n value) frame).Meets Q E :=
  hnoted.bind fun t ht => answer (hanswer t ht)

/-- A declaration answers with its new slot and the grown frame. -/
theorem declare {n : Note} {v : Var}
    (hnoted : (Run.ofExcept (Expr.declare n v).noted : Run σ Ty).Meets N E)
    (hanswer : ∀ t, N t → Q (⟨t, .ref (frame.declare v.name (.zero v.type)).1⟩,
      (frame.declare v.name (.zero v.type)).2)) :
    (evalExpr calls (.declare n v) frame).Meets Q E :=
  hnoted.bind fun t ht => answer (hanswer t ht)

/-- A variable answers with the slot its name is looked up to. -/
theorem var {n : Note} {name : String} {S : Nat → Prop}
    (hnoted : (Run.ofExcept (Expr.var n name).noted : Run σ Ty).Meets N E)
    (hlookup : (Run.ofExcept (frame.lookup name) : Run σ Nat).Meets S E)
    (hanswer : ∀ t slot, N t → S slot → Q (⟨t, .ref slot⟩, frame)) :
    (evalExpr calls (.var n name) frame).Meets Q E :=
  hnoted.bind fun t ht => hlookup.bind fun slot hslot => answer (hanswer t slot ht hslot)

/-- The right side is evaluated and read first, then the left side, with what the right side
leaves. -/
theorem assign {n : Note} {left right : Expr} {A : Value × Frame → Prop}
    {V : Value × Frame → Value → Prop} {B : Value × Frame → Value → Value × Frame → Prop}
    (hnoted : (Run.ofExcept (Expr.assign n left right).noted : Run σ Ty).Meets N E)
    (hright : (evalExpr calls right frame).Meets A E)
    (hread : ∀ r, A r → (Run.ofExcept (r.2.valueOf r.1) : Run σ Value).Meets (V r) E)
    (hleft : ∀ r v, A r → V r v → (evalExpr calls left r.2).Meets (B r v) E)
    (hassign : ∀ r v l, A r → V r v → B r v l →
      (Run.ofExcept (l.2.assign l.1 v) : Run σ Frame).Meets (fun after => Q (l.1, after)) E) :
    (evalExpr calls (.assign n left right) frame).Meets Q E := by
  refine hnoted.bind fun _ _ => hright.bind fun r hr => (hread r hr).bind fun v hv => ?_
  exact (hleft r v hr hv).bind fun l hl => (hassign r v l hr hv hl).bind fun _ hafter =>
    answer hafter

/-- A call runs on what its arguments are evaluated to. -/
theorem call {n : Note} {name : String} {args : List Expr} {A : List Value × Frame → Prop}
    (hnoted : (Run.ofExcept (Expr.call n name args).noted : Run σ Ty).Meets N E)
    (hargs : (evalArguments calls args frame).Meets A E)
    (hcall : ∀ r, A r → (calls name r.1).Meets (fun v => Q (v, r.2)) E) :
    (evalExpr calls (.call n name args) frame).Meets Q E :=
  hnoted.bind fun _ _ => hargs.bind fun r hr => (hcall r hr).bind fun _ hv => answer hv

/-- A binary operation is applied to its operands, read in order. -/
theorem binary {n : Note} {op : BinaryOp} {left right : Expr} {A : Value × Frame → Prop}
    {B : Value × Frame → Value × Frame → Prop}
    (hnoted : (Run.ofExcept (Expr.binary n op left right).noted : Run σ Ty).Meets N E)
    (hleft : (evalExpr calls left frame).Meets A E)
    (hright : ∀ l, A l → (evalExpr calls right l.2).Meets (B l) E)
    (happly : ∀ l r, A l → B l r →
      (Run.ofExcept (op.apply l.1 r.1) : Run σ Value).Meets (fun v => Q (v, r.2)) E) :
    (evalExpr calls (.binary n op left right) frame).Meets Q E := by
  refine hnoted.bind fun _ _ => hleft.bind fun l hl => (hright l hl).bind fun r hr => ?_
  exact (happly l r hl hr).bind fun _ hv => answer hv

/-- A unary operation is applied to what its operand is evaluated to. -/
theorem unary {n : Note} {op : UnaryOp} {operand : Expr} {A : Value × Frame → Prop}
    (hnoted : (Run.ofExcept (Expr.unary n op operand).noted : Run σ Ty).Meets N E)
    (hoperand : (evalExpr calls operand frame).Meets A E)
    (happly : ∀ r, A r →
      (Run.ofExcept (op.apply r.1) : Run σ Value).Meets (fun v => Q (v, r.2)) E) :
    (evalExpr calls (.unary n op operand) frame).Meets Q E :=
  hnoted.bind fun _ _ => hoperand.bind fun r hr => (happly r hr).bind fun _ hv => answer hv

/-- A cast is applied to what its operand is evaluated to. -/
theorem cast {n : Note} {operand : Expr} {A : Value × Frame → Prop}
    (hnoted : (Run.ofExcept (Expr.cast n operand).noted : Run σ Ty).Meets N E)
    (hoperand : (evalExpr calls operand frame).Meets A E)
    (hcast : ∀ t r, N t → A r →
      (Run.ofExcept (r.2.cast t r.1) : Run σ Value).Meets (fun v => Q (v, r.2)) E) :
    (evalExpr calls (.cast n operand) frame).Meets Q E :=
  hnoted.bind fun t ht => hoperand.bind fun r hr => (hcast t r ht hr).bind fun _ hv =>
    answer hv

variable {Q : List Value × Frame → Prop}

theorem noArguments (hanswer : Q ([], frame)) : (evalArguments calls [] frame).Meets Q E :=
  answer hanswer

/-- Each argument is read before the next one is evaluated. -/
theorem arguments {e : Expr} {es : List Expr} {A : Value × Frame → Prop}
    {V : Value × Frame → Value → Prop} (hfirst : (evalExpr calls e frame).Meets A E)
    (hread : ∀ r, A r → (Run.ofExcept (r.2.valueOf r.1) : Run σ Value).Meets (V r) E)
    (hothers : ∀ r v, A r → V r v →
      (evalArguments calls es r.2).Meets (fun rs => Q (v :: rs.1, rs.2)) E) :
    (evalArguments calls (e :: es) frame).Meets Q E := by
  refine hfirst.bind fun r hr => (hread r hr).bind fun v hv => ?_
  exact (hothers r v hr hv).bind fun _ hrs => answer hrs

end

/-! ## Statements -/

section

variable {calls : Calls σ} {rounds : Nat} {frame : Frame} {A : Value × Frame → Prop}
  {T : Bool × Frame → Prop} {S : Stop × Frame → Prop} {span : Span} {test : Expr}
  {body : List Stmt}

/-- A condition is evaluated and its truth is read. -/
theorem condition {e : Expr} (hvalue : (evalExpr calls e frame).Meets A E)
    (htruth : ∀ r, A r →
      (Run.ofExcept r.1.condition : Run σ Bool).Meets (fun truth => T (truth, r.2)) E) :
    (evalCondition calls e frame).Meets T E :=
  hvalue.bind fun r hr => (htruth r hr).bind fun _ h => answer h

/-- An expression by itself returns nothing. -/
theorem expression {e : Expr} (hvalue : (evalExpr calls e frame).Meets A E)
    (hanswer : ∀ r, A r → S (none, r.2)) :
    (execStmt calls rounds (.expression span e) frame).Meets S E :=
  hvalue.bind fun r hr => answer (hanswer r hr)

/-- A return without a value returns the empty one. -/
theorem returnNothing (hanswer : S (some .void, frame)) :
    (execStmt calls rounds (.ret span none) frame).Meets S E :=
  answer hanswer

/-- A return reads the value it gives back. -/
theorem returnValue {e : Expr} (hvalue : (evalExpr calls e frame).Meets A E)
    (hread : ∀ r, A r →
      (Run.ofExcept (r.2.valueOf r.1) : Run σ Value).Meets (fun v => S (some v, r.2)) E) :
    (execStmt calls rounds (.ret span (some e)) frame).Meets S E :=
  hvalue.bind fun r hr => (hread r hr).bind fun _ hv => answer hv

/-- A conditional runs its body where its condition is true and nothing where it is false. -/
theorem ifThen (htest : (evalCondition calls test frame).Meets T E)
    (hbody : ∀ tested, T (true, tested) → (execStmts calls rounds body tested).Meets S E)
    (hskip : ∀ tested, T (false, tested) → S (none, tested)) :
    (execStmt calls rounds (.ifThen span test body) frame).Meets S E := by
  refine htest.bind fun r hr => ?_
  obtain ⟨truth, tested⟩ := r
  cases truth with
  | true => exact hbody tested hr
  | false => exact answer (hskip tested hr)

/-- With an alternative it runs that one instead of nothing. -/
theorem ifElse {otherwise : Stmt}
    (htest : (evalCondition calls test frame).Meets T E)
    (hbody : ∀ tested, T (true, tested) → (execStmts calls rounds body tested).Meets S E)
    (hotherwise : ∀ tested, T (false, tested) →
      (execStmt calls rounds otherwise tested).Meets S E) :
    (execStmt calls rounds (.ifElse span test body otherwise) frame).Meets S E := by
  refine htest.bind fun r hr => ?_
  obtain ⟨truth, tested⟩ := r
  cases truth with
  | true => exact hbody tested hr
  | false => exact hotherwise tested hr

/-- A loop does what its rounds do. -/
theorem whileTrue (hrounds : Run.Meets
      (runLoop (evalCondition calls test) (execStmts calls rounds body) rounds frame) S E) :
    (execStmt calls rounds (.loop span test body) frame).Meets S E :=
  hrounds

/-- A block does what its statements do. -/
theorem block (hbody : (execStmts calls rounds body frame).Meets S E) :
    (execStmt calls rounds (.block span body) frame).Meets S E :=
  hbody

theorem noStatements (hanswer : S (none, frame)) :
    (execStmts calls rounds [] frame).Meets S E :=
  answer hanswer

/-- What a statement that returns leaves is left by all of them. -/
theorem statements {s : Stmt} {ss : List Stmt} {F : Stop × Frame → Prop}
    (hfirst : (execStmt calls rounds s frame).Meets F E)
    (hreturn : ∀ v after, F (some v, after) → S (some v, after))
    (hothers : ∀ after, F (none, after) → (execStmts calls rounds ss after).Meets S E) :
    (execStmts calls rounds (s :: ss) frame).Meets S E := by
  refine hfirst.bind fun r hr => ?_
  obtain ⟨stop, after⟩ := r
  cases stop with
  | some v => exact answer (hreturn v after hr)
  | none => exact hothers after hr

end

end Run.Meets

/-! ## Hosts and programs -/

/-- Writing bytes fails with an error of the output only. -/
theorem Host.meets_print {host : Host σ} (houtput : ∀ message, E (.output message))
    (bytes : ByteArray) : (host.print bytes).Meets (fun _ => True) E := by
  intro state
  unfold Host.print
  cases host.write bytes state with
  | ok final => trivial
  | error message => exact houtput message

/-- Flushing the output fails with an error of the output only. -/
theorem Host.meets_flushOutput {host : Host σ} (houtput : ∀ message, E (.output message)) :
    host.flushOutput.Meets (fun _ => True) E := by
  intro state
  unfold Host.flushOutput
  cases host.flush state with
  | ok final => trivial
  | error message => exact houtput message

/-- A result that is no status is the only thing that is wrong with results. -/
theorem Setting.status_error {result : Value} {e : EvalError}
    (h : Setting.status result = .error e) : e = .invalidResult result := by
  unfold Setting.status at h
  split at h <;> cases h
  rfl

/-- A run of a program that has a `main` fails as the call of it does, or because of the
output or of the result. -/
theorem Setting.meets_runBy {setting : Setting σ} {call : Calls σ} {f : Function}
    {P : Value → Prop}
    (hmain : setting.program.function? "main" = some f) (hcall : (call "main" []).Meets P E)
    (houtput : ∀ message, E (.output message)) (hresult : ∀ result, E (.invalidResult result)) :
    (setting.runBy call).Meets (fun _ => True) E := by
  have htell : ∀ event, (setting.host.tell event).Meets (fun _ => True) E := fun _ _ => trivial
  have hflush := setting.host.meets_flushOutput houtput
  rw [runBy_some hmain]
  refine hcall.result.bind fun r hr => ?_
  cases r with
  | ok result =>
      have hstatus : (Run.ofExcept (Setting.status result) : Run σ Int32).Meets
          (fun _ => True) E := by
        refine .ofExcept (fun _ _ => trivial) fun e he => ?_
        rw [status_error he]
        exact hresult result
      exact hflush.bind fun _ _ => (htell _).bind fun _ _ => hstatus
  | error e =>
      cases e with
      | exit code => exact hflush.bind fun _ _ => (htell _).bind fun _ _ => .answer trivial
      | _ => exact hflush.bind fun _ _ => Run.Meets.fail (P := fun _ => True) hr

end Slate
