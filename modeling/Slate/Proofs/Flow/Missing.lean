import Slate.Proofs.Eval.Cells
import Slate.Proofs.Eval.HostCalls
import Slate.Proofs.Flow.Exposure

/-!
# Only exposed variables are missing

A run fails for a missing variable only if a function of the program exposes it
(`call_exposed`).  This holds of every program, checked or not.

A frame has at least the variables that are known at a place of the text: this is
the invariant.  It is no equality, since a branch that was taken or a round of a loop
may have declared more, and nothing ever takes a variable away.
-/

namespace Slate

/-! ## Errors of other kinds -/

/-- The error is of a missing variable only if the variable is one of those. -/
def EvalError.MissesOnly (P : String → Prop) (e : EvalError) : Prop :=
  ∀ x, e = .unknownVariable x → P x

variable {σ : Type} {P : String → Prop} {frame : Frame} {e : EvalError}

/-- Reading a value misses no variable. -/
theorem valueOf_error {v : Value} (h : frame.valueOf v = .error e) : e.MissesOnly P := by
  unfold Frame.valueOf Frame.load at h
  intro x hx
  subst hx
  split at h
  · split at h <;> cases h
  · cases h

/-- Nor does a cast. -/
theorem cast_error {t : Ty} {v : Value} (h : frame.cast t v = .error e) : e.MissesOnly P := by
  unfold Frame.cast Frame.load at h
  intro x hx
  subst hx
  split at h
  · split at h
    · split at h <;> cases h
    · cases h
  · cases h

/-- Nor does an assignment. -/
theorem assign_error {l r : Value} (h : frame.assign l r = .error e) : e.MissesOnly P := by
  unfold Frame.assign Frame.store at h
  intro x hx
  subst hx
  split at h
  · split at h <;> cases h
  · cases h

/-- An error of operands misses no variable. -/
theorem EvalError.IsOperandError.missesOnly (h : e.IsOperandError) : e.MissesOnly P := by
  rintro x rfl
  exact h.elim

/-- Nor does a missing type. -/
theorem noted_error {e : Expr} {error : EvalError} (h : e.noted = .error error) :
    error.MissesOnly P := by
  unfold Expr.noted at h
  intro x hx
  subst hx
  split at h <;> cases h

/-! ## Names in a frame -/

/-- The frame has a variable for every name. -/
def Frame.Has (frame : Frame) (known : List String) : Prop :=
  ∀ name ∈ known, name ∈ frame.names

/-- A declared name is had besides the others. -/
theorem Frame.Has.declare {known : List String} (h : frame.Has known) (name : String)
    (value : Value) : (frame.declare name value).2.Has (known ++ [name]) := by
  intro x hx
  rw [Frame.names_declare]
  split
  · next hmem =>
    rcases List.mem_append.1 hx with hx | hx
    · exact h x hx
    · rw [List.mem_singleton.1 hx]
      exact hmem
  · rcases List.mem_append.1 hx with hx | hx
    · exact List.mem_append_left _ (h x hx)
    · exact List.mem_append_right _ hx

/-- An assignment takes no name away. -/
theorem Frame.Has.assign {known : List String} (h : frame.Has known) {l r : Value}
    {after : Frame} (hassign : frame.assign l r = .ok after) : after.Has known := by
  unfold Frame.assign at hassign
  split at hassign
  · intro x hx
    rw [Frame.names_store hassign]
    exact h x hx
  · cases hassign

/-- The frame of a call has its arguments when there is a value for each. -/
theorem Frame.ofArguments_has {vs : List Var} {values : List Value}
    (hlength : vs.length = values.length) :
    ∀ (known : List String) (frame : Frame), frame.Has known →
      (Frame.ofArguments vs values frame).Has (known ++ vs.map Var.name) := by
  induction vs generalizing values with
  | nil =>
      intro known frame h
      simpa [Frame.ofArguments] using h
  | cons v vs ih =>
      intro known frame h
      cases values with
      | nil => cases hlength
      | cons value values =>
          have hrest := ih (Nat.succ.inj hlength) _ _ (h.declare v.name value)
          simpa [Frame.ofArguments] using hrest

/-! ## Expressions -/

/-- Reading a recorded type misses no variable. -/
theorem meets_noted (e : Expr) :
    (Run.ofExcept e.noted : Run σ Ty).Meets (fun _ => True) (EvalError.MissesOnly P) :=
  .ofExcept (fun _ _ => trivial) fun _ => noted_error

variable {calls : Calls σ}

/-- Calls fail for a missing variable only if it is one of those. -/
def Calls.MissOnly (calls : Calls σ) (P : String → Prop) : Prop :=
  ∀ name args, (calls name args).Meets (fun _ => True) (EvalError.MissesOnly P)

mutual

/-- An expression misses only what it exposes, and declares what it is said to. -/
theorem evalExpr_exposed (hcalls : calls.MissOnly P) :
    ∀ (e : Expr) (known : List String) (frame : Frame), frame.Has known →
      (∀ x ∈ e.exposes known, P x) →
        (evalExpr calls e frame).Meets (fun r => r.2.Has (known ++ e.declares))
          (EvalError.MissesOnly P)
  | .literal n value => by
      intro known frame hframe _
      refine .literal (meets_noted _) fun _ _ => ?_
      simpa [Expr.declares] using hframe
  | .declare n v => by
      intro known frame hframe _
      exact .declare (meets_noted _) fun _ _ => hframe.declare v.name (.zero v.type)
  | .var n name => by
      intro known frame hframe hexposed
      have hlookup : (Run.ofExcept (frame.lookup name) : Run σ Nat).Meets (fun _ => True)
          (EvalError.MissesOnly P) := by
        refine .ofExcept (fun _ _ => trivial) ?_
        intro e he x hx
        obtain ⟨hslot, rfl⟩ := Frame.lookup_eq_error.1 he
        cases hx
        refine hexposed name ?_
        have hmissing : name ∉ frame.names := by
          rw [← Frame.slot?_isSome, hslot]
          simp
        rw [Expr.exposes, if_neg fun hknown => hmissing (hframe name hknown)]
        exact List.mem_singleton.2 rfl
      refine .var (meets_noted _) hlookup fun _ _ _ _ => ?_
      simpa [Expr.declares] using hframe
  | .assign n left right => by
      intro known frame hframe hexposed
      rw [Expr.exposes, List.forall_mem_append] at hexposed
      refine .assign (V := fun _ _ => True) (meets_noted _)
        (evalExpr_exposed hcalls right known frame hframe hexposed.1)
        (fun r _ => .ofExcept (fun _ _ => trivial) fun _ => valueOf_error)
        (fun r _ hr _ => evalExpr_exposed hcalls left _ r.2 hr hexposed.2) fun r v l _ _ hl => ?_
      refine .ofExcept (fun after hafter => ?_) fun _ => assign_error
      rw [Expr.declares, ← List.append_assoc]
      exact hl.assign hafter
  | .call n name args => by
      intro known frame hframe hexposed
      refine .call (meets_noted _) (evalArguments_exposed hcalls args known frame hframe hexposed)
        fun r hr => ?_
      exact (hcalls name r.1).imp fun _ _ => hr
  | .binary n op left right => by
      intro known frame hframe hexposed
      rw [Expr.exposes, List.forall_mem_append] at hexposed
      refine .binary (meets_noted _) (evalExpr_exposed hcalls left known frame hframe hexposed.1)
        (fun l hl => evalExpr_exposed hcalls right _ l.2 hl hexposed.2) fun l r _ hr => ?_
      refine .ofExcept (fun _ _ => ?_) fun _ he => (BinaryOp.apply_error he).missesOnly
      rw [Expr.declares, ← List.append_assoc]
      exact hr
  | .unary n op operand => by
      intro known frame hframe hexposed
      refine .unary (meets_noted _) (evalExpr_exposed hcalls operand known frame hframe hexposed)
        fun r hr => ?_
      exact .ofExcept (fun _ _ => hr) fun _ he => (UnaryOp.apply_error he).missesOnly
  | .cast n operand => by
      intro known frame hframe hexposed
      refine .cast (meets_noted _) (evalExpr_exposed hcalls operand known frame hframe hexposed)
        fun _ r _ hr => ?_
      exact .ofExcept (fun _ _ => hr) fun _ => cast_error

/-- The same for the arguments of a call. -/
theorem evalArguments_exposed (hcalls : calls.MissOnly P) :
    ∀ (es : List Expr) (known : List String) (frame : Frame), frame.Has known →
      (∀ x ∈ argumentsExpose known es, P x) →
        (evalArguments calls es frame).Meets (fun r => r.2.Has (known ++ argumentsDeclare es))
          (EvalError.MissesOnly P)
  | [] => by
      intro known frame hframe _
      refine .noArguments ?_
      simpa [argumentsDeclare] using hframe
  | e :: es => by
      intro known frame hframe hexposed
      rw [argumentsExpose, List.forall_mem_append] at hexposed
      refine .arguments (V := fun _ _ => True)
        (evalExpr_exposed hcalls e known frame hframe hexposed.1)
        (fun r _ => .ofExcept (fun _ _ => trivial) fun _ => valueOf_error) fun r _ hr _ => ?_
      refine (evalArguments_exposed hcalls es _ r.2 hr hexposed.2).imp fun rs hrs => ?_
      rw [argumentsDeclare, ← List.append_assoc]
      exact hrs

end

/-! ## Statements -/

/-- If execution goes on, it does so with what the text says is known. -/
def GoesOnWith (leaves : Option (List String)) (r : Stop × Frame) : Prop :=
  r.1 = none → ∃ known, leaves = some known ∧ r.2.Has known

/-- Where fewer names are asked for, statements still go on with them. -/
theorem GoesOnWith.weaken {leaves other : Option (List String)} {r : Stop × Frame}
    (h : GoesOnWith leaves r)
    (hle : ∀ k, leaves = some k → ∃ known, other = some known ∧ ∀ x ∈ known, x ∈ k) :
    GoesOnWith other r := by
  intro hstop
  obtain ⟨k, hk, hframe⟩ := h hstop
  obtain ⟨known, hknown, hsubset⟩ := hle k hk
  exact ⟨known, hknown, fun x hx => hframe x (hsubset x hx)⟩

/-- The same for a condition. -/
theorem evalCondition_exposed (hcalls : calls.MissOnly P) (e : Expr) (known : List String)
    (frame : Frame) (hframe : frame.Has known) (hexposed : ∀ x ∈ e.exposes known, P x) :
    (evalCondition calls e frame).Meets (fun r => r.2.Has (known ++ e.declares))
      (EvalError.MissesOnly P) := by
  refine .condition (evalExpr_exposed hcalls e known frame hframe hexposed) fun r hr => ?_
  exact .ofExcept (fun _ _ => hr) fun _ he => (Value.condition_error he).missesOnly

mutual

/-- A statement misses only what it exposes, and goes on with what it leaves known. -/
theorem execStmt_exposed (hcalls : calls.MissOnly P) (rounds : Nat) :
    ∀ (s : Stmt) (known : List String) (frame : Frame), frame.Has known →
      (∀ x ∈ s.exposes known, P x) →
        (execStmt calls rounds s frame).Meets (GoesOnWith (s.leaves known))
          (EvalError.MissesOnly P)
  | .expression _ e => by
      intro known frame hframe hexposed
      exact .expression (evalExpr_exposed hcalls e known frame hframe hexposed)
        fun r hr _ => ⟨_, rfl, hr⟩
  | .ret _ none => by
      intro known frame _ _
      exact .returnNothing fun hstop => nomatch hstop
  | .ret _ (some e) => by
      intro known frame hframe hexposed
      refine .returnValue (evalExpr_exposed hcalls e known frame hframe hexposed) fun r _ => ?_
      exact .ofExcept (fun _ _ hstop => nomatch hstop) fun _ => valueOf_error
  | .ifThen _ condition body => by
      intro known frame hframe hexposed
      rw [Stmt.exposes, List.forall_mem_append] at hexposed
      refine .ifThen (evalCondition_exposed hcalls condition known frame hframe hexposed.1)
        (fun tested hr => ?_) fun tested hr _ => ⟨_, rfl, hr⟩
      refine (execStmts_exposed hcalls rounds body _ tested hr hexposed.2).imp ?_
      intro r hgoes
      exact hgoes.weaken fun k hk => ⟨_, rfl, subset_bodyLeaves body hk⟩
  | .ifElse _ condition body otherwise => by
      intro known frame hframe hexposed
      rw [Stmt.exposes, List.forall_mem_append, List.forall_mem_append] at hexposed
      refine .ifElse (evalCondition_exposed hcalls condition known frame hframe hexposed.1)
        (fun tested hr => ?_) fun tested hr => ?_
      · refine (execStmts_exposed hcalls rounds body _ tested hr hexposed.2.1).imp ?_
        intro r hgoes
        exact hgoes.weaken fun k hk => meet_subset (.inl hk)
      · refine (execStmt_exposed hcalls rounds otherwise _ tested hr hexposed.2.2).imp ?_
        intro r hgoes
        exact hgoes.weaken fun k hk => meet_subset (.inr hk)
  | .loop _ condition body => by
      intro known frame hframe hexposed
      rw [Stmt.exposes, List.forall_mem_append] at hexposed
      refine .whileTrue (.loop (I := fun frame => frame.Has known)
        (J := fun frame => frame.Has (known ++ condition.declares)) ?_ ?_ ?_ rounds frame hframe)
      · intro frame' hframe'
        exact evalCondition_exposed hcalls condition known frame' hframe' hexposed.1
      · intro frame' hframe'
        refine (execStmts_exposed hcalls rounds body _ frame' hframe' hexposed.2).imp ?_
        intro r hgoes
        refine ⟨?_, fun hstop => fun h => (hstop h).elim⟩
        intro hstop x hx
        obtain ⟨k, hk, hframe''⟩ := hgoes hstop
        exact hframe'' x (subset_bodyLeaves body hk x (List.mem_append_left _ hx))
      · intro frame' hframe' _
        exact ⟨_, rfl, hframe'⟩
  | .block _ body => by
      intro known frame hframe hexposed
      exact .block (execStmts_exposed hcalls rounds body known frame hframe hexposed)

/-- The same for a list of statements. -/
theorem execStmts_exposed (hcalls : calls.MissOnly P) (rounds : Nat) :
    ∀ (ss : List Stmt) (known : List String) (frame : Frame), frame.Has known →
      (∀ x ∈ bodyExposes known ss, P x) →
        (execStmts calls rounds ss frame).Meets (GoesOnWith (bodyLeaves known ss))
          (EvalError.MissesOnly P)
  | [] => by
      intro known frame hframe _
      exact .noStatements fun _ => ⟨known, rfl, hframe⟩
  | s :: ss => by
      intro known frame hframe hexposed
      rw [bodyExposes, List.forall_mem_append] at hexposed
      refine .statements (execStmt_exposed hcalls rounds s known frame hframe hexposed.1)
        (fun _ _ _ hstop => nomatch hstop) fun after hgoes => ?_
      obtain ⟨middle, hmiddle, hafter⟩ := hgoes rfl
      rw [bodyLeaves, hmiddle]
      rw [hmiddle] at hexposed
      exact execStmts_exposed hcalls rounds ss middle after hafter hexposed.2

end

/-! ## Calls -/

/-- What a host call fails with is no missing variable. -/
theorem EvalError.IsHostError.missesOnly {e : EvalError} (h : e.IsHostError) :
    e.MissesOnly P := by
  intro x hx
  subst hx
  exact h.elim

section

variable {setting : Setting σ}

/-- Calls miss only what functions with a body expose, when these are entered so. -/
theorem dispatch_exposed {enter : Function → List Value → Run σ Value}
    (henter : ∀ f ∈ setting.program.functions, f.builtin = false → ∀ args,
      f.arguments.length = args.length →
        (enter f args).Meets (fun _ => True) (EvalError.MissesOnly P)) :
    (setting.dispatch enter).MissOnly P := by
  intro name args
  unfold Setting.dispatch
  by_cases hname : name = syscallName
  · rw [if_pos hname]
    exact (meets_systemCall args).mono (fun _ _ => trivial) fun _ he => he.isHostError.missesOnly
  · rw [if_neg hname]
    cases hfunction : setting.program.function? name with
    | none => exact .fail fun x hx => nomatch hx
    | some f =>
        have hf : f ∈ setting.program.functions := List.mem_of_find?_eq_some hfunction
        by_cases hlength : f.arguments.length = args.length
        · dsimp only
          rw [if_neg (fun hne : f.arguments.length ≠ args.length => hne hlength)]
          by_cases hbuiltin : f.builtin = true
          · rw [if_pos hbuiltin]
            exact (meets_callBuiltin f args).mono (fun _ _ => trivial) fun _ he => he.missesOnly
          · rw [if_neg hbuiltin]
            exact henter f hf (Bool.eq_false_iff.2 hbuiltin) args hlength
        · dsimp only
          rw [if_pos hlength]
          exact .fail fun x hx => nomatch hx

/-- A function that is entered misses only what functions expose, however deep calls
may still nest. -/
theorem enter_exposed
    (hexposed : ∀ f ∈ setting.program.functions, f.builtin = false → ∀ x ∈ f.exposes, P x)
    (allowed : Nat) :
    ∀ f ∈ setting.program.functions, f.builtin = false → ∀ args,
      f.arguments.length = args.length →
        (setting.enter allowed f args).Meets (fun _ => True) (EvalError.MissesOnly P) := by
  induction allowed with
  | zero =>
      intro f _ _ args _
      rw [Setting.enter]
      exact .fail fun x hx => nomatch hx
  | succ allowed ih =>
      intro f hf hblock args hlength
      rw [Setting.enter]
      have htell : (setting.host.tell (.entered f.name (maxCallDepth - allowed))).Meets
          (fun _ => True) (EvalError.MissesOnly P) := fun _ => trivial
      refine htell.bind fun _ _ => ?_
      have hframe : (Frame.ofArguments f.arguments args .empty).Has (f.arguments.map Var.name) :=
        Frame.ofArguments_has hlength [] .empty fun _ hx => nomatch hx
      unfold Setting.body
      refine (execStmts_exposed (dispatch_exposed ih) setting.rounds f.body _ _ hframe
        (hexposed f hf hblock)).bind ?_
      intro r _
      obtain ⟨stop, frame⟩ := r
      cases stop with
      | some v => exact .answer trivial
      | none =>
          dsimp only
          split
          · exact .answer trivial
          · exact .fail fun x hx => nomatch hx

/-- **Nothing else is missing.**  A call that fails for a missing variable has entered
a function that exposes it. -/
theorem call_exposed {name x : String} {args : List Value} {state final : σ}
    (h : setting.call name args state = .failed (.unknownVariable x) final) :
    ∃ f ∈ setting.program.functions, f.builtin = false ∧ x ∈ f.exposes := by
  have hmisses : setting.call.MissOnly
      (fun x => ∃ f ∈ setting.program.functions, f.builtin = false ∧ x ∈ f.exposes) :=
    dispatch_exposed (enter_exposed (fun f hf hblock x hx => ⟨f, hf, hblock, hx⟩) maxCallDepth)
  exact (hmisses name args).of_failed h x rfl

end

end Slate
