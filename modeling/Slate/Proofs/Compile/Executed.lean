import Slate.Proofs.Compile.Expressions
import Slate.Proofs.Compile.Statements

/-!
# Code of statements follows their execution

The code of a statement leads behind itself when the statement goes on, and to the
epilogue of its function, with the value in `eax`, when the statement returns
(`Executed`).  The epilogue itself is left to the caller of these lemmas.  As for
expressions, there is a lemma for every form of statement.

Conditions leave 0 or 1 in `eax`, so the test of the low byte decides.  A loop is
followed round by round: the jump back leads to the label it started from, in a state
that holds the frame after the round.
-/

namespace Slate

variable {a : Assembly} {loading : Loading a.listing} {l : Layout} {env : Env} {final : List Var}
  {calls : Calls ByteArray} {frame : Frame} {m m₁ m₂ : Machine} {epilogue : List Instr}

/-! ## States after statements -/

/-- The state after the code of a statement. -/
structure Executed (loading : Loading a.listing) (l : Layout) (epilogue : List Instr) (m : Machine)
    (count : Nat) (r : Stop × Frame) (m' : Machine) : Prop where
  stack : m'.registers .esp = m.registers .esp
  holds : Holds loading l r.2 m'
  keeps : Keeps loading (m.registers .esp).toNat l.Own m.memory m'.memory
  goesOn : r.1 = none → m'.line = m.line + count
  returns : ∀ v, r.1 = some v →
    Encodes loading v.data (m'.registers .eax) ∧ Stands a.listing.lines m'.line (codeLines epilogue)

/-- Code in front of a statement that keeps the stack pointer. -/
theorem Executed.behind {r : Stop × Frame} {count total : Nat}
    (h : Executed loading l epilogue m₁ count r m₂)
    (hline : r.1 = none → m₁.line + count = m.line + total)
    (hstack : m₁.registers .esp = m.registers .esp)
    (hkeeps : Keeps loading (m.registers .esp).toNat l.Own m.memory m₁.memory) :
    Executed loading l epilogue m total r m₂ := by
  rw [← hstack] at hkeeps
  refine ⟨h.stack.trans hstack, h.holds, hstack ▸ hkeeps.trans h.keeps, ?_, h.returns⟩
  intro hnone
  rw [h.goesOn hnone, hline hnone]

/-- A state that holds the frame and has gone on. -/
theorem Holds.executed (hholds : Holds loading l frame m₁) {count : Nat}
    (hline : m₁.line = m.line + count) (hstack : m₁.registers .esp = m.registers .esp)
    (hkeeps : Keeps loading (m.registers .esp).toNat l.Own m.memory m₁.memory) :
    Executed loading l epilogue m count (none, frame) m₁ :=
  ⟨hstack, hholds, hkeeps, fun _ => hline, by simp⟩

/-- A state with the same registers and memory holds the same frame. -/
theorem Holds.same (h : Holds loading l frame m) (hregisters : m₁.registers = m.registers)
    (hmemory : m₁.memory = m.memory) : Holds loading l frame m₁ := by
  obtain ⟨hbase, hlow, hhigh, hnames, hcells, hloaded⟩ := h
  rw [← hregisters] at hbase hlow hhigh
  rw [← hmemory] at hcells hloaded
  exact ⟨hbase, hlow, hhigh, hnames, hcells, hloaded⟩

/-- What stands behind a statement is executed if the statement goes on. -/
theorem Executed.andThen {r : Stop × Frame} {count total : Nat}
    (h : Executed loading l epilogue m count r m₁)
    (hrest : r.1 = none → loading.Reaches
      (fun m' => m'.output = m₁.output ∧ m' = { m₁ with line := m.line + total }) m₁) :
    loading.Reaches
      (fun m' => m'.output = m₁.output ∧ Executed loading l epilogue m total r m') m₁ := by
  cases hstop : r.1 with
  | some v =>
      refine .here ⟨rfl, h.stack, h.holds, h.keeps, ?_, h.returns⟩
      intro hnone
      rw [hstop] at hnone
      cases hnone
  | none =>
      refine .after (hrest hstop) fun m' hm' => ?_
      obtain ⟨houtput, rfl⟩ := hm'
      refine .here ⟨houtput, h.stack, h.holds.same rfl rfl, h.keeps, fun _ => rfl, ?_⟩
      intro v hv
      rw [hstop] at hv
      cases hv

/-! ## Conditions -/

/-- The state after the code that tests a condition. -/
structure Tested (loading : Loading a.listing) (l : Layout) (m : Machine) (count target : Nat)
    (r : Bool × Frame) (m' : Machine) : Prop where
  line : m'.line = if r.1 then m.line + count else target
  stack : m'.registers .esp = m.registers .esp
  holds : Holds loading l r.2 m'
  keeps : Keeps loading (m.registers .esp).toNat l.Own m.memory m'.memory

/-- **Conditions.**  The code goes on if the condition is true, and jumps otherwise. -/
theorem evalCondition_follows (h : InBody loading l env final calls) {before after : List Var}
    {e : Expr} (htyped : TypedExpr env before e .bool after) (hkept : after <+: final)
    {s s' : CompileState} {code : List Instr} (hs : s.Tracks env.arguments before)
    (hcode : compileExpr s e = .ok (code, s')) (hliterals : s'.literals <+: a.literals)
    (hframe : frame.Fits env final) (hholds : Holds loading l frame m) {label : Label} {n : Nat}
    (hlabel : a.listing.target? label = some n)
    (hstands : Stands a.listing.lines m.line (codeLines (code ++ unlessTrue label))) :
    loading.Follows m (Tested loading l m (code ++ unlessTrue label).length n)
      (evalCondition calls e frame m.output) := by
  rw [stands_code] at hstands
  unfold evalCondition
  refine (evalExpr_follows h htyped hkept hs hcode hliterals hframe hholds hstands.1).bind
    fun r m₁ hrun h₁ => ?_
  have hfits := (h.denotes htyped hkept hframe hrun).2.fits rfl
  obtain ⟨⟨type, data⟩, frame₁⟩ := r
  obtain ⟨b, rfl⟩ := hfits.2.eq_bool
  have heax := (h₁.value.encodes hfits.2).bool_eq
  have hcondition : Value.condition ⟨type, .bool b⟩ = .ok b := rfl
  refine .known hcondition ?_
  have htest := hstands.2
  rw [← h₁.line] at htest
  have hzero : Condition.notEqual.holds (.ofByte (m₁.byte .al - UInt8.ofNat 1)) = !b := by
    unfold Machine.byte
    rw [show Machine.wide .al = .eax from rfl, heax]
    cases b <;> decide
  have hjump : loading.execute
      { m₁ with
        line := m₁.line + 1
        flags := some (.ofByte (m₁.byte .al - UInt8.ofNat 1)) } (.jumpIf .notEqual label) = _ :=
    Loading.execute_jumpIf rfl hlabel
  rw [hzero] at hjump
  refine .next (Loading.step_instr htest) (.next ((Loading.step_instr htest.2).trans hjump) ?_)
  have hcount : m₁.line + 1 + 1 = m.line + (code ++ unlessTrue label).length := by
    rw [h₁.line, List.length_append]
    rfl
  cases b with
  | true => exact .answer ⟨hcount, h₁.stack, h₁.holds.same rfl rfl, h₁.keeps⟩ rfl
  | false => exact .answer ⟨rfl, h₁.stack, h₁.holds.same rfl rfl, h₁.keeps⟩ rfl

/-! ## Loops -/

/-- **Loops.**  A loop whose code starts at line `n`, with `test` lines for its condition
and `round` lines for its body, and with `I` holding of the frame throughout. -/
theorem follows_loop {condition : Frame → Run ByteArray (Bool × Frame)}
    {body : Frame → Run ByteArray (Stop × Frame)} {I : Frame → Prop} {n test round : Nat}
    {start ending : Label} {rest : List Line}
    (hstart : Stands a.listing.lines n (.label start :: rest))
    (htarget : a.listing.target? start = some n)
    (hback : Stands a.listing.lines (n + 1 + test + round) [.of (.jump start), .label ending])
    (htest : ∀ frame (m : Machine), I frame → Holds loading l frame m → m.line = n + 1 →
      loading.Follows m (Tested loading l m test (n + 1 + test + round + 1))
        (condition frame m.output))
    (htested : ∀ frame state r final, I frame → condition frame state = .done r final → I r.2)
    (hround : ∀ frame (m : Machine), I frame → Holds loading l frame m → m.line = n + 1 + test →
      loading.Follows m (Executed loading l epilogue m round) (body frame m.output))
    (hrounded : ∀ frame state r final, I frame → body frame state = .done r final → I r.2)
    (rounds : Nat) : ∀ {frame : Frame} {m : Machine}, I frame → Holds loading l frame m →
      m.line = n → loading.Follows m (Executed loading l epilogue m (test + round + 3))
        (runLoop condition body rounds frame m.output) := by
  induction rounds with
  | zero =>
      intro frame m _ _ _
      simp only [runLoop]
      trivial
  | succ rounds ih =>
      intro frame m hI hholds hline
      rw [runLoop_succ]
      rw [← hline] at hstart
      have hin : m.advance.line = n + 1 := by
        rw [Machine.advance_line, hline]
      refine .next (Loading.step_label hstart) ?_
      refine (htest frame m.advance hI (hholds.same rfl rfl) hin).bind fun r m₁ hrun h₁ => ?_
      have hI₁ := htested _ _ _ _ hI hrun
      obtain ⟨truth, frame₁⟩ := r
      cases truth with
      | false =>
          have hout : Stands a.listing.lines m₁.line [.label ending] := by
            rw [h₁.line]
            exact hback.2
          have hholds₁ : Holds loading l frame₁ m₁.advance := h₁.holds.same rfl rfl
          refine .next (Loading.step_label hout) (.answer ?_ rfl)
          refine hholds₁.executed ?_ h₁.stack h₁.keeps
          rw [Machine.advance_line, h₁.line, hline]
          simp only [Bool.false_eq_true, if_false]
          omega
      | true =>
          have hbody : m₁.line = n + 1 + test := by
            rw [h₁.line, hin]
            rfl
          refine (hround frame₁ m₁ hI₁ h₁.holds hbody).bind fun q m₂ hrun₂ h₂ => ?_
          have hI₂ := hrounded _ _ _ _ hI₁ hrun₂
          have hstack₂ : m₂.registers .esp = m.registers .esp := h₂.stack.trans h₁.stack
          have hkeeps₂ := h₂.keeps
          rw [h₁.stack] at hkeeps₂
          have hkeeps := h₁.keeps.trans hkeeps₂
          obtain ⟨stop, frame₂⟩ := q
          cases stop with
          | some v =>
              exact .answer ⟨hstack₂, h₂.holds, hkeeps, by simp, h₂.returns⟩ rfl
          | none =>
              have hjump : Stands a.listing.lines m₂.line [.of (.jump start), .label ending] := by
                rw [h₂.goesOn rfl, hbody]
                exact hback
              refine .next ((Loading.step_instr hjump).trans (Loading.execute_jump htarget)) ?_
              have hholds₂ : Holds loading l frame₂ { m₂ with line := n } := h₂.holds.same rfl rfl
              refine (ih hI₂ hholds₂ rfl).mono fun x m₃ h₃ => ?_
              exact h₃.behind (fun _ => by rw [hline]) hstack₂ hkeeps

/-! ## Statements -/

/-- The code of a statement, compiled anywhere in a function and started in any state that
holds a frame, follows the execution in this frame. -/
def FollowsStmt (loading : Loading a.listing) (l : Layout) (env : Env) (final : List Var)
    (calls : Calls ByteArray) (f : Function) (rounds : Nat) (before : List Var) (stmt : Stmt)
    (after : List Var) : Prop :=
  after <+: final → ∀ ⦃s s' : CompileState⦄ ⦃lines : List Line⦄, s.Tracks env.arguments before →
    compileStmt f s stmt = .ok (lines, s') → s'.literals <+: a.literals →
      ∀ ⦃frame : Frame⦄ ⦃m : Machine⦄, frame.Fits env final → Holds loading l frame m →
        Stands a.listing.lines m.line lines →
          loading.Follows m (Executed loading l f.epilogue m lines.length)
            (execStmt calls rounds stmt frame m.output)

/-- The code of statements follows their execution. -/
def FollowsStmts (loading : Loading a.listing) (l : Layout) (env : Env) (final : List Var)
    (calls : Calls ByteArray) (f : Function) (rounds : Nat) (before : List Var)
    (stmts : List Stmt) (after : List Var) : Prop :=
  after <+: final → ∀ ⦃s s' : CompileState⦄ ⦃lines : List Line⦄, s.Tracks env.arguments before →
    compileStmts f s stmts = .ok (lines, s') → s'.literals <+: a.literals →
      ∀ ⦃frame : Frame⦄ ⦃m : Machine⦄, frame.Fits env final → Holds loading l frame m →
        Stands a.listing.lines m.line lines →
          loading.Follows m (Executed loading l f.epilogue m lines.length)
            (execStmts calls rounds stmts frame m.output)

/-- A statement whose code ends in a label. -/
theorem Executed.label {r : Stop × Frame} {count : Nat} {ending : Label}
    (h : Executed loading l epilogue m count r m₁)
    (hlabel : Stands a.listing.lines (m.line + count) [.label ending]) :
    loading.Reaches (fun m' => m'.output = m₁.output ∧
      Executed loading l epilogue m (count + 1) r m') m₁ := by
  refine h.andThen fun hnone => ?_
  have hline := h.goesOn hnone
  rw [← hline] at hlabel
  refine .next (Loading.step_label hlabel) (.here ⟨rfl, ?_⟩)
  unfold Machine.advance
  rw [hline, Nat.add_assoc]

section

variable {f : Function} {rounds : Nat} {before between middle after : List Var} {span : Span}
  {e : Expr} {body : List Stmt}

/-- An expression by itself follows its evaluation. -/
theorem InBody.expression_follows (h : InBody loading l env final calls) {t : Ty}
    (value : TypedExpr env before e t after) :
    FollowsStmt loading l env final calls f rounds before (.expression span e) after := by
  intro hkept s s' lines hs hlines hliterals frame m hframe hholds hstands
  rw [execStmt]
  obtain ⟨code, s₁, hcode, _, _⟩ := compileExpr_ok value s hs
  rw [compileStmt_expression hcode] at hlines
  cases hlines
  refine (evalExpr_follows h value hkept hs hcode hliterals hframe hholds
    hstands).bind fun r m₁ _ h₁ => ?_
  rw [length_codeLines]
  exact .answer (h₁.holds.executed h₁.line h₁.stack h₁.keeps) rfl

/-- So does a return, and it leaves the function. -/
theorem InBody.return_follows (h : InBody loading l env final calls)
    (hresult : env.result.isReference = false) (value : TypedExpr env before e env.result after) :
    FollowsStmt loading l env final calls f rounds before (.ret span (some e)) after := by
  intro hkept s s' lines hs hlines hliterals frame m hframe hholds hstands
  rw [execStmt]
  obtain ⟨code, s₁, hcode, _, _⟩ := compileExpr_ok value s hs
  rw [compileStmt_ret hcode] at hlines
  cases hlines
  rw [stands_code] at hstands
  refine (evalExpr_follows h value hkept hs hcode hliterals hframe hholds
    hstands.1).bind fun r m₁ hrun h₁ => ?_
  have hfits := (h.denotes value hkept hframe hrun).2.fits hresult
  refine .known (Frame.valueOf_eq_ok hfits) (.answer ?_ rfl)
  refine ⟨h₁.stack, h₁.holds, h₁.keeps, by simp, ?_⟩
  intro v hv
  cases hv
  exact ⟨h₁.value.encodes hfits.2, h₁.line ▸ hstands.2⟩

/-- So does a conditional, where its test and its body do. -/
theorem InBody.ifThen_follows (h : InBody loading l env final calls)
    (test : TypedExpr env before e .bool between) (branch : TypedStmts env between body after)
    (hbranch : FollowsStmts loading l env final calls f rounds between body after) :
    FollowsStmt loading l env final calls f rounds before (.ifThen span e body) after := by
  intro hkept s s' lines hs hlines hliterals frame m hframe hholds hstands
  rw [execStmt]
  obtain ⟨code, s₁, hcode, hs₁, _⟩ := compileExpr_ok test s hs
  obtain ⟨bodyLines, s₂, hbody, _, hext₂, _⟩ := compileStmts_ok f branch (s₁.label 2) hs₁
  rw [compileStmt_ifThen hcode hbody] at hlines
  cases hlines
  rw [stands_append, stands_append, List.length_append, length_codeLines] at hstands
  obtain ⟨⟨htest, hinside⟩, hending⟩ := hstands
  have hkept₁ := branch.locals_kept.trans hkept
  have htarget := h.unambiguous.target?_eq hending.1
  rw [List.length_append, List.length_append, length_codeLines]
  refine (evalCondition_follows h test hkept₁ hs hcode (hext₂.literals.trans hliterals) hframe
    hholds htarget htest).bind fun r m₁ hrun h₁ => ?_
  have hframe₁ := (evalCondition_safe h.safe test (h.distinct.grows hkept₁) frame
    hframe).of_done hrun
  obtain ⟨truth, frame₁⟩ := r
  have hline : m₁.line = _ := h₁.line
  cases truth with
  | true =>
      rw [if_pos rfl] at hline
      refine (hbranch hkept (hs₁.label 2) hbody hliterals hframe₁ h₁.holds
        (hline ▸ hinside)).andThen fun q m₂ h₂ => ?_
      exact (h₂.behind (fun _ => by rw [hline, Nat.add_assoc]) h₁.stack h₁.keeps).label hending
  | false =>
      rw [if_neg Bool.false_ne_true] at hline
      have hholds₁ : Holds loading l frame₁ m₁.advance := h₁.holds.same rfl rfl
      refine .next (Loading.step_label (hline ▸ hending)) (.answer ?_ rfl)
      refine hholds₁.executed ?_ h₁.stack h₁.keeps
      rw [Machine.advance_line, hline, Nat.add_assoc]
      rfl

/-- So does one with an alternative. -/
theorem InBody.ifElse_follows (h : InBody loading l env final calls) {otherwise : Stmt}
    (test : TypedExpr env before e .bool between) (branch : TypedStmts env between body middle)
    (other : TypedStmt env middle otherwise after)
    (hbranch : FollowsStmts loading l env final calls f rounds between body middle)
    (hother : FollowsStmt loading l env final calls f rounds middle otherwise after) :
    FollowsStmt loading l env final calls f rounds before (.ifElse span e body otherwise)
      after := by
  intro hkept s s' lines hs hlines hliterals frame m hframe hholds hstands
  rw [execStmt]
  obtain ⟨code, s₁, hcode, hs₁, _⟩ := compileExpr_ok test s hs
  obtain ⟨bodyLines, s₂, hbody, hs₂, hext₂, _⟩ := compileStmts_ok f branch (s₁.label 2) hs₁
  obtain ⟨rest, s₃, hrest, _, hext₃, _⟩ := compileStmt_ok f other s₂ hs₂
  rw [compileStmt_ifElse hcode hbody hrest] at hlines
  cases hlines
  rw [stands_append, stands_append, stands_append, stands_append] at hstands
  simp only [List.length_append, length_codeLines, List.length_cons, List.length_nil] at hstands ⊢
  obtain ⟨⟨⟨⟨htest, hinside⟩, hskip⟩, houtside⟩, hending⟩ := hstands
  have hkept₂ := other.locals_kept.trans hkept
  have hkept₁ := branch.locals_kept.trans hkept₂
  have htarget := h.unambiguous.target?_eq hskip.2.1
  have hend := h.unambiguous.target?_eq hending.1
  refine (evalCondition_follows h test hkept₁ hs hcode
    (hext₂.literals.trans (hext₃.literals.trans hliterals)) hframe hholds htarget htest).bind
    fun r m₁ hrun h₁ => ?_
  have hframe₁ := (evalCondition_safe h.safe test (h.distinct.grows hkept₁) frame
    hframe).of_done hrun
  obtain ⟨truth, frame₁⟩ := r
  have hline : m₁.line = _ := h₁.line
  simp only [List.length_append] at hline
  cases truth with
  | true =>
      rw [if_pos rfl] at hline
      refine (hbranch hkept₂ (hs₁.label 2) hbody (hext₃.literals.trans hliterals) hframe₁ h₁.holds
        (hline ▸ hinside)).andThen fun q m₂ h₂ => ?_
      refine (h₂.behind (fun _ => by rw [hline, Nat.add_assoc]) h₁.stack h₁.keeps).andThen
        fun hnone => ?_
      have hjump : Stands a.listing.lines m₂.line [.of (.jump (.control f.name .ifEnd s₁.labels)),
          .label (.control f.name .ifElse (s₁.labels + 1))] := by
        rw [h₂.goesOn hnone, hline, Nat.add_assoc]
        exact hskip
      refine .instr hjump (Loading.execute_jump hend) (.label hending (.here ⟨rfl, ?_⟩))
      rfl
  | false =>
      rw [if_neg Bool.false_ne_true] at hline
      have hholds₁ : Holds loading l frame₁ m₁.advance := h₁.holds.same rfl rfl
      have hin : m₁.advance.line = _ := congrArg (· + 1) hline
      refine .next (Loading.step_label (hline ▸ hskip.2)) ?_
      refine (hother hkept hs₂ hrest hliterals hframe₁ hholds₁ (hin ▸ houtside)).andThen
        fun q m₂ h₂ => ?_
      refine (h₂.behind (fun _ => ?_) h₁.stack h₁.keeps).label hending
      rw [hin]
      omega

/-- So does a loop, by induction on its rounds. -/
theorem InBody.loop_follows (h : InBody loading l env final calls)
    (hresult : env.result.isReference = false) (test : TypedExpr env before e .bool between)
    (inner : TypedStmts env between body after)
    (hinner : FollowsStmts loading l env final calls f rounds between body after) :
    FollowsStmt loading l env final calls f rounds before (.loop span e body) after := by
  intro hkept s s' lines hs hlines hliterals frame m hframe hholds hstands
  rw [execStmt]
  obtain ⟨code, s₁, hcode, hs₁, _⟩ := compileExpr_ok test (s.label 2) hs
  obtain ⟨round, s₂, hround, _, hext₂, _⟩ := compileStmts_ok f inner s₁ hs₁
  rw [compileStmt_loop hcode hround] at hlines
  cases hlines
  rw [stands_append, stands_append, stands_append] at hstands
  simp only [List.length_append, length_codeLines, List.length_cons, List.length_nil,
    Nat.zero_add, ← Nat.add_assoc] at hstands ⊢
  obtain ⟨⟨⟨hstart, htest⟩, hbody⟩, hback⟩ := hstands
  have hkept₁ := inner.locals_kept.trans hkept
  have hliterals₁ := hext₂.literals.trans hliterals
  have hcount : ∀ k, k + code.length +
      (unlessTrue (.control f.name .whileEnd (s.labels + 1))).length =
        k + (code ++ unlessTrue (.control f.name .whileEnd (s.labels + 1))).length := by
    intro k
    rw [List.length_append, Nat.add_assoc]
  rw [hcount] at hbody hback ⊢
  have htarget := h.unambiguous.target?_eq hback.2.1
  have htotal : ∀ x y : Nat, 1 + x + y + 1 + 1 = x + y + 3 := by
    intro x y
    omega
  rw [htotal]
  refine follows_loop (I := fun frame => frame.Fits env final) hstart
    (h.unambiguous.target?_eq hstart.1) hback ?_ ?_ ?_ ?_ rounds hframe hholds rfl
  · intro frame' m' hI hholds' hline
    exact evalCondition_follows h test hkept₁ (hs.label 2) hcode hliterals₁ hI hholds' htarget
      (hline ▸ htest)
  · intro frame' state r last hI hrun
    exact (evalCondition_safe h.safe test (h.distinct.grows hkept₁) frame' hI).of_done hrun
  · intro frame' m' hI hholds' hline
    exact hinner hkept hs₁ hround hliterals hI hholds' (hline ▸ hbody)
  · intro frame' state r last hI hrun
    exact ((execStmts_safe h.safe hresult rounds inner (h.distinct.grows hkept) frame'
      hI).of_done hrun).1

/-- So do two statements after each other. -/
theorem InBody.statements_follow (h : InBody loading l env final calls)
    (hresult : env.result.isReference = false) {stmt : Stmt} {stmts : List Stmt}
    (first : TypedStmt env before stmt between) (others : TypedStmts env between stmts after)
    (hfirst : FollowsStmt loading l env final calls f rounds before stmt between)
    (hothers : FollowsStmts loading l env final calls f rounds between stmts after) :
    FollowsStmts loading l env final calls f rounds before (stmt :: stmts) after := by
  intro hkept s s' lines hs hlines hliterals frame m hframe hholds hstands
  rw [execStmts]
  obtain ⟨firstLines, s₁, hfirstLines, hs₁, _⟩ := compileStmt_ok f first s hs
  obtain ⟨rest, s₂, hrest, _, hext₂, _⟩ := compileStmts_ok f others s₁ hs₁
  rw [compileStmts_cons hfirstLines hrest] at hlines
  cases hlines
  rw [stands_append] at hstands
  have hkept₁ := others.locals_kept.trans hkept
  refine (hfirst hkept₁ hs hfirstLines (hext₂.literals.trans hliterals) hframe hholds
    hstands.1).bind fun r m₁ hrun h₁ => ?_
  have hsettled := (execStmt_safe h.safe hresult rounds first (h.distinct.grows hkept₁) frame
    hframe).of_done hrun
  obtain ⟨stop, frame₁⟩ := r
  cases stop with
  | some v =>
      exact .answer ⟨h₁.stack, h₁.holds, h₁.keeps, by simp, h₁.returns⟩ rfl
  | none =>
      have hline := h₁.goesOn rfl
      refine (hothers hkept hs₁ hrest hliterals hsettled.1 h₁.holds (hline ▸ hstands.2)).mono
        fun q m₂ h₂ => ?_
      rw [List.length_append]
      exact h₂.behind (fun _ => by rw [hline, Nat.add_assoc]) h₁.stack h₁.keeps

end

mutual

/-- **Statements.**  The code of a typed statement follows its execution. -/
theorem execStmt_follows (h : InBody loading l env final calls)
    (hresult : env.result.isReference = false) (f : Function) (rounds : Nat)
    {before after : List Var} {stmt : Stmt} : TypedStmt env before stmt after →
      FollowsStmt loading l env final calls f rounds before stmt after
  | .expression value => h.expression_follows value
  | .ret _ => by
      intro _ s s' lines hs hlines hliterals frame m hframe hholds hstands
      rw [execStmt]
      cases hlines
      refine .answer ⟨rfl, hholds, .refl _ _ _, by simp, ?_⟩ rfl
      intro v hv
      cases hv
      exact ⟨.void _, hstands⟩
  | .retValue _ value => h.return_follows hresult value
  | .ifThen test branch =>
      h.ifThen_follows test branch (execStmts_follows h hresult f rounds branch)
  | .ifElse test branch other =>
      h.ifElse_follows test branch other (execStmts_follows h hresult f rounds branch)
        (execStmt_follows h hresult f rounds other)
  | .loop test body =>
      h.loop_follows hresult test body (execStmts_follows h hresult f rounds body)
  | .block inner => by
      intro hkept s s' lines hs hlines hliterals frame m hframe hholds hstands
      rw [execStmt]
      exact execStmts_follows h hresult f rounds inner hkept hs hlines hliterals hframe hholds
        hstands

/-- The same for a list of statements. -/
theorem execStmts_follows (h : InBody loading l env final calls)
    (hresult : env.result.isReference = false) (f : Function) (rounds : Nat)
    {before after : List Var} {stmts : List Stmt} : TypedStmts env before stmts after →
      FollowsStmts loading l env final calls f rounds before stmts after
  | .nil => by
      intro _ s s' lines hs hlines hliterals frame m hframe hholds hstands
      rw [execStmts]
      cases hlines
      exact .answer (hholds.executed rfl rfl (.refl _ _ _)) rfl
  | .cons first others =>
      h.statements_follow hresult first others (execStmt_follows h hresult f rounds first)
        (execStmts_follows h hresult f rounds others)

end

end Slate
