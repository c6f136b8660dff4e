import Slate.Proofs.Compile.Succeeds
import Slate.Proofs.Machine.Labels

/-!
# Typed statements compile

There is code for every well-typed statement, and its labels are those of control flow,
numbered within the range that the compiler has passed meanwhile (`Numbered`).  No
number is given out twice, so no label of a function stands twice in its code.
-/

namespace Slate

variable {env : Env} {f : Function} {function : String} {low middle high : Nat}
  {first second : List Line} {s s' s'' s₃ : CompileState}

/-! ## Numbered labels -/

/-- The labels are those of control flow in a function, with numbers in a range, each at
most once. -/
structure Numbered (function : String) (low high : Nat) (lines : List Line) : Prop where
  each : ∀ l ∈ labelsOf lines, ∃ construct index,
    l = .control function construct index ∧ low ≤ index ∧ index < high
  distinct : (labelsOf lines).Nodup

namespace Numbered

/-- Code without labels is numbered in any range. -/
theorem code (code : List Instr) : Numbered function low high (codeLines code) := by
  have hnone := labelsOf_codeLines code
  refine ⟨?_, ?_⟩
  · rw [hnone]
    exact List.forall_mem_nil _
  · rw [hnone]
    exact .nil

/-- A label with a number of the range is numbered in it. -/
theorem label (construct : Construct) (hlow : low ≤ middle) (hhigh : middle < high) :
    Numbered function low high [.label (.control function construct middle)] :=
  ⟨List.forall_mem_singleton.2 ⟨construct, middle, rfl, hlow, hhigh⟩,
    List.nodup_cons.2 ⟨List.not_mem_nil, List.nodup_nil⟩⟩

/-- What is numbered in a range is so in a wider one. -/
theorem mono (h : Numbered function low high first) {lower higher : Nat} (hlow : lower ≤ low)
    (hhigh : high ≤ higher) : Numbered function lower higher first := by
  refine ⟨?_, h.distinct⟩
  intro l hl
  obtain ⟨construct, index, heq, hfrom, hto⟩ := h.each l hl
  exact ⟨construct, index, heq, Nat.le_trans hlow hfrom, Nat.lt_of_lt_of_le hto hhigh⟩

/-- Two stretches whose numbers lie in ranges of their own. -/
theorem append {a b c d : Nat} (hfirst : Numbered function a b first)
    (hsecond : Numbered function c d second) (hapart : b ≤ c ∨ d ≤ a)
    (hfirstIn : low ≤ a ∧ b ≤ high) (hsecondIn : low ≤ c ∧ d ≤ high) :
    Numbered function low high (first ++ second) := by
  have hboth := labelsOf_append first second
  refine ⟨?_, ?_⟩
  · rw [hboth]
    intro l hl
    rcases List.mem_append.1 hl with hl | hl
    · exact (hfirst.mono hfirstIn.1 hfirstIn.2).each l hl
    · exact (hsecond.mono hsecondIn.1 hsecondIn.2).each l hl
  · rw [hboth, List.nodup_append]
    refine ⟨hfirst.distinct, hsecond.distinct, ?_⟩
    intro l hl other hother heq
    obtain ⟨_, i, hi, hfrom, hto⟩ := hfirst.each l hl
    obtain ⟨_, j, hj, hfrom', hto'⟩ := hsecond.each other hother
    rw [hi, hj] at heq
    injection heq with _ _ hindex
    omega

/-- The numbers of the second stretch follow those of the first. -/
theorem up (hfirst : Numbered function low middle first)
    (hsecond : Numbered function middle high second) (hlow : low ≤ middle)
    (hhigh : middle ≤ high) : Numbered function low high (first ++ second) :=
  hfirst.append hsecond (.inl (Nat.le_refl _)) ⟨Nat.le_refl _, hhigh⟩ ⟨hlow, Nat.le_refl _⟩

/-- The numbers of the first stretch follow those of the second. -/
theorem down (hfirst : Numbered function middle high first)
    (hsecond : Numbered function low middle second) (hlow : low ≤ middle)
    (hhigh : middle ≤ high) : Numbered function low high (first ++ second) :=
  hfirst.append hsecond (.inr (Nat.le_refl _)) ⟨hlow, Nat.le_refl _⟩ ⟨Nat.le_refl _, hhigh⟩

/-- Code before other lines adds no label. -/
theorem codeBefore (code : List Instr) (h : Numbered function low high second) :
    Numbered function low high (codeLines code ++ second) := by
  have hnone : labelsOf (codeLines code ++ second) = labelsOf second := by
    rw [labelsOf_append, labelsOf_codeLines, List.nil_append]
  exact ⟨fun l hl => h.each l (hnone ▸ hl), hnone ▸ h.distinct⟩

end Numbered

/-! ## Code of each kind of statement -/

section

variable {span : Span} {e : Expr} {body stmts : List Stmt} {stmt otherwise : Stmt}
  {code : List Instr}

/-- An expression by itself is its code. -/
theorem compileStmt_expression (hcode : compileExpr s e = .ok (code, s')) :
    compileStmt f s (.expression span e) = .ok (codeLines code, s') := by
  simp [compileStmt, hcode, bind, Except.bind, pure, Except.pure]

/-- A return computes its value and leaves the function. -/
theorem compileStmt_ret (hcode : compileExpr s e = .ok (code, s')) :
    compileStmt f s (.ret span (some e)) = .ok (codeLines (code ++ f.epilogue), s') := by
  simp [compileStmt, hcode, bind, Except.bind, pure, Except.pure]

/-- A conditional is its test and its body, with a label behind them. -/
theorem compileStmt_ifThen (htest : compileExpr s e = .ok (code, s'))
    (hbody : compileStmts f (s'.label 2) body = .ok (first, s'')) :
    compileStmt f s (.ifThen span e body) =
      .ok (codeLines (code ++ unlessTrue (.control f.name .ifEnd s'.labels)) ++ first ++
        [.label (.control f.name .ifEnd s'.labels)], s'') := by
  simp [compileStmt, htest, hbody, bind, Except.bind, pure, Except.pure]

/-- With an alternative, there is a jump behind the body and a label in front of the other. -/
theorem compileStmt_ifElse (htest : compileExpr s e = .ok (code, s'))
    (hbody : compileStmts f (s'.label 2) body = .ok (first, s''))
    (hother : compileStmt f s'' otherwise = .ok (second, s₃)) :
    compileStmt f s (.ifElse span e body otherwise) =
      .ok (codeLines (code ++ unlessTrue (.control f.name .ifElse (s'.labels + 1))) ++ first ++
        [.of (.jump (.control f.name .ifEnd s'.labels)),
          .label (.control f.name .ifElse (s'.labels + 1))] ++ second ++
        [.label (.control f.name .ifEnd s'.labels)], s₃) := by
  simp [compileStmt, htest, hbody, hother, bind, Except.bind, pure, Except.pure]

/-- A loop is its test and its body, with a jump back and a label at each end. -/
theorem compileStmt_loop (htest : compileExpr (s.label 2) e = .ok (code, s'))
    (hbody : compileStmts f s' body = .ok (first, s'')) :
    compileStmt f s (.loop span e body) =
      .ok ([.label (.control f.name .whileStart s.labels)] ++
        codeLines (code ++ unlessTrue (.control f.name .whileEnd (s.labels + 1))) ++ first ++
        [.of (.jump (.control f.name .whileStart s.labels)),
          .label (.control f.name .whileEnd (s.labels + 1))], s'') := by
  simp [compileStmt, htest, hbody, bind, Except.bind, pure, Except.pure]

/-- Statements are compiled one after the other. -/
theorem compileStmts_cons (hfirst : compileStmt f s stmt = .ok (first, s'))
    (hrest : compileStmts f s' stmts = .ok (second, s'')) :
    compileStmts f s (stmt :: stmts) = .ok (first ++ second, s'') := by
  simp [compileStmts, hfirst, hrest, bind, Except.bind, pure, Except.pure]

end

/-! ## Statements -/

/-- Taking labels changes nothing about what is tracked. -/
theorem CompileState.Tracks.label {arguments locals : List Var} (h : s.Tracks arguments locals)
    (count : Nat) : (s.label count).Tracks arguments locals := h

mutual

/-- **Statements compile.** -/
theorem compileStmt_ok (f : Function) {before after : List Var} {stmt : Stmt} :
    TypedStmt env before stmt after → ∀ s : CompileState, s.Tracks env.arguments before →
      ∃ lines s', compileStmt f s stmt = .ok (lines, s') ∧ s'.Tracks env.arguments after ∧
        s.Extends s' ∧ Numbered f.name s.labels s'.labels lines
  | .expression value => by
      intro s hs
      obtain ⟨code, s₁, hcode, hs₁, hext₁⟩ := compileExpr_ok value s hs
      exact ⟨_, s₁, compileStmt_expression hcode, hs₁, hext₁, .code code⟩
  | .ret _ => by
      intro s hs
      exact ⟨_, s, rfl, hs, .refl s, .code f.epilogue⟩
  | .retValue _ value => by
      intro s hs
      obtain ⟨code, s₁, hcode, hs₁, hext₁⟩ := compileExpr_ok value s hs
      exact ⟨_, s₁, compileStmt_ret hcode, hs₁, hext₁, .code (code ++ f.epilogue)⟩
  | .ifThen test branch => by
      intro s hs
      obtain ⟨code, s₁, htest, hs₁, hext₁⟩ := compileExpr_ok test s hs
      obtain ⟨lines, s₂, hbody, hs₂, hext₂, hlines⟩ := compileStmts_ok f branch (s₁.label 2) hs₁
      refine ⟨_, s₂, compileStmt_ifThen htest hbody, hs₂,
        hext₁.trans ((CompileState.Extends.label s₁ 2).trans hext₂), ?_⟩
      have hto : s₁.labels + 2 ≤ s₂.labels := hext₂.labels
      have hending : Numbered f.name s₁.labels (s₁.labels + 2)
          [.label (.control f.name .ifEnd s₁.labels)] := .label .ifEnd (Nat.le_refl _) (by omega)
      have hlines' : Numbered f.name (s₁.labels + 2) s₂.labels lines := hlines
      have hall := (hlines'.codeBefore
        (code ++ unlessTrue (.control f.name .ifEnd s₁.labels))).down hending (by omega) hto
      exact hall.mono hext₁.labels (Nat.le_refl _)
  | .ifElse test branch other => by
      intro s hs
      obtain ⟨code, s₁, htest, hs₁, hext₁⟩ := compileExpr_ok test s hs
      obtain ⟨lines, s₂, hbody, hs₂, hext₂, hlines⟩ := compileStmts_ok f branch (s₁.label 2) hs₁
      obtain ⟨otherLines, s₃, hother, hs₃, hext₃, hotherLines⟩ := compileStmt_ok f other s₂ hs₂
      refine ⟨_, s₃, compileStmt_ifElse htest hbody hother, hs₃,
        hext₁.trans ((CompileState.Extends.label s₁ 2).trans (hext₂.trans hext₃)), ?_⟩
      have hmiddle : s₁.labels + 2 ≤ s₂.labels := hext₂.labels
      have hto := hext₃.labels
      have hbranch : Numbered f.name (s₁.labels + 1) (s₁.labels + 2)
          [.of (.jump (.control f.name .ifEnd s₁.labels)),
            .label (.control f.name .ifElse (s₁.labels + 1))] :=
        (Numbered.label .ifElse (Nat.le_refl _) (by omega)).codeBefore
          [.jump (.control f.name .ifEnd s₁.labels)]
      have hending : Numbered f.name s₁.labels (s₁.labels + 1)
          [.label (.control f.name .ifEnd s₁.labels)] := .label .ifEnd (Nat.le_refl _) (by omega)
      have hlines' : Numbered f.name (s₁.labels + 2) s₂.labels lines := hlines
      have hfront := (hlines'.codeBefore
        (code ++ unlessTrue (.control f.name .ifElse (s₁.labels + 1)))).down hbranch
        (by omega) hmiddle
      have hall := (hfront.up hotherLines (by omega) hto).down hending (by omega) (by omega)
      exact hall.mono hext₁.labels (Nat.le_refl _)
  | .loop test body => by
      intro s hs
      obtain ⟨code, s₁, htest, hs₁, hext₁⟩ := compileExpr_ok test (s.label 2) hs
      obtain ⟨lines, s₂, hbody, hs₂, hext₂, hlines⟩ := compileStmts_ok f body s₁ hs₁
      refine ⟨_, s₂, compileStmt_loop htest hbody, hs₂,
        (CompileState.Extends.label s 2).trans (hext₁.trans hext₂), ?_⟩
      have hfrom : s.labels + 2 ≤ s₁.labels := hext₁.labels
      have hto := hext₂.labels
      have hstart : Numbered f.name s.labels (s.labels + 1)
          [.label (.control f.name .whileStart s.labels)] :=
        .label .whileStart (Nat.le_refl _) (by omega)
      have hending : Numbered f.name (s.labels + 1) (s.labels + 2)
          [.of (.jump (.control f.name .whileStart s.labels)),
            .label (.control f.name .whileEnd (s.labels + 1))] :=
        (Numbered.label .whileEnd (Nat.le_refl _) (by omega)).codeBefore
          [.jump (.control f.name .whileStart s.labels)]
      have hround := (hlines.mono hfrom (Nat.le_refl _)).codeBefore
        (code ++ unlessTrue (.control f.name .whileEnd (s.labels + 1)))
      have hall := hstart.up (hround.down hending (by omega) (by omega)) (by omega) (by omega)
      simpa only [List.append_assoc] using hall
  | .block inner => by
      intro s hs
      exact compileStmts_ok f inner s hs

/-- The same for a list of statements. -/
theorem compileStmts_ok (f : Function) {before after : List Var} {stmts : List Stmt} :
    TypedStmts env before stmts after → ∀ s : CompileState, s.Tracks env.arguments before →
      ∃ lines s', compileStmts f s stmts = .ok (lines, s') ∧ s'.Tracks env.arguments after ∧
        s.Extends s' ∧ Numbered f.name s.labels s'.labels lines
  | .nil => by
      intro s hs
      exact ⟨[], s, rfl, hs, .refl s, .code []⟩
  | .cons first others => by
      intro s hs
      obtain ⟨lines, s₁, hfirst, hs₁, hext₁, hlines⟩ := compileStmt_ok f first s hs
      obtain ⟨rest, s₂, hrest, hs₂, hext₂, hrestLines⟩ := compileStmts_ok f others s₁ hs₁
      have hmiddle := hext₁.labels
      have hto := hext₂.labels
      exact ⟨_, s₂, compileStmts_cons hfirst hrest, hs₂, hext₁.trans hext₂,
        hlines.up hrestLines hmiddle hto⟩

end

end Slate
