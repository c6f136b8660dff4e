import Slate.Proofs.Compile.Statements

/-!
# How code is put together

The compiler either fails or puts the code of a tree together from the codes of its parts, and
hands what it keeps track of from one part to the next.  The relations below say how, one rule
for each kind of tree; they hold exactly where the compiler answers (`exprCode_iff`,
`bodyCode_iff`).  So a property of all code is proved rule by rule, along the tree, and without
asking for types.
-/

namespace Slate

mutual

/-- The code of an expression, and the states before and behind it. -/
inductive ExprCode : CompileState → Expr → List Instr → CompileState → Prop
  | int {s : CompileState} {n : Note} {t : Ty} (i : Int32) (noted : n.type = some t) :
      ExprCode s (.literal n (.int i)) [.moveConst .eax i] s
  | bool {s : CompileState} {n : Note} {t : Ty} (b : Bool) (noted : n.type = some t) :
      ExprCode s (.literal n (.bool b)) [.moveConst .eax (if b then 1 else 0)] s
  | string {s : CompileState} {n : Note} {t : Ty} (literal : String) (noted : n.type = some t) :
      ExprCode s (.literal n (.string literal)) [.moveLabel .eax (.data s.literals.length)]
        (s.intern literal)
  | declare {s : CompileState} {n : Note} {t : Ty} (v : Var) (noted : n.type = some t) :
      ExprCode s (.declare n v) [.storeConst (frameAddress (localOffset s.slots)) 0,
        .loadAddress .eax (frameAddress (localOffset s.slots))] (s.declare v.name)
  | var {s : CompileState} {n : Note} {t : Ty} {name : String} {offset : Int}
      (known : s.offsets.lookup name = some offset) (noted : n.type = some t) :
      ExprCode s (.var n name) [.loadAddress .eax (frameAddress offset)] s
  | assign {s s₁ s₂ : CompileState} {n : Note} {t : Ty} {left right : Expr}
      {leftCode rightCode : List Instr} (value : ExprCode s right rightCode s₁)
      (place : ExprCode s₁ left leftCode s₂) (noted : n.type = some t) :
      ExprCode s (.assign n left right)
        (rightCode ++ [.push .eax] ++ leftCode ++ [.pop .ecx, .store (.of .eax) .ecx]) s₂
  | call {s s₁ : CompileState} {n : Note} {t : Ty} {name : String} {args : List Expr}
      {pushes : List Instr} (few : name = syscallName → args.length ≤ syscallMaxArguments)
      (arguments : ArgumentsCode s args pushes s₁) (noted : n.type = some t) :
      ExprCode s (.call n name args) (pushes ++ callCode name args.length) s₁
  | binary {s s₁ s₂ : CompileState} {n : Note} {t : Ty} {op : BinaryOp} {left right : Expr}
      {leftCode rightCode : List Instr} (first : ExprCode s left leftCode s₁)
      (second : ExprCode s₁ right rightCode s₂) (noted : n.type = some t) :
      ExprCode s (.binary n op left right)
        (leftCode ++ [.push .eax] ++ rightCode ++ [.pop .ecx] ++ op.code) s₂
  | unary {s s₁ : CompileState} {n : Note} {t : Ty} {op : UnaryOp} {operand : Expr}
      {code : List Instr} (value : ExprCode s operand code s₁) (noted : n.type = some t) :
      ExprCode s (.unary n op operand) (code ++ op.code) s₁
  | cast {s s₁ : CompileState} {n : Note} {target source : Ty} {operand : Expr}
      {code : List Instr} (place : ExprCode s operand code s₁) (noted : n.type = some target)
      (holds : operand.note.type = some source)
      (reference : target.isReference = false ∧ source.isReference = true) :
      ExprCode s (.cast n operand) (code ++ [.load .eax (.of .eax)]) s₁

/-- The code that pushes arguments, and the states before and behind it. -/
inductive ArgumentsCode : CompileState → List Expr → List Instr → CompileState → Prop
  | nil {s : CompileState} : ArgumentsCode s [] [] s
  | cons {s s₁ s₂ : CompileState} {arg : Expr} {args : List Expr} {code rest : List Instr}
      (argument : ExprCode s arg code s₁) (others : ArgumentsCode s₁ args rest s₂) :
      ArgumentsCode s (arg :: args) (code ++ [.push .eax] ++ rest) s₂

end

mutual

/-- The lines of a statement of a function, and the states before and behind them. -/
inductive StmtCode (f : Function) : CompileState → Stmt → List Line → CompileState → Prop
  | expression {s s₁ : CompileState} {span : Span} {e : Expr} {code : List Instr}
      (value : ExprCode s e code s₁) : StmtCode f s (.expression span e) (codeLines code) s₁
  | ret {s : CompileState} {span : Span} :
      StmtCode f s (.ret span none) (codeLines f.epilogue) s
  | retValue {s s₁ : CompileState} {span : Span} {e : Expr} {code : List Instr}
      (value : ExprCode s e code s₁) :
      StmtCode f s (.ret span (some e)) (codeLines (code ++ f.epilogue)) s₁
  | ifThen {s s₁ s₂ : CompileState} {span : Span} {condition : Expr} {body : List Stmt}
      {code : List Instr} {lines : List Line} (test : ExprCode s condition code s₁)
      (branch : BodyCode f (s₁.label 2) body lines s₂) :
      StmtCode f s (.ifThen span condition body)
        (codeLines (code ++ unlessTrue (.control f.name .ifEnd s₁.labels)) ++ lines ++
          [.label (.control f.name .ifEnd s₁.labels)]) s₂
  | ifElse {s s₁ s₂ s₃ : CompileState} {span : Span} {condition : Expr} {body : List Stmt}
      {otherwise : Stmt} {code : List Instr} {lines otherLines : List Line}
      (test : ExprCode s condition code s₁) (branch : BodyCode f (s₁.label 2) body lines s₂)
      (other : StmtCode f s₂ otherwise otherLines s₃) :
      StmtCode f s (.ifElse span condition body otherwise)
        (codeLines (code ++ unlessTrue (.control f.name .ifElse (s₁.labels + 1))) ++ lines ++
          [.of (.jump (.control f.name .ifEnd s₁.labels)),
            .label (.control f.name .ifElse (s₁.labels + 1))] ++ otherLines ++
          [.label (.control f.name .ifEnd s₁.labels)]) s₃
  | loop {s s₁ s₂ : CompileState} {span : Span} {condition : Expr} {body : List Stmt}
      {code : List Instr} {lines : List Line} (test : ExprCode (s.label 2) condition code s₁)
      (round : BodyCode f s₁ body lines s₂) :
      StmtCode f s (.loop span condition body)
        ([.label (.control f.name .whileStart s.labels)] ++
          codeLines (code ++ unlessTrue (.control f.name .whileEnd (s.labels + 1))) ++ lines ++
          [.of (.jump (.control f.name .whileStart s.labels)),
            .label (.control f.name .whileEnd (s.labels + 1))]) s₂
  | block {s s₁ : CompileState} {span : Span} {body : List Stmt} {lines : List Line}
      (inner : BodyCode f s body lines s₁) : StmtCode f s (.block span body) lines s₁

/-- The lines of statements one after the other. -/
inductive BodyCode (f : Function) : CompileState → List Stmt → List Line → CompileState → Prop
  | nil {s : CompileState} : BodyCode f s [] [] s
  | cons {s s₁ s₂ : CompileState} {stmt : Stmt} {stmts : List Stmt} {lines rest : List Line}
      (first : StmtCode f s stmt lines s₁) (others : BodyCode f s₁ stmts rest s₂) :
      BodyCode f s (stmt :: stmts) (lines ++ rest) s₂

end

/-! ## What the compiler answers -/

/-- A type is found where one is noted. -/
theorem needType_eq_ok_iff {e : Expr} {t : Ty} : e.needType = .ok t ↔ e.note.type = some t := by
  refine ⟨fun h => ?_, needType_eq_ok⟩
  unfold Expr.needType Expr.type? at h
  split at h
  · next heq =>
    cases h
    exact heq
  · cases h

mutual

/-- What an expression compiles to is code for it. -/
theorem compileExpr_coded : ∀ (e : Expr) {s s' : CompileState} {code : List Instr},
    compileExpr s e = .ok (code, s') → ExprCode s e code s'
  | .literal n value, s, s', code, h => by
      rw [compileExpr.eq_def] at h
      obtain ⟨t, ht, h⟩ := bind_eq_ok.1 h
      have noted := needType_eq_ok_iff.1 ht
      cases value with
      | int i =>
          cases h
          exact .int i noted
      | bool b =>
          cases h
          exact .bool b noted
      | string literal =>
          cases h
          exact .string literal noted
  | .declare n v, s, s', code, h => by
      rw [compileExpr] at h
      obtain ⟨t, ht, h⟩ := bind_eq_ok.1 h
      cases h
      exact .declare v (needType_eq_ok_iff.1 ht)
  | .var n name, s, s', code, h => by
      rw [compileExpr] at h
      obtain ⟨t, ht, h⟩ := bind_eq_ok.1 h
      split at h
      · cases h
      · next hoffset =>
        cases h
        exact .var hoffset (needType_eq_ok_iff.1 ht)
  | .assign n left right, s, s', code, h => by
      rw [compileExpr] at h
      obtain ⟨t, ht, h⟩ := bind_eq_ok.1 h
      obtain ⟨⟨rightCode, s₁⟩, hright, h⟩ := bind_eq_ok.1 h
      obtain ⟨⟨leftCode, s₂⟩, hleft, h⟩ := bind_eq_ok.1 h
      cases h
      exact .assign (compileExpr_coded right hright) (compileExpr_coded left hleft)
        (needType_eq_ok_iff.1 ht)
  | .call n name args, s, s', code, h => by
      rw [compileExpr] at h
      obtain ⟨t, ht, h⟩ := bind_eq_ok.1 h
      split at h
      · cases h
      · next hmany =>
        obtain ⟨⟨pushes, s₁⟩, hargs, h⟩ := bind_eq_ok.1 h
        cases h
        exact .call (fun hname => Nat.not_lt.1 fun hlt => hmany ⟨hname, hlt⟩)
          (compileArguments_coded args hargs) (needType_eq_ok_iff.1 ht)
  | .binary n op left right, s, s', code, h => by
      rw [compileExpr] at h
      obtain ⟨t, ht, h⟩ := bind_eq_ok.1 h
      obtain ⟨⟨leftCode, s₁⟩, hleft, h⟩ := bind_eq_ok.1 h
      obtain ⟨⟨rightCode, s₂⟩, hright, h⟩ := bind_eq_ok.1 h
      cases h
      exact .binary (compileExpr_coded left hleft) (compileExpr_coded right hright)
        (needType_eq_ok_iff.1 ht)
  | .unary n op operand, s, s', code, h => by
      rw [compileExpr] at h
      obtain ⟨t, ht, h⟩ := bind_eq_ok.1 h
      obtain ⟨⟨operandCode, s₁⟩, hoperand, h⟩ := bind_eq_ok.1 h
      cases h
      exact .unary (compileExpr_coded operand hoperand) (needType_eq_ok_iff.1 ht)
  | .cast n operand, s, s', code, h => by
      rw [compileExpr] at h
      obtain ⟨target, ht, h⟩ := bind_eq_ok.1 h
      obtain ⟨source, hs, h⟩ := bind_eq_ok.1 h
      split at h
      · cases h
      · next hkind =>
        obtain ⟨⟨operandCode, s₁⟩, hoperand, h⟩ := bind_eq_ok.1 h
        cases h
        exact .cast (compileExpr_coded operand hoperand) (needType_eq_ok_iff.1 ht)
          (needType_eq_ok_iff.1 hs) (by simpa using hkind)

/-- The same for the arguments of a call. -/
theorem compileArguments_coded : ∀ (es : List Expr) {s s' : CompileState} {code : List Instr},
    compileArguments s es = .ok (code, s') → ArgumentsCode s es code s'
  | [], s, s', code, h => by
      cases h
      exact .nil
  | e :: es, s, s', code, h => by
      rw [compileArguments] at h
      obtain ⟨⟨first, s₁⟩, hfirst, h⟩ := bind_eq_ok.1 h
      obtain ⟨⟨rest, s₂⟩, hrest, h⟩ := bind_eq_ok.1 h
      cases h
      exact .cons (compileExpr_coded e hfirst) (compileArguments_coded es hrest)

end

mutual

/-- Code for an expression is what it compiles to. -/
theorem ExprCode.compiles {s s' : CompileState} {e : Expr} {code : List Instr} :
    ExprCode s e code s' → compileExpr s e = .ok (code, s')
  | .int _ noted | .bool _ noted | .string _ noted => compileExpr_literal noted
  | .declare _ noted => compileExpr_declare noted
  | .var known noted => compileExpr_var noted known
  | .assign value place noted => compileExpr_assign noted value.compiles place.compiles
  | .call few arguments noted => compileExpr_call noted few arguments.compiles
  | .binary first second noted => compileExpr_binary noted first.compiles second.compiles
  | .unary value noted => compileExpr_unary noted value.compiles
  | @ExprCode.cast _ _ n target source operand _ place noted holds ⟨value, reference⟩ => by
      have hcode := place.compiles
      have htarget : (Expr.cast n operand).needType = .ok target := needType_eq_ok noted
      have hsource := needType_eq_ok holds
      simp [compileExpr, htarget, hsource, value, reference, hcode, bind, Except.bind, pure,
        Except.pure]

/-- The same for the arguments of a call. -/
theorem ArgumentsCode.compiles {s s' : CompileState} {es : List Expr} {code : List Instr} :
    ArgumentsCode s es code s' → compileArguments s es = .ok (code, s')
  | .nil => rfl
  | .cons argument others => compileArguments_cons argument.compiles others.compiles

end

/-- **The code of an expression is put together by the rules**, and is nothing else. -/
theorem exprCode_iff {s s' : CompileState} {e : Expr} {code : List Instr} :
    compileExpr s e = .ok (code, s') ↔ ExprCode s e code s' :=
  ⟨compileExpr_coded e, ExprCode.compiles⟩

mutual

/-- What a statement compiles to is code for it. -/
theorem compileStmt_coded {f : Function} :
    ∀ (stmt : Stmt) {s s' : CompileState} {lines : List Line},
      compileStmt f s stmt = .ok (lines, s') → StmtCode f s stmt lines s'
  | .expression span e, s, s', lines, h => by
      rw [compileStmt] at h
      obtain ⟨⟨code, s₁⟩, hcode, h⟩ := bind_eq_ok.1 h
      cases h
      exact .expression (compileExpr_coded e hcode)
  | .ret span none, s, s', lines, h => by
      rw [compileStmt] at h
      cases h
      exact .ret
  | .ret span (some e), s, s', lines, h => by
      rw [compileStmt] at h
      obtain ⟨⟨code, s₁⟩, hcode, h⟩ := bind_eq_ok.1 h
      cases h
      exact .retValue (compileExpr_coded e hcode)
  | .ifThen span condition body, s, s', lines, h => by
      rw [compileStmt] at h
      obtain ⟨⟨code, s₁⟩, hcode, h⟩ := bind_eq_ok.1 h
      obtain ⟨⟨bodyLines, s₂⟩, hbody, h⟩ := bind_eq_ok.1 h
      cases h
      exact .ifThen (compileExpr_coded condition hcode) (compileStmts_coded body hbody)
  | .ifElse span condition body otherwise, s, s', lines, h => by
      rw [compileStmt] at h
      obtain ⟨⟨code, s₁⟩, hcode, h⟩ := bind_eq_ok.1 h
      obtain ⟨⟨bodyLines, s₂⟩, hbody, h⟩ := bind_eq_ok.1 h
      obtain ⟨⟨otherLines, s₃⟩, hother, h⟩ := bind_eq_ok.1 h
      cases h
      exact .ifElse (compileExpr_coded condition hcode) (compileStmts_coded body hbody)
        (compileStmt_coded otherwise hother)
  | .loop span condition body, s, s', lines, h => by
      rw [compileStmt] at h
      obtain ⟨⟨code, s₁⟩, hcode, h⟩ := bind_eq_ok.1 h
      obtain ⟨⟨bodyLines, s₂⟩, hbody, h⟩ := bind_eq_ok.1 h
      cases h
      exact .loop (compileExpr_coded condition hcode) (compileStmts_coded body hbody)
  | .block span body, s, s', lines, h => by
      rw [compileStmt] at h
      exact .block (compileStmts_coded body h)

/-- The same for a list of statements. -/
theorem compileStmts_coded {f : Function} :
    ∀ (stmts : List Stmt) {s s' : CompileState} {lines : List Line},
      compileStmts f s stmts = .ok (lines, s') → BodyCode f s stmts lines s'
  | [], s, s', lines, h => by
      cases h
      exact .nil
  | stmt :: stmts, s, s', lines, h => by
      rw [compileStmts] at h
      obtain ⟨⟨first, s₁⟩, hfirst, h⟩ := bind_eq_ok.1 h
      obtain ⟨⟨rest, s₂⟩, hrest, h⟩ := bind_eq_ok.1 h
      cases h
      exact .cons (compileStmt_coded stmt hfirst) (compileStmts_coded stmts hrest)

end

mutual

/-- Code for a statement is what it compiles to. -/
theorem StmtCode.compiles {f : Function} {s s' : CompileState} {stmt : Stmt}
    {lines : List Line} : StmtCode f s stmt lines s' → compileStmt f s stmt = .ok (lines, s')
  | .expression value => compileStmt_expression value.compiles
  | .ret => rfl
  | .retValue value => compileStmt_ret value.compiles
  | .ifThen test branch => compileStmt_ifThen test.compiles branch.compiles
  | .ifElse test branch other =>
      compileStmt_ifElse test.compiles branch.compiles other.compiles
  | .loop test round => compileStmt_loop test.compiles round.compiles
  | .block inner => inner.compiles

/-- The same for a list of statements. -/
theorem BodyCode.compiles {f : Function} {s s' : CompileState} {stmts : List Stmt}
    {lines : List Line} : BodyCode f s stmts lines s' → compileStmts f s stmts = .ok (lines, s')
  | .nil => rfl
  | .cons first others => compileStmts_cons first.compiles others.compiles

end

/-- **The lines of a body are put together by the rules**, and are nothing else. -/
theorem bodyCode_iff {f : Function} {s s' : CompileState} {stmts : List Stmt}
    {lines : List Line} :
    compileStmts f s stmts = .ok (lines, s') ↔ BodyCode f s stmts lines s' :=
  ⟨compileStmts_coded stmts, BodyCode.compiles⟩

/-! ## What code is made of -/

/-- The instructions that the code of expressions is made of.  It leaves `esp` alone, except for
operands that are pushed and popped. -/
def Instr.inExpression : Instr → Bool
  | .moveConst _ _ | .moveLabel _ _ | .move _ _ | .load _ _ | .store _ _ | .storeConst _ _
  | .loadAddress _ _ | .push _ | .pop _ | .add _ _ | .addConst _ _ | .multiply _ _ | .negate _
  | .complement _ | .compare _ _ | .compareConst _ _ | .set _ _ | .widen _ _ | .call _
  | .systemCall => true
  | .sub dst _ => dst ≠ .esp
  | _ => false

/-- The code of a function also makes room on the stack, tests conditions, jumps and returns. -/
def Instr.inFunction : Instr → Bool
  | .subConst _ _ | .compareByteConst _ _ | .jump _ | .jumpIf _ _ | .ret => true
  | i => i.inExpression

/-- A line of the code of a function: a label, or an instruction without a remark. -/
def Line.inFunction : Line → Bool
  | .label _ => true
  | .instr i remark => i.inFunction && remark.isNone

/-- The instructions of expressions are among those of functions. -/
theorem Instr.inFunction_of_inExpression {i : Instr} (h : i.inExpression = true) :
    i.inFunction = true := by
  cases i <;> first | rfl | exact h

/-- A binary operator is computed by instructions of expressions. -/
theorem BinaryOp.inExpression_code (op : BinaryOp) : ∀ i ∈ op.code, i.inExpression = true := by
  cases op <;> decide

/-- So is a unary operator. -/
theorem UnaryOp.inExpression_code (op : UnaryOp) : ∀ i ∈ op.code, i.inExpression = true := by
  cases op <;> decide

/-- So is a call made. -/
theorem inExpression_callCode (name : String) (count : Nat) :
    ∀ i ∈ callCode name count, i.inExpression = true := by
  unfold callCode
  split
  · refine List.forall_mem_append.2 ⟨fun i hi => ?_, List.forall_mem_singleton.2 rfl⟩
    obtain ⟨r, _, rfl⟩ := List.mem_map.1 hi
    rfl
  · split
    · exact List.forall_mem_singleton.2 rfl
    · exact List.forall_mem_cons.2 ⟨rfl, List.forall_mem_singleton.2 rfl⟩

/-- Code around the code of operands. -/
theorem inExpression_joined {first second third : List Instr}
    (hfirst : ∀ i ∈ first, i.inExpression = true) (hsecond : ∀ i ∈ second, i.inExpression = true)
    (hthird : ∀ i ∈ third, i.inExpression = true) :
    ∀ i ∈ first ++ [.push .eax] ++ second ++ third, i.inExpression = true := by
  refine List.forall_mem_append.2 ⟨List.forall_mem_append.2 ⟨?_, hsecond⟩, hthird⟩
  exact List.forall_mem_append.2 ⟨hfirst, List.forall_mem_singleton.2 rfl⟩

mutual

/-- The code of an expression is made of these instructions. -/
theorem ExprCode.inExpression {s s' : CompileState} {e : Expr} {code : List Instr} :
    ExprCode s e code s' → ∀ i ∈ code, i.inExpression = true
  | .int _ _ | .bool _ _ | .string _ _ | .var _ _ => List.forall_mem_singleton.2 rfl
  | .declare _ _ => List.forall_mem_cons.2 ⟨rfl, List.forall_mem_singleton.2 rfl⟩
  | .assign value place _ =>
      inExpression_joined value.inExpression place.inExpression
        (List.forall_mem_cons.2 ⟨rfl, List.forall_mem_singleton.2 rfl⟩)
  | .call _ arguments _ =>
      List.forall_mem_append.2 ⟨arguments.inExpression, inExpression_callCode _ _⟩
  | @ExprCode.binary _ _ _ _ _ op _ _ _ _ first second _ => by
      rw [List.append_assoc _ [Instr.pop .ecx]]
      exact inExpression_joined first.inExpression second.inExpression
        (List.forall_mem_cons.2 ⟨rfl, op.inExpression_code⟩)
  | .unary value _ =>
      List.forall_mem_append.2 ⟨value.inExpression, UnaryOp.inExpression_code _⟩
  | .cast place _ _ _ =>
      List.forall_mem_append.2 ⟨place.inExpression, List.forall_mem_singleton.2 rfl⟩

/-- The arguments of a call take nothing else either. -/
theorem ArgumentsCode.inExpression {s s' : CompileState} {es : List Expr} {code : List Instr} :
    ArgumentsCode s es code s' → ∀ i ∈ code, i.inExpression = true
  | .nil => List.forall_mem_nil _
  | .cons argument others => by
      have hall := inExpression_joined argument.inExpression others.inExpression
        (List.forall_mem_nil _)
      rwa [List.append_nil] at hall

end

section

variable {f : Function} {code : List Instr}

theorem inFunction_codeLines (h : ∀ i ∈ code, i.inFunction = true) :
    ∀ line ∈ codeLines code, line.inFunction = true := by
  intro line hline
  obtain ⟨i, hi, rfl⟩ := List.mem_map.1 hline
  exact Bool.and_eq_true_iff.2 ⟨h i hi, rfl⟩

/-- An expression takes instructions of functions only. -/
theorem ExprCode.inFunction {s s' : CompileState} {e : Expr} (h : ExprCode s e code s') :
    ∀ i ∈ code, i.inFunction = true :=
  fun i hi => Instr.inFunction_of_inExpression (h.inExpression i hi)

/-- A function begins with instructions of functions. -/
theorem Function.inFunction_prologue (f : Function) : ∀ i ∈ f.prologue, i.inFunction = true := by
  unfold prologue
  split
  · split
    · simp [Instr.inFunction, Instr.inExpression]
    · simp [Instr.inFunction, Instr.inExpression]
  · exact List.forall_mem_nil _

/-- It ends with such instructions. -/
theorem Function.inFunction_epilogue (f : Function) : ∀ i ∈ f.epilogue, i.inFunction = true := by
  unfold epilogue
  split <;> decide

/-- A condition, and a jump if it fails. -/
theorem inFunction_test (h : ∀ i ∈ code, i.inFunction = true) (target : Label) :
    ∀ line ∈ codeLines (code ++ unlessTrue target), line.inFunction = true :=
  inFunction_codeLines (List.forall_mem_append.2
    ⟨h, List.forall_mem_cons.2 ⟨rfl, List.forall_mem_singleton.2 rfl⟩⟩)

mutual

/-- The lines of a statement are made of the instructions of functions. -/
theorem StmtCode.inFunction {s s' : CompileState} {stmt : Stmt} {lines : List Line} :
    StmtCode f s stmt lines s' → ∀ line ∈ lines, line.inFunction = true
  | .expression value => inFunction_codeLines value.inFunction
  | .ret => inFunction_codeLines f.inFunction_epilogue
  | .retValue value => inFunction_codeLines
      (List.forall_mem_append.2 ⟨value.inFunction, f.inFunction_epilogue⟩)
  | .ifThen test branch => by
      have htest := inFunction_test test.inFunction
      exact List.forall_mem_append.2 ⟨List.forall_mem_append.2 ⟨htest _, branch.inFunction⟩,
        List.forall_mem_singleton.2 rfl⟩
  | .ifElse test branch other => by
      have htest := inFunction_test test.inFunction
      refine List.forall_mem_append.2 ⟨List.forall_mem_append.2 ⟨List.forall_mem_append.2
        ⟨List.forall_mem_append.2 ⟨htest _, branch.inFunction⟩, ?_⟩, other.inFunction⟩, ?_⟩
      · exact List.forall_mem_cons.2 ⟨rfl, List.forall_mem_singleton.2 rfl⟩
      · exact List.forall_mem_singleton.2 rfl
  | .loop test round => by
      have htest := inFunction_test test.inFunction
      refine List.forall_mem_append.2 ⟨List.forall_mem_append.2 ⟨List.forall_mem_append.2
        ⟨?_, htest _⟩, round.inFunction⟩, ?_⟩
      · exact List.forall_mem_singleton.2 rfl
      · exact List.forall_mem_cons.2 ⟨rfl, List.forall_mem_singleton.2 rfl⟩
  | .block inner => inner.inFunction

/-- Statements take lines of functions only. -/
theorem BodyCode.inFunction {s s' : CompileState} {stmts : List Stmt} {lines : List Line} :
    BodyCode f s stmts lines s' → ∀ line ∈ lines, line.inFunction = true
  | .nil => List.forall_mem_nil _
  | .cons first others => List.forall_mem_append.2 ⟨first.inFunction, others.inFunction⟩

end

end

/-! ## Literals stay -/

mutual

/-- An expression adds its literals behind those that were interned before. -/
theorem ExprCode.literals_kept {s s' : CompileState} {e : Expr} {code : List Instr} :
    ExprCode s e code s' → s.literals <+: s'.literals
  | .int _ _ | .bool _ _ | .declare _ _ | .var _ _ => List.prefix_rfl
  | .string _ _ => List.prefix_append _ _
  | .assign value place _ => value.literals_kept.trans place.literals_kept
  | .call _ arguments _ => arguments.literals_kept
  | .binary first second _ => first.literals_kept.trans second.literals_kept
  | .unary value _ => value.literals_kept
  | .cast place _ _ _ => place.literals_kept

/-- The same for the arguments of a call. -/
theorem ArgumentsCode.literals_kept {s s' : CompileState} {es : List Expr}
    {code : List Instr} : ArgumentsCode s es code s' → s.literals <+: s'.literals
  | .nil => List.prefix_rfl
  | .cons argument others => argument.literals_kept.trans others.literals_kept

end

mutual

/-- The same for a statement. -/
theorem StmtCode.literals_kept {f : Function} {s s' : CompileState} {stmt : Stmt}
    {lines : List Line} : StmtCode f s stmt lines s' → s.literals <+: s'.literals
  | .expression value => value.literals_kept
  | .ret => List.prefix_rfl
  | .retValue value => value.literals_kept
  | .ifThen test branch => test.literals_kept.trans branch.literals_kept
  | .ifElse test branch other =>
      (test.literals_kept.trans branch.literals_kept).trans other.literals_kept
  | .loop test round => test.literals_kept.trans round.literals_kept
  | .block inner => inner.literals_kept

/-- The same for a list of statements. -/
theorem BodyCode.literals_kept {f : Function} {s s' : CompileState} {stmts : List Stmt}
    {lines : List Line} : BodyCode f s stmts lines s' → s.literals <+: s'.literals
  | .nil => List.prefix_rfl
  | .cons first others => first.literals_kept.trans others.literals_kept

end

/-! ## Offsets follow the declarations -/

section

variable {env : Env}

mutual

/-- Where an expression is typed, the state behind its code has the offsets of the variables
that are declared there. -/
theorem ExprCode.tracks {before after : List Var} {s s' : CompileState} {e : Expr} {t : Ty}
    {code : List Instr} :
    ExprCode s e code s' → TypedExpr env before e t after → s.Tracks env.arguments before →
      s'.Tracks env.arguments after
  | .int _ _, .literal _, hs | .bool _ _, .literal _, hs | .string _ _, .literal _, hs => hs
  | .declare v _, .declare _ _ _ _, hs => hs.declare v
  | .var _ _, .var _ _, hs => hs
  | .assign value place _, .assign typedValue typedPlace _ _, hs =>
      place.tracks typedPlace (value.tracks typedValue hs)
  | .call _ arguments _, .syscall _ typed _, hs => arguments.tracks typed hs
  | .call _ arguments _, .call _ _ typed _, hs => arguments.tracks typed hs
  | .binary first second _, .binary typedFirst typedSecond _ _ _, hs =>
      second.tracks typedSecond (first.tracks typedFirst hs)
  | .unary value _, .unary typed _, hs => value.tracks typed hs
  | .cast place _ _ _, .cast typed _ _, hs => place.tracks typed hs

/-- The same for the arguments of a call. -/
theorem ArgumentsCode.tracks {before after : List Var} {s s' : CompileState} {es : List Expr}
    {ts : List Ty} {code : List Instr} :
    ArgumentsCode s es code s' → TypedArguments env before es ts after →
      s.Tracks env.arguments before → s'.Tracks env.arguments after
  | .nil, .nil, hs => hs
  | .cons argument others, .cons typed _ typedOthers, hs =>
      others.tracks typedOthers (argument.tracks typed hs)

end

mutual

/-- The same for a statement. -/
theorem StmtCode.tracks {f : Function} {before after : List Var} {s s' : CompileState}
    {stmt : Stmt} {lines : List Line} :
    StmtCode f s stmt lines s' → TypedStmt env before stmt after →
      s.Tracks env.arguments before → s'.Tracks env.arguments after
  | .expression value, .expression typed, hs => value.tracks typed hs
  | .ret, .ret _, hs => hs
  | .retValue value, .retValue _ typed, hs => value.tracks typed hs
  | .ifThen test branch, .ifThen typedTest typedBranch, hs =>
      branch.tracks typedBranch (test.tracks typedTest hs)
  | .ifElse test branch other, .ifElse typedTest typedBranch typedOther, hs =>
      other.tracks typedOther (branch.tracks typedBranch (test.tracks typedTest hs))
  | .loop test round, .loop typedTest typedRound, hs =>
      round.tracks typedRound (test.tracks typedTest hs)
  | .block inner, .block typed, hs => inner.tracks typed hs

/-- The same for a list of statements. -/
theorem BodyCode.tracks {f : Function} {before after : List Var} {s s' : CompileState}
    {stmts : List Stmt} {lines : List Line} :
    BodyCode f s stmts lines s' → TypedStmts env before stmts after →
      s.Tracks env.arguments before → s'.Tracks env.arguments after
  | .nil, .nil, hs => hs
  | .cons first others, .cons typed typedOthers, hs =>
      others.tracks typedOthers (first.tracks typed hs)

end

end

end Slate
