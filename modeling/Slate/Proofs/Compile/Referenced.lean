import Slate.Proofs.Compile.Coded
import Slate.Proofs.Compile.Programs

/-!
# Labels that are referred to

Code refers to labels where it calls, jumps, or loads the address of a data line.  Of a typed
program every one of these labels stands somewhere in the assembly: calls go to functions
that are declared, string literals have data lines, and a jump of control flow stays within
the statement that it belongs to.
-/

namespace Slate

variable {env : Env} {signatures : Signatures} {literals more : List String} {l : Label}

/-- The label that an instruction refers to. -/
def Instr.label? : Instr → Option Label
  | .moveLabel _ l | .jump l | .jumpIf _ l | .call l => some l
  | _ => none

/-- The labels that code refers to, in order. -/
def codeReferences (code : List Instr) : List Label := code.filterMap Instr.label?

/-- The labels that the instructions of some lines refer to, in order. -/
def referencesOf (lines : List Line) : List Label :=
  lines.filterMap fun
    | .label _ => none
    | .instr i _ => i.label?

/-- The references of two pieces are those of the first and those of the second. -/
theorem codeReferences_append (first second : List Instr) :
    codeReferences (first ++ second) = codeReferences first ++ codeReferences second :=
  List.filterMap_append

/-- The same for pieces of lines. -/
theorem referencesOf_append (first second : List Line) :
    referencesOf (first ++ second) = referencesOf first ++ referencesOf second :=
  List.filterMap_append

/-- The lines of instructions refer to what the instructions refer to. -/
theorem referencesOf_codeLines (code : List Instr) :
    referencesOf (codeLines code) = codeReferences code := by
  unfold referencesOf codeLines
  rw [List.filterMap_map]
  rfl

/-! ## Expressions -/

/-- The label is that of a data line for one of the literals, or that of a function. -/
inductive Label.Supplied (signatures : Signatures) (literals : List String) : Label → Prop
  | data {index : Nat} (known : index < literals.length) :
      Supplied signatures literals (.data index)
  | routine {name : String} {signature : Signature}
      (known : signatures.lookup name = some signature) :
      Supplied signatures literals (.routine name)

/-- A label that is supplied stays so when there are more literals. -/
theorem Label.Supplied.mono (h : l.Supplied signatures literals)
    (hmore : literals <+: more) : l.Supplied signatures more := by
  cases h with
  | data known => exact .data (Nat.lt_of_lt_of_le known hmore.length_le)
  | routine known => exact .routine known

/-- Every label that the code refers to is supplied. -/
def Supplied (signatures : Signatures) (literals : List String) (code : List Instr) : Prop :=
  ∀ l ∈ codeReferences code, l.Supplied signatures literals

/-- So does code whose labels are supplied. -/
theorem Supplied.mono {code : List Instr} (h : Supplied signatures literals code)
    (hmore : literals <+: more) : Supplied signatures more code :=
  fun l hl => (h l hl).mono hmore

/-- The labels of two pieces are supplied if those of each are. -/
theorem Supplied.append {first second : List Instr} (hfirst : Supplied signatures literals first)
    (hsecond : Supplied signatures literals second) :
    Supplied signatures literals (first ++ second) := by
  unfold Supplied
  rw [codeReferences_append]
  exact List.forall_mem_append.2 ⟨hfirst, hsecond⟩

/-- Code that refers to no label. -/
theorem supplied_of_none {code : List Instr} (h : codeReferences code = []) :
    Supplied signatures literals code := by
  unfold Supplied
  rw [h]
  exact List.forall_mem_nil _

/-- A binary operator refers to no label. -/
theorem BinaryOp.references_code (op : BinaryOp) : codeReferences op.code = [] := by
  cases op <;> rfl

/-- Nor does a unary one. -/
theorem UnaryOp.references_code (op : UnaryOp) : codeReferences op.code = [] := by
  cases op <;> rfl

/-- Nor does what a function begins with. -/
theorem Function.references_prologue (f : Function) : codeReferences f.prologue = [] := by
  unfold Function.prologue
  split
  · split <;> rfl
  · rfl

/-- Nor does what it ends with. -/
theorem Function.references_epilogue (f : Function) : codeReferences f.epilogue = [] := by
  unfold Function.epilogue
  split <;> rfl

/-- A system call refers to no label. -/
theorem references_syscall (count : Nat) : codeReferences (callCode syscallName count) = [] := by
  have hpops : ∀ registers : List Register, codeReferences (registers.map .pop) = [] := by
    intro registers
    unfold codeReferences
    rw [List.filterMap_map]
    exact List.filterMap_eq_nil_iff.2 fun _ _ => rfl
  unfold callCode
  rw [if_pos rfl, codeReferences_append, hpops]
  rfl

/-- A call refers to the function that is called. -/
theorem references_call {name : String} (h : name ≠ syscallName) (count : Nat) :
    codeReferences (callCode name count) = [.routine name] := by
  unfold callCode
  rw [if_neg h]
  split <;> rfl

mutual

/-- The labels that the code of a typed expression refers to are supplied. -/
theorem ExprCode.supplied {before after : List Var} {s s' : CompileState} {e : Expr} {t : Ty}
    {code : List Instr} :
    ExprCode s e code s' → TypedExpr env before e t after →
      Supplied env.signatures s'.literals code
  | .int _ _, _ | .bool _ _, _ | .declare _ _, _ | .var _ _, _ => supplied_of_none rfl
  | .string literal _, _ => by
      refine List.forall_mem_singleton.2 (.data ?_)
      simp [CompileState.intern]
  | .assign value place _, .assign typedValue typedPlace _ _ =>
      ((((value.supplied typedValue).mono place.literals_kept).append
        (supplied_of_none rfl)).append (place.supplied typedPlace)).append (supplied_of_none rfl)
  | .call _ arguments _, .syscall _ typed _ =>
      (arguments.supplied typed).append (supplied_of_none (references_syscall _))
  | .call _ arguments _, .call other known typed _ => by
      refine (arguments.supplied typed).append ?_
      unfold Supplied
      rw [references_call other]
      exact List.forall_mem_singleton.2 (.routine known)
  | .binary first second _, .binary typedFirst typedSecond _ _ _ =>
      (((((first.supplied typedFirst).mono second.literals_kept).append
        (supplied_of_none rfl)).append (second.supplied typedSecond)).append
          (supplied_of_none rfl)).append (supplied_of_none (BinaryOp.references_code _))
  | .unary value _, .unary typed _ =>
      (value.supplied typed).append (supplied_of_none (UnaryOp.references_code _))
  | .cast place _ _ _, .cast typed _ _ => (place.supplied typed).append (supplied_of_none rfl)

/-- The same for the arguments of a call. -/
theorem ArgumentsCode.supplied {before after : List Var} {s s' : CompileState}
    {es : List Expr} {ts : List Ty} {code : List Instr} :
    ArgumentsCode s es code s' → TypedArguments env before es ts after →
      Supplied env.signatures s'.literals code
  | .nil, _ => supplied_of_none rfl
  | .cons argument others, .cons typed _ typedOthers =>
      (((argument.supplied typed).mono others.literals_kept).append
        (supplied_of_none rfl)).append (others.supplied typedOthers)

end

/-! ## Statements -/

/-- Every label that the lines refer to is supplied, or is one of those that stand there. -/
def Resolved (signatures : Signatures) (literals : List String) (standing : List Label)
    (lines : List Line) : Prop :=
  ∀ l ∈ referencesOf lines, l.Supplied signatures literals ∨ l ∈ standing

namespace Resolved

variable {standing others : List Label} {lines first second : List Line} {code : List Instr}

/-- Lines that are resolved stay so when there are more literals and more labels. -/
theorem mono (h : Resolved signatures literals standing lines) (hmore : literals <+: more)
    (hothers : ∀ l ∈ standing, l ∈ others) : Resolved signatures more others lines :=
  fun l hl => (h l hl).imp (fun hsupplied => hsupplied.mono hmore) (hothers l)

/-- Two resolved pieces are resolved together. -/
theorem append (hfirst : Resolved signatures literals standing first)
    (hsecond : Resolved signatures literals standing second) :
    Resolved signatures literals standing (first ++ second) := by
  unfold Resolved
  rw [referencesOf_append]
  exact List.forall_mem_append.2 ⟨hfirst, hsecond⟩

/-- Code that refers to nothing but what is supplied. -/
theorem of_supplied (h : Supplied signatures literals code) :
    Resolved signatures literals standing (codeLines code) := by
  unfold Resolved
  rw [referencesOf_codeLines]
  exact fun l hl => .inl (h l hl)

/-- Code that goes on at a label that stands there if a condition fails. -/
theorem test {target : Label} (h : Supplied signatures literals code)
    (htarget : target ∈ standing) :
    Resolved signatures literals standing (codeLines (code ++ unlessTrue target)) := by
  unfold Resolved
  rw [referencesOf_codeLines, codeReferences_append]
  refine List.forall_mem_append.2 ⟨fun l hl => .inl (h l hl), ?_⟩
  exact List.forall_mem_singleton.2 (.inr htarget)

/-- A label refers to nothing. -/
theorem label (l : Label) : Resolved signatures literals standing [.label l] :=
  List.forall_mem_nil _

/-- A jump to a label that stands there, and another label. -/
theorem jump {target : Label} (htarget : target ∈ standing) (l : Label) :
    Resolved signatures literals standing [.of (.jump target), .label l] :=
  List.forall_mem_singleton.2 (.inr htarget)

end Resolved

mutual

/-- The labels that the code of a typed statement refers to are supplied, or stand in it. -/
theorem StmtCode.resolved {f : Function} {before after : List Var} {s s' : CompileState}
    {stmt : Stmt} {lines : List Line} :
    StmtCode f s stmt lines s' → TypedStmt env before stmt after →
      Resolved env.signatures s'.literals (labelsOf lines) lines
  | .expression value, .expression typed => .of_supplied (value.supplied typed)
  | .ret, _ => .of_supplied (supplied_of_none f.references_epilogue)
  | .retValue value, .retValue _ typed =>
      .of_supplied ((value.supplied typed).append (supplied_of_none f.references_epilogue))
  | .ifThen test branch, .ifThen typedTest typedBranch => by
      have htest := (test.supplied typedTest).mono branch.literals_kept
      have hinner := branch.resolved typedBranch
      simp only [labelsOf_append]
      refine ((Resolved.test htest ?_).append (hinner.mono List.prefix_rfl ?_)).append (.label _)
      · simp [labelsOf]
      · intro l hl
        simp [hl]
  | .ifElse test branch other, .ifElse typedTest typedBranch typedOther => by
      have htest := (test.supplied typedTest).mono
        (branch.literals_kept.trans other.literals_kept)
      have hinner := branch.resolved typedBranch
      have hrest := other.resolved typedOther
      simp only [labelsOf_append]
      refine ((((Resolved.test htest ?_).append (hinner.mono other.literals_kept ?_)).append
        (.jump ?_ _)).append (hrest.mono List.prefix_rfl ?_)).append (.label _)
      · simp [labelsOf]
      · intro l hl
        simp [hl]
      · simp [labelsOf]
      · intro l hl
        simp [hl]
  | .loop test round, .loop typedTest typedRound => by
      have htest := (test.supplied typedTest).mono round.literals_kept
      have hinner := round.resolved typedRound
      simp only [labelsOf_append]
      refine (((Resolved.label _).append (.test htest ?_)).append
        (hinner.mono List.prefix_rfl ?_)).append (.jump ?_ _)
      · simp [labelsOf]
      · intro l hl
        simp [hl]
      · simp [labelsOf]
  | .block inner, .block typed => inner.resolved typed

/-- The same for a list of statements. -/
theorem BodyCode.resolved {f : Function} {before after : List Var} {s s' : CompileState}
    {stmts : List Stmt} {lines : List Line} :
    BodyCode f s stmts lines s' → TypedStmts env before stmts after →
      Resolved env.signatures s'.literals (labelsOf lines) lines
  | .nil, _ => List.forall_mem_nil _
  | .cons first others, .cons typedFirst typedOthers => by
      have hstart := first.resolved typedFirst
      have hothers := others.resolved typedOthers
      rw [labelsOf_append]
      exact (hstart.mono others.literals_kept fun l hl => List.mem_append_left _ hl).append
        (hothers.mono List.prefix_rfl fun l hl => List.mem_append_right _ hl)

end

/-! ## Programs -/

variable {p : Program} {f : Function} {r : Routine} {a : Assembly}

/-- The labels that a routine refers to are supplied, or stand in it. -/
theorem RoutineOf.resolved (h : RoutineOf literals f r) (hf : TypedFunction signatures f) :
    Resolved signatures literals (labelsOf r.lines) r.lines := by
  cases h with
  | builtin =>
      have hreferences : referencesOf printRoutine =
          [.inner "digit", .inner "digit", .inner "write"] := rfl
      intro l hl
      right
      rw [hreferences] at hl
      show l ∈ [Label.inner "digit", .inner "write"]
      simp only [List.mem_cons, List.not_mem_nil, or_false] at hl ⊢
      rcases hl with rfl | rfl | rfl <;> simp
  | @block before body s block _ compiled _ known =>
      have hcode := bodyCode_iff.1 compiled
      have hbody : Resolved signatures literals (labelsOf (codeLines f.prologue ++ body ++
          codeLines (if endsInReturn f.body then [] else f.epilogue))) body := by
        refine (hcode.resolved (hf.body block)).mono known fun l hl => ?_
        simp [labelsOf_append, hl]
      refine ((Resolved.of_supplied (supplied_of_none f.references_prologue)).append hbody).append
        (.of_supplied (supplied_of_none ?_))
      split
      · rfl
      · exact f.references_epilogue

/-- The labels of an assembly: those that stand among its lines, and those of its data. -/
def Assembly.labels (a : Assembly) : List Label :=
  labelsOf a.lines ++ (List.range a.literals.length).map .data

/-- The label of a function is there. -/
theorem AssemblyOf.routine_mem (ha : AssemblyOf p a) (hf : f ∈ p.functions) :
    .routine f.name ∈ a.labels := by
  obtain ⟨r, hr, hroutine⟩ := ha.routine f hf
  refine List.mem_append_left _ (Assembly.mem_labelsOf hr ?_)
  rw [hroutine.name_eq]
  exact List.mem_cons_self

/-- What is supplied is there. -/
theorem AssemblyOf.supplied_mem (ha : AssemblyOf p a)
    (hl : l.Supplied p.signatures a.literals) : l ∈ a.labels := by
  cases hl with
  | data known =>
      exact List.mem_append_right _ (List.mem_map.2 ⟨_, List.mem_range.2 known, rfl⟩)
  | routine known =>
      obtain ⟨f, hf, rfl, _⟩ := mem_of_signatures known
      exact ha.routine_mem hf

/-- **Every label that is referred to is there.** -/
theorem AssemblyOf.referenced_mem (ha : AssemblyOf p a) (hp : TypedProgram p) :
    ∀ l ∈ referencesOf a.lines, l ∈ a.labels := by
  intro l hl
  unfold Assembly.lines at hl
  rw [referencesOf_append] at hl
  rcases List.mem_append.1 hl with hl | hl
  · cases hentry : a.hasEntry with
    | false =>
        rw [hentry] at hl
        cases hl
    | true =>
        rw [hentry] at hl
        obtain rfl : l = .routine "main" := List.mem_singleton.1 hl
        rw [ha.entry] at hentry
        obtain ⟨main, hmain⟩ := Option.isSome_iff_exists.1 hentry
        obtain ⟨hmem, hname⟩ := function?_eq_some hmain
        exact hname ▸ ha.routine_mem hmem
  · unfold referencesOf at hl
    rw [List.filterMap_flatMap] at hl
    obtain ⟨r, hr, hl⟩ := List.mem_flatMap.1 hl
    have hl : l ∈ referencesOf r.lines := hl
    obtain ⟨f, hf, hroutine⟩ := ha.function r hr
    rcases hroutine.resolved (hp.each f hf) l hl with hsupplied | hstands
    · exact ha.supplied_mem hsupplied
    · exact List.mem_append_left _ (Assembly.mem_labelsOf hr (List.mem_cons_of_mem _ hstands))

end Slate
