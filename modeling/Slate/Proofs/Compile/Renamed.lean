import Slate.Proofs.Compile.Coded
import Slate.Proofs.Compile.Programs
import Slate.Proofs.Tree.Renamed

/-!
# Compiled code does not depend on names of variables

The compiler keeps an offset for every name.  Under an injective renaming the offsets stay
with their names, so a lookup finds the same offset, and code shows offsets only.  The rules
by which code is put together (`ExprCode`, `StmtCode`) therefore put together the same code
for the renamed tree, between the renamed states.
-/

namespace Slate

variable {g : String → String}

/-! ## States -/

/-- The state with other names for the variables that have offsets. -/
def CompileState.renamed (g : String → String) (s : CompileState) : CompileState :=
  { s with offsets := s.offsets.map (Prod.map g id) }

/-- A variable has its offset under its new name. -/
theorem lookup_renamed (hg : Function.Injective g) (offsets : List (String × Int))
    (name : String) : (offsets.map (Prod.map g id)).lookup (g name) = offsets.lookup name := by
  induction offsets with
  | nil => rfl
  | cons entry offsets ih =>
      obtain ⟨x, offset⟩ := entry
      have hsame : (g name == g x) = (name == x) := by
        rw [Bool.eq_iff_iff, beq_iff_eq, beq_iff_eq]
        exact hg.eq_iff
      rw [List.map_cons, Prod.map_apply, List.lookup_cons, List.lookup_cons, hsame, ih]
      rfl

/-- Parameters keep their offsets. -/
theorem argumentOffsets_renamed (count : Nat) :
    ∀ (vars : List Var) (index : Nat), argumentOffsets count index (vars.map (Var.renamed g)) =
      (argumentOffsets count index vars).map (Prod.map g id)
  | [], _ => rfl
  | v :: vs, index => by
      rw [List.map_cons, argumentOffsets, argumentOffsets, argumentOffsets_renamed count vs,
        List.map_append]
      rfl

/-- A renamed function is begun in the renamed state. -/
theorem CompileState.start_renamed (f : Function) (literals : List String) :
    CompileState.start (f.renamed g) literals = (CompileState.start f literals).renamed g := by
  unfold CompileState.start CompileState.renamed
  show CompileState.mk (argumentOffsets (f.arguments.map (Var.renamed g)).length 0
    (f.arguments.map (Var.renamed g))) 0 0 literals = _
  rw [List.length_map, argumentOffsets_renamed]

/-! ## Expressions -/

mutual

/-- **A renamed expression has the same code.** -/
theorem ExprCode.renamed (hg : Function.Injective g) {s s' : CompileState} {e : Expr}
    {code : List Instr} :
    ExprCode s e code s' → ExprCode (s.renamed g) (e.renamed g) code (s'.renamed g)
  | .int i noted => .int i noted
  | .bool b noted => .bool b noted
  | .string literal noted => .string literal noted
  | .declare v noted => .declare (v.renamed g) noted
  | .var known noted => .var ((lookup_renamed hg _ _).trans known) noted
  | .assign value place noted => .assign (value.renamed hg) (place.renamed hg) noted
  | @ExprCode.call _ _ n t name args pushes few arguments noted => by
      rw [Expr.renamed, ← length_renamedArguments (g := g) args]
      rw [← length_renamedArguments (g := g) args] at few
      exact .call few (arguments.renamed hg) noted
  | .binary first second noted => .binary (first.renamed hg) (second.renamed hg) noted
  | .unary value noted => .unary (value.renamed hg) noted
  | @ExprCode.cast _ _ n target source operand code place noted holds reference =>
      .cast (place.renamed hg) noted (operand.note_renamed ▸ holds) reference

/-- The same for the arguments of a call. -/
theorem ArgumentsCode.renamed (hg : Function.Injective g) {s s' : CompileState} {es : List Expr}
    {code : List Instr} :
    ArgumentsCode s es code s' →
      ArgumentsCode (s.renamed g) (renamedArguments g es) code (s'.renamed g)
  | .nil => .nil
  | .cons argument others => .cons (argument.renamed hg) (others.renamed hg)

end

/-! ## Statements -/

variable {f : Function}

/-- A renamed function has a frame exactly if it had one. -/
theorem Function.hasFrame_renamed : (f.renamed g).hasFrame = f.hasFrame := by
  unfold Function.hasFrame Function.renamed
  simp only [List.isEmpty_map]

/-- It ends as it did. -/
theorem Function.epilogue_renamed : (f.renamed g).epilogue = f.epilogue := by
  unfold Function.epilogue
  rw [Function.hasFrame_renamed]

/-- It begins as it did. -/
theorem Function.prologue_renamed : (f.renamed g).prologue = f.prologue := by
  unfold Function.prologue
  rw [Function.hasFrame_renamed]
  simp only [Function.renamed, List.isEmpty_map, List.length_map]

mutual

/-- **A renamed statement has the same lines.** -/
theorem StmtCode.renamed (hg : Function.Injective g) {s s' : CompileState} {stmt : Stmt}
    {lines : List Line} :
    StmtCode f s stmt lines s' →
      StmtCode (f.renamed g) (s.renamed g) (stmt.renamed g) lines (s'.renamed g)
  | .expression value => .expression (value.renamed hg)
  | .ret => by
      rw [← Function.epilogue_renamed (g := g)]
      exact .ret
  | .retValue value => by
      rw [← Function.epilogue_renamed (g := g)]
      exact .retValue (value.renamed hg)
  | @StmtCode.ifThen _ _ s₁ _ span _ _ _ _ test branch =>
      @StmtCode.ifThen _ _ (s₁.renamed g) _ span _ _ _ _ (test.renamed hg) (branch.renamed hg)
  | @StmtCode.ifElse _ _ s₁ s₂ _ span _ _ _ _ _ _ test branch other =>
      @StmtCode.ifElse _ _ (s₁.renamed g) (s₂.renamed g) _ span _ _ _ _ _ _ (test.renamed hg)
        (branch.renamed hg) (other.renamed hg)
  | .loop test round => .loop (test.renamed hg) (round.renamed hg)
  | .block inner => .block (inner.renamed hg)

/-- The same for a list of statements. -/
theorem BodyCode.renamed (hg : Function.Injective g) {s s' : CompileState} {stmts : List Stmt}
    {lines : List Line} :
    BodyCode f s stmts lines s' →
      BodyCode (f.renamed g) (s.renamed g) (renamedBody g stmts) lines (s'.renamed g)
  | .nil => .nil
  | .cons first others => .cons (first.renamed hg) (others.renamed hg)

end

/-! ## Programs -/

/-- Whether a body ends in a return does not depend on names. -/
theorem endsInReturn_renamed (body : List Stmt) :
    endsInReturn (renamedBody g body) = endsInReturn body := by
  unfold endsInReturn
  rw [renamedBody_eq_map, List.getLast?_map]
  cases body.getLast? with
  | none => rfl
  | some s => cases s <;> rfl

/-- **A well-typed function has the same routine under other names**, or lacks one as before. -/
theorem Function.compile_renamed {signatures : Signatures} (hf : TypedFunction signatures f)
    (hg : Function.Injective g) (literals : List String) :
    (f.renamed g).compile literals = f.compile literals := by
  cases hblock : f.builtin with
  | true =>
      have hblock' : (f.renamed g).builtin = true := hblock
      unfold Function.compile
      rw [if_pos hblock, if_pos hblock']
      rfl
  | false =>
      obtain ⟨r, final, hcompiled, _⟩ :=
        f.compile_ok hf (fun hbuiltin => Bool.noConfusion (hblock.symm.trans hbuiltin)) literals
      rw [hcompiled]
      unfold Function.compile at hcompiled ⊢
      rw [if_neg (Bool.eq_false_iff.1 hblock)] at hcompiled
      obtain ⟨⟨body, s⟩, hbody, hrest⟩ := bind_eq_ok.1 hcompiled
      have hrenamed := ((bodyCode_iff.1 hbody).renamed hg).compiles
      rw [← CompileState.start_renamed] at hrenamed
      have hbody' : compileStmts (f.renamed g) (.start (f.renamed g) literals)
        (f.renamed g).body = .ok (body, s.renamed g) := hrenamed
      have hblock' : (f.renamed g).builtin = false := hblock
      have hending : endsInReturn (f.renamed g).body = endsInReturn f.body :=
        endsInReturn_renamed f.body
      rw [if_neg (Bool.eq_false_iff.1 hblock'), hbody', hending, Function.prologue_renamed,
        Function.epilogue_renamed]
      exact hrest

/-- So the routines of a renamed program are the ones it had. -/
theorem compileFunctions_renamed {signatures : Signatures} {ρ : String → String → String}
    {fs : List Function} (hfs : ∀ f ∈ fs, TypedFunction signatures f)
    (hρ : ∀ f ∈ fs, Function.Injective (ρ f.name)) :
    ∀ literals, compileFunctions literals (fs.map fun f => f.renamed (ρ f.name)) =
      compileFunctions literals fs := by
  induction fs with
  | nil => exact fun literals => rfl
  | cons f fs ih =>
      obtain ⟨hf, hrest⟩ := List.forall_mem_cons.1 hfs
      obtain ⟨hg, hothers⟩ := List.forall_mem_cons.1 hρ
      intro literals
      rw [List.map_cons, compileFunctions, compileFunctions, Function.compile_renamed hf hg]
      simp only [ih hrest hothers]

/-- **A well-typed program has the same assembly under other names**, or the same error. -/
theorem TypedProgram.assemblyText_renamed {p : Program} (hp : TypedProgram p)
    {ρ : String → String → String} (hρ : ∀ f ∈ p.functions, Function.Injective (ρ f.name)) :
    (p.renamed ρ).assemblyText = p.assemblyText := by
  have hmain : (p.renamed ρ).hasMain = p.hasMain := by
    unfold Program.hasMain
    rw [p.function?_renamed, Option.isSome_map]
  have hfunctions : compileFunctions [] (p.renamed ρ).functions = compileFunctions [] p.functions :=
    compileFunctions_renamed hp.each hρ []
  unfold Program.assemblyText Program.compile
  rw [hmain, hfunctions]

end Slate
