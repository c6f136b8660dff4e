import Slate.Proofs.Compile.Coded
import Slate.Proofs.Compile.Definitions
import Slate.Proofs.Compile.Reckoning

/-!
# Balanced routines

The code of an expression leaves the stack as it was and never takes off what lay there before
(`ExprCode.shifts`).  So the lines of a statement keep to the level of the function, with
whatever returns within them (`StmtCode.levels`), and so does the routine behind its
prologue.  It ends with a return, since it has an epilogue at the end unless the last statement
is a return, which has one already.

Nothing here asks for types: whatever tree has code, the code is balanced.  Types come in where
jumps have to find their labels.
-/

namespace Slate

/-! ## Expressions -/

/-- The code leaves `n` words more on the stack, takes off nothing that lies below the base
meanwhile, and does not restore `ebp`. -/
structure Shifts (base : StackCount) (n : Int) (code : List Instr) : Prop where
  reckoned : ∀ c : StackCount, base.words ≤ c.words → base.words ≤ c.words + n →
    reckon base c (codeLines code) = some { c with words := c.words + n }
  keeps : .pop .ebp ∉ code

namespace Shifts

variable {base : StackCount} {n k : Int} {first second code : List Instr}

/-- Code that does not work on the stack. -/
theorem still (h : ∀ c, reckon base c (codeLines code) = some c) (hkeeps : .pop .ebp ∉ code) :
    Shifts base 0 code := by
  refine ⟨fun c _ _ => ?_, hkeeps⟩
  rw [h c, Int.add_zero]

/-- Code in two parts, of which the first one leaves words or the second one takes some. -/
theorem append (hfirst : Shifts base n first) (hsecond : Shifts base k second)
    (hbetween : 0 ≤ n ∨ k ≤ 0) : Shifts base (n + k) (first ++ second) := by
  refine ⟨fun c hc hboth => ?_, ?_⟩
  · -- between the parts the count is no lower than at one of the ends
    have hmiddle : base.words ≤ c.words + n := by omega
    rw [codeLines_append, reckon_append, hfirst.reckoned c hc hmiddle, Option.bind_some,
      hsecond.reckoned _ hmiddle (by show base.words ≤ c.words + n + k; omega), Int.add_assoc]
  · intro hmem
    rcases List.mem_append.1 hmem with h | h
    · exact hfirst.keeps h
    · exact hsecond.keeps h

/-- A push leaves one word more. -/
theorem push (src : Register) : Shifts base 1 [.push src] :=
  ⟨fun _ _ _ => rfl, by simp⟩

/-- A pop leaves one word less. -/
theorem pop {dst : Register} (hesp : dst ≠ .esp) (hebp : dst ≠ .ebp) :
    Shifts base (-1) [.pop dst] := by
  refine ⟨fun c _ hkept => ?_, by simpa using hebp.symm⟩
  rw [reckon_instr]
  exact Line.reckon_releases (Instr.counted_pop hesp hebp) hkept rfl

/-- Words that are taken off together. -/
theorem release (count : Nat) : Shifts base (-count) [.addConst .esp (4 * count)] := by
  refine ⟨fun c _ hkept => ?_, by simp⟩
  rw [reckon_instr]
  exact Line.reckon_releases (Instr.counted_release count) hkept rfl

/-- Registers other than `esp` and `ebp` that are popped one after the other. -/
theorem pops {registers : List Register} (h : ∀ r ∈ registers, r ≠ .esp ∧ r ≠ .ebp) :
    Shifts base (-registers.length) (registers.map .pop) := by
  induction registers with
  | nil => exact .still (fun _ => rfl) (by simp)
  | cons r registers ih =>
      obtain ⟨⟨hesp, hebp⟩, h⟩ := List.forall_mem_cons.1 h
      have hboth : Shifts base (-1 + -registers.length) ([.pop r] ++ registers.map .pop) :=
        (pop hesp hebp).append (ih h) (.inr (by omega))
      have hlength : (-((r :: registers).length : Int)) = -1 + -registers.length := by
        simp only [List.length_cons]
        omega
      rw [hlength]
      exact hboth

/-- An operand that waits on the stack for another one. -/
theorem joined (hfirst : Shifts base 0 first) (hsecond : Shifts base 0 second) :
    Shifts base 0 (first ++ [.push .eax] ++ second ++ [.pop .ecx]) := by
  have hwaits := (hfirst.append (push .eax) (.inl (by decide))).append hsecond (.inl (by decide))
  exact hwaits.append (pop (by decide) (by decide)) (.inl (by decide))

end Shifts

variable {base : StackCount}

/-- A binary operator leaves as many words as there were. -/
theorem BinaryOp.shifts_code (op : BinaryOp) : Shifts base 0 op.code := by
  cases op <;> exact .still (fun _ => rfl) (by decide)

/-- So does a unary one. -/
theorem UnaryOp.shifts_code (op : UnaryOp) : Shifts base 0 op.code := by
  cases op <;> exact .still (fun _ => rfl) (by decide)

/-- A call takes its arguments off the stack, a system call by popping them. -/
theorem shifts_callCode {name : String} {count : Nat}
    (hfew : name = syscallName → count ≤ syscallMaxArguments) :
    Shifts base (-count) (callCode name count) := by
  unfold callCode
  split
  · next hname =>
    have hcount : count ≤ syscallRegisters.length := hfew hname
    have hregisters : ∀ r ∈ (syscallRegisters.take count).reverse, r ≠ .esp ∧ r ≠ .ebp := by
      intro r hr
      have hall : ∀ r ∈ syscallRegisters, r ≠ .esp ∧ r ≠ .ebp := by decide
      exact hall r (List.mem_of_mem_take (List.mem_reverse.1 hr))
    have hsystem : Shifts base 0 [.systemCall] := .still (fun _ => rfl) (by decide)
    have hboth := (Shifts.pops hregisters).append hsystem (.inr (Int.le_refl 0))
    rwa [List.length_reverse, List.length_take, Nat.min_eq_left hcount, Int.add_zero] at hboth
  · split
    · next hnone =>
      rw [hnone]
      exact .still (fun _ => rfl) (by simp)
    · have hcall : Shifts base 0 [.call (.routine name)] := .still (fun _ => rfl) (by simp)
      have hboth := hcall.append (.release count) (.inl (Int.le_refl 0))
      rwa [Int.zero_add] at hboth

mutual

/-- **The code of an expression leaves the stack as it was.** -/
theorem ExprCode.shifts {s s' : CompileState} {e : Expr} {code : List Instr} :
    ExprCode s e code s' → Shifts base 0 code
  | .int _ _ | .bool _ _ | .string _ _ | .declare _ _ | .var _ _ =>
      .still (fun _ => rfl) (by simp)
  | .assign value place _ => by
      have hstore : Shifts base 0 [.store (.of .eax) .ecx] := .still (fun _ => rfl) (by simp)
      rw [show [Instr.pop .ecx, .store (.of .eax) .ecx] = [.pop .ecx] ++ [.store (.of .eax) .ecx]
        from rfl, ← List.append_assoc]
      exact (Shifts.joined value.shifts place.shifts).append hstore (.inl (Int.le_refl 0))
  | .call few arguments _ => by
      -- what the arguments leave is what the call takes off
      have hcall := arguments.shifts.append (shifts_callCode few) (.inl (by omega))
      rwa [Int.add_right_neg] at hcall
  | @ExprCode.binary _ _ _ _ _ op _ _ _ _ first second _ =>
      (Shifts.joined first.shifts second.shifts).append op.shifts_code (.inl (Int.le_refl 0))
  | @ExprCode.unary _ _ _ _ op _ _ value _ =>
      value.shifts.append op.shifts_code (.inl (Int.le_refl 0))
  | .cast place _ _ _ =>
      place.shifts.append (.still (fun _ => rfl) (by simp)) (.inl (Int.le_refl 0))

/-- Arguments leave one word each. -/
theorem ArgumentsCode.shifts {s s' : CompileState} {es : List Expr} {code : List Instr} :
    ArgumentsCode s es code s' → Shifts base es.length code
  | .nil => .still (fun _ => rfl) (by simp)
  | @ArgumentsCode.cons _ _ _ e es _ _ argument others => by
      have hothers : Shifts base es.length _ := others.shifts
      have hall := (argument.shifts.append (.push .eax) (.inl (by decide))).append hothers
        (.inl (by omega))
      rwa [show (0 : Int) + 1 + es.length = (e :: es).length by
        rw [List.length_cons]
        omega] at hall

end

/-! ## Statements -/

variable {f : Function} {lines first second : List Line} {code : List Instr}

/-- The lines keep to the level of the function, and restore `ebp` in epilogues only. -/
structure Function.Levels (f : Function) (lines : List Line) : Prop where
  reckoned : reckon f.level f.level lines = some f.level
  restores : f.Restores lines

namespace Function.Levels

/-- Two pieces keep to the level if each does. -/
theorem append (hfirst : f.Levels first) (hsecond : f.Levels second) :
    f.Levels (first ++ second) := by
  refine ⟨?_, hfirst.restores.append hsecond.restores⟩
  rw [reckon_append, hfirst.reckoned, Option.bind_some, hsecond.reckoned]

/-- Code that leaves the stack as it was. -/
theorem of_shifts (h : Shifts f.level 0 code) : f.Levels (codeLines code) := by
  refine ⟨?_, restores_code h.keeps⟩
  have hreckoned := h.reckoned f.level (Int.le_refl _) (by omega)
  rwa [Int.add_zero] at hreckoned

/-- Lines that do not restore `ebp`. -/
theorem plain (hreckoned : reckon f.level f.level lines = some f.level)
    (hnone : ∀ remark, .instr (.pop .ebp) remark ∉ lines) : f.Levels lines :=
  ⟨hreckoned, restores_of_none hnone⟩

/-- A label keeps to the level. -/
theorem label (l : Label) : f.Levels [.label l] :=
  .plain (by simp [reckon, Line.reckon]) (by simp)

/-- A jump, and a label behind it. -/
theorem jump {target : Label} (htarget : target.isControl = true) (l : Label) :
    f.Levels [.of (.jump target), .label l] :=
  .plain (by simp [reckon, Line.reckon, Line.of, htarget]) (by simp [Line.of])

/-- A condition, and a jump if it fails. -/
theorem test (h : Shifts f.level 0 code) {target : Label} (htarget : target.isControl = true) :
    f.Levels (codeLines (code ++ unlessTrue target)) := by
  have hcompare : Shifts f.level 0 [.compareByteConst .al 1] := .still (fun _ => rfl) (by simp)
  have hcode := of_shifts (h.append hcompare (.inl (Int.le_refl 0)))
  have hjump : f.Levels [.of (.jumpIf .notEqual target)] :=
    .plain (by simp [reckon, Line.reckon, Line.of, htarget]) (by simp [Line.of])
  have hboth := hcode.append hjump
  simpa [unlessTrue, codeLines] using hboth

/-- An epilogue undoes the frame. -/
theorem epilogue (f : Function) : f.Levels (codeLines f.epilogue) := by
  refine ⟨?_, fun n remark hline => ?_⟩
  · unfold Function.epilogue level
    split <;> rfl
  · have hn := (List.getElem?_eq_some_iff.1 hline).1
    rw [length_codeLines] at hn
    exact ⟨[], [], by simp, Nat.zero_le n, by simpa using hn⟩

end Function.Levels

mutual

/-- **The lines of a statement keep to the level of the function.** -/
theorem StmtCode.levels {s s' : CompileState} {stmt : Stmt} {lines : List Line} :
    StmtCode f s stmt lines s' → f.Levels lines
  | .expression value => .of_shifts value.shifts
  | .ret => .epilogue f
  | .retValue value => by
      rw [codeLines_append]
      exact (Function.Levels.of_shifts value.shifts).append (.epilogue f)
  | .ifThen test branch =>
      ((Function.Levels.test test.shifts rfl).append branch.levels).append (.label _)
  | .ifElse test branch other =>
      ((((Function.Levels.test test.shifts rfl).append branch.levels).append
        (.jump rfl _)).append other.levels).append (.label _)
  | .loop test round =>
      (((Function.Levels.label _).append (.test test.shifts rfl)).append round.levels).append
        (.jump rfl _)
  | .block inner => inner.levels

/-- The same for a list of statements. -/
theorem BodyCode.levels {s s' : CompileState} {stmts : List Stmt} {lines : List Line} :
    BodyCode f s stmts lines s' → f.Levels lines
  | .nil => .plain rfl (by simp)
  | .cons first others => first.levels.append others.levels

end

/-! ## Routines -/

/-- The prologue sets up the level of the function. -/
theorem Function.reckon_prologue (f : Function) :
    reckon f.level .entry (codeLines f.prologue) = some f.level := by
  unfold prologue level
  split
  · rw [codeLines_append, reckon_append]
    have hmarked : reckon ⟨1 + f.locals.length, some 1⟩ .entry
        (codeLines [.push .ebp, .move .ebp .esp]) = some ⟨1, some 1⟩ := rfl
    rw [hmarked, Option.bind_some]
    cases f.locals with
    | nil => rfl
    | cons v vs =>
        rw [if_neg (by simp), reckon_instr]
        simp only [Line.of, Line.reckon, Instr.counted_reserve]
        rfl
  · rfl

/-- The beginning of a function does not restore the frame. -/
theorem Function.prologue_keeps (f : Function) : .pop .ebp ∉ f.prologue := by
  unfold prologue
  split
  · split <;> simp
  · simp

/-- An epilogue ends with a return. -/
theorem Function.epilogue_ends (f : Function) :
    ∃ before, codeLines f.epilogue = before ++ [.of .ret] := by
  unfold epilogue
  split
  · exact ⟨codeLines [.move .esp .ebp, .pop .ebp], rfl⟩
  · exact ⟨[], rfl⟩

/-- The lines of a return end with an epilogue. -/
theorem StmtCode.ends {span : Span} {value : Option Expr} {s s' : CompileState}
    (h : StmtCode f s (.ret span value) lines s') :
    ∃ before, lines = before ++ codeLines f.epilogue := by
  cases h with
  | ret => exact ⟨[], rfl⟩
  | @retValue _ _ _ _ code _ => exact ⟨codeLines code, codeLines_append _ _⟩

/-- So do those of a body that ends in a return. -/
theorem BodyCode.ends {stmts : List Stmt} {s s' : CompileState} (h : BodyCode f s stmts lines s')
    (hends : endsInReturn stmts = true) : ∃ before, lines = before ++ codeLines f.epilogue := by
  induction stmts generalizing s lines with
  | nil => cases hends
  | cons stmt stmts ih =>
      cases h with
      | @cons _ _ _ _ _ first _ code others =>
          cases stmts with
          | nil =>
              cases others
              cases stmt with
              | ret span value =>
                  obtain ⟨before, hbefore⟩ := code.ends
                  exact ⟨before, by rw [hbefore, List.append_nil]⟩
              | _ => cases hends
          | cons next stmts =>
              obtain ⟨before, rfl⟩ := ih others hends
              exact ⟨first ++ before, (List.append_assoc _ _ _).symm⟩

/-- The last line of a routine is a return. -/
theorem BodyCode.returns {stmts : List Stmt} {s s' : CompileState}
    (h : BodyCode f s stmts lines s') :
    ∃ before, lines ++ codeLines (if endsInReturn stmts then [] else f.epilogue) =
      before ++ [.of .ret] := by
  obtain ⟨undo, hundo⟩ := f.epilogue_ends
  cases hends : endsInReturn stmts with
  | true =>
      obtain ⟨before, rfl⟩ := h.ends hends
      refine ⟨before ++ undo, ?_⟩
      rw [if_pos rfl, hundo]
      simp [codeLines]
  | false =>
      refine ⟨lines ++ undo, ?_⟩
      rw [if_neg Bool.false_ne_true, hundo, List.append_assoc]

/-- A label of control flow stands on one line. -/
theorem Numbered.lands {name : String} {low high : Nat} {l : Label}
    (h : Numbered name low high lines) (hl : l ∈ labelsOf lines) :
    ∃ k, Lands lines l k ∧ ∀ k', Lands lines l k' → k' = k := by
  have honce : ∀ j k : Nat, lines[j]? = some (.label l) → lines[k]? = some (.label l) →
      ¬ j < k := by
    intro j k hj hk hlt
    obtain ⟨hjlt, hj⟩ := List.getElem?_eq_some_iff.1 hj
    obtain ⟨hklt, hk⟩ := List.getElem?_eq_some_iff.1 hk
    have hapart := List.pairwise_iff_getElem.1 (List.pairwise_filterMap.1 h.distinct)
    exact hapart j k hjlt hklt hlt l (by rw [hj]) l (by rw [hk]) rfl
  have hsame : ∀ k, Lands lines l k → lines[k]? = some (.label l) := by
    rintro k ⟨other, hother, hnames⟩
    have hmem : other ∈ labelsOf lines :=
      List.mem_filterMap.2 ⟨_, List.mem_of_getElem? hother, rfl⟩
    -- labels are found by their keys, and those of one function's numbers differ in theirs
    obtain ⟨_, _, rfl, _⟩ := h.each l hl
    obtain ⟨_, _, rfl, _⟩ := h.each other hmem
    obtain ⟨-, rfl, rfl⟩ := Label.key_control (Label.names_iff.1 hnames)
    exact hother
  obtain ⟨line, hline, hlabel⟩ := List.mem_filterMap.1 hl
  obtain ⟨k, hk⟩ := List.getElem?_of_mem hline
  cases line with
  | instr _ _ => cases hlabel
  | label _ =>
      cases hlabel
      refine ⟨k, ⟨l, hk, Label.names_self l⟩, fun k' hk' => ?_⟩
      have hbefore := honce k' k (hsame k' hk') hk
      have hbehind := honce k k' hk (hsame k' hk')
      omega

section

variable {signatures : Signatures} {literals : List String} {r : Routine}

/-- The routine of a typed function is balanced. -/
theorem RoutineOf.balances (h : RoutineOf literals f r) (hf : TypedFunction signatures f)
    (hblock : f.builtin = false) : f.Balances r.lines := by
  have hresolved := h.resolved hf
  obtain ⟨high, hnumbered⟩ := h.numbered hblock
  cases h with
  | builtin builtin _ =>
      rw [hblock] at builtin
      cases builtin
  | @block _ body s _ _ compiled _ _ =>
      have hending : f.Levels (codeLines (if endsInReturn f.body then [] else f.epilogue)) := by
        split
        · exact .plain rfl (by simp [codeLines])
        · exact .epilogue f
      have hcode := bodyCode_iff.1 compiled
      have hlevels := hcode.levels.append hending
      obtain ⟨before, hbefore⟩ := hcode.returns
      rw [hbefore] at hlevels
      simp only [List.append_assoc] at hresolved hnumbered ⊢
      rw [hbefore, ← List.append_assoc] at hresolved hnumbered ⊢
      have hreckoned : reckon f.level .entry (codeLines f.prologue ++ before ++ [.of .ret]) =
          some f.level := by
        rw [List.append_assoc, reckon_append, f.reckon_prologue]
        exact hlevels.reckoned
      have hrestores : f.Restores (codeLines f.prologue ++ before ++ [.of .ret]) := by
        rw [List.append_assoc]
        exact (Function.restores_code f.prologue_keeps).append hlevels.restores
      refine Function.balances hreckoned hrestores fun l hl hcontrol => ?_
      rcases hresolved l hl with hsupplied | hstands
      · -- what other code supplies is a routine or a literal, and no label of control flow
        cases hsupplied <;> cases hcontrol
      · exact hnumbered.lands hstands

end

/-- **Routines are balanced.**  In the assembly of an accepted program, the routine of every
function with a body keeps the stack balanced on every path. -/
theorem routines_balance {source : String} {file : Option String} {p : Program} {a : Assembly}
    (haccepted : frontEnd source file = .ok p) (hcompiled : p.compile = .ok a)
    (hf : f ∈ p.functions) (hblock : f.builtin = false) :
    ∃ r ∈ a.routines, r.name = f.name ∧ f.Balances r.lines := by
  have hp := frontEnd_typed haccepted
  obtain ⟨r, hr, hroutine⟩ := (hp.assemblyOf hcompiled).routine f hf
  exact ⟨r, hr, hroutine.name_eq, hroutine.balances (hp.each f hf) hblock⟩

/-- A function with a loop, branches, returns within them, a call and a system call. -/
def countdownSource : String :=
  "i32 f(a: i32) \x7b var n: i32 = a; while (n != 0) \x7b if (n == 1) \x7b " ++
    "return f(n - 1) * 2; \x7d else \x7b n = n - 1; \x7d \x7d " ++
    "syscall(4, 1, \"done\", 4); \x7d"

/-- Its routine is balanced on all of its eighty lines. -/
theorem routines_balance_countdown :
    ∃ p a f, frontEnd countdownSource none = .ok p ∧
      p.compile = .ok a ∧ p.function? "f" = some f ∧
      ∃ r ∈ a.routines, r.name = f.name ∧ f.Balances r.lines ∧ r.lines.length = 80 := by
  have hcheck : (frontEnd countdownSource none).toOption.any (fun p =>
      p.compile.toOption.any fun a => (p.function? "f").any fun f =>
        !f.builtin && a.routines.all fun r => r.lines.length = 80) = true := by
    decide +kernel
  obtain ⟨p, haccepted, hcheck⟩ := (Option.any_eq_true _ _).1 hcheck
  obtain ⟨a, hcompiled, hcheck⟩ := (Option.any_eq_true _ _).1 hcheck
  obtain ⟨f, hfound, hcheck⟩ := (Option.any_eq_true _ _).1 hcheck
  rw [Bool.and_eq_true, Bool.not_eq_true'] at hcheck
  obtain ⟨hblock, hlength⟩ := hcheck
  have haccepted := toOption_eq_some.1 haccepted
  have hcompiled := toOption_eq_some.1 hcompiled
  obtain ⟨r, hr, hname, hbalances⟩ :=
    routines_balance haccepted hcompiled (function?_eq_some hfound).1 hblock
  have hlines := of_decide_eq_true (List.all_eq_true.1 hlength r hr)
  exact ⟨p, a, f, haccepted, hcompiled, hfound, r, hr, hname, hbalances, hlines⟩

end Slate
