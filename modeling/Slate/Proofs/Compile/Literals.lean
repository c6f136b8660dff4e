import Slate.Proofs.Compile.Written

/-!
# String literals

Every string literal of a program has a data line of its own, also if it occurs twice.  The
lines are numbered in the order in which the code of the literals stands in the text: function
by function, statement by statement, and within an expression in the order in which operands
are evaluated.  The compiler threads the literals met so far through all of them, and the code
of a literal loads the address of the line that is opened there (`Interns`).

The data section is what an assembler reads it as: for every literal its label, and its bytes
with a zero behind them.  And where a program comes from a source text, the loads can be seen
among the lines of the text that it compiles to, for which names have to be words.

* `literals_reach_data` — all of this, for every program that compiles.
-/

namespace Slate

/-! ## The literals of a tree -/

mutual

/-- The string literals of an expression, in the order in which they are evaluated. -/
def Expr.strings : Expr → List String
  | .literal _ (.string s) => [s]
  | .literal _ _ | .declare _ _ | .var _ _ => []
  | .assign _ left right => right.strings ++ left.strings
  | .call _ _ args => argumentStrings args
  | .binary _ _ left right => left.strings ++ right.strings
  | .unary _ _ operand | .cast _ operand => operand.strings

/-- The string literals of arguments. -/
def argumentStrings : List Expr → List String
  | [] => []
  | e :: es => e.strings ++ argumentStrings es

end

/-- The strings of arguments are those of each argument. -/
theorem argumentStrings_eq (es : List Expr) : argumentStrings es = es.flatMap Expr.strings := by
  induction es with
  | nil => rfl
  | cons e es ih => rw [argumentStrings, ih, List.flatMap_cons]

/-- What is no literal itself has the literals of its operands, in the order in which they are
evaluated. -/
theorem Expr.strings_operands {e : Expr} (h : ∀ n s, e ≠ .literal n (.string s)) :
    e.strings = e.operands.flatMap Expr.strings := by
  cases e with
  | literal n value =>
      cases value with
      | string s => exact (h n s rfl).elim
      | _ => rfl
  | call n name args => exact argumentStrings_eq args
  | _ => simp [Expr.strings, Expr.operands]

mutual

/-- The string literals of a statement, in the order of the text. -/
def Stmt.strings : Stmt → List String
  | .expression _ e | .ret _ (some e) => e.strings
  | .ret _ none => []
  | .ifThen _ condition body => condition.strings ++ bodyStrings body
  | .ifElse _ condition body otherwise =>
    condition.strings ++ bodyStrings body ++ otherwise.strings
  | .loop _ condition body => condition.strings ++ bodyStrings body
  | .block _ body => bodyStrings body

/-- The string literals of the statements of a body. -/
def bodyStrings : List Stmt → List String
  | [] => []
  | stmt :: stmts => stmt.strings ++ bodyStrings stmts

end

/-- The string literals of a function; a builtin has no body that code is made of. -/
def Function.strings (f : Function) : List String := if f.builtin then [] else bodyStrings f.body

/-- The string literals of a program, in the order of its functions. -/
def Program.strings (p : Program) : List String := p.functions.flatMap Function.strings

/-! ## Loads of addresses -/

/-- Whether an instruction loads the address of a label. -/
def Instr.loadsLabel : Instr → Bool
  | .moveLabel _ _ => true
  | _ => false

/-- The instructions among the lines that load the address of a label, in order. -/
def loadsOf (lines : List Line) : List Instr :=
  lines.filterMap fun
    | .label _ => none
    | .instr i _ => if i.loadsLabel then some i else none

/-- Loads of data lines, `count` of them from number `first` on. -/
def dataLoads (first count : Nat) : List Instr :=
  (List.range' first count).map fun n => .moveLabel .eax (.data n)

/-- The loads of two pieces are those of the first and those of the second. -/
theorem loadsOf_append (first second : List Line) :
    loadsOf (first ++ second) = loadsOf first ++ loadsOf second :=
  List.filterMap_append

/-- Data loaded in two runs is loaded in one. -/
theorem dataLoads_append (first count more : Nat) :
    dataLoads first count ++ dataLoads (first + count) more = dataLoads first (count + more) := by
  unfold dataLoads
  rw [← List.map_append, List.range'_append_1]

variable {s s' s'' : CompileState} {literals strings more : List String}
  {lines rest : List Line} {code : List Instr} {f : Function}

/-- Between two states of the compiler some literals are met, and the lines that are made load
their data lines, one after the other. -/
structure Interns (s : CompileState) (strings : List String) (lines : List Line)
    (s' : CompileState) : Prop where
  literals : s'.literals = s.literals ++ strings
  loads : loadsOf lines = dataLoads s.literals.length strings.length

namespace Interns

/-- Lines without literals; the state may change otherwise. -/
theorem none (hloads : loadsOf lines = []) (hliterals : s'.literals = s.literals) :
    Interns s [] lines s' :=
  ⟨by rw [hliterals, List.append_nil], hloads⟩

/-- Two pieces intern what the first does and then what the second does. -/
theorem append (hfirst : Interns s strings lines s') (hsecond : Interns s' more rest s'') :
    Interns s (strings ++ more) (lines ++ rest) s'' := by
  refine ⟨?_, ?_⟩
  · rw [hsecond.literals, hfirst.literals, List.append_assoc]
  · rw [loadsOf_append, hfirst.loads, hsecond.loads, hfirst.literals, List.length_append,
      List.length_append, dataLoads_append]

/-- Lines without literals behind others. -/
theorem before (h : Interns s strings lines s') (hloads : loadsOf rest = []) :
    Interns s strings (lines ++ rest) s' := by
  have hboth := h.append (none (s := s') hloads rfl)
  rwa [List.append_nil] at hboth

/-- Lines without literals in front of others. -/
theorem behind (h : Interns s strings lines s') (hloads : loadsOf rest = []) :
    Interns s strings (rest ++ lines) s' :=
  (none (s := s) hloads rfl).append h

/-- Numbers of labels make no difference. -/
theorem label {count : Nat} (h : Interns (s.label count) strings lines s') :
    Interns s strings lines s' :=
  ⟨h.literals, h.loads⟩

/-- A condition, and a jump if it fails. -/
theorem test (h : Interns s strings (codeLines code) s') (target : Label) :
    Interns s strings (codeLines (code ++ unlessTrue target)) s' := by
  rw [codeLines_append]
  exact h.before rfl

end Interns

/-! ## Expressions -/

/-- A binary operator loads no data. -/
theorem BinaryOp.loads_code (op : BinaryOp) : loadsOf (codeLines op.code) = [] := by
  cases op <;> rfl

/-- Nor does a unary one. -/
theorem UnaryOp.loads_code (op : UnaryOp) : loadsOf (codeLines op.code) = [] := by
  cases op <;> rfl

/-- Nor does a call made. -/
theorem loads_callCode (name : String) (count : Nat) :
    loadsOf (codeLines (callCode name count)) = [] := by
  have hpops : ∀ registers : List Register, loadsOf (codeLines (registers.map .pop)) = [] := by
    intro registers
    induction registers with
    | nil => rfl
    | cons r registers ih => exact ih
  unfold callCode
  split
  · rw [codeLines_append, loadsOf_append, hpops]
    rfl
  · split <;> rfl

mutual

/-- The code of an expression loads its literals. -/
theorem ExprCode.interns {s s' : CompileState} {e : Expr} {code : List Instr} :
    ExprCode s e code s' → Interns s e.strings (codeLines code) s'
  | .int _ _ | .bool _ _ | .declare _ _ | .var _ _ => .none rfl rfl
  | .string _ _ => ⟨rfl, rfl⟩
  | .assign value place _ => by
      simp only [codeLines_append, List.append_assoc]
      exact value.interns.append ((place.interns.before rfl).behind rfl)
  | .call _ arguments _ => by
      rw [codeLines_append]
      exact arguments.interns.before (loads_callCode _ _)
  | @ExprCode.binary _ _ _ _ _ op _ _ _ _ first second _ => by
      simp only [codeLines_append, List.append_assoc]
      refine first.interns.append ((second.interns.before ?_).behind rfl)
      rw [loadsOf_append, op.loads_code]
      rfl
  | .unary value _ => by
      rw [codeLines_append]
      exact value.interns.before (UnaryOp.loads_code _)
  | .cast place _ _ _ => by
      rw [codeLines_append]
      exact place.interns.before rfl

/-- The same for the arguments of a call. -/
theorem ArgumentsCode.interns {s s' : CompileState} {es : List Expr} {code : List Instr} :
    ArgumentsCode s es code s' → Interns s (argumentStrings es) (codeLines code) s'
  | .nil => .none rfl rfl
  | .cons argument others => by
      simp only [codeLines_append, List.append_assoc]
      exact argument.interns.append (others.interns.behind rfl)

end

/-! ## Statements -/

/-- What a function begins with loads no data. -/
theorem Function.loads_prologue (f : Function) : loadsOf (codeLines f.prologue) = [] := by
  unfold prologue
  split
  · split <;> rfl
  · rfl

/-- Nor does what it ends with. -/
theorem Function.loads_epilogue (f : Function) : loadsOf (codeLines f.epilogue) = [] := by
  unfold epilogue
  split <;> rfl

mutual

/-- The lines of a statement load its literals. -/
theorem StmtCode.interns {s s' : CompileState} {stmt : Stmt} {lines : List Line} :
    StmtCode f s stmt lines s' → Interns s stmt.strings lines s'
  | .expression value => value.interns
  | .ret => .none f.loads_epilogue rfl
  | .retValue value => by
      rw [codeLines_append]
      exact value.interns.before f.loads_epilogue
  | .ifThen test branch => ((test.interns.test _).append branch.interns.label).before rfl
  | .ifElse test branch other =>
      ((((test.interns.test _).append branch.interns.label).before rfl).append
        other.interns).before rfl
  | @StmtCode.loop _ s _ _ _ _ _ _ _ test round => by
      have hround := (test.interns.test (.control f.name .whileEnd (s.labels + 1))).append
        round.interns
      rw [List.append_assoc [Line.label _]]
      exact (hround.label.behind rfl).before rfl
  | .block inner => inner.interns

/-- The same for a list of statements. -/
theorem BodyCode.interns {s s' : CompileState} {stmts : List Stmt} {lines : List Line} :
    BodyCode f s stmts lines s' → Interns s (bodyStrings stmts) lines s'
  | .nil => .none rfl rfl
  | .cons first others => first.interns.append others.interns

end

/-! ## Programs -/

variable {p : Program} {a : Assembly} {fs : List Function} {rs : List Routine} {r : Routine}
  {final : List String}

/-- The routine of a function loads its literals. -/
theorem Function.compile_interns (h : f.compile literals = .ok (r, final)) :
    final = literals ++ f.strings ∧ r.name = f.name ∧
      loadsOf r.lines = dataLoads literals.length f.strings.length := by
  unfold Function.compile at h
  unfold Function.strings
  split at h
  · next hbuiltin =>
    rw [if_pos hbuiltin]
    split at h
    · cases h
      exact ⟨(List.append_nil _).symm, rfl, rfl⟩
    · cases h
  · next hblock =>
    rw [if_neg hblock]
    obtain ⟨⟨body, s⟩, hbody, h⟩ := bind_eq_ok.1 h
    cases h
    have hbody := (bodyCode_iff.1 hbody).interns
    have hending : loadsOf (codeLines (if endsInReturn f.body then [] else f.epilogue)) = [] := by
      split
      · rfl
      · exact f.loads_epilogue
    have hall := (hbody.behind f.loads_prologue).before hending
    exact ⟨hall.literals, rfl, hall.loads⟩

/-- The routines of functions load their literals, each behind those of the functions before. -/
theorem compileFunctions_interns (h : compileFunctions literals fs = .ok (rs, final)) :
    final = literals ++ fs.flatMap Function.strings ∧
      ∀ n f, fs[n]? = some f → ∃ r, rs[n]? = some r ∧ r.name = f.name ∧
        loadsOf r.lines =
          dataLoads (literals ++ (fs.take n).flatMap Function.strings).length f.strings.length := by
  induction fs generalizing literals rs with
  | nil =>
      cases h
      exact ⟨(List.append_nil _).symm, fun n f hf => nomatch hf⟩
  | cons f fs ih =>
      rw [compileFunctions] at h
      obtain ⟨⟨r, middle⟩, hfirst, h⟩ := bind_eq_ok.1 h
      obtain ⟨⟨rest, last⟩, hrest, h⟩ := bind_eq_ok.1 h
      cases h
      obtain ⟨rfl, hname, hloads⟩ := Function.compile_interns hfirst
      obtain ⟨hlast, hothers⟩ := ih hrest
      refine ⟨by rw [hlast, List.append_assoc, List.flatMap_cons], fun n g hg => ?_⟩
      cases n with
      | zero =>
          cases hg
          refine ⟨r, rfl, hname, ?_⟩
          rw [hloads, List.take_zero, List.flatMap_nil, List.append_nil]
      | succ n =>
          obtain ⟨q, hq, hqname, hqloads⟩ := hothers n g hg
          refine ⟨q, hq, hqname, ?_⟩
          rw [hqloads, List.take_succ_cons, List.flatMap_cons, List.append_assoc]

/-! ## Loads in the text -/

/-- An integer begins with a digit or a minus sign. -/
theorem exists_toString_int (i : Int) :
    ∃ c more, (toString i).toList = c :: more ∧ (c.isDigit = true ∨ c = '-') := by
  cases i with
  | ofNat n =>
      obtain ⟨d, ds, heq, hd⟩ := exists_digit n
      exact ⟨d, ds, heq, .inl hd⟩
  | negSucc n => exact ⟨'-', _, toList_negSucc n, .inr rfl⟩

/-- An instruction of a function that begins like a load of a data line is one. -/
theorem Instr.line_load {i : Instr} (h : i.inFunction = true)
    (hload : i.loadsLabel = true → ∃ k, i = .moveLabel .eax (.data k)) :
    beginsWith "mov eax, data_" i.text = i.loadsLabel := by
  cases i with
  | moveLabel dst l =>
      obtain ⟨k, heq⟩ := hload rfl
      cases heq
      simp [beginsWith, Instr.text, operation, Register.text, Label.text, List.isPrefixOf,
        loadsLabel]
  | moveConst dst n =>
      obtain ⟨c, more, heq, hc⟩ := exists_toString_int n.toInt
      have hne : c ≠ 'd' := by
        rintro rfl
        exact absurd hc (by decide)
      rw [Int.toString_eq_repr] at heq
      cases dst <;> simp [beginsWith, Instr.text, operation, Register.text, heq, hne.symm,
        List.isPrefixOf, loadsLabel]
  | move dst src =>
      cases dst <;> cases src <;> simp [beginsWith, Instr.text, operation, Register.text,
        List.isPrefixOf, loadsLabel]
  | load dst a =>
      cases dst <;> simp [beginsWith, Instr.text, operation, Register.text, a.text_eq,
        List.isPrefixOf, loadsLabel]
  | store a src =>
      simp [beginsWith, Instr.text, operation, a.text_eq, List.isPrefixOf, loadsLabel]
  | set c dst =>
      cases c <;> simp [beginsWith, Instr.text, operation, Condition.text, List.isPrefixOf,
        loadsLabel]
  | storeByte | storeByteConst => cases h
  | _ => simp [beginsWith, Instr.text, operation, List.isPrefixOf, loadsLabel]

/-- The lines of a function that begin like loads of data lines are its loads. -/
theorem loads_written
    (h : ∀ line ∈ lines, line.inFunction = true ∧ ∀ l, line.label? = some l → l.IsWord)
    (hloads : ∀ i ∈ loadsOf lines, ∃ k, i = .moveLabel .eax (.data k)) :
    (lines.map Line.written).filter (beginsWith "mov eax, data_") =
      (loadsOf lines).map Instr.text := by
  induction lines with
  | nil => rfl
  | cons line lines ih =>
      obtain ⟨⟨hmade, hlabel⟩, hlines⟩ := List.forall_mem_cons.1 h
      cases line with
      | label l =>
          have hbegins := (hlabel l rfl).beginsWith_eq_false
            (by decide : ' ' ∈ "mov eax, data_".toList)
          rw [List.map_cons, List.filter_cons_of_neg (by simp [Line.written, hbegins])]
          exact ih hlines hloads
      | instr i remark =>
          obtain ⟨hi, hremark⟩ := Bool.and_eq_true_iff.1 hmade
          rw [Option.isNone_iff_eq_none.1 hremark] at hloads ⊢
          by_cases hload : i.loadsLabel = true
          · have hcons : loadsOf (.instr i none :: lines) = i :: loadsOf lines := by
              simp [loadsOf, hload]
            rw [hcons] at hloads ⊢
            obtain ⟨hfirst, hothers⟩ := List.forall_mem_cons.1 hloads
            have hbegins : beginsWith "mov eax, data_" (Line.instr i none).written = true :=
              (Instr.line_load hi fun _ => hfirst).trans hload
            rw [List.map_cons, List.filter_cons_of_pos hbegins, ih hlines hothers, List.map_cons,
              Line.written]
          · have hcons : loadsOf (.instr i none :: lines) = loadsOf lines := by
              simp [loadsOf, hload]
            rw [hcons] at hloads ⊢
            have hbegins := Instr.line_load hi fun hyes => (hload hyes).elim
            rw [List.map_cons, List.filter_cons_of_neg (by rw [Line.written, hbegins]; exact hload)]
            exact ih hlines hloads

/-- The loads of a routine are the lines of its text that begin like them. -/
theorem RoutineOf.loads_written (h : RoutineOf literals f r) (hlabels : ∀ l ∈ r.labels, l.IsWord)
    {first count : Nat} (hloads : loadsOf r.lines = dataLoads first count) :
    linesWith "mov eax, data_" r.text =
      (List.range' first count).map fun k => "mov eax, data_" ++ toString k := by
  have hbegins := (hlabels _ List.mem_cons_self).beginsWith_eq_false
    (by decide : ' ' ∈ "mov eax, data_".toList)
  have hempty : beginsWith "mov eax, data_" "" = false := by decide
  have heach : ∀ i ∈ loadsOf r.lines, ∃ k, i = .moveLabel .eax (.data k) := by
    rw [hloads]
    intro i hi
    obtain ⟨k, _, rfl⟩ := List.mem_map.1 hi
    exact ⟨k, rfl⟩
  have hwritten : (r.lines.map Line.written).filter (beginsWith "mov eax, data_") =
      (loadsOf r.lines).map Instr.text := by
    rcases h.made with hprint | hmade
    · rw [hprint]
      decide
    · exact Slate.loads_written (fun line hline =>
        ⟨hmade line hline, fun l hl => hlabels l (r.mem_labels hline hl)⟩) heach
  unfold linesWith
  rw [h.lines_text hlabels, List.map_cons, List.filter_cons_of_neg (by simp [hempty]),
    List.filter_cons_of_neg (by simp [Line.written, hbegins]), hwritten, hloads, dataLoads,
    List.map_map]
  refine List.map_congr_left fun k _ => ?_
  show "mov" ++ " " ++ ("eax" ++ ", " ++ ("data_" ++ toString k)) = _
  simp only [← String.append_assoc]
  rfl

/-! ## The whole text -/

/-- The text of an assembly ends with its data lines, behind the line that opens the data
section. -/
theorem Assembly.text_eq (a : Assembly) :
    a.text = Assembly.headerText a.hasEntry ++ String.join (a.routines.map Routine.text) ++
      "\nsection .data\n" ++ dataLinesText 0 a.literals := by
  unfold Assembly.text Assembly.dataSectionText
  simp only [String.append_assoc]

/-- **String literals reach the data section.**  What stands behind `section .data` is read as
one line for every string literal of the program, with its bytes and a zero; and the code of
each function loads the lines of its own literals, in order, which are numbered behind those of
the functions before.  If the program comes from a source text, these loads are the lines of
the text of the function that begin like one. -/
theorem literals_reach_data (hcompiled : p.compile = .ok a) :
    (∃ data, p.assemblyText = .ok (Assembly.headerText a.hasEntry ++
        String.join (a.routines.map Routine.text) ++ "\nsection .data\n" ++ data) ∧
      readDataLines? data = some (p.strings.mapIdx fun n s =>
        ("data_" ++ toString n, s.toUTF8.data.toList ++ [0]))) ∧
    ∀ n f, p.functions[n]? = some f → ∃ r first, a.routines[n]? = some r ∧ r.name = f.name ∧
      first = ((p.functions.take n).flatMap Function.strings).length ∧
      loadsOf r.lines = (List.range' first f.strings.length).map
        (fun k => .moveLabel .eax (.data k)) ∧
      ∀ source file, frontEnd source file = .ok p →
        linesWith "mov eax, data_" r.text =
          (List.range' first f.strings.length).map fun k => "mov eax, data_" ++ toString k := by
  have htext := Program.assemblyText_of_compile hcompiled
  have hwhole := hcompiled
  unfold Program.compile at hcompiled
  obtain ⟨⟨rs, final⟩, hfunctions, heq⟩ := bind_eq_ok.1 hcompiled
  cases heq
  obtain ⟨hfinal, hloads⟩ := compileFunctions_interns hfunctions
  refine ⟨⟨dataLinesText 0 final, ?_, ?_⟩, fun n f hf => ?_⟩
  · rw [htext, Assembly.text_eq]
  · have hread := readDataLines?_text final 0
    simp only [Nat.zero_add] at hread
    rw [hread, hfinal]
    rfl
  · obtain ⟨r, hr, hname, hlines⟩ := hloads n f hf
    refine ⟨r, _, hr, hname, rfl, hlines, fun source file haccepted => ?_⟩
    have hp := frontEnd_typed haccepted
    obtain ⟨g, hg, hroutine⟩ := (hp.assemblyOf hwhole).function r (List.mem_of_getElem? hr)
    exact hroutine.loads_written
      (hroutine.isWord (hp.each g hg) hg (frontEnd_names haccepted)) hlines

/-- A program with an assignment, whose right side is evaluated first, and with literals of
which one has to be written byte by byte. -/
def quotingSource : String :=
  "string pick(a: string, b: string) \x7b return a; \x7d " ++
    "i32 main() \x7b var s: string; s = pick(\"plain, \\; text\", \"\"); " ++
    "syscall(4, 1, \"ä\n\", 3); return 0; \x7d"

theorem literals_reach_data_quoting :
    ∃ p a data, frontEnd quotingSource none = .ok p ∧ p.compile = .ok a ∧
      p.assemblyText = .ok (Assembly.headerText a.hasEntry ++
        String.join (a.routines.map Routine.text) ++ "\nsection .data\n" ++ data) ∧
      readDataLines? data = some
        [("data_0", [112, 108, 97, 105, 110, 44, 32, 92, 59, 32, 116, 101, 120, 116, 0]),
          ("data_1", [0]), ("data_2", [195, 164, 10, 0])] ∧
      ∃ r, a.routines[1]? = some r ∧ linesWith "mov eax, data_" r.text =
        ["mov eax, data_0", "mov eax, data_1", "mov eax, data_2"] := by
  have hcheck : (frontEnd quotingSource none).toOption.any (fun p =>
      p.compile.toOption.isSome && decide (p.functions.map Function.strings =
        [[], ["plain, \\; text", "", "ä\n"]])) = true := by
    decide +kernel
  obtain ⟨p, haccepted, hcheck⟩ := (Option.any_eq_true _ _).1 hcheck
  obtain ⟨hsome, hstrings⟩ := Bool.and_eq_true_iff.1 hcheck
  obtain ⟨a, hcompiled⟩ := Option.isSome_iff_exists.1 hsome
  have haccepted := toOption_eq_some.1 haccepted
  have hcompiled := toOption_eq_some.1 hcompiled
  obtain ⟨pick, main, hfunctions, hpick, hmain⟩ : ∃ pick main, p.functions = [pick, main] ∧
      pick.strings = [] ∧ main.strings = ["plain, \\; text", "", "ä\n"] := by
    simpa [List.map_eq_cons_iff] using of_decide_eq_true hstrings
  have hall : p.strings = ["plain, \\; text", "", "ä\n"] := by
    simp [Program.strings, hfunctions, hpick, hmain]
  obtain ⟨⟨data, htext, hread⟩, hloads⟩ := literals_reach_data hcompiled
  obtain ⟨r, first, hr, _, hfirst, _, hlines⟩ := hloads 1 main (by rw [hfunctions]; rfl)
  have hfirst : first = 0 := by
    simp [hfirst, hfunctions, hpick]
  have hlines := hlines quotingSource none haccepted
  rw [hfirst, hmain] at hlines
  rw [hall] at hread
  exact ⟨p, a, data, haccepted, hcompiled, htext, hread.trans (congrArg some (by decide +kernel)),
    r, hr, hlines⟩

end Slate
