import Mathlib.Data.List.Forall2
import Slate.Proofs.Compile.Coded
import Slate.Proofs.Compile.Written
import Slate.Proofs.Typing.Places

/-!
# Addresses of variables

Three parties count the locals of a function.  The checker records them as it meets their
declarations, the compiler makes room for as many as have been recorded, and while it goes
through the body it gives each declaration that it meets the next slot.  Here is that the
three agree.

What the code of a function has to do with the frame is listed in order (`frameUses`): the
room that is made, and then every word that is addressed from `ebp`.  The words are those of
the variables that the text mentions, one after the other in the order of evaluation, a
variable once and a declaration twice, because its variable is first set to zero.  Each has
the address that belongs to the place of the variable among the locals or the arguments
(`Function.Addresses`).

An address is written in brackets, and room is made on a line of its own, so all of this can be
seen in the text of the routine (`Function.FrameWritten`).

* `StmtCode.addressed` — by induction along the typing derivation, which the compiler keeps to;
* `frames_agree` — accepted programs.
-/

namespace Slate

variable {p : Program} {f : Function} {r : Routine} {table : List (String × Int)}
  {lines first second : List Line} {os os' : List (List Var × Expr)}

/-- What an instruction has to do with the frame: it makes room there, or addresses the word
at an offset from `ebp`. -/
inductive FrameUse where
  | room (bytes : Nat)
  | word (offset : Int)
deriving DecidableEq

/-- The address that an instruction has for an operand. -/
def Instr.address? : Instr → Option Address
  | .load _ a | .store a _ | .storeConst a _ | .storeByte a _ | .storeByteConst a _
  | .loadAddress _ a => some a
  | _ => none

/-- What the instruction has to do with the frame. -/
def Instr.frameUse? (i : Instr) : Option FrameUse :=
  match i with
  | .subConst .esp bytes => some (.room bytes)
  | i => i.address?.bind fun a => if a.base = .ebp then some (.word a.offset) else none

/-- What the line has to do with the frame. -/
def Line.frameUse? : Line → Option FrameUse
  | .label _ => none
  | .instr i _ => i.frameUse?

/-- What some lines have to do with the frame, in order. -/
def frameUses (lines : List Line) : List FrameUse := lines.filterMap Line.frameUse?

/-- The room that a function has for its locals. -/
def Function.room (f : Function) : List FrameUse :=
  if f.locals.isEmpty then [] else [.room (4 * f.locals.length)]

/-- The names of the variables that the code of an expression addresses by itself. -/
def Expr.named : Expr → List String
  | .declare _ v => [v.name, v.name]
  | .var _ name => [name]
  | _ => []

/-- The names of the variables that the code of some expressions addresses. -/
def mentions (os : List (List Var × Expr)) : List String := os.flatMap fun o => o.2.named

/-- The word of the variable of a name: locals lie below `ebp`, the first one next to it, and
arguments above the return address, the last one next to it. -/
def Function.Addresses (f : Function) (name : String) (offset : Int) : Prop :=
  (∃ (n : Nat) (v : Var), f.locals[n]? = some v ∧ v.name = name ∧ offset = -4 * (n + 1)) ∨
    ∃ (i : Nat) (v : Var), f.arguments[i]? = some v ∧ v.name = name ∧
      offset = 4 * (f.arguments.length - i + 1)

/-- The routine makes room for the locals of the function, addresses the words of the
variables that are mentioned in it, and has nothing else to do with the frame. -/
def Function.FramedBy (f : Function) (r : Routine) : Prop :=
  ∃ offsets, frameUses r.lines = f.room ++ offsets.map .word ∧
    List.Forall₂ f.Addresses (mentions f.occurrences) offsets

/-- What stands in brackets among the characters, up to the next bracket that closes. -/
def bracketedIn : List Char → List String
  | [] => []
  | c :: rest =>
    if c = '[' then String.ofList (rest.takeWhile (· ≠ ']')) :: bracketedIn rest
    else bracketedIn rest

/-- What stands in brackets in a text. -/
def bracketed (text : String) : List String := bracketedIn text.toList

/-- How the word of the variable of a name is written between brackets. -/
def Function.WrittenAs (f : Function) (name written : String) : Prop :=
  (∃ (n : Nat) (v : Var), f.locals[n]? = some v ∧ v.name = name ∧
      written = "ebp - " ++ toString (4 * (n + 1))) ∨
    ∃ (i : Nat) (v : Var), f.arguments[i]? = some v ∧ v.name = name ∧
      written = "ebp + " ++ toString (4 * (f.arguments.length - i + 1))

/-- The text of a routine has one line that makes room, for the locals of the function, or none
if there are no locals; and what stands there in brackets and begins with `ebp` are the words of
the variables that are mentioned, in order. -/
structure Function.FrameWritten (f : Function) (text : String) : Prop where
  room : linesWith "sub esp," text =
    if f.locals.isEmpty then [] else ["sub esp, " ++ toString (4 * f.locals.length)]
  words : List.Forall₂ f.WrittenAs (mentions f.occurrences)
    ((bracketed text).filter (beginsWith "ebp"))

/-! ## Frames of functions -/

/-- An entry of the arguments is that of some parameter, with the offset of its place. -/
theorem exists_of_mem_argumentOffsets {count : Nat} {vars : List Var} {pair : String × Int} :
    ∀ {index : Nat}, pair ∈ argumentOffsets count index vars →
      ∃ (i : Nat) (v : Var), vars[i]? = some v ∧
        pair = (v.name, argumentOffset count (index + i)) := by
  induction vars with
  | nil =>
      intro index h
      cases h
  | cons w ws ih =>
      intro index h
      rw [argumentOffsets, List.mem_append, List.mem_singleton] at h
      rcases h with hmem | rfl
      · obtain ⟨i, v, hv, rfl⟩ := ih hmem
        exact ⟨i + 1, v, hv, by rw [Nat.add_right_comm, Nat.add_assoc]⟩
      · exact ⟨0, w, rfl, rfl⟩

/-- An entry of the locals is that of some local, with the offset of its place. -/
theorem exists_of_mem_localOffsets {locals : List Var} {pair : String × Int}
    (h : pair ∈ localOffsets locals) :
    ∃ (n : Nat) (v : Var), locals[n]? = some v ∧ pair = (v.name, localOffset n) := by
  obtain ⟨⟨v, n⟩, hmem, rfl⟩ := List.mem_map.1 (List.mem_reverse.1 h)
  exact ⟨n, v, List.mem_zipIdx_iff_getElem?.1 hmem, rfl⟩

/-- What is found in the table of a function is the word of a variable. -/
theorem Function.addresses_of_lookup {name : String} {offset : Int}
    (h : (frameOffsets f.arguments f.locals).lookup name = some offset) :
    f.Addresses name offset := by
  rcases List.mem_append.1 (mem_of_lookup h) with hlocal | hargument
  · obtain ⟨n, v, hv, heq⟩ := exists_of_mem_localOffsets hlocal
    cases heq
    exact .inl ⟨n, v, hv, rfl, rfl⟩
  · obtain ⟨i, v, hv, heq⟩ := exists_of_mem_argumentOffsets hargument
    cases heq
    refine .inr ⟨i, v, hv, rfl, ?_⟩
    rw [argumentOffset, Nat.zero_add]

/-! ## Uses of frames -/

/-- The uses of two pieces are those of the first and those of the second. -/
theorem frameUses_append (first second : List Line) :
    frameUses (first ++ second) = frameUses first ++ frameUses second :=
  List.filterMap_append

theorem frameUses_cons (line : Line) (lines : List Line) :
    frameUses (line :: lines) = line.frameUse?.toList ++ frameUses lines := by
  unfold frameUses
  cases h : line.frameUse? <;> simp [h]

/-- A binary operator uses nothing of the frame. -/
theorem BinaryOp.frameUses_code (op : BinaryOp) : frameUses (codeLines op.code) = [] := by
  cases op <;> rfl

/-- Nor does a unary one. -/
theorem UnaryOp.frameUses_code (op : UnaryOp) : frameUses (codeLines op.code) = [] := by
  cases op <;> rfl

/-- Nor does a call. -/
theorem frameUses_callCode (name : String) (count : Nat) :
    frameUses (codeLines (callCode name count)) = [] := by
  have hpops : ∀ registers : List Register,
      frameUses (codeLines (registers.map .pop)) = [] := by
    intro registers
    unfold frameUses codeLines
    rw [List.map_map, List.filterMap_map]
    exact List.filterMap_eq_nil_iff.2 fun _ _ => rfl
  unfold callCode
  split
  · rw [codeLines_append, frameUses_append, hpops]
    rfl
  · split <;> rfl

/-- Nor does a test. -/
theorem frameUses_unlessTrue (target : Label) : frameUses (codeLines (unlessTrue target)) = [] :=
  rfl

/-- Nor does what a function ends with. -/
theorem Function.frameUses_epilogue (f : Function) : frameUses (codeLines f.epilogue) = [] := by
  unfold Function.epilogue
  split <;> rfl

/-- The prologue makes room for the locals, if there are any. -/
theorem Function.frameUses_prologue (f : Function) : frameUses (codeLines f.prologue) = f.room := by
  unfold Function.prologue Function.room Function.hasFrame
  cases f.locals.isEmpty <;> cases f.arguments.isEmpty <;> rfl

/-! ## Code that addresses what is mentioned -/

/-- The lines only address words, and these are what the table has for the variables that the
expressions mention. -/
def Addressed (table : List (String × Int)) (os : List (List Var × Expr)) (lines : List Line) :
    Prop :=
  ∃ offsets, frameUses lines = offsets.map .word ∧
    List.Forall₂ (fun name offset => table.lookup name = some offset) (mentions os) offsets

namespace Addressed

/-- Lines that use nothing of the frame address nothing. -/
theorem idle (h : frameUses lines = []) : Addressed table [] lines :=
  ⟨[], h, .nil⟩

/-- What two pieces address is addressed by the first and then by the second. -/
theorem append (hfirst : Addressed table os first) (hsecond : Addressed table os' second) :
    Addressed table (os ++ os') (first ++ second) := by
  obtain ⟨offsets, huses, hmatch⟩ := hfirst
  obtain ⟨offsets', huses', hmatch'⟩ := hsecond
  refine ⟨offsets ++ offsets', ?_, ?_⟩
  · rw [frameUses_append, huses, huses', List.map_append]
  · rw [mentions, List.flatMap_append]
    exact List.rel_append hmatch hmatch'

/-- Lines without a use of the frame can follow. -/
theorem idleAfter (h : Addressed table os first) (hidle : frameUses second = []) :
    Addressed table os (first ++ second) := by
  have hboth := h.append (idle hidle)
  rwa [List.append_nil] at hboth

/-- Lines without a use of the frame can come before. -/
theorem idleBefore (hidle : frameUses first = []) (h : Addressed table os second) :
    Addressed table os (first ++ second) :=
  (idle hidle).append h

/-- An expression that addresses nothing by itself. -/
theorem within {o : List Var × Expr} (hnone : o.2.named = []) (h : Addressed table os lines) :
    Addressed table (o :: os) lines := by
  have hsame : mentions (o :: os) = mentions os := by
    rw [mentions, List.flatMap_cons, hnone, List.nil_append, mentions]
  unfold Addressed
  rwa [hsame]

end Addressed

variable {env : Env} {final : List Var}

mutual

/-- The code of a typed expression addresses the variables that it mentions. -/
theorem ExprCode.addressed (hdistinct : env.Distinct final) {before after : List Var}
    {s s' : CompileState} {e : Expr} {t : Ty} {code : List Instr} :
    ExprCode s e code s' → TypedExpr env before e t after → after <+: final →
      s.Tracks env.arguments before → ∀ locals,
        Addressed (frameOffsets env.arguments final) (e.occurrences locals) (codeLines code)
  | .int _ _, _, _, _, _ | .bool _ _, _, _, _, _ | .string _ _, _, _, _, _ =>
      .within rfl (.idle rfl)
  | .declare v _, .declare _ _ _ _, hfinal, hs, _ => by
      have hslot : (frameOffsets env.arguments (before ++ [v])).lookup v.name =
          some (localOffset s.slots) := by
        rw [frameOffsets_append, hs.2]
        exact List.lookup_cons_self
      have hword := lookup_of_suffix (frameOffsets_suffix hfinal) (frameOffsets_nodup hdistinct)
        hslot
      exact ⟨[localOffset s.slots, localOffset s.slots], rfl, .cons hword (.cons hword .nil)⟩
  | @ExprCode.var _ _ _ _ offset hoffset _, .var _ _, hfinal, hs, _ => by
      rw [hs.1] at hoffset
      have hword := lookup_of_suffix (frameOffsets_suffix hfinal) (frameOffsets_nodup hdistinct)
        hoffset
      exact ⟨[offset], rfl, .cons hword .nil⟩
  | .assign value place _, .assign typedValue typedPlace _ _, hfinal, hs, locals => by
      have hbetween := typedPlace.locals_kept.trans hfinal
      have hfirst := value.addressed hdistinct typedValue hbetween hs locals
      have hsecond := place.addressed hdistinct typedPlace hfinal (value.tracks typedValue hs)
      simp only [codeLines_append]
      exact .within rfl (((hfirst.idleAfter rfl).append (hsecond _)).idleAfter rfl)
  | .call _ arguments _, .syscall _ typed _, hfinal, hs, locals => by
      have hpushes := arguments.addressed hdistinct typed hfinal hs locals
      rw [codeLines_append]
      exact .within rfl (hpushes.idleAfter (frameUses_callCode _ _))
  | .call _ arguments _, .call _ _ typed _, hfinal, hs, locals => by
      have hpushes := arguments.addressed hdistinct typed hfinal hs locals
      rw [codeLines_append]
      exact .within rfl (hpushes.idleAfter (frameUses_callCode _ _))
  | .binary first second _, .binary typedFirst typedSecond _ _ _, hfinal, hs, locals => by
      have hbetween := typedSecond.locals_kept.trans hfinal
      have hfirst := first.addressed hdistinct typedFirst hbetween hs locals
      have hsecond := second.addressed hdistinct typedSecond hfinal (first.tracks typedFirst hs)
      simp only [codeLines_append]
      exact .within rfl ((((hfirst.idleAfter rfl).append (hsecond _)).idleAfter rfl).idleAfter
        (BinaryOp.frameUses_code _))
  | .unary value _, .unary typed _, hfinal, hs, locals => by
      have hvalue := value.addressed hdistinct typed hfinal hs locals
      rw [codeLines_append]
      exact .within rfl (hvalue.idleAfter (UnaryOp.frameUses_code _))
  | .cast place _ _ _, .cast typed _ _, hfinal, hs, locals => by
      have hplace := place.addressed hdistinct typed hfinal hs locals
      rw [codeLines_append]
      exact .within rfl (hplace.idleAfter rfl)

/-- The same for the arguments of a call. -/
theorem ArgumentsCode.addressed (hdistinct : env.Distinct final) {before after : List Var}
    {s s' : CompileState} {es : List Expr} {ts : List Ty} {code : List Instr} :
    ArgumentsCode s es code s' → TypedArguments env before es ts after → after <+: final →
      s.Tracks env.arguments before → ∀ locals,
        Addressed (frameOffsets env.arguments final) (argumentOccurrences locals es)
          (codeLines code)
  | .nil, .nil, _, _, _ => .idle rfl
  | .cons argument others, .cons typed _ typedOthers, hfinal, hs, locals => by
      have hbetween := typedOthers.locals_kept.trans hfinal
      have hone := argument.addressed hdistinct typed hbetween hs locals
      have hmore := others.addressed hdistinct typedOthers hfinal (argument.tracks typed hs)
      simp only [codeLines_append]
      exact (hone.idleAfter rfl).append (hmore _)

end

mutual

/-- The code of a typed statement addresses the variables that are mentioned in it. -/
theorem StmtCode.addressed (hdistinct : env.Distinct final) {before after : List Var}
    {s s' : CompileState} {stmt : Stmt} {lines : List Line} :
    StmtCode f s stmt lines s' → TypedStmt env before stmt after → after <+: final →
      s.Tracks env.arguments before → ∀ locals,
        Addressed (frameOffsets env.arguments final) (stmt.occurrences locals) lines
  | .expression value, .expression typed, hfinal, hs, locals =>
      value.addressed hdistinct typed hfinal hs locals
  | .ret, .ret _, _, _, _ => .idle f.frameUses_epilogue
  | .retValue value, .retValue _ typed, hfinal, hs, locals => by
      have hvalue := value.addressed hdistinct typed hfinal hs locals
      rw [codeLines_append]
      exact hvalue.idleAfter f.frameUses_epilogue
  | .ifThen test branch, .ifThen typedTest typedBranch, hfinal, hs, locals => by
      have hbetween := typedBranch.locals_kept.trans hfinal
      have htest := test.addressed hdistinct typedTest hbetween hs locals
      have hinner := branch.addressed hdistinct typedBranch hfinal (test.tracks typedTest hs)
      rw [codeLines_append]
      exact ((htest.idleAfter (frameUses_unlessTrue _)).append (hinner _)).idleAfter rfl
  | .ifElse test branch other, .ifElse typedTest typedBranch typedOther, hfinal, hs, locals => by
      have hmiddle := typedOther.locals_kept.trans hfinal
      have hbetween := typedBranch.locals_kept.trans hmiddle
      have hs₁ := test.tracks typedTest hs
      have htest := test.addressed hdistinct typedTest hbetween hs locals
      have hinner := branch.addressed hdistinct typedBranch hmiddle hs₁
      have hrest := other.addressed hdistinct typedOther hfinal (branch.tracks typedBranch hs₁)
      rw [Stmt.occurrences, ← List.append_assoc (Expr.occurrences _ _), codeLines_append]
      exact ((((htest.idleAfter (frameUses_unlessTrue _)).append (hinner _)).idleAfter rfl).append
        (hrest _)).idleAfter rfl
  | .loop test round, .loop typedTest typedRound, hfinal, hs, locals => by
      have hbetween := typedRound.locals_kept.trans hfinal
      have htest := test.addressed hdistinct typedTest hbetween hs locals
      have hinner := round.addressed hdistinct typedRound hfinal (test.tracks typedTest hs)
      rw [codeLines_append]
      exact ((Addressed.idleBefore rfl (htest.idleAfter (frameUses_unlessTrue _))).append
        (hinner _)).idleAfter rfl
  | .block inner, .block typed, hfinal, hs, locals =>
      inner.addressed hdistinct typed hfinal hs locals

/-- The same for a list of statements. -/
theorem BodyCode.addressed (hdistinct : env.Distinct final) {before after : List Var}
    {s s' : CompileState} {stmts : List Stmt} {lines : List Line} :
    BodyCode f s stmts lines s' → TypedStmts env before stmts after → after <+: final →
      s.Tracks env.arguments before → ∀ locals,
        Addressed (frameOffsets env.arguments final) (bodyOccurrences locals stmts) lines
  | .nil, .nil, _, _, _ => .idle rfl
  | .cons first others, .cons typed typedOthers, hfinal, hs, locals => by
      have hbetween := typedOthers.locals_kept.trans hfinal
      have hone := first.addressed hdistinct typed hbetween hs locals
      have hmore := others.addressed hdistinct typedOthers hfinal (first.tracks typed hs)
      exact hone.append (hmore _)

end

/-! ## Routines -/

/-- The routine of a typed function uses its frame for its variables. -/
theorem RoutineOf.framedBy {signatures : Signatures} {literals : List String}
    (h : RoutineOf literals f r) (hf : TypedFunction signatures f) (hblock : f.builtin = false) :
    f.FramedBy r := by
  cases h with
  | builtin builtin _ =>
      rw [hblock] at builtin
      cases builtin
  | @block before body s _ _ compiled _ _ =>
      have hstart : (CompileState.start f before).Tracks f.arguments [] := ⟨rfl, rfl⟩
      have hdistinct := hf.env_distinct hblock
      obtain ⟨offsets, huses, hmatch⟩ := (bodyCode_iff.1 compiled).addressed hdistinct
        (hf.body hblock) List.prefix_rfl hstart []
      have hending : frameUses (codeLines (if endsInReturn f.body then [] else f.epilogue)) =
          [] := by
        split
        · rfl
        · exact f.frameUses_epilogue
      refine ⟨offsets, ?_, hmatch.imp fun name offset hword => Function.addresses_of_lookup hword⟩
      rw [frameUses_append, frameUses_append, f.frameUses_prologue, huses, hending,
        List.append_nil]

/-! ## How frames are written -/

/-- A text of which this stands in brackets, whatever follows. -/
def Brackets (text : String) (inner : List String) : Prop :=
  ∀ rest, bracketedIn (text.toList ++ rest) = inner ++ bracketedIn rest

namespace Brackets

variable {text next name : String} {xs ys : List String}

/-- A text without a bracket has none. -/
theorem plain (text : String) (h : '[' ∉ text.toList) : Brackets text [] := by
  intro rest
  generalize text.toList = chars at h
  induction chars with
  | nil => rfl
  | cons c chars ih =>
      rw [List.mem_cons, not_or] at h
      rw [List.cons_append, bracketedIn, if_neg (Ne.symm h.1)]
      exact ih h.2

/-- The brackets of two texts are those of the first and those of the second. -/
theorem append (h : Brackets text xs) (hnext : Brackets next ys) :
    Brackets (text ++ next) (xs ++ ys) := by
  intro rest
  rw [String.toList_append, List.append_assoc, h, hnext, List.append_assoc]

/-- An address has its own brackets and no other. -/
theorem address (a : Address) : Brackets a.text [a.inner] := by
  intro rest
  have hopen : '[' ∉ a.inner.toList := fun h => (a.forall_mem_inner _ h).2.1 rfl
  have hclose : ∀ c ∈ a.inner.toList, decide (c ≠ ']') = true :=
    fun c hc => decide_eq_true (a.forall_mem_inner c hc).2.2
  have htext : a.text.toList ++ rest = '[' :: (a.inner.toList ++ ']' :: rest) := by
    simp [a.text_eq]
  rw [htext, bracketedIn, if_pos rfl, List.takeWhile_append_of_pos hclose,
    List.takeWhile_cons_of_neg (by decide), List.append_nil, String.ofList_toList,
    plain _ hopen, bracketedIn, if_neg (by decide)]
  rfl

/-- An instruction of one operand has the brackets of its operand. -/
theorem single (hname : '[' ∉ name.toList) (h : Brackets text xs) :
    Brackets (operation name [text]) xs := by
  have hall := (plain _ hname).append ((plain " " (by decide)).append h)
  have htext : operation name [text] = name ++ (" " ++ text) := String.append_assoc
  rw [htext]
  exact hall

/-- An instruction of two operands has the brackets of both. -/
theorem pair (hname : '[' ∉ name.toList) (h : Brackets text xs) (hnext : Brackets next ys) :
    Brackets (operation name [text, next]) (xs ++ ys) := by
  have hall := single hname (h.append ((plain ", " (by decide)).append hnext))
  have htext : operation name [text, next] = operation name [text ++ (", " ++ next)] :=
    congrArg (name ++ " " ++ ·) String.append_assoc
  rw [htext]
  exact hall

end Brackets

/-- What is written for a use of the frame: a word is addressed from `ebp`. -/
def FrameUse.inner? : FrameUse → Option String
  | .word offset => some ("ebp" ++ offsetText offset)
  | .room _ => none

/-- Room is made by a subtraction from `esp`. -/
def FrameUse.line? : FrameUse → Option String
  | .room bytes => some ("sub esp, " ++ toString bytes)
  | .word _ => none

/-- An instruction of a function has its address in brackets, and nothing else. -/
theorem Instr.brackets {i : Instr} (h : i.inFunction = true)
    (hlabel : ∀ l, i.label? = some l → l.IsWord) :
    Brackets i.text (i.address?.map Address.inner).toList := by
  have hregister : ∀ r : Register, Brackets r.text [] := fun r => .plain _ (by cases r <;> decide)
  have hbyte : ∀ r : ByteRegister, Brackets r.text [] := fun r => .plain _ (by cases r <;> decide)
  have hnumber : ∀ n : Nat, Brackets (toString n) [] := fun n => .plain _ (not_mem_number rfl n)
  have hint : ∀ n : Int, Brackets (toString n) [] := by
    intro n
    cases n with
    | ofNat n => exact hnumber n
    | negSucc n => exact (Brackets.plain "-" (by decide)).append (hnumber (n + 1))
  have hname : ∀ l, i.label? = some l → Brackets l.text [] :=
    fun l hl => .plain _ ((hlabel l hl).not_mem rfl)
  cases i with
  | moveConst dst n => exact .pair (by decide) (hregister dst) (hint n.toInt)
  | moveLabel dst l => exact .pair (by decide) (hregister dst) (hname l rfl)
  | move dst src => exact .pair (by decide) (hregister dst) (hregister src)
  | load dst src => exact .pair (by decide) (hregister dst) (.address src)
  | store dst src => exact .pair (by decide) (.address dst) (hregister src)
  | storeConst dst n =>
      have hsized := (Brackets.plain "dword " (by decide)).append (.address dst)
      exact .pair (by decide) hsized (hint n.toInt)
  | loadAddress dst src => exact .pair (by decide) (hregister dst) (.address src)
  | push src => exact .single (by decide) (hregister src)
  | pop dst => exact .single (by decide) (hregister dst)
  | add dst src => exact .pair (by decide) (hregister dst) (hregister src)
  | addConst dst n => exact .pair (by decide) (hregister dst) (hnumber n)
  | sub dst src => exact .pair (by decide) (hregister dst) (hregister src)
  | subConst dst n => exact .pair (by decide) (hregister dst) (hnumber n)
  | multiply dst src => exact .pair (by decide) (hregister dst) (hregister src)
  | negate dst => exact .single (by decide) (hregister dst)
  | complement dst => exact .single (by decide) (hregister dst)
  | compare l r => exact .pair (by decide) (hregister l) (hregister r)
  | compareConst l n => exact .pair (by decide) (hregister l) (hnumber n)
  | compareByteConst l n => exact .pair (by decide) (hbyte l) (hnumber n)
  | set c dst => exact .single (by cases c <;> decide) (hbyte dst)
  | widen dst src => exact .pair (by decide) (hregister dst) (hbyte src)
  | jump l => exact .single (by decide) (hname l rfl)
  | jumpIf c l => exact .single (by cases c <;> decide) (hname l rfl)
  | call l => exact .single (by decide) (hname l rfl)
  | ret => exact .plain _ (by decide)
  | systemCall => exact .plain _ (by decide)
  | _ => cases h

/-- An address from `ebp` is a use of the frame, and is written as one. -/
theorem Instr.inner_frameUse (i : Instr) :
    (i.address?.map Address.inner).toList.filter (beginsWith "ebp") =
      i.frameUse?.toList.filterMap FrameUse.inner? := by
  have haddress : ∀ a : Address, [a.inner].filter (beginsWith "ebp") =
      (if a.base = .ebp then some (FrameUse.word a.offset) else none).toList.filterMap
        FrameUse.inner? := by
    rintro ⟨base, offset⟩
    have hbegins : beginsWith "ebp" (Address.inner ⟨base, offset⟩) = decide (base = .ebp) := by
      unfold beginsWith Address.inner
      rw [String.toList_append]
      cases base <;> simp [Register.text, List.isPrefixOf]
    rw [List.filter_singleton, hbegins]
    by_cases hbase : base = .ebp
    · subst hbase
      rfl
    · simp [hbase]
  cases i with
  | load _ a | store a _ | storeConst a _ | storeByte a _ | storeByteConst a _ | loadAddress _ a =>
      exact haddress a
  | subConst dst n => cases dst <;> rfl
  | _ => rfl

/-- An instruction of a function that begins like one that makes room does make it. -/
theorem Instr.line_frameUse {i : Instr} (h : i.inFunction = true) :
    [i.text].filter (beginsWith "sub esp,") = i.frameUse?.toList.filterMap FrameUse.line? := by
  have hnone : beginsWith "sub esp," i.text = false →
      i.frameUse?.toList.filterMap FrameUse.line? = [] →
      [i.text].filter (beginsWith "sub esp,") = i.frameUse?.toList.filterMap FrameUse.line? := by
    intro hbegins huse
    rw [List.filter_singleton, hbegins, huse]
    rfl
  have haddress : ∀ a : Address,
      (if a.base = .ebp then some (FrameUse.word a.offset) else none).toList.filterMap
        FrameUse.line? = [] := by
    intro a
    split <;> rfl
  cases i with
  | subConst dst n =>
      have hbegins : beginsWith "sub esp," (Instr.subConst dst n).text = decide (dst = .esp) := by
        unfold beginsWith Instr.text operation
        cases dst <;> simp [Register.text, List.isPrefixOf]
      rw [List.filter_singleton, hbegins]
      cases dst <;> rfl
  | sub dst src =>
      refine hnone ?_ rfl
      have hesp : dst ≠ .esp := of_decide_eq_true h
      unfold beginsWith Instr.text operation
      cases dst <;> first | exact (hesp rfl).elim | simp [Register.text, List.isPrefixOf]
  | load _ a | store a _ | storeConst a _ | loadAddress _ a =>
      exact hnone (by simp [beginsWith, Instr.text, operation, List.isPrefixOf]) (haddress a)
  | set c dst =>
      refine hnone ?_ rfl
      cases c <;> simp [beginsWith, Instr.text, operation, List.isPrefixOf, Condition.text]
  | storeByte | storeByteConst => cases h
  | _ => exact hnone (by simp [beginsWith, Instr.text, operation, List.isPrefixOf]) rfl

section

variable (h : ∀ line ∈ lines, line.inFunction = true ∧ ∀ l, line.label? = some l → l.IsWord)
include h

/-- Brackets stand around the addresses in the lines of a function. -/
theorem brackets_lines : ∃ inner, Brackets (linesText lines) inner ∧
    inner.filter (beginsWith "ebp") = (frameUses lines).filterMap FrameUse.inner? := by
  induction lines with
  | nil => exact ⟨[], .plain _ (by decide), rfl⟩
  | cons line lines ih =>
      obtain ⟨⟨hmade, hlabel⟩, hlines⟩ := List.forall_mem_cons.1 h
      obtain ⟨inner, hinner, hframe⟩ := ih hlines
      have hline : ∃ first, Brackets line.text first ∧
          first.filter (beginsWith "ebp") = line.frameUse?.toList.filterMap FrameUse.inner? := by
        cases line with
        | label l =>
            have hname : Brackets l.text [] := .plain _ ((hlabel l rfl).not_mem rfl)
            exact ⟨[], hname.append (.plain ":\n" (by decide)), rfl⟩
        | instr i remark =>
            obtain ⟨hi, hremark⟩ := Bool.and_eq_true_iff.1 hmade
            rw [Option.isNone_iff_eq_none.1 hremark]
            have hbrackets := (i.brackets hi hlabel).append (.plain "\n" (by decide))
            rw [List.append_nil] at hbrackets
            exact ⟨_, hbrackets, i.inner_frameUse⟩
      obtain ⟨first, hfirst, huse⟩ := hline
      have htext : linesText (line :: lines) = line.text ++ linesText lines := by
        simp [linesText]
      refine ⟨first ++ inner, htext ▸ hfirst.append hinner, ?_⟩
      rw [List.filter_append, huse, hframe, frameUses_cons, List.filterMap_append]

/-- A line of a function that begins like one that makes room does make it. -/
theorem rooms_lines : (lines.map Line.written).filter (beginsWith "sub esp,") =
    (frameUses lines).filterMap FrameUse.line? := by
  induction lines with
  | nil => rfl
  | cons line lines ih =>
      obtain ⟨⟨hmade, hlabel⟩, hlines⟩ := List.forall_mem_cons.1 h
      have hline : [line.written].filter (beginsWith "sub esp,") =
          line.frameUse?.toList.filterMap FrameUse.line? := by
        cases line with
        | label l =>
            have hbegins := (hlabel l rfl).beginsWith_eq_false (by decide : ' ' ∈ "sub esp,".toList)
            rw [List.filter_singleton, Line.written, hbegins]
            rfl
        | instr i remark =>
            obtain ⟨hi, hremark⟩ := Bool.and_eq_true_iff.1 hmade
            rw [Option.isNone_iff_eq_none.1 hremark]
            exact i.line_frameUse hi
      rw [List.map_cons, ← List.singleton_append, List.filter_append, hline, ih hlines,
        frameUses_cons, List.filterMap_append]

end

/-- The word of a variable is written with its distance from `ebp`. -/
theorem Function.Addresses.written {name : String} {offset : Int} (h : f.Addresses name offset) :
    f.WrittenAs name ("ebp" ++ offsetText offset) := by
  rcases h with ⟨n, v, hv, hname, rfl⟩ | ⟨i, v, hv, hname, rfl⟩
  · refine .inl ⟨n, v, hv, hname, ?_⟩
    have hnegative : (-4 * ((n : Int) + 1)) < 0 := by omega
    have hdistance : (-4 * ((n : Int) + 1)).natAbs = 4 * (n + 1) := by omega
    rw [offsetText, if_pos hnegative, hdistance, ← String.append_assoc]
    rfl
  · refine .inr ⟨i, v, hv, hname, ?_⟩
    have hlt : i < f.arguments.length := (List.getElem?_eq_some_iff.1 hv).1
    have hpositive : 0 < 4 * ((f.arguments.length : Int) - i + 1) := by omega
    have hdistance : (4 * ((f.arguments.length : Int) - i + 1)).natAbs =
        4 * (f.arguments.length - i + 1) := by omega
    rw [offsetText, if_neg (by omega), if_neg (by omega), hdistance, ← String.append_assoc]
    rfl

/-- A routine that is framed by a function is written so. -/
theorem RoutineOf.frameWritten {literals : List String} (h : RoutineOf literals f r)
    (hblock : f.builtin = false) (hlabels : ∀ l ∈ r.labels, l.IsWord) (hframed : f.FramedBy r) :
    f.FrameWritten r.text := by
  obtain ⟨offsets, huses, hmatch⟩ := hframed
  have hlines : ∀ line ∈ r.lines, line.inFunction = true ∧ ∀ l, line.label? = some l → l.IsWord :=
    fun line hline => ⟨h.inFunction hblock line hline,
      fun l hl => hlabels l (r.mem_labels hline hl)⟩
  have hname := hlabels _ List.mem_cons_self
  obtain ⟨inner, hinner, hframe⟩ := brackets_lines hlines
  refine ⟨?_, ?_⟩
  · have hbegins := hname.beginsWith_eq_false (by decide : ' ' ∈ "sub esp,".toList)
    have hempty : beginsWith "sub esp," "" = false := by decide
    have hoffsets : (offsets.map FrameUse.word).filterMap FrameUse.line? = [] := by
      rw [List.filterMap_map]
      exact List.filterMap_eq_nil_iff.2 fun _ _ => rfl
    unfold linesWith
    rw [h.lines_text hlabels, List.map_cons, List.filter_cons_of_neg (by simp [hempty]),
      List.filter_cons_of_neg (by simp [Line.written, hbegins]), rooms_lines hlines, huses,
      List.filterMap_append, hoffsets, List.append_nil]
    unfold Function.room
    split <;> rfl
  · have hlabel : Brackets (Line.label (.routine r.name)).text [] :=
      (Brackets.plain _ (hname.not_mem rfl)).append (.plain ":\n" (by decide))
    have hall := (((Brackets.plain "\n" (by decide)).append hlabel).append hinner) []
    rw [List.append_nil, bracketedIn, List.append_nil] at hall
    have htext : bracketed r.text = inner := hall
    have hroom : f.room.filterMap FrameUse.inner? = [] := by
      unfold Function.room
      split <;> rfl
    have hwords : (offsets.map FrameUse.word).filterMap FrameUse.inner? =
        offsets.map fun offset => "ebp" ++ offsetText offset := by
      rw [List.filterMap_map]
      exact congrFun (List.filterMap_eq_map (f := fun offset => "ebp" ++ offsetText offset)) offsets
    rw [htext, hframe, huses, List.filterMap_append, hroom, hwords, List.nil_append,
      List.forall₂_map_right_iff]
    exact hmatch.imp fun _ _ haddress => haddress.written

/-- **Checker, frame and addresses agree.**  In an accepted program, the locals of a function
with a body are those that its text declares, in the order of evaluation, and no two variables
of it have one name.  Its code makes room for these locals, one word each, and addresses from
`ebp` nothing but the words of the variables that it mentions: a local by its place among the
locals, and an argument by its place among the arguments.  This is also what is written in the
text of the program. -/
theorem frames_agree {source : String} {file : Option String}
    (haccepted : frontEnd source file = .ok p) (hf : f ∈ p.functions) (hblock : f.builtin = false) :
    f.locals = bodyDeclared f.body ∧ ((f.arguments ++ f.locals).map Var.name).Nodup ∧
      (∀ literals, ∃ r more, f.compile literals = .ok (r, more) ∧ f.FramedBy r ∧
        f.FrameWritten r.text) ∧
      ∀ a, p.compile = .ok a → ∃ r ∈ a.routines, r.name = f.name ∧ f.FramedBy r ∧
        f.FrameWritten r.text ∧
          ∃ before after, p.assemblyText = .ok (before ++ r.text ++ after) := by
  have hp := frontEnd_typed haccepted
  have htyped := hp.each f hf
  have hbuiltin : f.builtin = true → f.name = "print" := by
    intro h
    rw [hblock] at h
    cases h
  have hwritten : ∀ {literals r}, RoutineOf literals f r →
      f.FramedBy r ∧ f.FrameWritten r.text := by
    intro literals r hroutine
    have hframed := hroutine.framedBy htyped hblock
    have hwords := hroutine.isWord htyped hf (frontEnd_names haccepted)
    exact ⟨hframed, hroutine.frameWritten hblock hwords hframed⟩
  refine ⟨(htyped.body hblock).after_eq, htyped.env_distinct hblock, ?_, ?_⟩
  · intro literals
    obtain ⟨r, more, hcompiled, _, hroutine⟩ := f.compile_ok htyped hbuiltin literals
    exact ⟨r, more, hcompiled, hwritten hroutine⟩
  · intro a hcompiled
    obtain ⟨r, hr, hroutine⟩ := (hp.assemblyOf hcompiled).routine f hf
    obtain ⟨hframed, htext⟩ := hwritten hroutine
    exact ⟨r, hr, hroutine.name_eq, hframed, htext, Program.assemblyText_eq hcompiled hr⟩

/-- A function that declares a local in each of two branches and uses both later. -/
def branchesSource : String :=
  "i32 f(a: i32) \x7b if (a == 0) \x7b var m: i32 = a; \x7d else \x7b var n: i32; \x7d " ++
    "return m + n; \x7d"

theorem frames_agree_branches :
    ∃ p f, frontEnd branchesSource none = .ok p ∧ p.function? "f" = some f ∧
      f.locals = [⟨"m", .int⟩, ⟨"n", .int⟩] ∧
      ∀ literals, ∃ r more, f.compile literals = .ok (r, more) ∧ f.FramedBy r ∧
        f.FrameWritten r.text := by
  have hcheck : (frontEnd branchesSource none).toOption.any (fun p =>
      (p.function? "f").any fun f =>
        !f.builtin && decide (f.locals = [⟨"m", .int⟩, ⟨"n", .int⟩])) = true := by
    decide +kernel
  obtain ⟨p, haccepted, hcheck⟩ := (Option.any_eq_true _ _).1 hcheck
  obtain ⟨f, hfound, hcheck⟩ := (Option.any_eq_true _ _).1 hcheck
  rw [Bool.and_eq_true, Bool.not_eq_true', decide_eq_true_eq] at hcheck
  obtain ⟨hblock, hlocals⟩ := hcheck
  have haccepted := toOption_eq_some.1 haccepted
  obtain ⟨-, -, hframed, -⟩ := frames_agree haccepted (function?_eq_some hfound).1 hblock
  exact ⟨p, f, haccepted, hfound, hlocals, hframed⟩

end Slate
