import Slate.Assembly.Pieces
import Slate.Compile.Program
import Slate.Sink

/-!
# Writing assembly to a sink

The text of an assembly is written while it is made: the header before the
first function is looked at, the pieces of each routine when its function is
compiled (`linesPieces`), and the data at the end.  So a sink that refuses
output is noticed before a fault of the program, and a fault of the program
leaves the routines before it written.  The label of a builtin without a routine
is written before the builtin is found to have none.

What is done is kept as a list of steps (`Program.emission`), between which the
work also says where it is.  Of a function that is found faulty inside its body,
which no checked program has, nothing is written.

* `emission_text` — what is written of a program that compiles is its assembly.
-/

namespace Slate

/-- A step in writing an assembly: a text is written, the code of a function
begins, or all of the assembly has been written. -/
inductive EmitStep where
  | write (text : String)
  | begins (function : String) (locals : Nat)
  | ends (functions literals : Nat)
deriving DecidableEq

/-- The writing of an assembly: the steps that are taken, and what comes of it. -/
structure Emission where
  steps : List EmitStep
  result : Except CompileError Unit

/-- The text that a step writes. -/
def EmitStep.text? : EmitStep → Option String
  | write text => some text
  | begins _ _ | ends _ _ => none

/-- The texts that are written, in order. -/
def textsOf (steps : List EmitStep) : List String := steps.filterMap EmitStep.text?

/-- The steps in which the routine of a function is written: its label, and then
its code.  The code of a builtin is one piece. -/
def Function.emitSteps (f : Function) (r : Routine) : List EmitStep :=
  (routineLabelPieces r.name).map .write ++
    (if f.builtin then [.write (linesText r.lines)]
    else .begins f.name f.locals.length :: (linesPieces false r.lines).map .write)

/-- The steps in which a function is begun that turns out to have no routine. -/
def Function.refusedSteps (f : Function) : List EmitStep :=
  if f.builtin then (routineLabelPieces f.name).map .write else []

/-- The steps in which the routines of functions are written, and the literals
met by then. -/
def functionsEmission (literals : List String) :
    List Function → List EmitStep × Except CompileError (List String)
  | [] => ([], .ok literals)
  | f :: fs =>
    match f.compile literals with
    | .error e => (f.refusedSteps, .error e)
    | .ok (routine, literals) =>
      let (steps, result) := functionsEmission literals fs
      (f.emitSteps routine ++ steps, result)

/-- The steps in which the data of a program is written. -/
def dataSteps (p : Program) (literals : List String) : List EmitStep :=
  .write "\nsection .data\n" :: (dataLinesPieces 0 literals).map .write ++
    [.ends p.functions.length literals.length]

/-- The writing of the assembly of a program. -/
def Program.emission (p : Program) : Emission :=
  let header : EmitStep := .write (Assembly.headerText p.hasMain)
  match functionsEmission [] p.functions with
  | (steps, .error e) => ⟨header :: steps, .error e⟩
  | (steps, .ok literals) => ⟨header :: steps ++ dataSteps p literals, .ok ()⟩

/-- All that is written of a program, up to the fault if it has one. -/
def Program.writtenText (p : Program) : String := String.join (textsOf p.emission.steps)

section

variable {σ : Type}

/-- Writes texts in order, up to one that is refused, which is an error of the
output. -/
def writeTexts (sink : Sink σ) : List String → σ → Except CompileError Unit × σ
  | [], state => (.ok (), state)
  | text :: texts, state =>
    match sink.write text.toUTF8 state with
    | .ok state => writeTexts sink texts state
    | .error message => (.error (.output message), state)

/-- Writes the assembly of a program to a sink. -/
def Program.emit (sink : Sink σ) (p : Program) (state : σ) : Except CompileError Unit × σ :=
  match writeTexts sink (textsOf p.emission.steps) state with
  | (.error refusal, state) => (.error refusal, state)
  | (.ok (), state) => (p.emission.result, state)

end

/-! ## What is written -/

/-- The texts of two pieces are those of the first and those of the second. -/
theorem textsOf_append (first second : List EmitStep) :
    textsOf (first ++ second) = textsOf first ++ textsOf second :=
  List.filterMap_append

/-- Steps that only write give their texts. -/
@[simp]
theorem textsOf_writes (texts : List String) : textsOf (texts.map .write) = texts := by
  unfold textsOf
  rw [List.filterMap_map]
  exact List.filterMap_some

/-- The steps of a function give the text of its routine. -/
theorem Function.emitSteps_text (f : Function) (r : Routine) :
    String.join (textsOf (f.emitSteps r)) = r.text := by
  have hcode : String.join (textsOf (if f.builtin then [.write (linesText r.lines)]
      else .begins f.name f.locals.length :: (linesPieces false r.lines).map .write)) =
      linesText r.lines := by
    split
    · exact String.empty_append
    · show String.join (textsOf ((linesPieces false r.lines).map .write)) = _
      rw [textsOf_writes, linesPieces_join]
  unfold emitSteps
  rw [textsOf_append, String.join_append, hcode, textsOf_writes, Routine.text]
  simp [routineLabelPieces, Line.text, Label.text, String.append_assoc]

/-- Writing routines ends as compiling them does. -/
theorem functionsEmission_result (literals : List String) (fs : List Function) :
    (functionsEmission literals fs).2 = (compileFunctions literals fs).map Prod.snd := by
  induction fs generalizing literals with
  | nil => rfl
  | cons f fs ih =>
      cases hcompile : f.compile literals with
      | error e =>
          simp [compileFunctions, functionsEmission, hcompile, bind, Except.bind, Except.map]
      | ok result =>
          obtain ⟨routine, more⟩ := result
          simp only [compileFunctions, functionsEmission, hcompile, bind, Except.bind, ih]
          cases compileFunctions more fs <;> rfl

/-- Routines are written one after the other. -/
theorem functionsEmission_text {literals final : List String} {fs : List Function}
    {routines : List Routine} (h : compileFunctions literals fs = .ok (routines, final)) :
    String.join (textsOf (functionsEmission literals fs).1) =
      String.join (routines.map Routine.text) := by
  induction fs generalizing literals routines with
  | nil =>
      cases h
      rfl
  | cons f fs ih =>
      cases hcompile : f.compile literals with
      | error e => simp [compileFunctions, hcompile, bind, Except.bind] at h
      | ok result =>
          obtain ⟨routine, more⟩ := result
          cases hothers : compileFunctions more fs with
          | error e => simp [compileFunctions, hcompile, hothers, bind, Except.bind] at h
          | ok others =>
              simp only [compileFunctions, hcompile, hothers, bind, Except.bind] at h
              cases h
              simp only [functionsEmission, hcompile]
              rw [textsOf_append, String.join_append, Function.emitSteps_text, ih hothers,
                List.map_cons, String.join_cons]

/-- Writing an assembly ends as compiling the program does. -/
theorem Program.emission_result (p : Program) : p.emission.result = p.compile.map fun _ => () := by
  have hfunctions := functionsEmission_result [] p.functions
  unfold Program.emission Program.compile
  rcases hemission : functionsEmission [] p.functions with ⟨steps, result⟩
  rw [hemission] at hfunctions
  cases hcompile : compileFunctions [] p.functions with
  | error e =>
      rw [hcompile] at hfunctions
      cases hfunctions
      rfl
  | ok compiled =>
      rw [hcompile] at hfunctions
      cases hfunctions
      rfl

/-- The steps of the data give the text of its section. -/
theorem textsOf_dataSteps (p : Program) (literals : List String) :
    String.join (textsOf (dataSteps p literals)) = Assembly.dataSectionText literals := by
  have htexts : textsOf (dataSteps p literals) =
      "\nsection .data\n" :: (dataLinesPieces 0 literals ++ []) := by
    rw [← textsOf_writes (dataLinesPieces 0 literals)]
    exact textsOf_append (.write "\nsection .data\n" :: (dataLinesPieces 0 literals).map .write) _
  rw [htexts, List.append_nil, String.join_cons, dataLinesPieces_join]
  rfl

/-- **What is written of a program that compiles** is its assembly. -/
theorem Program.emission_text {p : Program} {text : String} (h : p.assemblyText = .ok text) :
    p.writtenText = text := by
  unfold Program.assemblyText Program.compile at h
  cases hcompile : compileFunctions [] p.functions with
  | error e =>
      rw [hcompile] at h
      cases h
  | ok compiled =>
      obtain ⟨routines, literals⟩ := compiled
      have hresult := functionsEmission_result [] p.functions
      have hroutines := functionsEmission_text hcompile
      rw [hcompile] at h hresult
      cases h
      unfold Program.writtenText Program.emission
      rcases hemission : functionsEmission [] p.functions with ⟨steps, result⟩
      rw [hemission] at hresult hroutines
      cases hresult
      have htexts : textsOf (.write (Assembly.headerText p.hasMain) :: steps ++
          dataSteps p literals) = Assembly.headerText p.hasMain ::
            (textsOf steps ++ textsOf (dataSteps p literals)) :=
        textsOf_append (.write (Assembly.headerText p.hasMain) :: steps) _
      show String.join (textsOf (.write (Assembly.headerText p.hasMain) :: steps ++
        dataSteps p literals)) = _
      rw [htexts, String.join_cons, String.join_append, hroutines, textsOf_dataSteps]
      exact (String.append_assoc ..).symm

end Slate
