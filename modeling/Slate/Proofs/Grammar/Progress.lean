import Slate.Proofs.Grammar.BudgetStatements
import Slate.Proofs.Grammar.RelocatedPrograms

/-!
# Parsing makes progress

The last two loops of the grammar read the argument declarations of a function and the
functions of a program.  A program is read with as many rounds as it has tokens, and with
levels for all of them (`Budget.parse`).

Whatever a reader leaves is the end of what it was given, and shorter.  This is what bounds
the loops of the grammar, whose rounds each take a token, and the recursion, which goes into
shorter tokens or from a phrase to the first part of it.  Both bounds are those of the
budget, so parsing ends on all tokens, whether they are a program or not:
`parsing_progresses_and_ends`.
-/

namespace Slate

namespace Budget

/-- One round of the loop over the declarations of arguments: a declaration, and the comma if
one stands behind it. -/
def nextParameter (earlier : List Var) : Attempt (List Var ⊕ List Var) := do
  let (v, span) ← (plain readVar).attempt
  if v.name ∈ (earlier.map Var.name).reverse then refuse (.found span .argumentRepeated)
  else fun ts =>
    if startsWith .comma ts then (pure (.inl (earlier ++ [v])) : Attempt _) ts.tail
    else (pure (.inr (earlier ++ [v])) : Attempt _) ts

/-- Reads arguments in parentheses.  The loop over their declarations takes at most as many
rounds as there are tokens, the opening parenthesis being counted. -/
def argumentList : Attempt (List Var × Span) := fun ts =>
  (do
    let _ ← (plain (readKind .leftParen .openParen)).attempt
    fun inside =>
      if startsWith .rightParen inside then
        (do
          let close ← (plain (readKind .rightParen .commaOrCloseParen)).attempt
          pure ([], close.span) : Attempt (List Var × Span)) inside
      else
        (do
          let vs ← rounds nextParameter ts.length []
          let close ← (plain (readKind .rightParen .commaOrCloseParen)).attempt
          pure (vs, close.span) : Attempt (List Var × Span)) inside : Attempt _) ts

/-- Reads what follows the arguments: a semicolon for a builtin, a body for any other
function. -/
def body (depth : Nat) (builtin : Bool) : Attempt (List Stmt) :=
  if builtin then (plain (readBody true)).attempt
  else do
    let (ss, _) ← block depth
    pure ss

/-- Reads a function from its result type on; its first token stands at `start`. -/
def signatureAndBody (depth : Nat) (taken : List String) (builtin : Bool) (start : Span) :
    Attempt Function := do
  let (result, _) ← (plain readType).attempt
  let name ← (plain (readFunctionName taken)).attempt
  let (arguments, close) ← argumentList
  let ss ← body depth builtin
  pure ⟨name, result, arguments, [], builtin, start.through close, ss⟩

/-- Reads one function definition. -/
def function (depth : Nat) (taken : List String) : Attempt Function := fun ts =>
  match ts with
  | [] => refuse (.unexpected .typeName []) []
  | t :: rest =>
    if t.isKeyword "builtin" then signatureAndBody depth taken true t.span rest
    else signatureAndBody depth taken false t.span (t :: rest)

/-- One round of the loop over the functions of a program. -/
def nextFunction (depth : Nat) (earlier : List Function) : Attempt (List Function) := do
  let f ← function depth (earlier.map Function.name).reverse
  pure (earlier ++ [f])

/-- Levels that are enough for some tokens. -/
def levels (ts : List Token) : Nat := 2 * ts.length + 3

/-- Reads the functions of a program.  The loop over them takes at most as many rounds as
there are tokens. -/
def functions : Attempt (List Function) := fun ts =>
  untilEnd (nextFunction (levels ts)) ts.length [] ts

/-- The parser, with a budget for every loop and for the recursion. -/
def parse (ts : List Token) (file : Option String) : Option (Except Diagnostic Program) :=
  (functions ts).run.map fun
    | .ok (fs, _) => .ok ⟨fs, file⟩
    | .error f => .error ((f.placed ts).diagnostic file)

/-! ## Arguments -/

/-- The declarations that stand behind earlier ones. -/
def parametersAfter (earlier : List Var) : Reader (List Var) := do
  let vs ← plain (readParameters (earlier.map Var.name).reverse)
  pure (earlier ++ vs)

/-- Behind some parameters one more is read, and refused if its name is among theirs. -/
theorem parametersAfter_eq (earlier : List Var) :
    parametersAfter earlier = (do
      let (v, span) ← plain readVar
      if v.name ∈ (earlier.map Var.name).reverse then
        fun _ => .error (.found span .argumentRepeated)
      else fun ts =>
        if startsWith .comma ts then parametersAfter (earlier ++ [v]) ts.tail
        else (pure (earlier ++ [v]) : Reader (List Var)) ts) := by
  have hfirst : parametersAfter earlier = plain readVar >>= fun r =>
      (if r.1.name ∈ (earlier.map Var.name).reverse then
        fun _ => .error (.found r.2 .argumentRepeated)
      else parametersBehind (earlier.map Var.name).reverse r.1) >>= fun vs =>
        pure (earlier ++ vs) := by
    unfold parametersAfter
    rw [plain_readParameters, bind_assoc]
  rw [hfirst]
  funext ts
  refine bind_congr_reader rfl fun v rest _ => ?_
  obtain ⟨v, span⟩ := v
  dsimp only
  by_cases hname : v.name ∈ (earlier.map Var.name).reverse
  · rw [if_pos hname, if_pos hname]
    rfl
  · rw [if_neg hname, if_neg hname]
    have hnames : ((earlier ++ [v]).map Var.name).reverse =
        v.name :: (earlier.map Var.name).reverse := by simp
    show (parametersBehind _ v rest >>= fun r => pure (earlier ++ r.1, r.2)) = _
    unfold parametersBehind parametersAfter
    rw [hnames]
    cases startsWith .comma rest with
    | true =>
        show (forget (readParameters _ rest.tail) >>= _) >>= _ =
          forget (readParameters _ rest.tail) >>= _
        cases forget (readParameters (v.name :: (earlier.map Var.name).reverse) rest.tail) with
        | error f => rfl
        | ok r => exact congrArg (fun vs => Except.ok (vs, r.2)) (List.append_cons ..)
    | false => rfl

/-- One declaration, and what stands behind it. -/
theorem nextParameter_turn (ts : List Token) (earlier : List Var) :
    Turn parametersAfter ts.length (nextParameter earlier ts) (parametersAfter earlier ts) := by
  rw [parametersAfter_eq]
  refine .bind (.attempt _ ts) fun v rest hv => ?_
  have hshorter : rest.length < ts.length := (forget_eq_ok.1 hv).left
  obtain ⟨v, span⟩ := v
  dsimp only
  by_cases hname : v.name ∈ (earlier.map Var.name).reverse
  · rw [if_pos hname, if_pos hname]
    exact .fails _
  · rw [if_neg hname, if_neg hname]
    cases startsWith .comma rest with
    | true =>
        have htail : rest.tail.length < ts.length := by
          rw [List.length_tail]
          omega
        exact .goesOn (earlier ++ [v]) htail
    | false => exact .ends (earlier ++ [v]) rest

/-- The list of the parameters comes out as it is read. -/
theorem argumentList_comes (ts : List Token) :
    Comes argumentList (plain readArgumentList) ts := by
  rw [plain_readArgumentList]
  refine .same ?_ (by rw [argumentList])
  refine .behind fun opening rest hopening => ?_
  have hshorter : rest.length < ts.length := (forget_eq_ok.1 hopening).left
  refine .decided (fun _ => ?_) fun _ => ?_
  · exact .behind fun close left _ => .answer _ left
  · have hloop : Comes (rounds nextParameter ts.length []) (parametersAfter []) rest :=
      rounds_eq (fun earlier us _ => nextParameter_turn us earlier) [] rest hshorter
    have hreader : parametersAfter [] = plain (readParameters []) := by
      unfold parametersAfter
      simp
    rw [hreader] at hloop
    exact hloop.bind fun vs after _ => .behind fun close left _ => .answer _ left

/-! ## Functions -/

/-- A body comes out as it is read. -/
theorem body_comes (depth : Nat) (builtin : Bool) (ts : List Token)
    (hdepth : 2 * ts.length + 3 ≤ depth) :
    Comes (body depth builtin) (plain (readBody builtin)) ts := by
  cases builtin with
  | true => exact .attempt _ ts
  | false =>
      rw [plain_readBody_of_block]
      exact (block_comes depth ts (by omega)).bind fun ss rest _ => .answer _ rest

/-- So does what stands behind the mark of a function. -/
theorem signatureAndBody_comes (depth : Nat) (taken : List String) (builtin : Bool) (start : Span)
    (ts : List Token) (hdepth : 2 * ts.length + 3 ≤ depth) :
    Comes (signatureAndBody depth taken builtin start)
      (plain (readSignatureAndBody taken builtin start)) ts := by
  rw [plain_readSignatureAndBody]
  refine .behind fun result afterType htype => ?_
  refine .behind fun name afterName hname => ?_
  refine (argumentList_comes afterName).bind fun arguments rest harguments => ?_
  have hshorter : rest.length < ts.length :=
    Nat.lt_trans (forget_eq_ok.1 harguments).left
      (Nat.lt_trans (forget_eq_ok.1 hname).left (forget_eq_ok.1 htype).left)
  exact (body_comes depth builtin rest (by omega)).bind fun ss left _ => .answer _ left

/-- So does a function. -/
theorem function_comes (depth : Nat) (taken : List String) (ts : List Token)
    (hdepth : 2 * ts.length + 3 ≤ depth) :
    Comes (function depth taken) (plain (readFunction taken)) ts := by
  cases ts with
  | nil => rfl
  | cons t ts =>
      have hlength : (t :: ts).length = ts.length + 1 := rfl
      cases hbuiltin : t.isKeyword "builtin" with
      | true =>
          refine (signatureAndBody_comes depth taken true t.span ts (by omega)).congr ?_
            (plain_readFunction_of_builtin hbuiltin ts)
          simp only [function, hbuiltin, if_true]
      | false =>
          refine (signatureAndBody_comes depth taken false t.span (t :: ts) hdepth).congr ?_
            (plain_readFunction_of_block hbuiltin ts)
          simp only [function, hbuiltin, Bool.false_eq_true, if_false]

/-! ## Programs -/

/-- The functions that stand behind earlier ones. -/
def functionsAfter (earlier : List Function) : Reader (List Function) := fun ts => do
  let fs ← readFunctions (earlier.map Function.name).reverse ts
  pure (earlier ++ fs, [])

/-- The next function, behind earlier ones. -/
def functionAfter (earlier : List Function) : Reader (List Function) := do
  let f ← plain (readFunction (earlier.map Function.name).reverse)
  pure (earlier ++ [f])

/-- At the end of the tokens there are no more functions. -/
theorem functionsAfter_nil (earlier : List Function) :
    functionsAfter earlier [] = .ok (earlier, []) := by
  unfold functionsAfter
  rw [readFunctions]
  exact congrArg (fun fs => Except.ok (fs, [])) earlier.append_nil

/-- At any token there is one more. -/
theorem functionsAfter_cons (earlier : List Function) (t : Token) (ts : List Token) :
    functionsAfter earlier (t :: ts) = (functionAfter earlier >>= functionsAfter) (t :: ts) := by
  show (readFunctions _ (t :: ts) >>= _) = (forget (readFunction _ (t :: ts)) >>= _) >>= _
  rw [readFunctions_eq]
  show (forget (readFunction _ (t :: ts)) >>= _) >>= _ = _
  cases forget (readFunction (earlier.map Function.name).reverse (t :: ts)) with
  | error f => rfl
  | ok r =>
      have hnames : ((earlier ++ [r.1]).map Function.name).reverse =
          r.1.name :: (earlier.map Function.name).reverse := by simp
      show (readFunctions (r.1.name :: (earlier.map Function.name).reverse) r.2 >>= _) >>= _ =
        readFunctions ((earlier ++ [r.1]).map Function.name).reverse r.2 >>= _
      rw [hnames]
      cases readFunctions (r.1.name :: (earlier.map Function.name).reverse) r.2 with
      | error f => rfl
      | ok fs => exact congrArg (fun fs => Except.ok (fs, [])) (List.append_cons ..)

/-- **A program is read within its budget.** -/
theorem functions_comes (ts : List Token) : Comes functions (functionsAfter []) ts := by
  have htakes : ∀ earlier us fs rest,
      functionAfter earlier us = .ok (fs, rest) → rest.length < us.length := by
    intro earlier us fs rest h
    obtain ⟨⟨f, left⟩, hf, h⟩ := bind_eq_ok.1 h
    cases h
    exact (forget_eq_ok.1 hf).left
  have hround : ∀ earlier us, us.length ≤ ts.length →
      Comes (nextFunction (levels ts) earlier) (functionAfter earlier) us := by
    intro earlier us hus
    have hdepth : 2 * us.length + 3 ≤ levels ts := by
      unfold levels
      omega
    exact (function_comes (levels ts) _ us hdepth).bind fun f rest _ => .answer _ rest
  have hloop := untilEnd_eq functionsAfter_nil functionsAfter_cons htakes hround [] ts
    (Nat.le_refl _)
  exact hloop.congr rfl rfl

/-- **The parser ends**, with a program or a diagnostic, before its budget is used up. -/
theorem parse_eq (ts : List Token) (file : Option String) :
    parse ts file = some (Program.parse ts file) := by
  unfold parse
  rw [functions_comes ts]
  unfold Program.parse
  show some _ = some _
  have hreader : functionsAfter [] ts = (readFunctions [] ts).map fun fs => (fs, []) := by
    show (readFunctions [] ts >>= _) = _
    cases readFunctions [] ts <;> rfl
  rw [hreader]
  cases readFunctions [] ts <;> rfl

end Budget

/-! ## Progress -/

/-- Where the reader succeeds, it leaves a strictly shorter end of its tokens. -/
def Progresses {α : Type} (r : Reader α) : Prop :=
  ∀ ts a rest, r ts = .ok (a, rest) → rest <:+ ts ∧ rest.length < ts.length

/-- A reader that looks no further than behind what it takes leaves what it does not take. -/
theorem Progresses.of_prompt {α : Type} {Opens : List Token → List Token → Prop}
    {r : (ts : List Token) → Reading α ts} (h : ∀ ts, Prompt (Opens ts) (plain r) ts) :
    Progresses (plain r) := by
  intro ts a rest hread
  obtain ⟨used, hts, _⟩ := (h ts).looksAtOne a rest hread
  exact ⟨⟨used, hts.symm⟩, (forget_eq_ok.1 hread).left⟩

/-- A conditional takes a token. -/
theorem if_progresses (start : Span) : Progresses (plain (readIf start)) := by
  have hkeyword : (Token.sample .keyword "if").isKeyword "if" = true := rfl
  exact .of_prompt (if_prompt hkeyword)

/-- So do the arguments of a call: the closing parenthesis is one. -/
theorem arguments_progress : Progresses (plain readArguments) := by
  have hname : (Token.sample .identifier "f").kind = .identifier := rfl
  have hopening : (Token.sample .leftParen "(").kind = .leftParen := rfl
  exact .of_prompt (arguments_prompt hname hopening)

/-- **Parsing makes progress and ends on all tokens.**  A reader that succeeds leaves a
strictly shorter end of its tokens: an expression at any least power, a statement, a block, an
`if` behind its keyword, the arguments of a call behind their opening parenthesis, the
declaration of a variable, and a function behind any others.  And with the loops held to as
many rounds as there are tokens, and the recursion to levels that are linear in them, every
reader comes to its answer or fault, and parsing to its program or diagnostic. -/
theorem parsing_progresses_and_ends :
    ((∀ least, Progresses (plain (readExpression least))) ∧ Progresses (plain readStatement) ∧
      Progresses (plain readBlock) ∧ (∀ start, Progresses (plain (readIf start))) ∧
      Progresses (plain readArguments) ∧ Progresses (plain readVar) ∧
      ∀ taken, Progresses (plain (readFunction taken))) ∧
    ∀ ts : List Token,
      (∀ least, Comes (Budget.expression (Budget.levels ts) least)
        (plain (readExpression least)) ts) ∧
      Comes (Budget.statement (Budget.levels ts)) (plain readStatement) ts ∧
      Comes (Budget.block (Budget.levels ts)) (plain readBlock) ts ∧
      (∀ start, Comes (Budget.conditional (Budget.levels ts) start) (plain (readIf start)) ts) ∧
      Comes (Budget.arguments (Budget.levels ts)) (plain readArguments) ts ∧
      (∀ taken, Comes (Budget.function (Budget.levels ts) taken)
        (plain (readFunction taken)) ts) ∧
      ∀ file, Budget.parse ts file = some (Program.parse ts file) := by
  refine ⟨⟨fun least => .of_prompt (expression_prompt least), .of_prompt statement_prompt,
    .of_prompt block_prompt, if_progresses, arguments_progress, .of_prompt var_prompt,
    fun taken => .of_prompt (function_prompt taken)⟩, fun ts => ?_⟩
  have henough : 2 * ts.length + 3 ≤ Budget.levels ts := Nat.le_refl _
  refine ⟨fun least => ?_, ?_, ?_, fun start => ?_, ?_, fun taken => ?_, Budget.parse_eq ts⟩
  · exact Budget.expression_comes _ least ts (Nat.le_of_succ_le henough)
  · exact Budget.statement_comes _ ts henough
  · exact Budget.block_comes _ ts (Nat.le_of_succ_le henough)
  · exact Budget.conditional_comes _ start ts henough
  · exact Budget.arguments_comes _ ts henough
  · exact Budget.function_comes _ taken ts henough

end Slate
