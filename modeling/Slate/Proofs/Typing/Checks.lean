import Slate.Typing.Program

/-!
# How a check goes

The ways in which the check of a tree can go, one by one: at which part it stops, what it
finds fault with, or what it answers.  A check that goes on has the check of a part as a
premise, with the locals that the part before it left.  So what is said of every check can
be proved by one induction, with a case for each way, and without the order of the
questions that the checker asks.

The relations say neither more nor less than the checker does.

* `checksExpr`, `checksStmts` and their companions — every check goes in one of the ways;
* `ChecksExpr.eq`, `ChecksStmts.eq` and their companions — and only as the checker goes.
-/

namespace Slate

variable {env : Env}

/-- What a call of the function with so many arguments has to keep to, where it is allowed.
A system call asks for no types. -/
def Env.demand (env : Env) (name : String) (count : Nat) : Except TypeCause Signature :=
  if name = syscallName then
    if count > syscallMaxArguments then .error .syscallArguments else .ok ⟨[], .int⟩
  else
    match env.signatures.lookup name with
    | none => .error .unknownFunction
    | some signature =>
      if signature.arguments.length ≠ count then
        .error (.argumentCount name signature.arguments.length count)
      else .ok signature

/-- A system call keeps to nothing but the number of arguments. -/
theorem Env.demand_syscall {count : Nat} (few : count ≤ syscallMaxArguments) :
    env.demand syscallName count = .ok ⟨[], .int⟩ := by
  rw [demand, if_pos rfl, if_neg (Nat.not_lt.2 few)]

/-- A call of a known function keeps to its signature. -/
theorem Env.demand_known {name : String} {signature : Signature} (other : name ≠ syscallName)
    (known : env.signatures.lookup name = some signature) :
    env.demand name signature.arguments.length = .ok signature := by
  simp only [demand, if_neg other, known, ne_eq, not_true_eq_false, if_false]

/-- What is asked of a call that is allowed. -/
theorem Env.demand_eq_ok {name : String} {count : Nat} {signature : Signature}
    (h : env.demand name count = .ok signature) :
    (name = syscallName ∧ count ≤ syscallMaxArguments ∧ signature = ⟨[], .int⟩) ∨
      (name ≠ syscallName ∧ env.signatures.lookup name = some signature ∧
        signature.arguments.length = count) := by
  unfold demand at h
  split at h
  · next hname =>
    split at h
    · cases h
    · next hcount =>
      cases h
      exact .inl ⟨hname, Nat.not_lt.1 hcount, rfl⟩
  · next hname =>
    split at h
    · cases h
    · next hknown =>
      split at h
      · cases h
      · next hcount =>
        cases h
        exact .inr ⟨hname, hknown, Decidable.not_not.1 hcount⟩

/-- What is wrong with a call that is not allowed. -/
theorem Env.demand_eq_error {name : String} {count : Nat} {cause : TypeCause}
    (h : env.demand name count = .error cause) :
    (name = syscallName ∧ count > syscallMaxArguments ∧ cause = .syscallArguments) ∨
      (name ≠ syscallName ∧ env.signatures.lookup name = none ∧ cause = .unknownFunction) ∨
      ∃ signature, name ≠ syscallName ∧ env.signatures.lookup name = some signature ∧
        signature.arguments.length ≠ count ∧
        cause = .argumentCount name signature.arguments.length count := by
  unfold demand at h
  split at h
  · next hname =>
    split at h
    · next hcount =>
      cases h
      exact .inl ⟨hname, hcount, rfl⟩
    · cases h
  · next hname =>
    split at h
    · next hunknown =>
      cases h
      exact .inr (.inl ⟨hname, hunknown, rfl⟩)
    · next signature hknown =>
      split at h
      · next hcount =>
        cases h
        exact .inr (.inr ⟨signature, hname, hknown, hcount, rfl⟩)
      · cases h

/-! ## Expressions -/

mutual

/-- The ways in which the check of an expression goes. -/
inductive ChecksExpr (env : Env) : List Var → Expr → Checked Expr Ty → Prop
  | literal {locals : List Var} {n : Note} {value : Literal} :
      ChecksExpr env locals (.literal n value)
        (.pass (.literal (n.typed value.type) value) locals value.type)
  | unstorable {locals : List Var} {n : Note} {v : Var} (storable : v.type.isStorable = false) :
      ChecksExpr env locals (.declare n v)
        (.fail (.declare n v) locals n.span (.unknownType v))
  | redeclared {locals : List Var} {n : Note} {v w : Var} (storable : v.type.isStorable = true)
      (known : env.find? locals v.name = some w) :
      ChecksExpr env locals (.declare n v) (.fail (.declare n v) locals n.span .redeclared)
  | declare {locals : List Var} {n : Note} {v : Var} (storable : v.type.isStorable = true)
      (fresh : env.find? locals v.name = none) :
      ChecksExpr env locals (.declare n v)
        (.pass (.declare (n.typed v.type.reference) v) (locals ++ [v]) v.type.reference)
  | unknown {locals : List Var} {n : Note} {name : String}
      (unknown : env.find? locals name = none) :
      ChecksExpr env locals (.var n name) (.fail (.var n name) locals n.span .unknownVariable)
  | var {locals : List Var} {n : Note} {name : String} {v : Var}
      (known : env.find? locals name = some v) :
      ChecksExpr env locals (.var n name)
        (.pass (.var (n.typed v.type.reference) name) locals v.type.reference)
  | assignRight {before after : List Var} {n : Note} {left right right' : Expr} {f : TypeFault}
      (value : ChecksExpr env before right ⟨right', after, .error f⟩) :
      ChecksExpr env before (.assign n left right) ⟨.assign n left right', after, .error f⟩
  | assignLeft {before between after : List Var} {n : Note} {left right left' right' : Expr}
      {t : Ty} {f : TypeFault} (value : ChecksExpr env before right (.pass right' between t))
      (place : ChecksExpr env between left ⟨left', after, .error f⟩) :
      ChecksExpr env before (.assign n left right) ⟨.assign n left' right', after, .error f⟩
  | assignValue {before between after : List Var} {n : Note} {left right left' right' : Expr}
      {t u : Ty} (value : ChecksExpr env before right (.pass right' between t))
      (place : ChecksExpr env between left (.pass left' after u))
      (plain : u.isReference = false) :
      ChecksExpr env before (.assign n left right)
        (.fail (.assign n left' right') after left.span .notReference)
  | assignDiffers {before between after : List Var} {n : Note} {left right left' right' : Expr}
      {t u : Ty} (value : ChecksExpr env before right (.pass right' between t))
      (place : ChecksExpr env between left (.pass left' after u))
      (reference : u.isReference = true) (differ : u.agrees t = false) :
      ChecksExpr env before (.assign n left right)
        (.fail (.assign n left' right') after n.span .sidesDiffer)
  | assign {before between after : List Var} {n : Note} {left right left' right' : Expr}
      {t u : Ty} (value : ChecksExpr env before right (.pass right' between t))
      (place : ChecksExpr env between left (.pass left' after u))
      (reference : u.isReference = true) (agree : u.agrees t = true) :
      ChecksExpr env before (.assign n left right)
        (.pass (.assign (n.typed u) left' (right'.decayed t)) after u)
  | refused {locals : List Var} {n : Note} {name : String} {args : List Expr}
      {cause : TypeCause} (refused : env.demand name args.length = .error cause) :
      ChecksExpr env locals (.call n name args)
        (.fail (.call n name args) locals n.span cause)
  | callArguments {before after : List Var} {n : Note} {name : String} {args args' : List Expr}
      {signature : Signature} {f : TypeFault}
      (known : env.demand name args.length = .ok signature)
      (arguments : ChecksArguments env before signature.arguments args
        ⟨args', after, .error f⟩) :
      ChecksExpr env before (.call n name args) ⟨.call n name args', after, .error f⟩
  | call {before after : List Var} {n : Note} {name : String} {args args' : List Expr}
      {signature : Signature} (known : env.demand name args.length = .ok signature)
      (arguments : ChecksArguments env before signature.arguments args (.pass args' after ())) :
      ChecksExpr env before (.call n name args)
        (.pass (.call (n.typed signature.result) name args') after signature.result)
  | binaryFirst {before after : List Var} {n : Note} {op : BinaryOp} {left right left' : Expr}
      {f : TypeFault} (first : ChecksExpr env before left ⟨left', after, .error f⟩) :
      ChecksExpr env before (.binary n op left right)
        ⟨.binary n op left' right, after, .error f⟩
  | binarySecond {before between after : List Var} {n : Note} {op : BinaryOp}
      {left right left' right' : Expr} {t : Ty} {f : TypeFault}
      (first : ChecksExpr env before left (.pass left' between t))
      (second : ChecksExpr env between right ⟨right', after, .error f⟩) :
      ChecksExpr env before (.binary n op left right)
        ⟨.binary n op left' right', after, .error f⟩
  | binaryDiffers {before between after : List Var} {n : Note} {op : BinaryOp}
      {left right left' right' : Expr} {t u : Ty}
      (first : ChecksExpr env before left (.pass left' between t))
      (second : ChecksExpr env between right (.pass right' after u))
      (differ : t.agrees u = false) :
      ChecksExpr env before (.binary n op left right)
        (.fail (.binary n op left' right') after n.span (.operandsDiffer t u))
  | binaryUndefined {before between after : List Var} {n : Note} {op : BinaryOp}
      {left right left' right' : Expr} {t u : Ty} {cause : TypeCause}
      (first : ChecksExpr env before left (.pass left' between t))
      (second : ChecksExpr env between right (.pass right' after u))
      (agree : t.agrees u = true) (undefined : op.resultType t.value = .error cause) :
      ChecksExpr env before (.binary n op left right)
        (.fail (.binary n op (left'.decayed t) (right'.decayed u)) after n.span cause)
  | binary {before between after : List Var} {n : Note} {op : BinaryOp}
      {left right left' right' : Expr} {t u result : Ty}
      (first : ChecksExpr env before left (.pass left' between t))
      (second : ChecksExpr env between right (.pass right' after u))
      (agree : t.agrees u = true) (defined : op.resultType t.value = .ok result) :
      ChecksExpr env before (.binary n op left right)
        (.pass (.binary (n.typed result) op (left'.decayed t) (right'.decayed u)) after result)
  | unaryOperand {before after : List Var} {n : Note} {op : UnaryOp} {operand operand' : Expr}
      {f : TypeFault} (value : ChecksExpr env before operand ⟨operand', after, .error f⟩) :
      ChecksExpr env before (.unary n op operand) ⟨.unary n op operand', after, .error f⟩
  | unaryDiffers {before after : List Var} {n : Note} {op : UnaryOp} {operand operand' : Expr}
      {t : Ty} (value : ChecksExpr env before operand (.pass operand' after t))
      (differ : t.value ≠ op.operandType) :
      ChecksExpr env before (.unary n op operand)
        (.fail (.unary n op (operand'.decayed t)) after n.span
          (.unaryOperand op op.operandType t.value))
  | unary {before after : List Var} {n : Note} {op : UnaryOp} {operand operand' : Expr}
      {t : Ty} (value : ChecksExpr env before operand (.pass operand' after t))
      (agree : t.value = op.operandType) :
      ChecksExpr env before (.unary n op operand)
        (.pass (.unary (n.typed op.operandType) op (operand'.decayed t)) after op.operandType)
  | castOperand {before after : List Var} {n : Note} {operand operand' : Expr} {f : TypeFault}
      (place : ChecksExpr env before operand ⟨operand', after, .error f⟩) :
      ChecksExpr env before (.cast n operand) ⟨.cast n operand', after, .error f⟩
  | cast {before after : List Var} {n : Note} {operand operand' : Expr} {t : Ty}
      (place : ChecksExpr env before operand (.pass operand' after t)) :
      ChecksExpr env before (.cast n operand)
        (.pass (.cast (n.typed t.value) operand') after t.value)

/-- The ways in which the check of arguments goes. -/
inductive ChecksArguments (env : Env) :
    List Var → List Ty → List Expr → Checked (List Expr) Unit → Prop
  | nil {locals : List Var} {expected : List Ty} :
      ChecksArguments env locals expected [] (.pass [] locals ())
  | first {before after : List Var} {expected : List Ty} {e e' : Expr} {es : List Expr}
      {f : TypeFault} (argument : ChecksExpr env before e ⟨e', after, .error f⟩) :
      ChecksArguments env before expected (e :: es) ⟨e' :: es, after, .error f⟩
  | free {before between after : List Var} {e e' : Expr} {es es' : List Expr} {t : Ty}
      {verdict : Except TypeFault Unit}
      (argument : ChecksExpr env before e (.pass e' between t))
      (others : ChecksArguments env between [] es ⟨es', after, verdict⟩) :
      ChecksArguments env before [] (e :: es) ⟨e'.decayed t :: es', after, verdict⟩
  | differs {before after : List Var} {want : Ty} {wants : List Ty} {e e' : Expr}
      {es : List Expr} {t : Ty} (argument : ChecksExpr env before e (.pass e' after t))
      (differ : t.agrees want = false) :
      ChecksArguments env before (want :: wants) (e :: es)
        (.fail (e'.decayed t :: es) after e.span (.mismatch want t.value))
  | cons {before between after : List Var} {want : Ty} {wants : List Ty} {e e' : Expr}
      {es es' : List Expr} {t : Ty} {verdict : Except TypeFault Unit}
      (argument : ChecksExpr env before e (.pass e' between t)) (agree : t.agrees want = true)
      (others : ChecksArguments env between wants es ⟨es', after, verdict⟩) :
      ChecksArguments env before (want :: wants) (e :: es)
        ⟨e'.decayed t :: es', after, verdict⟩

end

section

variable {locals : List Var} {n : Note} {name : String} {args : List Expr}

/-- The check of a call that is not allowed. -/
theorem checkExpr_refused {cause : TypeCause} (h : env.demand name args.length = .error cause) :
    checkExpr env locals (.call n name args) = .fail (.call n name args) locals n.span cause := by
  rcases Env.demand_eq_error h with ⟨rfl, hcount, rfl⟩ | ⟨hname, hunknown, rfl⟩ |
    ⟨signature, hname, hknown, hcount, rfl⟩
  · simp only [checkExpr, if_true, if_pos hcount]
  · simp only [checkExpr, if_neg hname, hunknown]
  · simp only [checkExpr, if_neg hname, hknown, if_pos hcount]

/-- The check of a call that is allowed stops in an argument. -/
theorem checkExpr_stopped {signature : Signature} {args' : List Expr} {after : List Var}
    {f : TypeFault} (h : env.demand name args.length = .ok signature)
    (hargs : checkArguments env locals signature.arguments args = ⟨args', after, .error f⟩) :
    checkExpr env locals (.call n name args) = ⟨.call n name args', after, .error f⟩ := by
  rcases Env.demand_eq_ok h with ⟨rfl, hcount, rfl⟩ | ⟨hname, hknown, hcount⟩
  · simp only [checkExpr, if_true, if_neg (Nat.not_lt.2 hcount), hargs]
  · simp only [checkExpr, if_neg hname, hknown, hcount, ne_eq, not_true_eq_false, if_false, hargs]

/-- The check of a call that is allowed passes with its arguments. -/
theorem checkExpr_allowed {signature : Signature} {args' : List Expr} {after : List Var}
    (h : env.demand name args.length = .ok signature)
    (hargs : checkArguments env locals signature.arguments args = .pass args' after ()) :
    checkExpr env locals (.call n name args) =
      .pass (.call (n.typed signature.result) name args') after signature.result := by
  rw [Checked.pass] at hargs
  rcases Env.demand_eq_ok h with ⟨rfl, hcount, rfl⟩ | ⟨hname, hknown, hcount⟩
  · simp only [checkExpr, if_true, if_neg (Nat.not_lt.2 hcount), hargs]
  · simp only [checkExpr, if_neg hname, hknown, hcount, ne_eq, not_true_eq_false, if_false, hargs]

end

mutual

/-- **Every check of an expression goes in one of the ways.** -/
theorem checksExpr (env : Env) (locals : List Var) :
    ∀ e : Expr, ChecksExpr env locals e (checkExpr env locals e)
  | .literal n value => by
      rw [checkExpr]
      exact .literal
  | .declare n v => by
      rw [checkExpr]
      split
      · next hstorable => exact .unstorable (by simpa using hstorable)
      · next hstorable =>
        have hstorable : v.type.isStorable = true := by simpa using hstorable
        cases hfind : env.find? locals v.name with
        | none => exact .declare hstorable hfind
        | some w => exact .redeclared hstorable hfind
  | .var n name => by
      rw [checkExpr]
      cases hfind : env.find? locals name with
      | none => exact .unknown hfind
      | some v => exact .var hfind
  | .assign n left right => by
      have hvalue := checksExpr env locals right
      have hplace := fun between => checksExpr env between left
      rw [checkExpr]
      generalize checkExpr env locals right = r at hvalue
      obtain ⟨right', between, f | t⟩ := r
      · exact .assignRight hvalue
      · replace hplace := hplace between
        dsimp only
        generalize checkExpr env between left = l at hplace
        obtain ⟨left', after, f | u⟩ := l
        · exact .assignLeft hvalue hplace
        · dsimp only
          cases hreference : u.isReference with
          | false => exact .assignValue hvalue hplace hreference
          | true =>
              cases hagree : u.agrees t with
              | false => exact .assignDiffers hvalue hplace hreference hagree
              | true => exact .assign hvalue hplace hreference hagree
  | .call n name args => by
      have hargs := fun expected => checksArguments env locals expected args
      cases hdemand : env.demand name args.length with
      | error cause =>
          rw [checkExpr_refused hdemand]
          exact .refused hdemand
      | ok signature =>
          replace hargs := hargs signature.arguments
          rcases has : checkArguments env locals signature.arguments args with ⟨args', after, f | u⟩
          · rw [has] at hargs
            rw [checkExpr_stopped hdemand has]
            exact .callArguments hdemand hargs
          · rw [has] at hargs
            rw [checkExpr_allowed hdemand has]
            exact .call hdemand hargs
  | .binary n op left right => by
      have hfirst := checksExpr env locals left
      have hsecond := fun between => checksExpr env between right
      rw [checkExpr]
      generalize checkExpr env locals left = l at hfirst
      obtain ⟨left', between, f | t⟩ := l
      · exact .binaryFirst hfirst
      · replace hsecond := hsecond between
        dsimp only
        generalize checkExpr env between right = r at hsecond
        obtain ⟨right', after, f | u⟩ := r
        · exact .binarySecond hfirst hsecond
        · dsimp only
          cases hagree : t.agrees u with
          | false => exact .binaryDiffers hfirst hsecond hagree
          | true =>
              cases hresult : op.resultType t.value with
              | error cause => exact .binaryUndefined hfirst hsecond hagree hresult
              | ok result => exact .binary hfirst hsecond hagree hresult
  | .unary n op operand => by
      have hvalue := checksExpr env locals operand
      rw [checkExpr]
      generalize checkExpr env locals operand = o at hvalue
      obtain ⟨operand', after, f | t⟩ := o
      · exact .unaryOperand hvalue
      · dsimp only
        split
        · next hdiffer => exact .unaryDiffers hvalue hdiffer
        · next hagree => exact .unary hvalue (Decidable.not_not.1 hagree)
  | .cast n operand => by
      have hplace := checksExpr env locals operand
      rw [checkExpr]
      generalize checkExpr env locals operand = o at hplace
      obtain ⟨operand', after, f | t⟩ := o
      · exact .castOperand hplace
      · exact .cast hplace

/-- Every check of arguments goes in one of the ways. -/
theorem checksArguments (env : Env) (locals : List Var) (expected : List Ty) :
    ∀ es : List Expr, ChecksArguments env locals expected es (checkArguments env locals expected es)
  | [] => .nil
  | e :: es => by
      have hfirst := checksExpr env locals e
      have hothers := fun between wants => checksArguments env between wants es
      rw [checkArguments]
      generalize checkExpr env locals e = a at hfirst
      obtain ⟨e', between, f | t⟩ := a
      · exact .first hfirst
      · cases expected with
        | nil => exact .free hfirst (hothers between [])
        | cons want wants =>
            dsimp only
            cases hagree : t.agrees want with
            | false => exact .differs hfirst hagree
            | true => exact .cons hfirst hagree (hothers between wants)

end

mutual

/-- **The checker goes every one of the ways.** -/
theorem ChecksExpr.eq {locals : List Var} {e : Expr} {c : Checked Expr Ty} :
    ChecksExpr env locals e c → checkExpr env locals e = c
  | .literal => by rw [checkExpr]
  | .unstorable storable => by simp [checkExpr, storable]
  | .redeclared storable known => by simp [checkExpr, storable, known]
  | .declare storable fresh => by simp [checkExpr, storable, fresh]
  | .unknown unknown => by simp only [checkExpr, unknown]
  | .var known => by simp only [checkExpr, known]
  | .assignRight value => by simp only [checkExpr, value.eq]
  | .assignLeft value place => by simp only [checkExpr, Checked.pass, value.eq, place.eq]
  | .assignValue value place plain => by simp [checkExpr, value.eq, place.eq, plain, Checked.pass]
  | .assignDiffers value place reference differ => by
      simp [checkExpr, value.eq, place.eq, reference, differ, Checked.pass]
  | .assign value place reference agree => by
      simp [checkExpr, value.eq, place.eq, reference, agree, Checked.pass]
  | .refused refused => checkExpr_refused refused
  | .callArguments known arguments => checkExpr_stopped known arguments.eq
  | .call known arguments => checkExpr_allowed known arguments.eq
  | .binaryFirst first => by simp only [checkExpr, first.eq]
  | .binarySecond first second => by simp only [checkExpr, Checked.pass, first.eq, second.eq]
  | .binaryDiffers first second differ => by
      simp [checkExpr, first.eq, second.eq, differ, Checked.pass]
  | .binaryUndefined first second agree undefined => by
      simp [checkExpr, first.eq, second.eq, agree, undefined, Checked.pass]
  | .binary first second agree defined => by
      simp [checkExpr, first.eq, second.eq, agree, defined, Checked.pass]
  | .unaryOperand value => by simp only [checkExpr, value.eq]
  | .unaryDiffers value differ => by simp [checkExpr, value.eq, differ, Checked.pass]
  | .unary value agree => by simp [checkExpr, value.eq, agree, Checked.pass]
  | .castOperand place => by simp only [checkExpr, place.eq]
  | .cast place => by simp only [checkExpr, Checked.pass, place.eq]

theorem ChecksArguments.eq {locals : List Var} {expected : List Ty} {es : List Expr}
    {c : Checked (List Expr) Unit} :
    ChecksArguments env locals expected es c → checkArguments env locals expected es = c
  | .nil => rfl
  | .first argument => by simp only [checkArguments, argument.eq]
  | .free argument others => by simp only [checkArguments, Checked.pass, argument.eq, others.eq]
  | .differs argument differ => by simp [checkArguments, argument.eq, differ, Checked.pass]
  | .cons argument agree others => by
      simp [checkArguments, argument.eq, agree, others.eq, Checked.pass]

end

/-! ## Statements -/

/-- The ways in which the check of a condition goes. -/
inductive ChecksCondition (env : Env) : List Var → Expr → Checked Expr Unit → Prop
  | stops {before after : List Var} {e e' : Expr} {f : TypeFault}
      (value : ChecksExpr env before e ⟨e', after, .error f⟩) :
      ChecksCondition env before e ⟨e', after, .error f⟩
  | other {before after : List Var} {e e' : Expr} {t : Ty}
      (value : ChecksExpr env before e (.pass e' after t)) (other : t ≠ .bool) :
      ChecksCondition env before e (.fail e' after e.span .notCondition)
  | pass {before after : List Var} {e e' : Expr}
      (value : ChecksExpr env before e (.pass e' after .bool)) :
      ChecksCondition env before e (.pass e' after ())

/-- The ways in which the check of the value of a `return` goes. -/
inductive ChecksReturn (env : Env) :
    List Var → Span → Option Expr → Checked (Option Expr) Unit → Prop
  | nothing {locals : List Var} {span : Span} (nothing : env.result.isVoid = true) :
      ChecksReturn env locals span none (.pass none locals ())
  | missing {locals : List Var} {span : Span} (something : env.result.isVoid = false) :
      ChecksReturn env locals span none (.fail none locals span .valueMissing)
  | unwanted {locals : List Var} {span : Span} {e : Expr} (nothing : env.result.isVoid = true) :
      ChecksReturn env locals span (some e) (.fail (some e) locals span .valueFromVoid)
  | stops {before after : List Var} {span : Span} {e e' : Expr} {f : TypeFault}
      (something : env.result.isVoid = false)
      (value : ChecksExpr env before e ⟨e', after, .error f⟩) :
      ChecksReturn env before span (some e) ⟨some e', after, .error f⟩
  | differs {before after : List Var} {span : Span} {e e' : Expr} {t : Ty}
      (something : env.result.isVoid = false)
      (value : ChecksExpr env before e (.pass e' after t))
      (differ : t.agrees env.result = false) :
      ChecksReturn env before span (some e)
        (.fail (some e') after span (.mismatch env.result t))
  | value {before after : List Var} {span : Span} {e e' : Expr} {t : Ty}
      (something : env.result.isVoid = false)
      (value : ChecksExpr env before e (.pass e' after t))
      (agree : t.agrees env.result = true) :
      ChecksReturn env before span (some e) (.pass (some (e'.decayed t)) after ())

mutual

/-- The ways in which the check of a statement goes. -/
inductive ChecksStmt (env : Env) : List Var → Stmt → Checked Stmt Unit → Prop
  | expressionStops {before after : List Var} {span : Span} {e e' : Expr} {f : TypeFault}
      (value : ChecksExpr env before e ⟨e', after, .error f⟩) :
      ChecksStmt env before (.expression span e) ⟨.expression span e', after, .error f⟩
  | expression {before after : List Var} {span : Span} {e e' : Expr} {t : Ty}
      (value : ChecksExpr env before e (.pass e' after t)) :
      ChecksStmt env before (.expression span e) (.pass (.expression span e') after ())
  | ret {before after : List Var} {span : Span} {value value' : Option Expr}
      {verdict : Except TypeFault Unit}
      (returned : ChecksReturn env before span value ⟨value', after, verdict⟩) :
      ChecksStmt env before (.ret span value) ⟨.ret span value', after, verdict⟩
  | ifThenStops {before after : List Var} {span : Span} {condition condition' : Expr}
      {body : List Stmt} {f : TypeFault}
      (test : ChecksCondition env before condition ⟨condition', after, .error f⟩) :
      ChecksStmt env before (.ifThen span condition body)
        ⟨.ifThen span condition' body, after, .error f⟩
  | ifThen {before between after : List Var} {span : Span} {condition condition' : Expr}
      {body body' : List Stmt} {verdict : Except TypeFault Unit}
      (test : ChecksCondition env before condition (.pass condition' between ()))
      (branch : ChecksStmts env between body ⟨body', after, verdict⟩) :
      ChecksStmt env before (.ifThen span condition body)
        ⟨.ifThen span condition' body', after, verdict⟩
  | ifElseStops {before after : List Var} {span : Span} {condition condition' : Expr}
      {body : List Stmt} {otherwise : Stmt} {f : TypeFault}
      (test : ChecksCondition env before condition ⟨condition', after, .error f⟩) :
      ChecksStmt env before (.ifElse span condition body otherwise)
        ⟨.ifElse span condition' body otherwise, after, .error f⟩
  | ifElseBranch {before between after : List Var} {span : Span} {condition condition' : Expr}
      {body body' : List Stmt} {otherwise : Stmt} {f : TypeFault}
      (test : ChecksCondition env before condition (.pass condition' between ()))
      (branch : ChecksStmts env between body ⟨body', after, .error f⟩) :
      ChecksStmt env before (.ifElse span condition body otherwise)
        ⟨.ifElse span condition' body' otherwise, after, .error f⟩
  | ifElse {before between middle after : List Var} {span : Span} {condition condition' : Expr}
      {body body' : List Stmt} {otherwise otherwise' : Stmt} {verdict : Except TypeFault Unit}
      (test : ChecksCondition env before condition (.pass condition' between ()))
      (branch : ChecksStmts env between body (.pass body' middle ()))
      (other : ChecksStmt env middle otherwise ⟨otherwise', after, verdict⟩) :
      ChecksStmt env before (.ifElse span condition body otherwise)
        ⟨.ifElse span condition' body' otherwise', after, verdict⟩
  | loopStops {before after : List Var} {span : Span} {condition condition' : Expr}
      {body : List Stmt} {f : TypeFault}
      (test : ChecksCondition env before condition ⟨condition', after, .error f⟩) :
      ChecksStmt env before (.loop span condition body)
        ⟨.loop span condition' body, after, .error f⟩
  | loop {before between after : List Var} {span : Span} {condition condition' : Expr}
      {body body' : List Stmt} {verdict : Except TypeFault Unit}
      (test : ChecksCondition env before condition (.pass condition' between ()))
      (rounds : ChecksStmts env between body ⟨body', after, verdict⟩) :
      ChecksStmt env before (.loop span condition body)
        ⟨.loop span condition' body', after, verdict⟩
  | block {before after : List Var} {span : Span} {body body' : List Stmt}
      {verdict : Except TypeFault Unit}
      (inner : ChecksStmts env before body ⟨body', after, verdict⟩) :
      ChecksStmt env before (.block span body) ⟨.block span body', after, verdict⟩

/-- The ways in which the check of statements goes. -/
inductive ChecksStmts (env : Env) : List Var → List Stmt → Checked (List Stmt) Unit → Prop
  | nil {locals : List Var} : ChecksStmts env locals [] (.pass [] locals ())
  | first {before after : List Var} {s s' : Stmt} {ss : List Stmt} {f : TypeFault}
      (first : ChecksStmt env before s ⟨s', after, .error f⟩) :
      ChecksStmts env before (s :: ss) ⟨s' :: ss, after, .error f⟩
  | cons {before between after : List Var} {s s' : Stmt} {ss ss' : List Stmt}
      {verdict : Except TypeFault Unit} (first : ChecksStmt env before s (.pass s' between ()))
      (others : ChecksStmts env between ss ⟨ss', after, verdict⟩) :
      ChecksStmts env before (s :: ss) ⟨s' :: ss', after, verdict⟩

end

/-- Every check of a condition goes in one of the ways. -/
theorem checksCondition (env : Env) (locals : List Var) (e : Expr) :
    ChecksCondition env locals e (checkCondition env locals e) := by
  have hvalue := checksExpr env locals e
  rw [checkCondition]
  generalize checkExpr env locals e = c at hvalue
  obtain ⟨e', after, f | t⟩ := c
  · exact .stops hvalue
  · dsimp only
    split
    · next hother => exact .other hvalue hother
    · next hbool =>
      obtain rfl := Decidable.not_not.1 hbool
      exact .pass hvalue

/-- Every check of a `return` goes in one of the ways. -/
theorem checksReturn (env : Env) (locals : List Var) (span : Span) (value : Option Expr) :
    ChecksReturn env locals span value (checkReturn env locals span value) := by
  rw [checkReturn.eq_def]
  cases value with
  | none =>
      cases hvoid : env.result.isVoid with
      | true => exact .nothing hvoid
      | false => exact .missing hvoid
  | some e =>
      cases hvoid : env.result.isVoid with
      | true => exact .unwanted hvoid
      | false =>
          have hvalue := checksExpr env locals e
          dsimp only
          generalize checkExpr env locals e = v at hvalue
          obtain ⟨e', after, f | t⟩ := v
          · exact .stops hvoid hvalue
          · dsimp only
            cases hagree : t.agrees env.result with
            | false => exact .differs hvoid hvalue hagree
            | true => exact .value hvoid hvalue hagree

mutual

/-- **Every check of a statement goes in one of the ways.** -/
theorem checksStmt (env : Env) (locals : List Var) :
    ∀ s : Stmt, ChecksStmt env locals s (checkStmt env locals s)
  | .expression span e => by
      have hvalue := checksExpr env locals e
      rw [checkStmt]
      generalize checkExpr env locals e = c at hvalue
      obtain ⟨e', after, f | t⟩ := c
      · exact .expressionStops hvalue
      · exact .expression hvalue
  | .ret span value => by
      rw [checkStmt]
      exact .ret (checksReturn env locals span value)
  | .ifThen span condition body => by
      have htest := checksCondition env locals condition
      rw [checkStmt]
      generalize checkCondition env locals condition = c at htest
      obtain ⟨condition', between, f | _⟩ := c
      · exact .ifThenStops htest
      · exact .ifThen htest (checksStmts env between body)
  | .ifElse span condition body otherwise => by
      have htest := checksCondition env locals condition
      have hbranch := fun between => checksStmts env between body
      rw [checkStmt]
      generalize checkCondition env locals condition = c at htest
      obtain ⟨condition', between, f | _⟩ := c
      · exact .ifElseStops htest
      · replace hbranch := hbranch between
        dsimp only
        generalize checkStmts env between body = b at hbranch
        obtain ⟨body', middle, f | _⟩ := b
        · exact .ifElseBranch htest hbranch
        · exact .ifElse htest hbranch (checksStmt env middle otherwise)
  | .loop span condition body => by
      have htest := checksCondition env locals condition
      rw [checkStmt]
      generalize checkCondition env locals condition = c at htest
      obtain ⟨condition', between, f | _⟩ := c
      · exact .loopStops htest
      · exact .loop htest (checksStmts env between body)
  | .block span body => by
      rw [checkStmt]
      exact .block (checksStmts env locals body)

/-- Every check of statements goes in one of the ways. -/
theorem checksStmts (env : Env) (locals : List Var) :
    ∀ ss : List Stmt, ChecksStmts env locals ss (checkStmts env locals ss)
  | [] => .nil
  | s :: ss => by
      have hfirst := checksStmt env locals s
      rw [checkStmts]
      generalize checkStmt env locals s = c at hfirst
      obtain ⟨s', between, f | _⟩ := c
      · exact .first hfirst
      · exact .cons hfirst (checksStmts env between ss)

end

/-- How a check of statements that passes goes. -/
theorem checksStmts_of_passes {locals : List Var} {ss : List Stmt}
    (h : (checkStmts env locals ss).verdict = .ok ()) :
    ChecksStmts env locals ss
      (.pass (checkStmts env locals ss).tree (checkStmts env locals ss).locals ()) := by
  rw [Checked.pass, ← h]
  exact checksStmts env locals ss

/-- The checker goes every one of the ways of a condition. -/
theorem ChecksCondition.eq {locals : List Var} {e : Expr} {c : Checked Expr Unit}
    (h : ChecksCondition env locals e c) : checkCondition env locals e = c := by
  cases h with
  | stops value => simp only [checkCondition, value.eq]
  | other value other => simp [checkCondition, value.eq, other, Checked.pass]
  | pass value => simp [checkCondition, value.eq, Checked.pass]

/-- The checker goes every one of the ways of a `return`. -/
theorem ChecksReturn.eq {locals : List Var} {span : Span} {value : Option Expr}
    {c : Checked (Option Expr) Unit} (h : ChecksReturn env locals span value c) :
    checkReturn env locals span value = c := by
  cases h with
  | nothing nothing => simp [checkReturn, nothing]
  | missing something => simp [checkReturn, something]
  | unwanted nothing => simp [checkReturn, nothing]
  | stops something value => simp [checkReturn, something, value.eq]
  | differs something value differ =>
      simp [checkReturn, something, value.eq, differ, Checked.pass]
  | value something value agree => simp [checkReturn, something, value.eq, agree, Checked.pass]

mutual

/-- **The checker goes every one of the ways of a statement.** -/
theorem ChecksStmt.eq {locals : List Var} {s : Stmt} {c : Checked Stmt Unit} :
    ChecksStmt env locals s c → checkStmt env locals s = c
  | .expressionStops value => by simp only [checkStmt, value.eq, Except.map]
  | .expression value => by simp only [checkStmt, Checked.pass, value.eq, Except.map]
  | .ret returned => by simp only [checkStmt, returned.eq]
  | .ifThenStops test => by simp only [checkStmt, test.eq]
  | .ifThen test branch => by simp only [checkStmt, Checked.pass, test.eq, branch.eq]
  | .ifElseStops test => by simp only [checkStmt, test.eq]
  | .ifElseBranch test branch => by simp only [checkStmt, Checked.pass, test.eq, branch.eq]
  | .ifElse test branch other => by
      simp only [checkStmt, Checked.pass, test.eq, branch.eq, other.eq]
  | .loopStops test => by simp only [checkStmt, test.eq]
  | .loop test rounds => by simp only [checkStmt, Checked.pass, test.eq, rounds.eq]
  | .block inner => by simp only [checkStmt, inner.eq]

theorem ChecksStmts.eq {locals : List Var} {ss : List Stmt} {c : Checked (List Stmt) Unit} :
    ChecksStmts env locals ss c → checkStmts env locals ss = c
  | .nil => rfl
  | .first first => by simp only [checkStmts, first.eq]
  | .cons first others => by simp only [checkStmts, Checked.pass, first.eq, others.eq]

end

end Slate
