import Slate.Proofs.Tree.Renamed
import Slate.Proofs.Typing.Casts

/-!
# Checking under other names

A check looks a name up to learn what variable it stands for, and decides nothing else by it.
Under an injective renaming the same variable is found, so checking the renamed tree leaves
what checking the tree leaves, renamed: the elaborated tree, the locals, and the verdict; the
one cause that shows a variable shows it renamed.

Which names a renaming is applied to only matters for names that occur.  In a typed tree these
are the names of the arguments and of the locals (`TypedFunction.renamed_eq`).
-/

namespace Slate

variable {g h : String → String}

/-! ## Faults and checks -/

/-- The cause, with the other name of the variable that it shows. -/
def TypeCause.renamed (g : String → String) : TypeCause → TypeCause
  | .unknownType declared => .unknownType (declared.renamed g)
  | cause => cause

/-- The fault under other names. -/
def TypeFault.renamed (g : String → String) (f : TypeFault) : TypeFault :=
  ⟨f.cause.renamed g, f.span⟩

/-- What a check has left, under other names; `rename` gives them to the tree. -/
def Checked.renamed {τ ρ : Type} (rename : τ → τ) (g : String → String) (c : Checked τ ρ) :
    Checked τ ρ :=
  ⟨rename c.tree, c.locals.map (Var.renamed g), c.verdict.mapError (TypeFault.renamed g)⟩

/-- The environment with other names for the arguments. -/
def Env.renamed (g : String → String) (env : Env) : Env :=
  { env with arguments := env.arguments.map (Var.renamed g) }

variable {env : Env}

/-- A renamed variable is found under its new name. -/
theorem Env.find?_renamed (hg : Function.Injective g) (locals : List Var) (name : String) :
    (env.renamed g).find? (locals.map (Var.renamed g)) (g name) =
      (env.find? locals name).map (Var.renamed g) := by
  unfold Env.find? Env.renamed
  rw [findVar?_renamed hg, findVar?_renamed hg, Option.map_or]

/-- An expression decays as it did. -/
@[simp] theorem Expr.decayed_renamed (e : Expr) (t : Ty) :
    (e.renamed g).decayed t = (e.decayed t).renamed g := by
  unfold Expr.decayed
  by_cases hreference : t.isReference = true
  · rw [if_pos hreference, if_pos hreference, e.span_renamed]
    rfl
  · rw [if_neg hreference, if_neg hreference]

/-- An operator that is not defined is not blamed on a variable. -/
theorem BinaryOp.cause_renamed {op : BinaryOp} {t : Ty} {cause : TypeCause}
    (hcause : op.resultType t = .error cause) : cause.renamed g = cause := by
  unfold BinaryOp.resultType at hcause
  repeat' split at hcause
  all_goals cases hcause
  all_goals rfl

/-! ## Expressions -/

/-- A variable that is known is known by its other name. -/
theorem Env.known_renamed (hg : Function.Injective g) {locals : List Var} {name : String}
    {v : Var} (known : env.find? locals name = some v) :
    (env.renamed g).find? (locals.map (Var.renamed g)) (g name) = some (v.renamed g) := by
  rw [Env.find?_renamed hg, known, Option.map_some]

/-- A name that is not taken is not taken when all are renamed. -/
theorem Env.fresh_renamed (hg : Function.Injective g) {locals : List Var} {name : String}
    (fresh : env.find? locals name = none) :
    (env.renamed g).find? (locals.map (Var.renamed g)) (g name) = none := by
  rw [Env.find?_renamed hg, fresh, Option.map_none]

/-- A call that is not allowed is not blamed on a variable. -/
theorem Env.cause_renamed {name : String} {count : Nat} {cause : TypeCause}
    (refused : env.demand name count = .error cause) : cause.renamed g = cause := by
  rcases Env.demand_eq_error refused with ⟨_, _, rfl⟩ | ⟨_, _, rfl⟩ | ⟨_, _, _, _, rfl⟩ <;> rfl

mutual

/-- **Expressions are checked alike under other names.** -/
theorem ChecksExpr.renamed (hg : Function.Injective g) {before after : List Var} {e e' : Expr}
    {verdict : Except TypeFault Ty} :
    ChecksExpr env before e ⟨e', after, verdict⟩ →
      ChecksExpr (env.renamed g) (before.map (Var.renamed g)) (e.renamed g)
        ⟨e'.renamed g, after.map (Var.renamed g), verdict.mapError (TypeFault.renamed g)⟩
  | .literal => .literal
  | .unstorable storable => .unstorable storable
  | .redeclared storable known => .redeclared storable (Env.known_renamed hg known)
  | .declare storable fresh => by
      rw [List.map_append]
      exact .declare storable (Env.fresh_renamed hg fresh)
  | .unknown unknown => .unknown (Env.fresh_renamed hg unknown)
  | .var known => (ChecksExpr.var (Env.known_renamed hg known) :)
  | .assignRight value => .assignRight (value.renamed hg)
  | .assignLeft value place => .assignLeft (value.renamed hg) (place.renamed hg)
  | .assignValue value place plain => by
      rw [← Expr.span_renamed (g := g)]
      exact .assignValue (value.renamed hg) (place.renamed hg) plain
  | .assignDiffers value place reference differ =>
      .assignDiffers (value.renamed hg) (place.renamed hg) reference differ
  | .assign value place reference agree => by
      rw [Expr.renamed, Expr.renamed, ← Expr.decayed_renamed]
      exact .assign (value.renamed hg) (place.renamed hg) reference agree
  | @ChecksExpr.refused _ _ _ _ _ cause refused => by
      show ChecksExpr _ _ _ (.fail _ _ _ (cause.renamed g))
      rw [Env.cause_renamed refused]
      exact .refused (by rwa [length_renamedArguments])
  | .callArguments known arguments =>
      .callArguments (by rwa [length_renamedArguments]) (arguments.renamed hg)
  | .call known arguments =>
      .call (by rwa [length_renamedArguments]) (arguments.renamed hg)
  | .binaryFirst first => .binaryFirst (first.renamed hg)
  | .binarySecond first second => .binarySecond (first.renamed hg) (second.renamed hg)
  | .binaryDiffers first second differ =>
      .binaryDiffers (first.renamed hg) (second.renamed hg) differ
  | @ChecksExpr.binaryUndefined _ _ _ _ _ _ _ _ _ _ _ _ cause first second agree undefined => by
      show ChecksExpr _ _ _ (.fail _ _ _ (cause.renamed g))
      rw [Expr.renamed, Expr.renamed, ← Expr.decayed_renamed, ← Expr.decayed_renamed,
        BinaryOp.cause_renamed undefined]
      exact .binaryUndefined (first.renamed hg) (second.renamed hg) agree undefined
  | .binary first second agree defined => by
      rw [Expr.renamed, Expr.renamed, ← Expr.decayed_renamed, ← Expr.decayed_renamed]
      exact .binary (first.renamed hg) (second.renamed hg) agree defined
  | .unaryOperand value => .unaryOperand (value.renamed hg)
  | .unaryDiffers value differ => by
      rw [Expr.renamed, Expr.renamed, ← Expr.decayed_renamed]
      exact .unaryDiffers (value.renamed hg) differ
  | .unary value agree => by
      rw [Expr.renamed, Expr.renamed, ← Expr.decayed_renamed]
      exact .unary (value.renamed hg) agree
  | .castOperand place => .castOperand (place.renamed hg)
  | .cast place => .cast (place.renamed hg)

/-- The same for the arguments of a call. -/
theorem ChecksArguments.renamed (hg : Function.Injective g) {before after : List Var}
    {expected : List Ty} {es es' : List Expr} {verdict : Except TypeFault Unit} :
    ChecksArguments env before expected es ⟨es', after, verdict⟩ →
      ChecksArguments (env.renamed g) (before.map (Var.renamed g)) expected
        (renamedArguments g es) ⟨renamedArguments g es', after.map (Var.renamed g),
          verdict.mapError (TypeFault.renamed g)⟩
  | .nil => .nil
  | .first argument => .first (argument.renamed hg)
  | .free argument others => by
      rw [renamedArguments, renamedArguments, ← Expr.decayed_renamed]
      exact .free (argument.renamed hg) (others.renamed hg)
  | .differs argument differ => by
      rw [renamedArguments, renamedArguments, ← Expr.decayed_renamed,
        ← Expr.span_renamed (g := g)]
      exact .differs (argument.renamed hg) differ
  | .cons argument agree others => by
      rw [renamedArguments, renamedArguments, ← Expr.decayed_renamed]
      exact .cons (argument.renamed hg) agree (others.renamed hg)

end

/-! ## Statements -/

/-- The check of a condition goes the same way under new names. -/
theorem ChecksCondition.renamed (hg : Function.Injective g) {before after : List Var}
    {e e' : Expr} {verdict : Except TypeFault Unit} :
    ChecksCondition env before e ⟨e', after, verdict⟩ →
      ChecksCondition (env.renamed g) (before.map (Var.renamed g)) (e.renamed g)
        ⟨e'.renamed g, after.map (Var.renamed g), verdict.mapError (TypeFault.renamed g)⟩
  | .stops value => .stops (value.renamed hg)
  | .other value condition => by
      rw [← Expr.span_renamed (g := g)]
      exact .other (value.renamed hg) condition
  | .pass value => .pass (value.renamed hg)

/-- The same for what is returned. -/
theorem ChecksReturn.renamed (hg : Function.Injective g) {before after : List Var} {span : Span}
    {value value' : Option Expr} {verdict : Except TypeFault Unit} :
    ChecksReturn env before span value ⟨value', after, verdict⟩ →
      ChecksReturn (env.renamed g) (before.map (Var.renamed g)) span
        (value.map (Expr.renamed g)) ⟨value'.map (Expr.renamed g),
          after.map (Var.renamed g), verdict.mapError (TypeFault.renamed g)⟩
  | .nothing void => .nothing void
  | .missing something => .missing something
  | .unwanted void => .unwanted void
  | .stops something value => .stops something (value.renamed hg)
  | .differs something value differ => .differs something (value.renamed hg) differ
  | .value something value agree => by
      rw [Option.map_some, Option.map_some, ← Expr.decayed_renamed]
      exact .value something (value.renamed hg) agree

mutual

/-- **Statements are checked alike under other names.** -/
theorem ChecksStmt.renamed (hg : Function.Injective g) {before after : List Var} {s s' : Stmt}
    {verdict : Except TypeFault Unit} :
    ChecksStmt env before s ⟨s', after, verdict⟩ →
      ChecksStmt (env.renamed g) (before.map (Var.renamed g)) (s.renamed g)
        ⟨s'.renamed g, after.map (Var.renamed g), verdict.mapError (TypeFault.renamed g)⟩
  | .expressionStops value => .expressionStops (value.renamed hg)
  | .expression value => .expression (value.renamed hg)
  | .ret returned => .ret (returned.renamed hg)
  | .ifThenStops test => .ifThenStops (test.renamed hg)
  | .ifThen test branch => .ifThen (test.renamed hg) (branch.renamed hg)
  | .ifElseStops test => .ifElseStops (test.renamed hg)
  | .ifElseBranch test branch => .ifElseBranch (test.renamed hg) (branch.renamed hg)
  | .ifElse test branch other =>
      .ifElse (test.renamed hg) (branch.renamed hg) (other.renamed hg)
  | .loopStops test => .loopStops (test.renamed hg)
  | .loop test rounds => .loop (test.renamed hg) (rounds.renamed hg)
  | .block inner => .block (inner.renamed hg)

/-- The same for a list of statements. -/
theorem ChecksStmts.renamed (hg : Function.Injective g) {before after : List Var}
    {ss ss' : List Stmt} {verdict : Except TypeFault Unit} :
    ChecksStmts env before ss ⟨ss', after, verdict⟩ →
      ChecksStmts (env.renamed g) (before.map (Var.renamed g)) (renamedBody g ss)
        ⟨renamedBody g ss', after.map (Var.renamed g),
          verdict.mapError (TypeFault.renamed g)⟩
  | .nil => .nil
  | .first first => .first (first.renamed hg)
  | .cons first others => .cons (first.renamed hg) (others.renamed hg)

end

/-! ## Functions and programs -/

/-- Callers see nothing of the names inside a function. -/
theorem Function.signature_renamed (f : Function) : (f.renamed g).signature = f.signature := by
  unfold Function.signature Function.renamed
  rw [List.map_map]
  rfl

/-- What is wrong with the declarations of a function stays wrong, under the new names. -/
theorem Function.declarationCause?_renamed (f : Function) :
    (f.renamed g).declarationCause? = f.declarationCause?.map (TypeCause.renamed g) := by
  unfold Function.declarationCause?
  show (if (!f.result.isVoid && !f.result.isStorable) = true then
      some (TypeCause.unknownResult f.result)
    else if f.name = "main" ∧ f.result ≠ .int ∧ f.result ≠ .bool then some TypeCause.mainResult
    else ((f.arguments.map (Var.renamed g)).find? fun v => !v.type.isStorable).map
      TypeCause.unknownType) = _
  rw [List.find?_map]
  split
  · rfl
  · split
    · rfl
    · rw [Option.map_map, Option.map_map]
      rfl

/-- **A function is checked alike under other names**, with a fault or without. -/
theorem Function.check_renamed (hg : Function.Injective g) (signatures : Signatures)
    (f : Function) :
    (f.renamed g).check signatures =
      ((f.check signatures).1.renamed g,
        (f.check signatures).2.mapError (TypeFault.renamed g)) := by
  unfold Function.check
  rw [f.declarationCause?_renamed]
  cases f.declarationCause? with
  | some cause => rfl
  | none =>
      have hbuiltin : (f.renamed g).builtin = f.builtin := rfl
      dsimp only [Option.map_none]
      rw [hbuiltin]
      split
      · rfl
      · have hbody : checkStmts ⟨signatures, (f.renamed g).arguments, (f.renamed g).result⟩ []
            (f.renamed g).body =
            (checkStmts ⟨signatures, f.arguments, f.result⟩ [] f.body).renamed (renamedBody g) g :=
          ((checksStmts ⟨signatures, f.arguments, f.result⟩ [] f.body).renamed hg).eq
        dsimp only
        rw [hbody]
        rfl

theorem Program.signatures_renamed (ρ : String → String → String) (p : Program) :
    (p.renamed ρ).signatures = p.signatures := by
  unfold Program.signatures Program.renamed
  rw [List.map_map]
  congr 1
  refine List.map_congr_left fun f _ => ?_
  show (f.name, (f.renamed (ρ f.name)).signature) = _
  rw [f.signature_renamed]

/-- **An accepted program is accepted under other names**, and the elaborated program is the
same one under these names. -/
theorem Program.check_renamed {ρ : String → String → String} {p q : Program}
    (hρ : ∀ f ∈ p.functions, Function.Injective (ρ f.name)) (hq : p.check = .ok q) :
    (p.renamed ρ).check = .ok (q.renamed ρ) := by
  obtain ⟨hpass, rfl⟩ := Program.check_eq_ok.1 hq
  rw [Program.check_eq_ok, p.signatures_renamed]
  refine ⟨?_, ?_⟩
  · intro f' hf'
    obtain ⟨f, hf, rfl⟩ := List.mem_map.1 hf'
    rw [Function.check_renamed (hρ f hf), hpass f hf]
    rfl
  · unfold Program.renamed
    dsimp only
    rw [List.map_map, List.map_map]
    congr 1
    refine List.map_congr_left fun f hf => ?_
    show ((f.check p.signatures).1.renamed (ρ (f.check p.signatures).1.name)) =
      ((f.renamed (ρ f.name)).check p.signatures).1
    rw [Function.check_renamed (hρ f hf), f.name_check]

/-! ## Names that occur -/

/-- The renamings agree on the variables that are known. -/
def Env.SameNames (env : Env) (g h : String → String) (locals : List Var) : Prop :=
  ∀ v ∈ env.arguments ++ locals, g v.name = h v.name

/-- Renamings that agree on some variables agree on the first of them. -/
theorem Env.SameNames.of_prefix {before after : List Var} (hsame : env.SameNames g h after)
    (hkept : before <+: after) : env.SameNames g h before :=
  fun v hv => hsame v (((List.prefix_append_right_inj _).2 hkept).subset hv)

mutual

/-- **A typed expression names known variables only.** -/
theorem TypedExpr.renamed_eq {before after : List Var} {e : Expr} {t : Ty} :
    TypedExpr env before e t after → env.SameNames g h after → e.renamed g = e.renamed h
  | .literal _, _ => rfl
  | @TypedExpr.declare _ locals n v _ _ _ _, hsame => by
      have hname := hsame v (List.mem_append_right _ (List.mem_append_right _ (.head _)))
      rw [Expr.renamed, Expr.renamed, Var.renamed, Var.renamed, hname]
  | .var known _, hsame => by
      obtain ⟨hmem, rfl⟩ := Env.mem_of_find?_eq_some known
      rw [Expr.renamed, Expr.renamed, hsame _ hmem]
  | .assign value place _ _, hsame => by
      rw [Expr.renamed, Expr.renamed, value.renamed_eq (hsame.of_prefix place.locals_kept),
        place.renamed_eq hsame]
  | .syscall _ arguments _, hsame => by
      rw [Expr.renamed, Expr.renamed, arguments.renamed_eq hsame]
  | .call _ _ arguments _, hsame => by
      rw [Expr.renamed, Expr.renamed, arguments.renamed_eq hsame]
  | .binary first second _ _ _, hsame => by
      rw [Expr.renamed, Expr.renamed, first.renamed_eq (hsame.of_prefix second.locals_kept),
        second.renamed_eq hsame]
  | .unary value _, hsame => by
      rw [Expr.renamed, Expr.renamed, value.renamed_eq hsame]
  | .cast place _ _, hsame => by
      rw [Expr.renamed, Expr.renamed, place.renamed_eq hsame]

/-- The same for the arguments of a call. -/
theorem TypedArguments.renamed_eq {before after : List Var} {es : List Expr} {ts : List Ty} :
    TypedArguments env before es ts after → env.SameNames g h after →
      renamedArguments g es = renamedArguments h es
  | .nil, _ => rfl
  | .cons argument _ others, hsame => by
      rw [renamedArguments, renamedArguments,
        argument.renamed_eq (hsame.of_prefix others.locals_kept), others.renamed_eq hsame]

end

mutual

/-- **A typed statement names known variables only.** -/
theorem TypedStmt.renamed_eq {before after : List Var} {s : Stmt} :
    TypedStmt env before s after → env.SameNames g h after → s.renamed g = s.renamed h
  | .expression value, hsame => by
      rw [Stmt.renamed, Stmt.renamed, value.renamed_eq hsame]
  | .ret _, _ => rfl
  | .retValue _ value, hsame => by
      rw [Stmt.renamed, Stmt.renamed, Option.map_some, Option.map_some, value.renamed_eq hsame]
  | .ifThen test branch, hsame => by
      rw [Stmt.renamed, Stmt.renamed, test.renamed_eq (hsame.of_prefix branch.locals_kept),
        branch.renamed_eq hsame]
  | .ifElse test branch other, hsame => by
      have hbranch := hsame.of_prefix other.locals_kept
      rw [Stmt.renamed, Stmt.renamed, test.renamed_eq (hbranch.of_prefix branch.locals_kept),
        branch.renamed_eq hbranch, other.renamed_eq hsame]
  | .loop test rounds, hsame => by
      rw [Stmt.renamed, Stmt.renamed, test.renamed_eq (hsame.of_prefix rounds.locals_kept),
        rounds.renamed_eq hsame]
  | .block inner, hsame => by
      rw [Stmt.renamed, Stmt.renamed, inner.renamed_eq hsame]

/-- The same for a list of statements. -/
theorem TypedStmts.renamed_eq {before after : List Var} {ss : List Stmt} :
    TypedStmts env before ss after → env.SameNames g h after →
      renamedBody g ss = renamedBody h ss
  | .nil, _ => rfl
  | .cons first others, hsame => by
      rw [renamedBody, renamedBody, first.renamed_eq (hsame.of_prefix others.locals_kept),
        others.renamed_eq hsame]

end

/-- Renamings that agree on the names of the variables rename a function alike. -/
theorem TypedFunction.renamed_eq {signatures : Signatures} {f : Function}
    (hf : TypedFunction signatures f) (hbuiltin : f.builtin = true → f.body = [])
    (hsame : ∀ x ∈ f.variableNames, g x = h x) : f.renamed g = f.renamed h := by
  have hvariable : ∀ v ∈ f.arguments ++ f.locals, g v.name = h v.name :=
    fun v hv => hsame v.name (List.mem_map.2 ⟨v, hv, rfl⟩)
  have hvar : ∀ v ∈ f.arguments ++ f.locals, v.renamed g = v.renamed h := by
    intro v hv
    rw [Var.renamed, Var.renamed, hvariable v hv]
  have harguments : f.arguments.map (Var.renamed g) = f.arguments.map (Var.renamed h) :=
    List.map_congr_left fun v hv => hvar v (List.mem_append_left _ hv)
  have hlocals : f.locals.map (Var.renamed g) = f.locals.map (Var.renamed h) :=
    List.map_congr_left fun v hv => hvar v (List.mem_append_right _ hv)
  have hbody : renamedBody g f.body = renamedBody h f.body := by
    cases hblock : f.builtin with
    | false => exact (hf.body hblock).renamed_eq hvariable
    | true =>
        rw [hbuiltin hblock]
        rfl
  unfold Function.renamed
  rw [harguments, hlocals, hbody]

/-! ## Erasing -/

mutual

/-- Erasing an expression and renaming it can be done in any order. -/
theorem Expr.erased_renamed : ∀ e : Expr, (e.renamed g).erased = e.erased.renamed g
  | .literal _ _ | .declare _ _ | .var _ _ => rfl
  | .assign _ left right => by
      simp only [Expr.renamed, Expr.erased, left.erased_renamed, right.erased_renamed]
  | .call _ _ args => by
      simp only [Expr.renamed, Expr.erased, erasedArguments_renamed args]
  | .binary _ _ left right => by
      simp only [Expr.renamed, Expr.erased, left.erased_renamed, right.erased_renamed]
  | .unary _ _ operand => by
      simp only [Expr.renamed, Expr.erased, operand.erased_renamed]
  | .cast _ operand => by
      simp only [Expr.renamed, Expr.erased, operand.erased_renamed]

/-- The same for the arguments of a call. -/
theorem erasedArguments_renamed :
    ∀ es : List Expr, erasedArguments (renamedArguments g es) =
      renamedArguments g (erasedArguments es)
  | [] => rfl
  | e :: es => by
      simp only [renamedArguments, erasedArguments, e.erased_renamed, erasedArguments_renamed es]

end

mutual

/-- The same for a statement. -/
theorem Stmt.erased_renamed : ∀ s : Stmt, (s.renamed g).erased = s.erased.renamed g
  | .expression _ e => by
      simp only [Stmt.renamed, Stmt.erased, e.erased_renamed]
  | .ret _ none => rfl
  | .ret _ (some e) => by
      simp only [Stmt.renamed, Stmt.erased, Option.map_some, e.erased_renamed]
  | .ifThen _ condition body => by
      simp only [Stmt.renamed, Stmt.erased, condition.erased_renamed, erasedBody_renamed body]
  | .ifElse _ condition body otherwise => by
      simp only [Stmt.renamed, Stmt.erased, condition.erased_renamed, erasedBody_renamed body,
        otherwise.erased_renamed]
  | .loop _ condition body => by
      simp only [Stmt.renamed, Stmt.erased, condition.erased_renamed, erasedBody_renamed body]
  | .block _ body => by
      simp only [Stmt.renamed, Stmt.erased, erasedBody_renamed body]

/-- The same for a list of statements. -/
theorem erasedBody_renamed :
    ∀ ss : List Stmt, erasedBody (renamedBody g ss) = renamedBody g (erasedBody ss)
  | [] => rfl
  | s :: ss => by
      simp only [renamedBody, erasedBody, s.erased_renamed, erasedBody_renamed ss]

end

/-- The same for a function. -/
theorem Function.erased_renamed (f : Function) : (f.renamed g).erased = f.erased.renamed g := by
  unfold Function.erased Function.renamed
  rw [erasedBody_renamed]
  rfl

/-- The same for a program. -/
theorem Program.erased_renamed (ρ : String → String → String) (p : Program) :
    (p.renamed ρ).erased = p.erased.renamed ρ := by
  unfold Program.erased Program.renamed
  rw [List.map_map, List.map_map]
  congr 1
  exact List.map_congr_left fun f _ => f.erased_renamed

end Slate
