import Slate.Proofs.Eval.Fits
import Slate.Proofs.Flow.Missing
import Slate.Proofs.Typing.Accepted

/-!
# Missing variables of accepted programs

The checker goes through a function in the order of the text and remembers every
declaration that it has met, also those in branches and loop bodies.  So it lets a
use pass whose declaration a run can avoid, and such a run fails for the missing
variable (`leakingSource_run`).

Those are the only ones.  A variable that an accepted function exposes is declared
in a branch or in the body of a loop (`Stmt.nested`): a declaration outside of them
is executed on every path to what follows it.
-/

namespace Slate

mutual

/-- All names that the text of the statement declares. -/
def Stmt.declares : Stmt → List String
  | .expression _ e => e.declares
  | .ret _ none => []
  | .ret _ (some e) => e.declares
  | .ifThen _ condition body => condition.declares ++ bodyDeclares body
  | .ifElse _ condition body otherwise =>
    condition.declares ++ (bodyDeclares body ++ otherwise.declares)
  | .loop _ condition body => condition.declares ++ bodyDeclares body
  | .block _ body => bodyDeclares body

/-- All names that the text of the statements declares. -/
def bodyDeclares : List Stmt → List String
  | [] => []
  | s :: ss => s.declares ++ bodyDeclares ss

end

mutual

/-- The names that the statement declares in a branch or in the body of a loop. -/
def Stmt.nested : Stmt → List String
  | .expression _ _ => []
  | .ret _ _ => []
  | .ifThen _ _ body => bodyDeclares body
  | .ifElse _ _ body otherwise => bodyDeclares body ++ otherwise.declares
  | .loop _ _ body => bodyDeclares body
  | .block _ body => bodyNested body

/-- The names that the statements declare in a branch or in the body of a loop. -/
def bodyNested : List Stmt → List String
  | [] => []
  | s :: ss => s.nested ++ bodyNested ss

end

mutual

/-- What is declared in a nested block is declared. -/
theorem Stmt.nested_subset : ∀ s : Stmt, ∀ x ∈ s.nested, x ∈ s.declares
  | .expression _ _ => fun _ hx => nomatch hx
  | .ret _ _ => fun _ hx => nomatch hx
  | .ifThen _ _ _ => fun _ hx => List.mem_append_right _ hx
  | .ifElse _ _ _ _ => fun _ hx => List.mem_append_right _ hx
  | .loop _ _ _ => fun _ hx => List.mem_append_right _ hx
  | .block _ body => bodyNested_subset body

/-- The same for a list of statements. -/
theorem bodyNested_subset : ∀ ss : List Stmt, ∀ x ∈ bodyNested ss, x ∈ bodyDeclares ss
  | [] => fun _ hx => nomatch hx
  | s :: ss => by
      intro x hx
      rcases List.mem_append.1 hx with hx | hx
      · exact List.mem_append_left _ (s.nested_subset x hx)
      · exact List.mem_append_right _ (bodyNested_subset ss x hx)

end

/-! ## What the checker knows -/

variable {env : Env} {P : String → Prop} {known more : List String}

/-- What the checker knows is certainly declared, or is one of the names `P`. -/
def Covers (env : Env) (P : String → Prop) (known : List String) (locals : List Var) : Prop :=
  ∀ name v, env.find? locals name = some v → name ∈ known ∨ P name

/-- More known names cover what fewer do. -/
theorem Covers.mono {locals : List Var} (h : Covers env P known locals)
    (hsubset : ∀ x ∈ known, x ∈ more) : Covers env P more locals := by
  intro name v hfind
  rcases h name v hfind with hknown | hp
  · exact .inl (hsubset name hknown)
  · exact .inr hp

/-- A declaration is known behind itself. -/
theorem Covers.declare {locals : List Var} (h : Covers env P known locals) (v : Var) :
    Covers env P (known ++ [v.name]) (locals ++ [v]) := by
  intro name w hfind
  by_cases hname : name = v.name
  · exact .inl (List.mem_append_right _ (List.mem_singleton.2 hname))
  · have hlast : findVar? [v] name = none := by
      simp [findVar?, Ne.symm hname]
    have hbefore : env.find? locals name = some w := by
      unfold Env.find? at hfind ⊢
      rwa [findVar?_append, hlast, Option.or_none] at hfind
    rcases h name w hbefore with hknown | hp
    · exact .inl (List.mem_append_left _ hknown)
    · exact .inr hp

/-- Names that are among `P` need not be known. -/
theorem Covers.drop {locals : List Var} (h : Covers env P (known ++ more) locals)
    (hp : ∀ x ∈ more, P x) : Covers env P known locals := by
  intro name v hfind
  rcases h name v hfind with hmem | hname
  · rcases List.mem_append.1 hmem with hknown | hmore
    · exact .inl hknown
    · exact .inr (hp name hmore)
  · exact .inr hname

mutual

/-- Behind an expression, what it declares is known; in it, only names of `P` are
exposed. -/
theorem TypedExpr.covers {before after : List Var} {e : Expr} {t : Ty} :
    TypedExpr env before e t after → ∀ known, Covers env P known before →
      Covers env P (known ++ e.declares) after ∧ ∀ x ∈ e.exposes known, P x
  | .literal _ => by
      intro known h
      refine ⟨?_, fun _ hx => nomatch hx⟩
      simpa [Expr.declares] using h
  | @TypedExpr.declare _ _ _ v _ _ _ _ => by
      intro known h
      exact ⟨h.declare v, fun _ hx => nomatch hx⟩
  | @TypedExpr.var _ _ _ name v found _ => by
      intro known h
      refine ⟨by simpa [Expr.declares] using h, ?_⟩
      intro x hx
      rw [Expr.exposes] at hx
      split at hx
      · cases hx
      · next hunknown =>
        rw [List.mem_singleton.1 hx]
        rcases h name v found with hknown | hp
        · exact (hunknown hknown).elim
        · exact hp
  | .assign value place _ _ => by
      intro known h
      obtain ⟨hbetween, hright⟩ := value.covers known h
      obtain ⟨hafter, hleft⟩ := place.covers _ hbetween
      rw [Expr.declares, ← List.append_assoc]
      exact ⟨hafter, List.forall_mem_append.2 ⟨hright, hleft⟩⟩
  | .syscall _ arguments _ => fun known h => arguments.covers known h
  | .call _ _ arguments _ => fun known h => arguments.covers known h
  | .binary first second _ _ _ => by
      intro known h
      obtain ⟨hbetween, hleft⟩ := first.covers known h
      obtain ⟨hafter, hright⟩ := second.covers _ hbetween
      rw [Expr.declares, ← List.append_assoc]
      exact ⟨hafter, List.forall_mem_append.2 ⟨hleft, hright⟩⟩
  | .unary value _ => fun known h => value.covers known h
  | .cast place _ _ => fun known h => place.covers known h

/-- The same for the arguments of a call. -/
theorem TypedArguments.covers {before after : List Var} {es : List Expr} {ts : List Ty} :
    TypedArguments env before es ts after → ∀ known, Covers env P known before →
      Covers env P (known ++ argumentsDeclare es) after ∧ ∀ x ∈ argumentsExpose known es, P x
  | .nil => by
      intro known h
      refine ⟨?_, fun _ hx => nomatch hx⟩
      simpa [argumentsDeclare] using h
  | .cons argument _ others => by
      intro known h
      obtain ⟨hbetween, hfirst⟩ := argument.covers known h
      obtain ⟨hafter, hothers⟩ := others.covers _ hbetween
      rw [argumentsDeclare, ← List.append_assoc]
      exact ⟨hafter, List.forall_mem_append.2 ⟨hfirst, hothers⟩⟩

end

mutual

/-- Behind a statement, what the checker knows was known before or is declared in the
statement. -/
theorem TypedStmt.covers_declares {before after : List Var} {s : Stmt} :
    TypedStmt env before s after → ∀ known, Covers env P known before →
      Covers env P (known ++ s.declares) after
  | .expression value => fun known h => (value.covers known h).1
  | .ret _ => by
      intro known h
      simpa [Stmt.declares] using h
  | .retValue _ value => fun known h => (value.covers known h).1
  | .ifThen test branch => by
      intro known h
      rw [Stmt.declares, ← List.append_assoc]
      exact branch.covers_declares _ (test.covers known h).1
  | .ifElse test branch other => by
      intro known h
      rw [Stmt.declares, ← List.append_assoc, ← List.append_assoc]
      exact other.covers_declares _ (branch.covers_declares _ (test.covers known h).1)
  | .loop test rounds => by
      intro known h
      rw [Stmt.declares, ← List.append_assoc]
      exact rounds.covers_declares _ (test.covers known h).1
  | .block inner => fun known h => inner.covers_declares known h

/-- The same for a list of statements. -/
theorem TypedStmts.covers_declares {before after : List Var} {ss : List Stmt} :
    TypedStmts env before ss after → ∀ known, Covers env P known before →
      Covers env P (known ++ bodyDeclares ss) after
  | .nil => by
      intro known h
      simpa [bodyDeclares] using h
  | .cons first others => by
      intro known h
      rw [bodyDeclares, ← List.append_assoc]
      exact others.covers_declares _ (first.covers_declares known h)

end

mutual

/-- When `P` has all names that are declared in branches and loop bodies, only names of
`P` are exposed, and behind the statement every other name is known. -/
theorem TypedStmt.covers {before after : List Var} {s : Stmt} :
    TypedStmt env before s after → ∀ known, Covers env P known before →
      (∀ x ∈ s.nested, P x) →
        (∀ x ∈ s.exposes known, P x) ∧
          ∀ k, s.leaves known = some k → Covers env P k after
  | .expression value => by
      intro known h _
      obtain ⟨hafter, hexposed⟩ := value.covers known h
      refine ⟨hexposed, ?_⟩
      intro k hk
      cases hk
      exact hafter
  | .ret _ => fun _ _ _ => ⟨fun _ hx => (nomatch hx), fun _ hk => nomatch hk⟩
  | .retValue _ value => by
      intro known h _
      exact ⟨(value.covers known h).2, fun _ hk => nomatch hk⟩
  | @TypedStmt.ifThen _ _ _ _ _ _ body test branch => by
      intro known h hnested
      obtain ⟨hbetween, htest⟩ := test.covers known h
      obtain ⟨hbody, _⟩ := branch.covers _ hbetween
        fun x hx => hnested x (bodyNested_subset body x hx)
      refine ⟨List.forall_mem_append.2 ⟨htest, hbody⟩, ?_⟩
      intro k hk
      cases hk
      exact (branch.covers_declares _ hbetween).drop hnested
  | @TypedStmt.ifElse _ _ _ _ _ _ _ body otherwise test branch other => by
      intro known h hnested
      obtain ⟨hnestedBody, hnestedOther⟩ := List.forall_mem_append.1 hnested
      obtain ⟨hbetween, htest⟩ := test.covers known h
      obtain ⟨hbody, _⟩ := branch.covers _ hbetween
        fun x hx => hnestedBody x (bodyNested_subset body x hx)
      have hmiddle := (branch.covers_declares _ hbetween).drop hnestedBody
      obtain ⟨hother, _⟩ := other.covers _ hmiddle
        fun x hx => hnestedOther x (otherwise.nested_subset x hx)
      refine ⟨List.forall_mem_append.2 ⟨htest, List.forall_mem_append.2 ⟨hbody, hother⟩⟩, ?_⟩
      intro k hk
      refine ((other.covers_declares _ hmiddle).drop hnestedOther).mono ?_
      intro x hx
      rw [Stmt.leaves] at hk
      exact mem_meet hk (fun k hk => subset_bodyLeaves body hk x hx)
        (fun k hk => otherwise.subset_leaves hk x hx)
  | @TypedStmt.loop _ _ _ _ _ _ body test rounds => by
      intro known h hnested
      obtain ⟨hbetween, htest⟩ := test.covers known h
      obtain ⟨hbody, _⟩ := rounds.covers _ hbetween
        fun x hx => hnested x (bodyNested_subset body x hx)
      refine ⟨List.forall_mem_append.2 ⟨htest, hbody⟩, ?_⟩
      intro k hk
      cases hk
      exact (rounds.covers_declares _ hbetween).drop hnested
  | .block inner => fun known h hnested => inner.covers known h hnested

/-- The same for a list of statements. -/
theorem TypedStmts.covers {before after : List Var} {ss : List Stmt} :
    TypedStmts env before ss after → ∀ known, Covers env P known before →
      (∀ x ∈ bodyNested ss, P x) →
        (∀ x ∈ bodyExposes known ss, P x) ∧
          ∀ k, bodyLeaves known ss = some k → Covers env P k after
  | .nil => by
      intro known h _
      refine ⟨fun _ hx => (nomatch hx), ?_⟩
      intro k hk
      cases hk
      exact h
  | @TypedStmts.cons _ _ _ _ s ss first others => by
      intro known h hnested
      obtain ⟨hnestedFirst, hnestedOthers⟩ := List.forall_mem_append.1 hnested
      obtain ⟨hfirst, hbetween⟩ := first.covers known h hnestedFirst
      rw [bodyExposes, bodyLeaves]
      cases hs : s.leaves known with
      | none =>
          refine ⟨?_, fun _ hk => nomatch hk⟩
          simpa using hfirst
      | some middle =>
          obtain ⟨hothers, hafter⟩ := others.covers middle (hbetween middle hs) hnestedOthers
          exact ⟨List.forall_mem_append.2 ⟨hfirst, hothers⟩, hafter⟩

end

/-- A well-typed function exposes only variables that it declares in a branch or in the
body of a loop. -/
theorem TypedFunction.exposes_subset {signatures : Signatures} {f : Function}
    (hf : TypedFunction signatures f) (hblock : f.builtin = false) :
    ∀ x ∈ f.exposes, x ∈ bodyNested f.body := by
  have hstart : Covers (f.typingEnv signatures) (fun x => x ∈ bodyNested f.body)
      (f.arguments.map Var.name) [] := by
    intro name v hfind
    have hargument : findVar? f.arguments name = some v := hfind
    have hname : v.name = name := by
      simpa using List.find?_some hargument
    exact .inl (List.mem_map.2 ⟨v, List.mem_of_find?_eq_some hargument, hname⟩)
  exact ((hf.body hblock).covers _ hstart fun _ hx => hx).1

/-! ## Runs of accepted programs -/

/-- A program whose `main` declares a variable in a branch that is not taken, and uses
it afterwards. -/
def leakingSource : String :=
  "i32 main() { if (false) { var y: i32 = 7; } return y; }"

/-- The program is accepted, and its run misses the variable. -/
theorem leakingSource_run :
    ∃ p, frontEnd leakingSource none = .ok p ∧ ∃ f ∈ p.functions, f.arguments = [] ∧
      (Setting.mk p (.ofSink .collect) 1).call f.name [] .empty =
        .failed (.unknownVariable "y") .empty := by
  have hcheck : (frontEnd leakingSource none).toOption.any (fun p =>
      p.functions.any fun f => f.arguments.isEmpty &&
        decide ((Setting.mk p (.ofSink .collect) 1).call f.name [] .empty =
          .failed (.unknownVariable "y") .empty)) = true := by
    decide +kernel
  obtain ⟨p, haccepted, hcheck⟩ := (Option.any_eq_true _ _).1 hcheck
  obtain ⟨f, hf, hcheck⟩ := List.any_eq_true.1 hcheck
  rw [Bool.and_eq_true, List.isEmpty_iff, decide_eq_true_eq] at hcheck
  exact ⟨p, toOption_eq_some.1 haccepted, f, hf, hcheck⟩

/-- Accepted programs can miss a variable. -/
theorem accepted_and_missing :
    ¬ ∀ (source : String) (p : Program), frontEnd source none = .ok p →
      ∀ f ∈ p.functions, ∀ args, ValuesFit args (f.arguments.map Var.type) →
        ∀ rounds state x final, (Setting.mk p (.ofSink .collect) rounds).call f.name args state ≠
          .failed (.unknownVariable x) final := by
  intro hclaim
  obtain ⟨p, haccepted, f, hf, harguments, hrun⟩ := leakingSource_run
  have hargs : ValuesFit [] (f.arguments.map Var.type) := by
    rw [harguments]
    exact .nil
  exact hclaim leakingSource p haccepted f hf [] hargs 1 _ _ _ hrun

/-- **Missing variables of accepted programs.**  A call of an accepted program fails for
a missing variable only if a function declares the variable in a branch or in the
body of a loop, and uses it at a place that can be reached around the declaration. -/
theorem missing_is_nested {σ : Type} {source : String} {file : Option String} {p : Program}
    (haccepted : frontEnd source file = .ok p) {host : Host σ} {rounds : Nat} {name x : String}
    {args : List Value} {state final : σ}
    (h : (Setting.mk p host rounds).call name args state = .failed (.unknownVariable x) final) :
    ∃ f ∈ p.functions, f.builtin = false ∧ x ∈ f.exposes ∧ x ∈ bodyNested f.body := by
  obtain ⟨f, hf, hblock, hexposed⟩ := call_exposed h
  have hfunction := (frontEnd_typed haccepted).each f hf
  exact ⟨f, hf, hblock, hexposed, hfunction.exposes_subset hblock x hexposed⟩

/-- The variable of the program above is found to be such a one. -/
theorem missing_is_nested_leaking :
    ∃ p f, frontEnd leakingSource none = .ok p ∧ f ∈ p.functions ∧ "y" ∈ f.exposes ∧
      "y" ∈ bodyNested f.body := by
  obtain ⟨p, haccepted, f, _, _, hrun⟩ := leakingSource_run
  obtain ⟨g, hg, _, hexposed, hnested⟩ := missing_is_nested haccepted hrun
  exact ⟨p, g, haccepted, hg, hexposed, hnested⟩

end Slate
