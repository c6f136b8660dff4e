import Slate.Proofs.Typing.Judgment

/-!
# Names of variables

The variables of a well-typed function have distinct names: a declaration is only
typed where its name is free.  Locals come in the order of their declarations, so the
locals known at a place are the first ones of those of the whole function
(`TypedExpr.locals_kept` and its companions).
-/

namespace Slate

variable {env : Env} {before after : List Var}

/-- No two of the variables have one name. -/
def Env.Distinct (env : Env) (locals : List Var) : Prop :=
  ((env.arguments ++ locals).map Var.name).Nodup

/-- Under distinct names, what is known of the first locals is known of all. -/
theorem Env.Distinct.grows (h : env.Distinct after) (hkept : before <+: after) :
    Grows env before after := by
  obtain ⟨more, rfl⟩ := hkept
  intro name v hv
  unfold Env.find? at hv ⊢
  rw [findVar?_append]
  cases hlocal : findVar? before name with
  | some w =>
      rw [hlocal] at hv
      exact hv
  | none =>
      rw [hlocal, Option.none_or] at hv
      cases hmore : findVar? more name with
      | none => exact hv
      | some w =>
          -- An argument cannot have the name of a local.
          have hw : w ∈ more := List.mem_of_find?_eq_some hmore
          have hwname : w.name = name := by
            simpa using List.find?_some hmore
          have hvmem : v ∈ env.arguments := List.mem_of_find?_eq_some hv
          have hvname : v.name = name := by
            simpa using List.find?_some hv
          unfold Env.Distinct at h
          rw [List.map_append, List.map_append] at h
          have hdisjoint := (List.nodup_append.1 h).2.2 v.name (List.mem_map.2 ⟨v, hvmem, rfl⟩)
            w.name (List.mem_append_right _ (List.mem_map.2 ⟨w, hw, rfl⟩))
          exact (hdisjoint (hvname.trans hwname.symm)).elim

/-- A free name is the name of no variable. -/
theorem Env.not_mem_of_find? {locals : List Var} {name : String}
    (h : env.find? locals name = none) : name ∉ (env.arguments ++ locals).map Var.name := by
  obtain ⟨hlocal, hargument⟩ := Option.or_eq_none_iff.1 h
  intro hmem
  obtain ⟨v, hv, rfl⟩ := List.mem_map.1 hmem
  rcases List.mem_append.1 hv with hv | hv
  · have hno := List.find?_eq_none.1 hargument v hv
    simp at hno
  · have hno := List.find?_eq_none.1 hlocal v hv
    simp at hno

/-- What is found by a name is a variable of this name. -/
theorem Env.mem_of_find?_eq_some {locals : List Var} {name : String} {v : Var}
    (h : env.find? locals name = some v) : v ∈ env.arguments ++ locals ∧ v.name = name := by
  rcases Option.or_eq_some_iff.1 h with hv | ⟨_, hv⟩
  · exact ⟨List.mem_append_right _ (List.mem_of_find?_eq_some hv), by
      simpa using List.find?_some hv⟩
  · exact ⟨List.mem_append_left _ (List.mem_of_find?_eq_some hv), by
      simpa using List.find?_some hv⟩

/-- A variable that is known has its name among the variables. -/
theorem Env.mem_of_find? {locals : List Var} {name : String} {v : Var}
    (h : env.find? locals name = some v) : name ∈ (env.arguments ++ locals).map Var.name :=
  List.mem_map.2 ⟨v, Env.mem_of_find?_eq_some h⟩

/-- A variable under a fresh name keeps the names distinct. -/
theorem Env.Distinct.declare {locals : List Var} (h : env.Distinct locals) {v : Var}
    (fresh : env.find? locals v.name = none) : env.Distinct (locals ++ [v]) := by
  unfold Env.Distinct
  rw [← List.append_assoc, List.map_append, List.nodup_append]
  refine ⟨h, by simp, ?_⟩
  intro name hname other hother heq
  rw [List.map_singleton, List.mem_singleton] at hother
  rw [heq, hother] at hname
  exact Env.not_mem_of_find? fresh hname

/-! ## Expressions -/

mutual

/-- An expression adds its variables behind those there were. -/
theorem TypedExpr.locals_kept {before after : List Var} {e : Expr} {t : Ty} :
    TypedExpr env before e t after → before <+: after
  | .literal _ => List.prefix_rfl
  | .declare _ _ _ _ => List.prefix_append _ _
  | .var _ _ => List.prefix_rfl
  | .assign value place _ _ => value.locals_kept.trans place.locals_kept
  | .syscall _ arguments _ => arguments.locals_kept
  | .call _ _ arguments _ => arguments.locals_kept
  | .binary first second _ _ _ => first.locals_kept.trans second.locals_kept
  | .unary value _ => value.locals_kept
  | .cast place _ _ => place.locals_kept

/-- The same for the arguments of a call. -/
theorem TypedArguments.locals_kept {before after : List Var} {es : List Expr} {ts : List Ty} :
    TypedArguments env before es ts after → before <+: after
  | .nil => List.prefix_rfl
  | .cons argument _ others => argument.locals_kept.trans others.locals_kept

end

mutual

/-- An expression keeps the names distinct. -/
theorem TypedExpr.distinct {before after : List Var} {e : Expr} {t : Ty} :
    TypedExpr env before e t after → env.Distinct before → env.Distinct after
  | .literal _ => id
  | .declare _ _ fresh _ => fun h => h.declare fresh
  | .var _ _ => id
  | .assign value place _ _ => fun h => place.distinct (value.distinct h)
  | .syscall _ arguments _ => arguments.distinct
  | .call _ _ arguments _ => arguments.distinct
  | .binary first second _ _ _ => fun h => second.distinct (first.distinct h)
  | .unary value _ => value.distinct
  | .cast place _ _ => place.distinct

/-- The same for the arguments of a call. -/
theorem TypedArguments.distinct {before after : List Var} {es : List Expr} {ts : List Ty} :
    TypedArguments env before es ts after → env.Distinct before → env.Distinct after
  | .nil => id
  | .cons argument _ others => fun h => others.distinct (argument.distinct h)

end

/-! ## Statements -/

mutual

/-- A statement adds its variables behind those there were. -/
theorem TypedStmt.locals_kept {before after : List Var} {s : Stmt} :
    TypedStmt env before s after → before <+: after
  | .expression value => value.locals_kept
  | .ret _ => List.prefix_rfl
  | .retValue _ value => value.locals_kept
  | .ifThen test branch => test.locals_kept.trans branch.locals_kept
  | .ifElse test branch other =>
      (test.locals_kept.trans branch.locals_kept).trans other.locals_kept
  | .loop test rounds => test.locals_kept.trans rounds.locals_kept
  | .block inner => inner.locals_kept

/-- The same for a list of statements. -/
theorem TypedStmts.locals_kept {before after : List Var} {ss : List Stmt} :
    TypedStmts env before ss after → before <+: after
  | .nil => List.prefix_rfl
  | .cons first others => first.locals_kept.trans others.locals_kept

end

mutual

/-- A statement keeps the names distinct. -/
theorem TypedStmt.distinct {before after : List Var} {s : Stmt} :
    TypedStmt env before s after → env.Distinct before → env.Distinct after
  | .expression value => value.distinct
  | .ret _ => id
  | .retValue _ value => value.distinct
  | .ifThen test branch => fun h => branch.distinct (test.distinct h)
  | .ifElse test branch other => fun h => other.distinct (branch.distinct (test.distinct h))
  | .loop test rounds => fun h => rounds.distinct (test.distinct h)
  | .block inner => inner.distinct

/-- The same for a list of statements. -/
theorem TypedStmts.distinct {before after : List Var} {ss : List Stmt} :
    TypedStmts env before ss after → env.Distinct before → env.Distinct after
  | .nil => id
  | .cons first others => fun h => others.distinct (first.distinct h)

end

/-- **Distinct names.**  The arguments and locals of a well-typed function. -/
theorem TypedFunction.env_distinct {signatures : Signatures} {f : Function}
    (hf : TypedFunction signatures f) (hblock : f.builtin = false) :
    (f.typingEnv signatures).Distinct f.locals := by
  refine (hf.body hblock).distinct ?_
  show ((f.arguments ++ []).map Var.name).Nodup
  rw [List.append_nil]
  exact hf.distinct

end Slate
