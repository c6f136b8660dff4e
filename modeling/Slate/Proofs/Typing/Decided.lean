import Slate.Proofs.Typing.Complete
import Slate.Proofs.Typing.Places
import Slate.Proofs.Typing.Sound

/-!
# The check decides the rules

A program that was read passes the check exactly if it keeps the rules.  What the check
then leaves is the program that was read, but for what erasing takes away; every expression
in it has noted the one type that the rules assign, and every variable the reference to
the type that it was declared with.

The rules assign a type with the locals that are known where the expression is reached.
These are the first ones of the locals of the whole function, and no name is declared
twice, so what a name means at a place is what it means at the end
(`Env.Distinct.grows`).
-/

namespace Slate

variable {env : Env}

/-! ## What is noted at a place -/

/-- The type that is noted at the elaborated expression is the only one that the rules
assign to what it came from; a cast has noted the type of the value. -/
def Expr.Records (env : Env) (locals : List Var) (e : Expr) : Prop :=
  ∃ t after, HasType env locals e.erased t after ∧
    (∀ u after', HasType env locals e.erased u after' → u = t) ∧
    e.type? = some (e.typeFrom t)

/-- Distinct names are so among the first of them. -/
theorem Env.Distinct.of_prefix {before after : List Var} (h : env.Distinct after)
    (hkept : before <+: after) : env.Distinct before :=
  List.Nodup.sublist (((List.prefix_append_right_inj _).2 hkept).sublist.map _) h

/-- Known types are so among the first variables. -/
theorem Env.Known.of_prefix {before after : List Var} (h : env.Known after)
    (hkept : before <+: after) : env.Known before :=
  ⟨fun v hv => h.declared v (((List.prefix_append_right_inj _).2 hkept).subset hv), h.results⟩

/-- A typed place records what the rules give it. -/
theorem TypedPlace.records {final : List Var} {o : List Var × Expr}
    (h : TypedPlace env final o) (hknown : env.Known final) (hdistinct : env.Distinct final) :
    o.2.Records env o.1 := by
  obtain ⟨t, after, htyped, hafter⟩ := h
  have hkept := htyped.locals_kept.trans hafter
  obtain ⟨u, htype, hu⟩ := htyped.hasType (hknown.of_prefix hkept)
  refine ⟨u, after, htype, ?_, hu ▸ htyped.type?_eq⟩
  intro u' after' htype'
  exact htype.unique htype' (hdistinct.of_prefix hkept)

/-- A variable has noted the reference to the type that it has at the end. -/
theorem TypedPlace.variable {final locals : List Var} {n : Note} {name : String}
    (h : TypedPlace env final (locals, .var n name)) (hdistinct : env.Distinct final) :
    ∃ v, env.find? final name = some v ∧ n.type = some v.type.reference := by
  obtain ⟨t, after, htyped, hafter⟩ := h
  cases htyped with
  | var known noted => exact ⟨_, hdistinct.grows hafter _ _ known, noted⟩

/-! ## Programs -/

variable {ts : List Token} {file : Option String} {p : Program}

/-- When the declared types of all functions pass, environments know types of the
language. -/
theorem typingEnv_known (hread : ∀ f ∈ p.functions, f.AsRead)
    (hpass : ∀ f ∈ p.functions, (f.check p.signatures).2 = .ok ()) {f : Function}
    (hf : f ∈ p.functions) : (f.typingEnv p.signatures).Known [] := by
  have hdeclared : ∀ g ∈ p.functions, g.result.IsResult ∧
      ∀ v ∈ g.arguments, v.type ∈ Ty.valueTypes := by
    intro g hg
    obtain ⟨hresult, _, harguments⟩ :=
      declared_of_declarationCause? (hread g hg) (Function.declarationCause?_of_check (hpass g hg))
    exact ⟨hresult, harguments⟩
  refine ⟨?_, ?_⟩
  · intro v hv
    rw [List.append_nil] at hv
    exact (hdeclared f hf).2 v hv
  · intro name signature hlookup
    obtain ⟨g, hg, _, rfl⟩ := mem_of_signatures hlookup
    exact (hdeclared g hg).1

/-- What the check of a function that keeps the rules has noted. -/
theorem Function.check_notes {signatures : Signatures} {f : Function} (hread : f.AsRead)
    (hdistinct : (f.arguments.map Var.name).Nodup) (hplain : (f.typingEnv signatures).Plain)
    (hknown : (f.typingEnv signatures).Known []) (hblock : f.builtin = false)
    (h : (f.check signatures).2 = .ok ()) :
    let g := (f.check signatures).1
    (∀ o ∈ g.occurrences, o.2.Records (g.typingEnv signatures) o.1) ∧
      ∀ locals n name, (locals, .var n name) ∈ g.occurrences →
        ∃ v, g.findVariable? name = some v ∧ n.type = some v.type.reference := by
  have htyped := check_typed hread hdistinct hplain h
  have hcause := Function.declarationCause?_of_check h
  have hchecks := checksStmts (f.typingEnv signatures) [] f.body
  rcases hbody : checkStmts (f.typingEnv signatures) [] f.body with ⟨body, locals, verdict⟩
  rw [Function.check_of_body hcause hblock hbody] at h htyped ⊢
  obtain rfl : verdict = .ok () := h
  rw [hbody] at hchecks
  have hfinal := (hchecks.wellTyped hplain hknown hread.body).known hknown
  have hnames := htyped.env_distinct hblock
  have hplaces := (htyped.body hblock).places
  exact ⟨fun o ho => (hplaces o ho).records hfinal hnames,
    fun locals n name ho => (hplaces _ ho).variable hnames⟩

/-- **The check decides the rules.**  A program that was read passes exactly if it is well
typed.  What is left then is this program once more, when casts and noted types are
erased; every expression in it has noted the type that the rules assign, and they assign no
other; and every variable has noted the reference to the type of the variable that its
function finds by its name. -/
theorem check_decides_typing (h : Program.parse ts file = .ok p) :
    ((∃ q, p.check = .ok q) ↔ p.WellTyped) ∧
      ∀ q, p.check = .ok q →
        q.functions.map Function.erased = p.functions ∧
        ∀ g ∈ q.functions,
          (∀ o ∈ g.occurrences, o.2.Records (g.typingEnv p.signatures) o.1) ∧
          ∀ locals n name, (locals, .var n name) ∈ g.occurrences →
            ∃ v, g.findVariable? name = some v ∧ n.type = some v.type.reference := by
  have hread := parse_asRead h
  have hnames := (parse_names h).2
  refine ⟨⟨?_, ?_⟩, ?_⟩
  · rintro ⟨q, hq⟩ f hf
    obtain ⟨hpass, _⟩ := Program.check_eq_ok.1 hq
    exact Function.wellTyped_of_check (hread f hf) (typingEnv_plain hread hf)
      (typingEnv_known hread hpass hf) (hpass f hf)
  · intro htyped
    exact ⟨_, Program.check_eq_ok.2 ⟨fun f hf => (htyped f hf).passes (hnames f hf).2, rfl⟩⟩
  · intro q hq
    obtain ⟨hpass, rfl⟩ := Program.check_eq_ok.1 hq
    refine ⟨?_, ?_⟩
    · rw [List.map_map]
      refine (List.map_congr_left fun f hf => ?_).trans (List.map_id _)
      exact (Function.erased_check p.signatures f).trans (hread f hf).erased
    · intro g hg
      obtain ⟨f, hf, rfl⟩ := List.mem_map.1 hg
      cases hblock : f.builtin with
      | false =>
          exact Function.check_notes (hread f hf) (hnames f hf).2 (typingEnv_plain hread hf)
            (typingEnv_known hread hpass hf) hblock (hpass f hf)
      | true =>
          have hcause := Function.declarationCause?_of_check (hpass f hf)
          rw [Function.check_of_builtin hcause hblock]
          unfold Function.occurrences
          rw [parse_builtin h f hf hblock]
          exact ⟨List.forall_mem_nil _, fun _ _ _ ho => nomatch ho⟩

/-- A program with a condition that is a comparison. -/
def comparedSource : String :=
  "i32 main() { var b: bool = true; if (b == true) { return 1; } return 0; }"

/-- The same program with a variable as its condition, which has no cast. -/
def bareSource : String := "i32 main() { var b: bool = true; if (b) { return 1; } return 0; }"

/-- A truth value can be compared for a condition, but its variable is none. -/
theorem check_decides_typing_condition :
    (∃ p q, Program.parse (tokensOf comparedSource) none = .ok p ∧
      p.WellTyped ∧ p.check = .ok q ∧ q.functions.map Function.erased = p.functions) ∧
    ∃ p, Program.parse (tokensOf bareSource) none = .ok p ∧
      ¬ p.WellTyped := by
  have hpasses : (Program.parse (tokensOf comparedSource) none).toOption.any (fun p =>
      p.check.toOption.isSome) = true := by
    decide +kernel
  have hfails : (Program.parse (tokensOf bareSource) none).toOption.any (fun p =>
      p.check.toOption.isNone) = true := by
    decide +kernel
  refine ⟨?_, ?_⟩
  · obtain ⟨p, hparse, hcheck⟩ := (Option.any_eq_true _ _).1 hpasses
    obtain ⟨q, hq⟩ := Option.isSome_iff_exists.1 hcheck
    have hparse := toOption_eq_some.1 hparse
    have hq := toOption_eq_some.1 hq
    obtain ⟨hdecides, hleft⟩ := check_decides_typing hparse
    exact ⟨p, q, hparse, hdecides.1 ⟨q, hq⟩, hq, (hleft q hq).1⟩
  · obtain ⟨p, hparse, hcheck⟩ := (Option.any_eq_true _ _).1 hfails
    have hparse := toOption_eq_some.1 hparse
    refine ⟨p, hparse, fun htyped => ?_⟩
    obtain ⟨q, hq⟩ := (check_decides_typing hparse).1.2 htyped
    rw [hq] at hcheck
    cases hcheck

end Slate
