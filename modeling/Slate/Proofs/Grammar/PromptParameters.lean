import Slate.Proofs.Grammar.Acceptance
import Slate.Proofs.Grammar.PromptStatements

/-!
# Argument declarations are read promptly, but for repeated names

The name of an argument is compared with the earlier ones when the whole declaration has
been read.  The fault is then found at the name, as it should be.  But when the declaration
cannot be read to its end, the fault is found in it, behind a name with which no list of
arguments goes on.  So what has been taken does not open a phrase then; it ends in the
declaration of an earlier name (`RepeatsIn`), and it opened a phrase up to that name.

All else is prompt.  Names that are taken are no obstacle to completions, as there are
always others (`exists_fresh`).
-/

namespace Slate

/-- There is always another name: one that is longer than all of them together. -/
theorem exists_fresh (names : List String) : ∃ name, name ∉ names := by
  let all := (names.map String.toList).flatten
  refine ⟨String.ofList ('x' :: all), ?_⟩
  intro hmem
  have hpart : 'x' :: all ∈ names.map String.toList :=
    List.mem_map.2 ⟨_, hmem, String.toList_ofList⟩
  have hle : ('x' :: all).length ≤ all.length := (List.sublist_flatten_of_mem hpart).length_le
  exact absurd hle (Nat.not_succ_le_self _)

/-! ## Argument declarations -/

/-- Argument declarations with names that are distinct and none of the earlier ones. -/
def FreshParameters (earlier : List String) (ts : List Token) (vs : List Var) : Prop :=
  DerivesParameters ts vs ∧ (vs.map Var.name).Nodup ∧ ∀ v ∈ vs, v.name ∉ earlier

/-- The tokens end in the declaration of an argument with an earlier name. -/
inductive RepeatsIn : List String → List Token → Prop
  | here {earlier : List String} {name : Token} {inside : List Token}
      (taken : name.text ∈ earlier) (declares : OpensPhrase DerivesVar (name :: inside)) :
      RepeatsIn earlier (name :: inside)
  | later {earlier : List String} {comma : Token} {ts us : List Token} {v : Var}
      (declared : DerivesVar ts v) (fits : NumbersFit ts) (fresh : v.name ∉ earlier)
      (separates : comma.kind = .comma) (others : RepeatsIn (v.name :: earlier) us) :
      RepeatsIn earlier (ts ++ comma :: us)

/-- A declaration in front of others. -/
theorem FreshParameters.cons {earlier : List String} {comma : Token} {ts us : List Token} {v : Var}
    {vs : List Var} (hv : DerivesVar ts v) (hfresh : v.name ∉ earlier)
    (hcomma : comma.kind = .comma) (h : FreshParameters (v.name :: earlier) us vs) :
    FreshParameters earlier (ts ++ comma :: us) (v :: vs) := by
  obtain ⟨hvs, hnodup, hothers⟩ := h
  refine ⟨.more hv hcomma hvs, ?_, ?_⟩
  · refine List.nodup_cons.2 ⟨?_, hnodup⟩
    intro hmem
    obtain ⟨w, hw, heq⟩ := List.mem_map.1 hmem
    exact hothers w hw (heq ▸ List.mem_cons_self)
  · refine List.forall_mem_cons.2 ⟨hfresh, ?_⟩
    intro w hw hmem
    exact hothers w hw (List.mem_cons_of_mem _ hmem)

/-- Up to the name that is repeated there are whole declarations, if the name is not one of
the first `earlier` ones. -/
theorem RepeatsIn.split {earlier : List String} {us : List Token} (h : RepeatsIn earlier us) :
    (∃ name inside, us = name :: inside ∧ name.text ∈ earlier ∧
        OpensPhrase DerivesVar (name :: inside)) ∨
      ∃ ps vs comma name inside, us = ps ++ comma :: name :: inside ∧
        FreshParameters earlier ps vs ∧ NumbersFit ps ∧ comma.kind = .comma ∧
        (name.text ∈ earlier ∨ name.text ∈ vs.map Var.name) ∧
        OpensPhrase DerivesVar (name :: inside) := by
  induction h with
  | @here earlier name inside taken declares => exact .inl ⟨name, inside, rfl, taken, declares⟩
  | @later earlier comma ts us v declared fits fresh separates others ih =>
      have hone : FreshParameters earlier ts [v] :=
        ⟨.one declared, by simp, by simpa using fresh⟩
      rcases ih with ⟨name, inside, rfl, taken, hopens⟩ | ⟨ps, vs, comma', name, inside, rfl, hps,
        hfit, hcomma, hname, hopens⟩
      · refine .inr ⟨ts, [v], comma, name, inside, rfl, hone, fits, separates, ?_, hopens⟩
        rcases List.mem_cons.1 taken with heq | hmem
        · exact .inr (by simp [heq])
        · exact .inl hmem
      · refine .inr ⟨ts ++ comma :: ps, v :: vs, comma', name, inside, by simp,
          hps.cons declared fresh separates, by simp [fits, hfit, separates], hcomma, ?_, hopens⟩
        rcases hname with hmem | hmem
        · rcases List.mem_cons.1 hmem with heq | hmem
          · exact .inr (by simp [heq])
          · exact .inl hmem
        · exact .inr (List.mem_cons_of_mem _ hmem)

/-- A declaration that is opened with a name that is not taken. -/
theorem opensParameters_of_name {earlier : List String} {name : Token} {us : List Token}
    (hfresh : name.text ∉ earlier) (h : OpensPhrase DerivesVar (name :: us)) :
    OpensPhrase (FreshParameters earlier) (name :: us) := by
  obtain ⟨more, v, hv, hfit⟩ := h
  have hname : v.name = name.text := by
    obtain ⟨first, colon, type, heq, rfl⟩ := hv.tokens
    obtain ⟨rfl, _⟩ := List.cons.inj heq
    rfl
  exact ⟨more, [v], ⟨.one hv, by simp, by simpa [hname] using hfresh⟩, hfit⟩

theorem opensParameters_nil (earlier : List String) : OpensPhrase (FreshParameters earlier) [] := by
  obtain ⟨name, hname⟩ := exists_fresh earlier
  exact OpensPhrase.shorten [.sample .identifier name]
    (opensParameters_of_name hname (opensVar_name _ rfl))

/-- What stands behind an argument declaration: further ones, or nothing. -/
def parametersBehind (earlier : List String) (v : Var) : Reader (List Var) := fun ts =>
  if startsWith .comma ts then
    (do
      let vs ← plain (readParameters (v.name :: earlier))
      pure (v :: vs) : Reader (List Var)) ts.tail
  else (pure [v] : Reader (List Var)) ts

theorem plain_readParameters (earlier : List String) :
    plain (readParameters earlier) = (do
      let (v, span) ← plain readVar
      if v.name ∈ earlier then fun _ => .error (.found span .argumentRepeated)
      else parametersBehind earlier v) := by
  funext ts
  show forget (readParameters earlier ts) = _
  rw [readParameters]
  refine forget_bind fun v rest left => ?_
  by_cases hname : v.1.name ∈ earlier
  · simp only [if_pos hname]
    rfl
  · simp only [if_neg hname]
    cases rest with
    | nil => rfl
    | cons t rest =>
        unfold parametersBehind
        by_cases hcomma : t.kind = .comma
        · simp only [startsWith_cons, hcomma, decide_true, if_true]
          exact forget_bind fun vs rest _ => rfl
        · simp only [startsWith_cons, hcomma, decide_false, Bool.false_eq_true, if_false]
          rfl

/-- A variable has the name that its declaration starts with. -/
theorem head_of_var {ts rest : List Token} {v : Var} {span : Span}
    (h : plain readVar ts = .ok ((v, span), rest)) :
    ∃ name us, ts = name :: us ∧ v.name = name.text ∧
      ∃ u ∈ name :: us, span = name.span.through u.span := by
  obtain ⟨name, colon, middle, typeSpan, type, rfl, _, _, htype, rfl, rfl⟩ :=
    reads_var.1 (forget_eq_ok.1 h)
  obtain ⟨last, rfl, _, _, _, rfl⟩ := reads_type.1 htype
  exact ⟨name, _, rfl, rfl, last, by simp, rfl⟩

/-- Where a name is repeated, the fault is found at the name or in its declaration. -/
theorem repeated_prompt {earlier : List String} {name : Token} (htaken : name.text ∈ earlier)
    (us : List Token) :
    Prompt (fun us => OpensPhrase (FreshParameters earlier) us ∨ RepeatsIn earlier us)
      (plain (readParameters earlier)) (name :: us) := by
  have hname : ∀ {others rest v span}, plain readVar (name :: others) = .ok ((v, span), rest) →
      v.name ∈ earlier ∧ ∃ u ∈ name :: others, span = name.span.through u.span := by
    intro others rest v span hv
    obtain ⟨first, more, heq, hv, hspan⟩ := head_of_var hv
    cases heq
    exact ⟨hv ▸ htaken, hspan⟩
  have hnever : ∀ others x, plain (readParameters earlier) (name :: others) ≠ .ok x := by
    intro others x hx
    rw [plain_readParameters] at hx
    obtain ⟨⟨⟨v, span⟩, rest⟩, hv, hx⟩ := bind_eq_ok.1 hx
    simp only [if_pos (hname hv).1] at hx
    cases hx
  refine ⟨fun a rest hread => (hnever _ _ hread).elim, ?_⟩
  intro f hf
  rw [plain_readParameters] at hf
  rcases bind_eq_error.1 hf with hf | ⟨⟨⟨v, span⟩, rest⟩, hv, hf⟩
  · obtain ⟨used, rest, hts, hat, hused, hno⟩ := (var_prompt (name :: us)).stops f hf
    refine ⟨used, rest, hts, hat, ?_, ?_⟩
    · cases used with
      | nil => exact .inl (opensParameters_nil earlier)
      | cons first used =>
          cases hts
          exact .inr (.here htaken hused)
    · intro t more hrest others x hx
      rw [plain_readParameters] at hx
      obtain ⟨r, hr, _⟩ := bind_eq_ok.1 hx
      exact hno t more hrest others r hr
  · obtain ⟨hmem, u, hu, hspan⟩ := hname hv
    simp only [if_pos hmem] at hf
    cases hf
    refine ⟨[], name :: us, rfl, ⟨u, hu, congrArg some hspan⟩,
      .inl (opensParameters_nil earlier), ?_⟩
    rintro t more ⟨⟩ others x hx
    exact hnever others x hx

/-- **Argument declarations are read promptly**, but for repeated names. -/
theorem parameters_prompt (earlier : List String) (ts : List Token) :
    Prompt (fun us => OpensPhrase (FreshParameters earlier) us ∨ RepeatsIn earlier us)
      (plain (readParameters earlier)) ts := by
  by_cases hhead : ∃ name us, ts = name :: us ∧ name.text ∈ earlier
  · obtain ⟨name, us, rfl, htaken⟩ := hhead
    exact repeated_prompt htaken us
  · rw [plain_readParameters]
    refine (var_prompt ts).bind ?_ ?_
    · intro us rest hts hus
      cases us with
      | nil => exact .inl (opensParameters_nil earlier)
      | cons name us =>
          exact .inl (opensParameters_of_name (fun hmem => hhead ⟨name, us ++ rest, hts, hmem⟩) hus)
    · intro r used rest hread hts
      obtain ⟨v, span⟩ := r
      have hreads := forget_eq_ok.1 hread
      have hshorter : rest.length < ts.length := hreads.left
      obtain ⟨before, hbefore, hv, hfit⟩ := var_derivable hreads
      obtain rfl := used_eq hts hbefore
      have hfresh : v.name ∉ earlier := by
        obtain ⟨name, us, rfl, hname, _⟩ := head_of_var hread
        exact fun hmem => hhead ⟨name, us, rfl, hname ▸ hmem⟩
      simp only [if_neg hfresh]
      cases hcomma : startsWith .comma rest with
      | true =>
          cases rest with
          | nil => cases hcomma
          | cons comma rest =>
              have hkind : comma.kind = .comma := kind_of_startsWith hcomma
              refine Prompt.skip (s := do
                let vs ← plain (readParameters (v.name :: earlier))
                pure (v :: vs)) ?_ ?_
              · intro us
                simp only [parametersBehind, startsWith_cons, hkind, decide_true, if_true,
                  List.tail_cons]
              · have hmore : rest.length < ts.length := Nat.lt_of_succ_lt hshorter
                refine (parameters_prompt (v.name :: earlier) rest).bind ?_ ?_
                · intro us _ _ hus
                  rcases hus with hus | hus
                  · left
                    rw [List.append_cons]
                    exact hus.inside _ [] (by simp [hfit, hkind]) numbersFit_nil fun part vs hvs =>
                      ⟨v :: vs, by simpa using hvs.cons hv hfresh hkind⟩
                  · exact .inr (.later hv hfit hfresh hkind hus)
                · exact fun vs used rest _ _ => .answer _ _
      | false =>
          refine Prompt.congr (s := pure [v]) ?_ (.answer _ _)
          intro us hus
          have hno := (startsWith_of_head _ hus).trans hcomma
          simp only [parametersBehind, hno, Bool.false_eq_true, if_false]
termination_by ts.length

end Slate
