import Slate.Proofs.Grammar.PromptParameters

/-!
# Programs are read promptly, but for repeated arguments

The argument list of a function is the one place where what has been taken before a fault
need not open a phrase.  It may end in the declaration of an argument whose name is
repeated instead (`EndsInRepetition`); up to that name it does open one.  This is carried
from the list to the function and to the whole program.

The side conditions of the grammar belong to what is opened here.  A function has a name
that is free, a builtin has no body, and any other function has one (`Defines`).
-/

namespace Slate

/-! ## Repetitions -/

/-- In the list of arguments that `before` goes on to, an argument of this name has been
declared. -/
def RepeatsArgument (before : List Token) (name : Token) : Prop :=
  ∃ head opening ps comma vs, before = head ++ opening :: (ps ++ [comma]) ∧
    opening.kind = .leftParen ∧ DerivesParameters ps vs ∧ comma.kind = .comma ∧
    name.text ∈ vs.map Var.name

/-- The tokens end in the declaration of an argument whose name is repeated.  What stands
before the name is as `Opens` says. -/
def EndsInRepetition (Opens : List Token → Prop) (us : List Token) : Prop :=
  ∃ before name inside, us = before ++ name :: inside ∧ Opens before ∧
    RepeatsArgument before name ∧ OpensPhrase DerivesVar (name :: inside)

/-- The tokens are as `Opens` says, or they are up to a name that is repeated. -/
def OpensOrRepeats (Opens : List Token → Prop) (us : List Token) : Prop :=
  Opens us ∨ EndsInRepetition Opens us

/-- What is opened inside a whole. -/
theorem OpensOrRepeats.behind {Opens Others : List Token → Prop} {us : List Token}
    (h : OpensOrRepeats Opens us) (before : List Token)
    (hopens : ∀ us, Opens us → Others (before ++ us)) : OpensOrRepeats Others (before ++ us) := by
  rcases h with h | ⟨head, name, inside, rfl, hhead, ⟨outside, opening, ps, comma, vs, rfl, hlist⟩,
    hvar⟩
  · exact .inl (hopens us h)
  · refine .inr ⟨before ++ (outside ++ opening :: (ps ++ [comma])), name, inside, by simp,
      hopens _ hhead, ⟨before ++ outside, opening, ps, comma, vs, by simp, hlist⟩, hvar⟩

/-! ## How the readers decide -/

/-- What stands behind the parenthesis that opens a list of arguments. -/
def parametersInside : Reader (List Var × Span) := fun ts =>
  if startsWith .rightParen ts then
    (do
      let close ← plain (readKind .rightParen .commaOrCloseParen)
      pure ([], close.span) : Reader (List Var × Span)) ts
  else
    (do
      let vs ← plain (readParameters [])
      let close ← plain (readKind .rightParen .commaOrCloseParen)
      pure (vs, close.span) : Reader (List Var × Span)) ts

/-- The list of arguments is its opening parenthesis and what stands inside. -/
theorem plain_readArgumentList :
    plain readArgumentList = (do
      let _ ← plain (readKind .leftParen .openParen)
      parametersInside) := by
  funext ts
  show forget (readArgumentList ts) = _
  rw [readArgumentList]
  refine forget_bind fun opening rest _ => ?_
  unfold parametersInside
  dsimp only
  cases startsWith .rightParen rest with
  | true => exact forget_bind fun close rest _ => rfl
  | false =>
      refine forget_bind fun vs rest _ => ?_
      exact forget_bind fun close rest _ => rfl

/-- The body of a function that is no builtin is a block. -/
theorem plain_readBody_of_block :
    plain (readBody false) = (do
      let (body, _) ← plain readBlock
      pure body) := by
  funext ts
  show forget (readBody false ts) = _
  simp only [readBody, Bool.false_eq_true, if_false]
  exact forget_bind fun body rest _ => rfl

/-- Behind the mark come the type, the name, the arguments and the body. -/
theorem plain_readSignatureAndBody (taken : List String) (builtin : Bool) (start : Span) :
    plain (readSignatureAndBody taken builtin start) = (do
      let (result, _) ← plain readType
      let name ← plain (readFunctionName taken)
      let (arguments, close) ← plain readArgumentList
      let body ← plain (readBody builtin)
      pure ⟨name, result, arguments, [], builtin, start.through close, body⟩) := by
  funext ts
  show forget (readSignatureAndBody taken builtin start ts) = _
  rw [readSignatureAndBody]
  refine forget_bind fun result rest _ => ?_
  refine forget_bind fun name rest _ => ?_
  refine forget_bind fun arguments rest _ => ?_
  exact forget_bind fun body rest _ => rfl

/-- The word `builtin` marks a builtin. -/
theorem plain_readFunction_of_builtin {taken : List String} {t : Token}
    (h : t.isKeyword "builtin" = true) (us : List Token) :
    plain (readFunction taken) (t :: us) =
      plain (readSignatureAndBody taken true t.span) us := by
  show forget (readFunction taken (t :: us)) = forget (readSignatureAndBody taken true t.span us)
  simp only [readFunction, if_pos h]
  cases readSignatureAndBody taken true t.span us <;> rfl

/-- Any other token is taken for the beginning of the type. -/
theorem plain_readFunction_of_block {taken : List String} {t : Token}
    (h : t.isKeyword "builtin" = false) (us : List Token) :
    plain (readFunction taken) (t :: us) =
      plain (readSignatureAndBody taken false t.span) (t :: us) := by
  show forget (readFunction taken (t :: us)) =
    forget (readSignatureAndBody taken false t.span (t :: us))
  simp only [readFunction, h, Bool.false_eq_true, if_false]

/-! ## Lists of arguments -/

/-- Arguments in parentheses, with distinct names. -/
def DerivesArgumentList (ts : List Token) (vs : List Var) : Prop :=
  ∃ opening ps closing, ts = opening :: (ps ++ [closing]) ∧ opening.kind = .leftParen ∧
    closing.kind = .rightParen ∧ DerivesParameterList ps vs ∧ (vs.map Var.name).Nodup

/-- Behind its parenthesis, what opens parameters opens a list of arguments. -/
theorem OpensPhrase.argumentList {opening : Token} {us : List Token}
    (ho : opening.kind = .leftParen) (h : OpensPhrase (FreshParameters []) us) :
    OpensPhrase DerivesArgumentList (opening :: us) :=
  h.inside [opening] [.sample .rightParen ")"] (by simp [ho]) (by simp [Token.sample])
    fun part vs hvs => ⟨vs, opening, part, _, rfl, ho, rfl, .some hvs.1, hvs.2.1⟩

/-- Behind whole declarations and a comma, the list can go on. -/
theorem opensParameters_comma {ps : List Token} {vs : List Var} {comma : Token}
    {earlier : List String} (hps : FreshParameters earlier ps vs) (hfit : NumbersFit ps)
    (hcomma : comma.kind = .comma) :
    OpensPhrase (FreshParameters earlier) (ps ++ [comma]) := by
  obtain ⟨hderives, hnodup, hfresh⟩ := hps
  induction hderives generalizing earlier with
  | @one ts v declared =>
      have hv : v.name ∉ earlier := hfresh v List.mem_cons_self
      have hwhole : OpensPhrase (FreshParameters earlier) (ts ++ [comma] ++ []) :=
        (opensParameters_nil (v.name :: earlier)).inside _ [] (by simp [hfit, hcomma])
          numbersFit_nil fun part ws hws => ⟨v :: ws, by simpa using hws.cons declared hv hcomma⟩
      simpa using hwhole
  | @more separator ts us v vs declared separates others ih =>
      obtain ⟨hv, hothers⟩ := List.forall_mem_cons.1 hfresh
      obtain ⟨hnew, hrest⟩ := List.nodup_cons.1 hnodup
      simp only [numbersFit_append, numbersFit_cons] at hfit
      have hopens := @ih (v.name :: earlier) hfit.2.2 hrest (by
        intro w hw hmem
        rcases List.mem_cons.1 hmem with heq | hmem
        · exact hnew (List.mem_map.2 ⟨w, hw, heq⟩)
        · exact hothers w hw hmem)
      have hwhole : OpensPhrase (FreshParameters earlier) (ts ++ [separator] ++ (us ++ [comma])) :=
        hopens.inside _ [] (by simp [hfit.1, separates]) numbersFit_nil fun part ws hws =>
          ⟨v :: ws, by simpa using hws.cons declared hv separates⟩
      simpa using hwhole

/-- A repetition inside the parentheses is one in the list. -/
theorem RepeatsIn.endsInRepetition {opening : Token} {us : List Token}
    (ho : opening.kind = .leftParen) (h : RepeatsIn [] us) :
    EndsInRepetition (OpensPhrase DerivesArgumentList) (opening :: us) := by
  rcases h.split with ⟨name, inside, rfl, hmem, _⟩ | ⟨ps, vs, comma, name, inside, rfl, hps, hfit,
    hcomma, hname, hopens⟩
  · cases hmem
  · have hname : name.text ∈ vs.map Var.name := hname.resolve_left List.not_mem_nil
    refine ⟨opening :: (ps ++ [comma]), name, inside, by simp, ?_, ?_, hopens⟩
    · exact (opensParameters_comma hps hfit hcomma).argumentList ho
    · exact ⟨[], opening, ps, comma, vs, rfl, ho, hps.1, hcomma, hname⟩

/-- Lists of arguments are read promptly, up to a repeated name. -/
theorem argumentList_prompt (ts : List Token) :
    Prompt (OpensOrRepeats (OpensPhrase DerivesArgumentList)) (plain readArgumentList) ts := by
  have hsample : OpensPhrase DerivesArgumentList [Token.sample .leftParen "("] :=
    (opensParameters_nil []).argumentList rfl
  rw [plain_readArgumentList]
  refine .token (.inl (OpensPhrase.shorten [_] hsample)) ?_
  intro opening rest hts ho
  have hopen : OpensPhrase DerivesArgumentList [opening] := (opensParameters_nil []).argumentList ho
  cases hclose : startsWith .rightParen rest with
  | true =>
      refine Prompt.congr (s := do
        let close ← plain (readKind .rightParen .commaOrCloseParen)
        pure ([], close.span)) ?_ ?_
      · intro us hus
        have hstarts := (startsWith_of_head _ hus).trans hclose
        simp only [parametersInside, hstarts, if_true]
      · exact .token (.inl hopen) fun close rest _ _ => .answer _ _
  | false =>
      refine Prompt.congr (s := do
        let vs ← plain (readParameters [])
        let close ← plain (readKind .rightParen .commaOrCloseParen)
        pure (vs, close.span)) ?_ ?_
      · intro us hus
        have hstarts := (startsWith_of_head _ hus).trans hclose
        simp only [parametersInside, hstarts, Bool.false_eq_true, if_false]
      · refine (parameters_prompt [] rest).bind ?_ ?_
        · intro us _ _ hus
          rcases hus with hus | hus
          · exact .inl (hus.argumentList ho)
          · exact .inr (hus.endsInRepetition ho)
        · intro vs used rest' hread hts
          obtain ⟨before, hbefore, hvs, hfit, hnodup, hfresh⟩ :=
            parameters_derivable (forget_eq_ok.1 hread)
          obtain rfl := used_eq hts hbefore
          have hwhole : OpensPhrase (FreshParameters []) used :=
            .whole ⟨hvs, hnodup, hfresh⟩ hfit
          refine .token (.inl ?_) fun close rest _ _ => .answer _ _
          simpa using hwhole.argumentList ho

/-! ## Functions -/

/-- The name of a function is one token. -/
theorem functionName_prompt (Opens : List Token → Prop) (taken : List String) (ts : List Token)
    (hopens : Opens []) : Prompt Opens (plain (readFunctionName taken)) ts := by
  cases ts with
  | nil =>
      refine Prompt.refuse ?_ (SyntaxFault.unexpected_at .functionName []) hopens
      intro us hus
      rw [List.head?_eq_none_iff.1 hus]
      rfl
  | cons t ts =>
      have hfails : ∀ f : SyntaxFault, f.At [t] →
          (∀ us, readFunctionName taken (t :: us) = .error f) →
          Prompt Opens (plain (readFunctionName taken)) (t :: ts) := by
        intro f hat hread
        refine Prompt.refuse ?_ (hat.behind ts) hopens
        intro us hus
        obtain ⟨more, rfl⟩ := List.head?_eq_some_iff.1 hus
        exact forget_eq_error.2 (hread more)
      by_cases hk : t.kind = .identifier
      · by_cases hreserved : t.text = syscallName
        · refine hfails _ (SyntaxFault.found_at t [] .reservedName) fun us => ?_
          simp only [readFunctionName, readKind, if_pos hk]
          show (if t.text = syscallName then _ else _) = _
          rw [if_pos hreserved]
        · by_cases htaken : t.text ∈ taken
          · refine hfails _ (SyntaxFault.found_at t [] .functionRedefined) fun us => ?_
            simp only [readFunctionName, readKind, if_pos hk]
            show (if t.text = syscallName then _ else _) = _
            rw [if_neg hreserved, if_pos htaken]
          · refine Prompt.skip (s := pure t.text) ?_ (.answer _ _)
            intro us
            exact forget_eq_ok.2 (reads_functionName.2 ⟨t, rfl, hk, rfl, hreserved, htaken⟩)
      · refine hfails _ (SyntaxFault.unexpected_at .functionName [t]) fun us => ?_
        simp only [readFunctionName, readKind, if_neg hk]
        rfl

/-- What a function ends in: a semicolon for a builtin, a block for any other. -/
def EndsFunction (builtin : Bool) (ts : List Token) (body : Option (List Stmt)) : Prop :=
  DerivesBody ts body ∧ body.isNone = builtin

/-- What ends a function can begin anywhere. -/
theorem opensEnding_nil (builtin : Bool) : OpensPhrase (EndsFunction builtin) [] := by
  cases builtin with
  | true =>
      exact ⟨[.sample .semicolon ";"], none, ⟨.semicolon rfl, rfl⟩, by simp [Token.sample]⟩
  | false => exact ⟨sampleBlock, some [], ⟨.block derives_sampleBlock, rfl⟩, numbersFit_sampleBlock⟩

/-- What opens a block opens the end of a function that is no builtin. -/
theorem OpensPhrase.ending {us : List Token} (h : OpensPhrase DerivesBlock us) :
    OpensPhrase (EndsFunction false) us := by
  obtain ⟨more, body, hbody, hfit⟩ := h
  exact ⟨more, some body, ⟨.block hbody, rfl⟩, hfit⟩

/-- Bodies are read promptly. -/
theorem body_prompt (builtin : Bool) (ts : List Token) :
    Prompt (OpensPhrase (EndsFunction builtin)) (plain (readBody builtin)) ts := by
  cases builtin with
  | false =>
      rw [plain_readBody_of_block]
      refine (block_prompt ts).bind (fun us _ _ hus => hus.ending) ?_
      exact fun body used rest _ _ => .answer _ _
  | true =>
      cases ts with
      | nil =>
          refine Prompt.refuse ?_ (SyntaxFault.unexpected_at .semicolon []) (opensEnding_nil true)
          intro us hus
          rw [List.head?_eq_none_iff.1 hus]
          rfl
      | cons t ts =>
          by_cases hbrace : t.kind = .leftBrace
          · refine Prompt.refuse ?_ (SyntaxFault.found_at t ts .builtinWithBody)
              (opensEnding_nil true)
            intro us hus
            obtain ⟨more, rfl⟩ := List.head?_eq_some_iff.1 hus
            refine forget_eq_error.2 ?_
            simp only [readBody, if_true, if_pos hbrace]
          · refine Prompt.congr (s := do
              let _ ← plain (readKind .semicolon .semicolon)
              pure []) ?_ ?_
            · intro us hus
              obtain ⟨more, rfl⟩ := List.head?_eq_some_iff.1 hus
              show forget (readBody true (t :: more)) = _
              simp only [readBody, if_true, if_neg hbrace]
              exact forget_bind fun semicolon rest _ => rfl
            · exact .token (opensEnding_nil true) fun semicolon rest _ _ => .answer _ _

/-- A definition whose name is none of the taken ones. -/
def Defines (taken : List String) (ts : List Token) (d : Definition) : Prop :=
  DerivesFunction ts d ∧ d.Admissible ∧ d.Closed ∧ d.name ∉ taken

/-- A definition, put together from its parts. -/
theorem Defines.parts {taken : List String} {builtin : Bool} {name : Token}
    {ms rs as bs : List Token} {result : Ty} {arguments : List Var} {body : Option (List Stmt)}
    (mark : DerivesMark ms builtin) (type : DerivesType rs result) (kind : name.kind = .identifier)
    (free : name.text ≠ syscallName) (fresh : name.text ∉ taken)
    (list : DerivesArgumentList as arguments) (ending : EndsFunction builtin bs body) :
    Defines taken (ms ++ (rs ++ name :: (as ++ bs)))
      ⟨builtin, result, name.text, arguments, body⟩ := by
  obtain ⟨opening, ps, closing, rfl, ho, hc, hps, hnodup⟩ := list
  have hderives := DerivesFunction.parts mark type kind ho hps hc ending.1
  exact ⟨by simpa using hderives, ⟨free, hnodup⟩, ending.2, fresh⟩

section

variable {taken : List String} {builtin : Bool} {ms rs as us : List Token} {name : Token}
  {result : Ty} {arguments : List Var}

/-- Behind the arguments, what opens the end of a function opens a function. -/
theorem OpensPhrase.functionEnding (mark : DerivesMark ms builtin) (type : DerivesType rs result)
    (kind : name.kind = .identifier) (free : name.text ≠ syscallName) (fresh : name.text ∉ taken)
    (list : DerivesArgumentList as arguments) (hfit : NumbersFit (ms ++ (rs ++ name :: as)))
    (h : OpensPhrase (EndsFunction builtin) us) :
    OpensPhrase (Defines taken) (ms ++ (rs ++ name :: (as ++ us))) := by
  have hopens : OpensPhrase (Defines taken) (ms ++ (rs ++ name :: as) ++ us) :=
    h.inside _ [] hfit numbersFit_nil fun part body hbody =>
      ⟨_, by simpa using Defines.parts mark type kind free fresh list hbody⟩
  simpa using hopens

/-- Behind the name, what opens a list of arguments opens a function. -/
theorem OpensPhrase.functionArguments (mark : DerivesMark ms builtin)
    (type : DerivesType rs result) (kind : name.kind = .identifier)
    (free : name.text ≠ syscallName) (fresh : name.text ∉ taken)
    (hfit : NumbersFit (ms ++ (rs ++ [name]))) (h : OpensPhrase DerivesArgumentList us) :
    OpensPhrase (Defines taken) (ms ++ (rs ++ name :: us)) := by
  obtain ⟨more, body, hbody, hends⟩ := opensEnding_nil builtin
  have hopens : OpensPhrase (Defines taken) (ms ++ (rs ++ [name]) ++ us) :=
    h.inside _ more hfit hends fun part vs hvs =>
      ⟨_, by simpa using Defines.parts mark type kind free fresh hvs hbody⟩
  simpa using hopens

/-- Behind a type there can be a name that is free. -/
theorem opensFunction_name (taken : List String) (mark : DerivesMark ms builtin)
    (type : DerivesType rs result) (hfit : NumbersFit (ms ++ rs)) :
    OpensPhrase (Defines taken) (ms ++ rs) := by
  obtain ⟨name, hname⟩ := exists_fresh (syscallName :: taken)
  obtain ⟨hfree, hfresh⟩ := not_or.1 (mt List.mem_cons.2 hname)
  have hlist : OpensPhrase DerivesArgumentList [] :=
    OpensPhrase.shorten [.sample .leftParen "("] ((opensParameters_nil []).argumentList rfl)
  have hopens : OpensPhrase (Defines taken) (ms ++ (rs ++ [.sample .identifier name])) :=
    hlist.functionArguments mark type rfl hfree hfresh (by simpa [Token.sample] using hfit)
  exact OpensPhrase.shorten [.sample .identifier name] (by simpa using hopens)

/-- Behind the mark, what opens a type opens a function. -/
theorem OpensPhrase.functionType (taken : List String) (mark : DerivesMark ms builtin)
    (hfit : NumbersFit ms) (h : OpensPhrase DerivesType us) :
    OpensPhrase (Defines taken) (ms ++ us) := by
  obtain ⟨more, result, htype, hfits⟩ := h
  have hopens := opensFunction_name taken mark htype (numbersFit_append.2 ⟨hfit, hfits⟩)
  rw [← List.append_assoc] at hopens
  exact hopens.shorten more

end

/-- What stands behind the mark is read promptly, up to a repeated name. -/
theorem signatureAndBody_prompt (taken : List String) {builtin : Bool} (start : Span)
    {ms : List Token} (mark : DerivesMark ms builtin) (hfit : NumbersFit ms) (ts : List Token) :
    Prompt (fun us => OpensOrRepeats (OpensPhrase (Defines taken)) (ms ++ us))
      (plain (readSignatureAndBody taken builtin start)) ts := by
  rw [plain_readSignatureAndBody]
  refine (type_prompt ts).bind (fun us _ _ hus => .inl (hus.functionType taken mark hfit)) ?_
  intro r rs afterType hread hts
  obtain ⟨result, typeSpan⟩ := r
  obtain ⟨before, hbefore, htype, hfitType⟩ := type_derivable (forget_eq_ok.1 hread)
  obtain rfl := used_eq hts hbefore
  have hname := opensFunction_name taken mark htype (numbersFit_append.2 ⟨hfit, hfitType⟩)
  refine (functionName_prompt
    (fun us => OpensOrRepeats (OpensPhrase (Defines taken)) (ms ++ (rs ++ us))) _ _
    (.inl (by simpa using hname))).bind (fun _ _ _ h => h) ?_
  intro text used afterName hread hts
  obtain ⟨name, hafter, hk, rfl, hfree, hfresh⟩ := reads_functionName.1 (forget_eq_ok.1 hread)
  obtain rfl := used_eq hts (show afterType = [name] ++ afterName from hafter)
  have hfitName : NumbersFit (ms ++ (rs ++ [name])) := by simp [hfit, hfitType, hk]
  refine (argumentList_prompt afterName).bind ?_ ?_
  · intro us _ _ hus
    have hopens : OpensOrRepeats (OpensPhrase (Defines taken)) (ms ++ (rs ++ [name]) ++ us) :=
      hus.behind _ fun us hus => by
        simpa using hus.functionArguments mark htype hk hfree hfresh hfitName
    simpa using hopens
  · intro r as afterArguments hread hts
    obtain ⟨arguments, close⟩ := r
    obtain ⟨opening, ps, closing, hlist, _, ho, hc, hps, hfitList, hnodup⟩ :=
      argumentList_derivable (forget_eq_ok.1 hread)
    obtain rfl := used_eq hts (show afterName = opening :: (ps ++ [closing]) ++ afterArguments by
      simp [hlist])
    have hderives : DerivesArgumentList (opening :: (ps ++ [closing])) arguments :=
      ⟨opening, ps, closing, rfl, ho, hc, hps, hnodup⟩
    refine (body_prompt builtin afterArguments).bind ?_ ?_
    · intro us _ _ hus
      have hopens := hus.functionEnding mark htype hk hfree hfresh hderives
        (by simp [hfit, hfitType, hk, ho, hc, hfitList])
      exact .inl (by simpa using hopens)
    · exact fun body used rest _ _ => .answer _ _

/-- Functions are read promptly, up to a repeated name. -/
theorem function_prompt (taken : List String) (ts : List Token) :
    Prompt (OpensOrRepeats (OpensPhrase (Defines taken))) (plain (readFunction taken)) ts := by
  cases ts with
  | nil =>
      refine Prompt.refuse ?_ (SyntaxFault.unexpected_at .typeName [])
        (.inl (opensType_nil.functionType taken .absent numbersFit_nil))
      intro us hus
      rw [List.head?_eq_none_iff.1 hus]
      rfl
  | cons t ts =>
      by_cases hbuiltin : t.isKeyword "builtin" = true
      · refine Prompt.skip (plain_readFunction_of_builtin hbuiltin) ?_
        exact signatureAndBody_prompt taken t.span (.present hbuiltin)
          (by simp [kind_of_isKeyword hbuiltin]) ts
      · refine Prompt.congr (s := plain (readSignatureAndBody taken false t.span)) ?_ ?_
        · intro us hus
          obtain ⟨more, rfl⟩ := List.head?_eq_some_iff.1 hus
          exact plain_readFunction_of_block (Bool.eq_false_iff.2 hbuiltin) more
        · exact signatureAndBody_prompt taken t.span .absent numbersFit_nil (t :: ts)

/-! ## Programs -/

/-- Definitions whose names are distinct and none of the taken ones. -/
def DefinesAll (taken : List String) (ts : List Token) (ds : List Definition) : Prop :=
  DerivesProgram ts ds ∧ (ds.map Definition.name).Nodup ∧
    ∀ d ∈ ds, d.name ∉ taken ∧ d.Admissible ∧ d.Closed

/-- One definition is a program. -/
theorem Defines.one {taken : List String} {ts : List Token} {d : Definition}
    (h : Defines taken ts d) : DefinesAll taken ts [d] := by
  obtain ⟨hd, hadmissible, hclosed, hfresh⟩ := h
  refine ⟨?_, by simp, by simp [hfresh, hadmissible, hclosed]⟩
  simpa using DerivesProgram.cons hd .nil

/-- A definition in front of a program that does not use its name makes a program. -/
theorem DefinesAll.cons {taken : List String} {ts us : List Token} {d : Definition}
    {ds : List Definition} (hd : Defines taken ts d) (h : DefinesAll (d.name :: taken) us ds) :
    DefinesAll taken (ts ++ us) (d :: ds) := by
  obtain ⟨hfirst, hadmissible, hclosed, hfresh⟩ := hd
  obtain ⟨hothers, hnodup, heach⟩ := h
  refine ⟨.cons hfirst hothers, ?_, ?_⟩
  · refine List.nodup_cons.2 ⟨?_, hnodup⟩
    intro hmem
    obtain ⟨c, hc, heq⟩ := List.mem_map.1 hmem
    exact (heach c hc).1 (heq ▸ List.mem_cons_self)
  · refine List.forall_mem_cons.2 ⟨⟨hfresh, hadmissible, hclosed⟩, ?_⟩
    intro c hc
    exact ⟨fun hmem => (heach c hc).1 (List.mem_cons_of_mem _ hmem), (heach c hc).2⟩

/-- Tokens that are read as a program start with a function. -/
theorem readFunctions_first {taken : List String} {used others : List Token} {t : Token}
    {fs : List Function} (h : readFunctions taken (used ++ t :: others) = .ok fs) :
    ∃ g left more, Reads (readFunction taken (used ++ t :: others)) g left ∧
      readFunctions (g.name :: taken) left = .ok more := by
  obtain ⟨u, us, hus⟩ := List.exists_cons_of_ne_nil (show used ++ t :: others ≠ [] by simp)
  rw [hus] at h ⊢
  obtain ⟨g, left, more, hg, hmore, _⟩ := readFunctions_cons.1 h
  exact ⟨g, left, more, hg, hmore⟩

/-- **Programs are read promptly**, but for repeated arguments.  Where reading fails, what
stands before the fault opens a program or ends in a repetition, and with the token at the
fault behind it there is no program. -/
theorem readFunctions_stops {taken : List String} {ts : List Token} {f : SyntaxFault}
    (h : readFunctions taken ts = .error f) :
    ∃ used rest, ts = used ++ rest ∧ f.At rest ∧
      OpensOrRepeats (OpensPhrase (DefinesAll taken)) used ∧
      ∀ t more, rest = t :: more → ∀ others fs,
        readFunctions taken (used ++ t :: others) ≠ .ok fs := by
  cases ts with
  | nil =>
      rw [readFunctions] at h
      cases h
  | cons t ts =>
      rw [readFunctions] at h
      rcases bind_eq_error.1 h with hf | ⟨⟨g, left, hshorter⟩, hg, h⟩
      · obtain ⟨used, rest, hts, hat, hused, hno⟩ :=
          (function_prompt taken (t :: ts)).stops f (forget_eq_error.2 hf)
        refine ⟨used, rest, hts, hat, ?_, ?_⟩
        · exact hused.behind [] fun us hus => hus.inside [] [] numbersFit_nil
            numbersFit_nil fun part d hd => ⟨[d], by simpa using hd.one⟩
        · intro u more hrest others fs hfs
          obtain ⟨g, left, _, hg, _⟩ := readFunctions_first hfs
          exact hno u more hrest others (g, left) (forget_eq_ok.2 hg)
      · have hothers : readFunctions (g.name :: taken) left = .error f := by
          rcases bind_eq_error.1 h with hf | ⟨fs, _, h⟩
          · exact hf
          · cases h
        obtain ⟨used, rest, hleft, hat, hused, hno⟩ := readFunctions_stops hothers
        have hreads : Reads (readFunction taken (t :: ts)) g left := ⟨hshorter, hg⟩
        obtain ⟨before, hbefore, hlook⟩ :=
          (function_prompt taken (t :: ts)).looksAtOne g left (forget_eq_ok.2 hreads)
        obtain ⟨first, d, hfirst, hd, hfunction, hadmissible, hclosed, hfresh, hfit⟩ :=
          function_derivable hreads
        obtain rfl := used_eq hfirst hbefore
        have hname : d.name = g.name := congrArg Function.name hfunction
        have hdefines : Defines taken first d := ⟨hd, hadmissible, hclosed, hname ▸ hfresh⟩
        subst hleft
        refine ⟨first ++ used, rest, by rw [hfirst, List.append_assoc], hat, ?_, ?_⟩
        · refine hused.behind first fun us hus => ?_
          rw [← hname] at hus
          exact hus.inside _ [] hfit numbersFit_nil fun part ds hds =>
            ⟨d :: ds, by simpa using hds.cons hdefines⟩
        · rintro u more rfl others fs hfs
          have hagain : Reads (readFunction taken (first ++ (used ++ u :: others))) g
              (used ++ u :: others) :=
            forget_eq_ok.1 (answer_stays hlook others)
          obtain ⟨g', left', more', hg', hmore'⟩ := readFunctions_first hfs
          rw [List.append_assoc] at hg'
          obtain ⟨rfl, rfl⟩ := hg'.unique hagain
          exact hno u more rfl others more' hmore'
termination_by ts.length

end Slate
