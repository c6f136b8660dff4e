import Slate.Proofs.Grammar.FunctionReads
import Slate.Proofs.Grammar.Soundness
import Slate.Proofs.Grammar.StatementCompleteness

/-!
# Function definitions: derivable and read

The counterpart of `Soundness` and `StatementCompleteness` for the definitions of
functions, and for the sequence of definitions that a program is.

The names that are taken by earlier functions, or by earlier arguments, are a
parameter of the readers.  So the side conditions are stated relative to a list of
taken names in every lemma, and absolutely only for a whole program.
-/

namespace Slate

/-- The side conditions on a definition by itself. -/
structure Definition.Admissible (d : Definition) : Prop where
  free : d.name ≠ syscallName
  distinct : (d.arguments.map Var.name).Nodup

/-- A builtin has no body, and any other function has one. -/
def Definition.Closed (d : Definition) : Prop :=
  d.body.isNone = d.builtin

/-! ## Soundness -/

/-- The tokens parameters are read from derive them, under distinct names. -/
theorem parameters_derivable {earlier : List String} {ts rest : List Token} {vs : List Var}
    (h : Reads (readParameters earlier ts) vs rest) :
    ∃ used, ts = used ++ rest ∧ DerivesParameters used vs ∧ NumbersFit used ∧
      (vs.map Var.name).Nodup ∧ ∀ v ∈ vs, v.name ∉ earlier := by
  obtain ⟨v, span, middle, hv, hname, hmore⟩ := reads_parameters.1 h
  have hshorter : middle.length < ts.length := hv.left
  obtain ⟨used, rfl, hused, hfit⟩ := var_derivable hv
  rcases hmore with ⟨t, more, others, rfl, ht, ho, rfl⟩ | ⟨_, rfl, rfl⟩
  · have hmore : more.length < (used ++ t :: more).length := Nat.lt_of_succ_lt hshorter
    obtain ⟨us, rfl, hus, hfit', hnodup, hfresh⟩ := parameters_derivable ho
    refine ⟨used ++ t :: us, by simp, .more hused ht hus, by simp [ht, hfit, hfit'], ?_, ?_⟩
    · refine List.nodup_cons.2 ⟨?_, hnodup⟩
      intro hmem
      obtain ⟨w, hw, heq⟩ := List.mem_map.1 hmem
      exact hfresh w hw (heq ▸ List.mem_cons_self)
    · refine List.forall_mem_cons.2 ⟨hname, ?_⟩
      intro w hw hmem
      exact hfresh w hw (List.mem_cons_of_mem _ hmem)
  · exact ⟨used, rfl, .one hused, hfit, by simp, by simpa using hname⟩
termination_by ts.length

/-- So do those of the list in its parentheses. -/
theorem argumentList_derivable {ts rest : List Token} {vs : List Var} {close : Span}
    (h : Reads (readArgumentList ts) (vs, close) rest) :
    ∃ opening used closing, ts = opening :: (used ++ closing :: rest) ∧ close = closing.span ∧
      opening.kind = .leftParen ∧ closing.kind = .rightParen ∧ DerivesParameterList used vs ∧
      NumbersFit used ∧ (vs.map Var.name).Nodup := by
  obtain ⟨opening, closing, middle, rfl, ho, hc, hclose, hmore⟩ := reads_argumentList.1 h
  rcases hmore with ⟨rfl, rfl⟩ | ⟨_, hvs⟩
  · exact ⟨opening, [], closing, rfl, hclose, ho, hc, .none, numbersFit_nil, List.nodup_nil⟩
  · obtain ⟨used, rfl, hused, hfit, hnodup, _⟩ := parameters_derivable hvs
    exact ⟨opening, used, closing, rfl, hclose, ho, hc, .some hused, hfit, hnodup⟩

/-- The tokens a body is read from derive it: a builtin ends in a semicolon. -/
theorem body_derivable {builtin : Bool} {ts rest : List Token} {body : List Stmt}
    (h : Reads (readBody builtin ts) body rest) :
    ∃ used ending, ts = used ++ rest ∧ DerivesBody used ending ∧ NumbersFit used ∧
      ending.isNone = builtin ∧ ending.getD [] = spanlessBody body := by
  cases builtin with
  | true =>
      obtain ⟨semicolon, rfl, hk, rfl⟩ := reads_body_of_builtin.1 h
      exact ⟨[semicolon], none, rfl, .semicolon hk, by simp [hk], rfl, rfl⟩
  | false =>
      obtain ⟨close, hblock⟩ := reads_body_of_block.1 h
      obtain ⟨used, rfl, hused, hfit⟩ := block_derivable hblock
      exact ⟨used, some (spanlessBody body), rfl, .block hused, hfit, rfl, rfl⟩

/-- What is read behind the keyword of a builtin, or without it, makes a
definition. -/
theorem signatureAndBody_derivable {taken : List String} {builtin : Bool} {start : Span}
    {ms ts rest : List Token} {f : Function} (hmark : DerivesMark ms builtin)
    (h : Reads (readSignatureAndBody taken builtin start ts) f rest) :
    ∃ used d, ts = used ++ rest ∧ DerivesFunction (ms ++ used) d ∧ d.function = f.spanless ∧
      d.Admissible ∧ d.Closed ∧ f.name ∉ taken ∧ NumbersFit used := by
  obtain ⟨result, typeSpan, afterType, name, afterName, arguments, close, afterArguments, body,
    htype, hname, harguments, hbody, rfl⟩ := reads_signatureAndBody.1 h
  obtain ⟨us, rfl, hus, hfitType⟩ := type_derivable htype
  obtain ⟨t, rfl, hk, rfl, hfree, htaken⟩ := reads_functionName.1 hname
  obtain ⟨opening, ps, closing, rfl, _, ho, hc, hps, hfitArguments, hnodup⟩ :=
    argumentList_derivable harguments
  obtain ⟨bs, ending, rfl, hbs, hfitBody, hclosed, hgetD⟩ := body_derivable hbody
  refine ⟨us ++ t :: opening :: (ps ++ closing :: bs),
    ⟨builtin, result, t.text, arguments, ending⟩, by simp, .parts hmark hus hk ho hps hc hbs, ?_,
    ⟨hfree, hnodup⟩, hclosed, htaken, by simp [hk, ho, hc, hfitType, hfitArguments, hfitBody]⟩
  simp only [Definition.function, Function.spanless, hgetD]

/-- The tokens a function is read from derive it. -/
theorem function_derivable {taken : List String} {ts rest : List Token} {f : Function}
    (h : Reads (readFunction taken ts) f rest) :
    ∃ used d, ts = used ++ rest ∧ DerivesFunction used d ∧ d.function = f.spanless ∧
      d.Admissible ∧ d.Closed ∧ f.name ∉ taken ∧ NumbersFit used := by
  cases ts with
  | nil => exact (not_reads_function_nil h).elim
  | cons t ts =>
      by_cases hmark : t.isKeyword "builtin" = true
      · obtain ⟨used, d, rfl, hd, hf, had, hclosed, hname, hfit⟩ :=
          signatureAndBody_derivable (.present hmark) ((reads_function_of_builtin hmark).1 h)
        exact ⟨t :: used, d, rfl, hd, hf, had, hclosed, hname,
          by simp [kind_of_isKeyword hmark, hfit]⟩
      · exact signatureAndBody_derivable .absent
          ((reads_function_of_block (Bool.eq_false_iff.2 hmark)).1 h)

/-- What is read to the end of the tokens is derived from all of them. -/
theorem functions_derivable {taken : List String} {ts : List Token} {fs : List Function}
    (h : readFunctions taken ts = .ok fs) :
    ∃ ds, DerivesProgram ts ds ∧ ds.map Definition.function = fs.map Function.spanless ∧
      (ds.map Definition.name).Nodup ∧
      (∀ d ∈ ds, d.name ∉ taken ∧ d.Admissible ∧ d.Closed) ∧ NumbersFit ts := by
  cases ts with
  | nil =>
      rw [readFunctions] at h
      cases h
      exact ⟨[], .nil, rfl, List.nodup_nil, List.forall_mem_nil _, numbersFit_nil⟩
  | cons t ts =>
      obtain ⟨f, rest, others, hf, hothers, rfl⟩ := readFunctions_cons.1 h
      have hshorter : rest.length < (t :: ts).length := hf.left
      obtain ⟨used, d, hts, hd, hfd, had, hclosed, hname, hfit⟩ := function_derivable hf
      obtain ⟨ds, hds, hmap, hnodup, heach, hfit'⟩ := functions_derivable hothers
      have hdname : d.name = f.name := congrArg Function.name hfd
      refine ⟨d :: ds, hts ▸ .cons hd hds, by simp [hfd, hmap], ?_, ?_, by simp [hts, hfit, hfit']⟩
      · refine List.nodup_cons.2 ⟨?_, hnodup⟩
        intro hmem
        obtain ⟨c, hc, heq⟩ := List.mem_map.1 hmem
        exact (heach c hc).1 (by rw [heq, hdname]; exact List.mem_cons_self)
      · refine List.forall_mem_cons.2 ⟨⟨hdname ▸ hname, had, hclosed⟩, ?_⟩
        intro c hc
        exact ⟨fun hmem => (heach c hc).1 (List.mem_cons_of_mem _ hmem), (heach c hc).2⟩
termination_by ts.length

/-! ## Completeness -/

/-- Derived argument declarations are read up to the parenthesis that closes them. -/
theorem parameters_read {ts : List Token} {vs : List Var} (h : DerivesParameters ts vs)
    {earlier : List String} (hnodup : (vs.map Var.name).Nodup)
    (hfresh : ∀ v ∈ vs, v.name ∉ earlier) {closing : Token} (hc : closing.kind = .rightParen)
    (rest : List Token) :
    Reads (readParameters earlier (ts ++ closing :: rest)) vs (closing :: rest) := by
  induction h generalizing earlier with
  | @one ts v declared =>
      have hbracket : startsWith .leftBracket (closing :: rest) = false := by
        simp [startsWith_cons, hc]
      have hcomma : startsWith .comma (closing :: rest) = false := by
        simp [startsWith_cons, hc]
      obtain ⟨span, hv⟩ := var_reads (closing :: rest) declared hbracket
      exact reads_parameters.2 ⟨v, span, closing :: rest, hv, hfresh v List.mem_cons_self,
        .inr ⟨hcomma, rfl, rfl⟩⟩
  | @more comma ts us v vs declared separates others ih =>
      have hbracket : startsWith .leftBracket (comma :: (us ++ closing :: rest)) = false := by
        simp [startsWith_cons, separates]
      obtain ⟨span, hv⟩ := var_reads (comma :: (us ++ closing :: rest)) declared hbracket
      obtain ⟨hnew, hrest⟩ := List.nodup_cons.1 hnodup
      obtain ⟨hfirst, hothers⟩ := List.forall_mem_cons.1 hfresh
      have hvs : Reads (readParameters (v.name :: earlier) (us ++ closing :: rest)) vs
          (closing :: rest) := ih hrest (by
        intro w hw hmem
        rcases List.mem_cons.1 hmem with heq | hmem
        · exact hnew (List.mem_map.2 ⟨w, hw, heq⟩)
        · exact hothers w hw hmem)
      rw [List.append_assoc, List.cons_append]
      exact reads_parameters.2
        ⟨v, span, _, hv, hfirst, .inl ⟨comma, _, vs, rfl, separates, hvs, rfl⟩⟩

/-- Parameters begin with a name. -/
theorem DerivesParameters.starts {ts : List Token} {vs : List Var} (h : DerivesParameters ts vs) :
    ∃ t us, ts = t :: us ∧ t.kind = .identifier := by
  cases h with
  | one declared =>
      cases declared with
      | typed kind _ _ => exact ⟨_, _, rfl, kind⟩
  | more declared _ _ =>
      cases declared with
      | typed kind _ _ => exact ⟨_, _, rfl, kind⟩

/-- Derived parameters under distinct names are read in their parentheses. -/
theorem argumentList_reads {ts : List Token} {vs : List Var} (h : DerivesParameterList ts vs)
    (hnodup : (vs.map Var.name).Nodup) {opening closing : Token} (ho : opening.kind = .leftParen)
    (hc : closing.kind = .rightParen) (rest : List Token) :
    Reads (readArgumentList (opening :: (ts ++ closing :: rest))) (vs, closing.span) rest := by
  refine reads_argumentList.2 ⟨opening, closing, _, rfl, ho, hc, rfl, ?_⟩
  cases h with
  | none => exact .inl ⟨rfl, rfl⟩
  | some parameters =>
      refine .inr ⟨?_, parameters_read parameters hnodup (fun _ _ => List.not_mem_nil) hc rest⟩
      obtain ⟨t, us, rfl, hk⟩ := parameters.starts
      simp [startsWith_cons, hk]

/-- A derived body is read where it is the one a builtin has, or no builtin has. -/
theorem body_reads {builtin : Bool} {ts : List Token} {ending : Option (List Stmt)}
    (h : DerivesBody ts ending) (hclosed : ending.isNone = builtin) (hfit : NumbersFit ts)
    (rest : List Token) :
    ∃ body, spanlessBody body = ending.getD [] ∧
      Reads (readBody builtin (ts ++ rest)) body rest := by
  cases h with
  | block block =>
      obtain ⟨body, close, hbody, hread⟩ := block_reads block hfit rest
      subst hclosed
      exact ⟨body, hbody, reads_body_of_block.2 ⟨close, hread⟩⟩
  | @semicolon t kind =>
      subst hclosed
      exact ⟨[], rfl, reads_body_of_builtin.2 ⟨t, rfl, kind, rfl⟩⟩

/-- A derived definition is read whole, if its name is free. -/
theorem function_reads {taken : List String} {ts : List Token} {d : Definition}
    (h : DerivesFunction ts d) (had : d.Admissible) (hclosed : d.Closed) (htaken : d.name ∉ taken)
    (hfit : NumbersFit ts) (rest : List Token) :
    ∃ f : Function, f.spanless = d.function ∧ Reads (readFunction taken (ts ++ rest)) f rest := by
  cases h with
  | @parts name opening closing ms rs ps bs builtin result arguments body mark type kind opens
      parameters closes ending =>
      simp only [numbersFit_append, numbersFit_cons] at hfit
      obtain ⟨_, _, _, _, _, _, hfitBody⟩ := hfit
      obtain ⟨typeSpan, htype⟩ := type_reads
        (name :: opening :: (ps ++ closing :: (bs ++ rest))) type (by simp [startsWith_cons, kind])
      have hname : Reads (readFunctionName taken
          (name :: opening :: (ps ++ closing :: (bs ++ rest)))) name.text
          (opening :: (ps ++ closing :: (bs ++ rest))) :=
        reads_functionName.2 ⟨name, rfl, kind, rfl, had.free, htaken⟩
      have harguments := argumentList_reads parameters had.distinct opens closes (bs ++ rest)
      obtain ⟨stmts, hstmts, hbody⟩ := body_reads ending hclosed hfitBody rest
      have hread : ∀ start, Reads (readSignatureAndBody taken builtin start
          (rs ++ name :: opening :: (ps ++ closing :: (bs ++ rest))))
          ⟨name.text, result, arguments, [], builtin, start.through closing.span, stmts⟩ rest :=
        fun start => reads_signatureAndBody.2 ⟨result, typeSpan, _, name.text, _, arguments,
          closing.span, _, stmts, htype, hname, harguments, hbody, rfl⟩
      have htokens : ms ++ (rs ++ name :: opening :: (ps ++ closing :: bs)) ++ rest =
          ms ++ (rs ++ name :: opening :: (ps ++ closing :: (bs ++ rest))) := by
        simp
      rw [htokens]
      cases mark with
      | absent =>
          cases type with
          | @name t tkind =>
              refine ⟨_, ?_, (reads_function_of_block (by simp [Token.isKeyword, tkind])).2
                (hread t.span)⟩
              simp only [Function.spanless, Definition.function, hstmts]
      | @present t word =>
          refine ⟨_, ?_, (reads_function_of_builtin word).2 (hread t.span)⟩
          simp only [Function.spanless, Definition.function, hstmts]

/-- A derived program is read. -/
theorem functions_read {taken : List String} {ts : List Token} {ds : List Definition}
    (h : DerivesProgram ts ds) (hnodup : (ds.map Definition.name).Nodup)
    (heach : ∀ d ∈ ds, d.name ∉ taken ∧ d.Admissible ∧ d.Closed) (hfit : NumbersFit ts) :
    ∃ fs, fs.map Function.spanless = ds.map Definition.function ∧
      readFunctions taken ts = .ok fs := by
  induction h generalizing taken with
  | nil => exact ⟨[], rfl, by rw [readFunctions]⟩
  | @cons ts us d ds first others ih =>
      obtain ⟨⟨htaken, had, hclosed⟩, hothers⟩ := List.forall_mem_cons.1 heach
      obtain ⟨hnew, hrest⟩ := List.nodup_cons.1 hnodup
      obtain ⟨f, hf, hread⟩ := function_reads first had hclosed htaken hfit.left us
      have hname : f.name = d.name := congrArg Function.name hf
      obtain ⟨fs, hfs, hmore⟩ := @ih (f.name :: taken) hrest (by
        intro c hc
        refine ⟨?_, (hothers c hc).2⟩
        intro hmem
        rcases List.mem_cons.1 hmem with heq | hmem
        · exact hnew (List.mem_map.2 ⟨c, hc, heq.trans hname⟩)
        · exact (hothers c hc).1 hmem) hfit.right
      refine ⟨f :: fs, by simp [hf, hfs], ?_⟩
      cases hts : ts ++ us with
      | nil =>
          rw [hts] at hread
          exact (not_reads_function_nil hread).elim
      | cons t more =>
          rw [hts] at hread
          exact readFunctions_cons.2 ⟨f, us, fs, hread, hmore, rfl⟩

end Slate
