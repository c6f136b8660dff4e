import Slate.Proofs.Grammar.StatementReads

/-!
# What the readers of functions read

The equivalences of `Reads` for function definitions.  They carry the side
conditions of the grammar: a reader of argument declarations knows the names that
are taken, and so does the reader of the name of a function.
-/

namespace Slate

/-- An argument declaration is followed by a comma and further ones, or it is the
last one.  Its name is none of the earlier ones. -/
theorem reads_parameters {earlier : List String} {ts rest : List Token} {vs : List Var} :
    Reads (readParameters earlier ts) vs rest ↔
      ∃ v span middle, Reads (readVar ts) (v, span) middle ∧ v.name ∉ earlier ∧
        ((∃ t more others, middle = t :: more ∧ t.kind = .comma ∧
            Reads (readParameters (v.name :: earlier) more) others rest ∧ vs = v :: others) ∨
          (startsWith .comma middle = false ∧ vs = [v] ∧ rest = middle)) := by
  rw [readParameters, reads_bind]
  constructor
  · intro h
    obtain ⟨⟨v, span⟩, middle, hm, hv, h⟩ := h
    refine ⟨v, span, middle, hv, ?_⟩
    by_cases hname : v.name ∈ earlier
    · simp only [if_pos hname] at h
      exact (reads_error h).elim
    · refine ⟨hname, ?_⟩
      simp only [if_neg hname] at h
      cases middle with
      | nil =>
          obtain ⟨rfl, rfl⟩ := reads_pure.1 h
          exact .inr ⟨rfl, rfl, rfl⟩
      | cons t more =>
          by_cases ht : t.kind = .comma
          · simp only [if_pos ht, reads_bind, reads_pure] at h
            obtain ⟨others, _, _, ho, rfl, rfl⟩ := h
            exact .inl ⟨t, more, others, rfl, ht, ho, rfl⟩
          · simp only [if_neg ht, reads_pure] at h
            obtain ⟨rfl, rfl⟩ := h
            exact .inr ⟨by simp [startsWith_cons, ht], rfl, rfl⟩
  · intro h
    obtain ⟨v, span, middle, hv, hname, h⟩ := h
    refine ⟨(v, span), middle, hv.left, hv, ?_⟩
    simp only [if_neg hname]
    rcases h with ⟨t, more, others, rfl, ht, ho, rfl⟩ | ⟨hs, rfl, rfl⟩
    · simp only [if_pos ht, reads_bind, reads_pure]
      exact ⟨others, rest, ho.left, ho, rfl, rfl⟩
    · cases rest with
      | nil => exact reads_pure.2 ⟨rfl, rfl⟩
      | cons t more =>
          have ht : t.kind ≠ .comma := kind_ne_of_startsWith hs
          simp only [if_neg ht]
          exact reads_pure.2 ⟨rfl, rfl⟩

/-- Arguments in parentheses are none, or argument declarations up to the closing
parenthesis. -/
theorem reads_argumentList {ts rest : List Token} {vs : List Var} {close : Span} :
    Reads (readArgumentList ts) (vs, close) rest ↔
      ∃ opening closing middle, ts = opening :: middle ∧ opening.kind = .leftParen ∧
        closing.kind = .rightParen ∧ close = closing.span ∧
        ((middle = closing :: rest ∧ vs = []) ∨
          (startsWith .rightParen middle = false ∧
            Reads (readParameters [] middle) vs (closing :: rest))) := by
  rw [readArgumentList]
  simp only [reads_bind, reads_kind]
  constructor
  · intro h
    obtain ⟨opening, middle, _, ⟨rfl, ho⟩, h⟩ := h
    cases hs : startsWith .rightParen middle with
    | true =>
        simp only [hs, if_true, reads_bind, reads_kind, reads_pure, Prod.mk.injEq] at h
        obtain ⟨closing, _, _, ⟨rfl, hc⟩, ⟨rfl, rfl⟩, rfl⟩ := h
        exact ⟨opening, closing, _, rfl, ho, hc, rfl, .inl ⟨rfl, rfl⟩⟩
    | false =>
        simp only [hs, Bool.false_eq_true, if_false, reads_bind, reads_kind, reads_pure,
          Prod.mk.injEq] at h
        obtain ⟨vs, _, _, hvs, closing, _, _, ⟨rfl, hc⟩, ⟨rfl, rfl⟩, rfl⟩ := h
        exact ⟨opening, closing, middle, rfl, ho, hc, rfl, .inr ⟨hs, hvs⟩⟩
  · intro h
    obtain ⟨opening, closing, middle, rfl, ho, hc, rfl, h⟩ := h
    refine ⟨opening, middle, Nat.lt_succ_self _, ⟨rfl, ho⟩, ?_⟩
    rcases h with ⟨rfl, rfl⟩ | ⟨hs, hvs⟩
    · have hs : startsWith .rightParen (closing :: rest) = true := by
        simpa [startsWith_cons] using hc
      simp only [hs, if_true, reads_bind, reads_kind, reads_pure]
      exact ⟨closing, rest, Nat.lt_succ_self _, ⟨rfl, hc⟩, rfl, rfl⟩
    · simp only [hs, Bool.false_eq_true, if_false, reads_bind, reads_kind, reads_pure]
      exact ⟨vs, closing :: rest, hvs.left, hvs, closing, rest, Nat.lt_succ_self _, ⟨rfl, hc⟩,
        rfl, rfl⟩

/-- The name of a function is free. -/
theorem reads_functionName {taken : List String} {ts rest : List Token} {name : String} :
    Reads (readFunctionName taken ts) name rest ↔
      ∃ t, ts = t :: rest ∧ t.kind = .identifier ∧ name = t.text ∧ name ≠ syscallName ∧
        name ∉ taken := by
  rw [readFunctionName]
  simp only [reads_bind, reads_kind]
  constructor
  · intro h
    obtain ⟨t, _, _, ⟨rfl, hk⟩, h⟩ := h
    by_cases hsyscall : t.text = syscallName
    · simp only [if_pos hsyscall] at h
      exact (reads_error h).elim
    · by_cases htaken : t.text ∈ taken
      · simp only [if_neg hsyscall, if_pos htaken] at h
        exact (reads_error h).elim
      · simp only [if_neg hsyscall, if_neg htaken, reads_pure] at h
        obtain ⟨rfl, rfl⟩ := h
        exact ⟨t, rfl, hk, rfl, hsyscall, htaken⟩
  · intro h
    obtain ⟨t, rfl, hk, rfl, hsyscall, htaken⟩ := h
    refine ⟨t, rest, Nat.lt_succ_self _, ⟨rfl, hk⟩, ?_⟩
    simp only [if_neg hsyscall, if_neg htaken]
    exact reads_pure.2 ⟨rfl, rfl⟩

/-- A builtin has a semicolon in place of its body. -/
theorem reads_body_of_builtin {ts rest : List Token} {body : List Stmt} :
    Reads (readBody true ts) body rest ↔
      ∃ semicolon, ts = semicolon :: rest ∧ semicolon.kind = .semicolon ∧ body = [] := by
  cases ts with
  | nil =>
      constructor
      · intro h
        exact (reads_error h).elim
      · intro h
        obtain ⟨_, h, _⟩ := h
        cases h
  | cons t ts =>
      simp only [readBody, if_true]
      by_cases hbrace : t.kind = .leftBrace
      · simp only [if_pos hbrace]
        constructor
        · intro h
          exact (reads_error h).elim
        · intro h
          obtain ⟨_, h, hk, _⟩ := h
          cases h
          rw [hk] at hbrace
          cases hbrace
      · simp only [if_neg hbrace, reads_bind, reads_kind, reads_pure]
        constructor
        · intro h
          obtain ⟨_, _, _, ⟨h, hk⟩, rfl, rfl⟩ := h
          exact ⟨_, h, hk, rfl⟩
        · intro h
          obtain ⟨semicolon, h, hk, rfl⟩ := h
          cases h
          exact ⟨t, rest, Nat.lt_succ_self _, ⟨rfl, hk⟩, rfl, rfl⟩

/-- Any other function has a block. -/
theorem reads_body_of_block {ts rest : List Token} {body : List Stmt} :
    Reads (readBody false ts) body rest ↔ ∃ close, Reads (readBlock ts) (body, close) rest := by
  simp only [readBody, Bool.false_eq_true, if_false, reads_bind, reads_pure]
  constructor
  · intro h
    obtain ⟨⟨body, close⟩, _, _, hb, rfl, rfl⟩ := h
    exact ⟨close, hb⟩
  · intro h
    obtain ⟨close, hb⟩ := h
    exact ⟨(body, close), rest, hb.left, hb, rfl, rfl⟩

/-- A function is read from its type, its name, its parameters and its body. -/
theorem reads_signatureAndBody {taken : List String} {builtin : Bool} {start : Span}
    {ts rest : List Token} {f : Function} :
    Reads (readSignatureAndBody taken builtin start ts) f rest ↔
      ∃ result typeSpan afterType name afterName arguments close afterArguments body,
        Reads (readType ts) (result, typeSpan) afterType ∧
        Reads (readFunctionName taken afterType) name afterName ∧
        Reads (readArgumentList afterName) (arguments, close) afterArguments ∧
        Reads (readBody builtin afterArguments) body rest ∧
        f = ⟨name, result, arguments, [], builtin, start.through close, body⟩ := by
  rw [readSignatureAndBody]
  simp only [reads_bind, reads_pure]
  constructor
  · intro h
    obtain ⟨⟨result, typeSpan⟩, afterType, _, htype, name, afterName, _, hname,
      ⟨arguments, close⟩, afterArguments, _, harguments, body, _, _, hbody, rfl, rfl⟩ := h
    exact ⟨result, typeSpan, afterType, name, afterName, arguments, close, afterArguments, body,
      htype, hname, harguments, hbody, rfl⟩
  · intro h
    obtain ⟨result, typeSpan, afterType, name, afterName, arguments, close, afterArguments, body,
      htype, hname, harguments, hbody, rfl⟩ := h
    exact ⟨(result, typeSpan), afterType, htype.left, htype, name, afterName, hname.left, hname,
      (arguments, close), afterArguments, harguments.left, harguments, body, rest, hbody.left,
      hbody, rfl, rfl⟩

/-- No function is read at the end of the tokens. -/
theorem not_reads_function_nil {taken : List String} {f : Function} {rest : List Token} :
    ¬ Reads (readFunction taken []) f rest :=
  reads_error

/-- The word `builtin` marks a function. -/
theorem reads_function_of_builtin {taken : List String} {t : Token} {ts rest : List Token}
    {f : Function} (h : t.isKeyword "builtin" = true) :
    Reads (readFunction taken (t :: ts)) f rest ↔
      Reads (readSignatureAndBody taken true t.span ts) f rest := by
  simp only [readFunction, if_pos h, reads_bind, reads_pure]
  constructor
  · intro hr
    obtain ⟨_, _, _, hf, rfl, rfl⟩ := hr
    exact hf
  · intro hf
    exact ⟨f, rest, hf.left, hf, rfl, rfl⟩

/-- Any other function has no mark. -/
theorem reads_function_of_block {taken : List String} {t : Token} {ts rest : List Token}
    {f : Function} (h : t.isKeyword "builtin" = false) :
    Reads (readFunction taken (t :: ts)) f rest ↔
      Reads (readSignatureAndBody taken false t.span (t :: ts)) f rest := by
  simp only [readFunction, h, Bool.false_eq_true, if_false]

/-- Functions are read one after the other to the end of the tokens; the names of
the ones before are taken. -/
theorem readFunctions_cons {taken : List String} {t : Token} {ts : List Token}
    {fs : List Function} :
    readFunctions taken (t :: ts) = .ok fs ↔
      ∃ f rest others, Reads (readFunction taken (t :: ts)) f rest ∧
        readFunctions (f.name :: taken) rest = .ok others ∧ fs = f :: others := by
  rw [readFunctions, bind_eq_ok]
  constructor
  · intro h
    obtain ⟨⟨f, rest, hrest⟩, hf, h⟩ := h
    obtain ⟨others, hothers, h⟩ := bind_eq_ok.1 h
    cases h
    exact ⟨f, rest, others, ⟨hrest, hf⟩, hothers, rfl⟩
  · intro h
    obtain ⟨f, rest, others, ⟨hrest, hf⟩, hothers, rfl⟩ := h
    exact ⟨(f, ⟨rest, hrest⟩), hf, bind_eq_ok.2 ⟨others, hothers, rfl⟩⟩

end Slate
