import Slate.Proofs.Grammar.PromptFunctions
import Slate.Proofs.Grammar.RelocatedPrograms

/-!
# Sealed phrases

Some phrases say by their last token that they end there: a block by its closing brace, the
end of a builtin by its semicolon.  Their readers are *sealed*: a reader that succeeds answers
the same with any tokens added behind all that it was given.

A prompt reader looks at the first token behind what it takes, so it is sealed where it
leaves a token (`Prompt.more_behind`).  A reader that ends in a sealed one, and goes on with it
behind a prompt one, is sealed as well (`Sealed.bind`); so is the reader of a function, and the
functions of two token sequences are read one after the other (`readFunctions_append`).
-/

namespace Slate

variable {α β : Type}

/-- Tokens behind those that the reader was given change nothing but what it leaves. -/
def Sealed (r : Reader α) : Prop :=
  ∀ ts a rest, r ts = .ok (a, rest) → ∀ more, r (ts ++ more) = .ok (a, rest ++ more)

/-- A prompt reader that leaves a token answers the same with more tokens behind. -/
theorem Prompt.more_behind {Opens : List Token → Prop} {r : Reader α} {ts : List Token} {a : α}
    {rest : List Token} (h : Prompt Opens r ts) (hread : r ts = .ok (a, rest)) (hleft : rest ≠ [])
    (more : List Token) : r (ts ++ more) = .ok (a, rest ++ more) := by
  obtain ⟨used, rfl, hlook⟩ := h.looksAtOne a rest hread
  obtain ⟨t, left, rfl⟩ := List.exists_cons_of_ne_nil hleft
  rw [List.append_assoc, List.cons_append]
  exact hlook t left rfl (left ++ more)

namespace Sealed

/-- An answer behind a sealed reader keeps it sealed. -/
theorem answer {r : Reader α} (h : Sealed r) (f : α → β) : Sealed (do let a ← r; pure (f a)) := by
  intro ts b rest hread more
  obtain ⟨⟨a, left⟩, ha, hb⟩ := bind_eq_ok.1 hread
  cases hb
  exact bind_eq_ok.2 ⟨(a, rest ++ more), h ts a rest ha more, rfl⟩

/-- A prompt reader in front of a sealed one that takes something. -/
theorem bind {Opens : List Token → List Token → Prop} {x : Reader α} {k : α → Reader β}
    (hx : ∀ ts, Prompt (Opens ts) x ts) (hk : ∀ a, Sealed (k a))
    (htakes : ∀ a r, k a [] ≠ .ok r) : Sealed (x >>= k) := by
  intro ts b rest hread more
  obtain ⟨⟨a, middle⟩, ha, hb⟩ := bind_eq_ok.1 hread
  have hleft : middle ≠ [] := by
    rintro rfl
    exact htakes a _ hb
  have hfirst := (hx ts).more_behind ha hleft more
  exact bind_eq_ok.2 ⟨(a, middle ++ more), hfirst, hk a middle b rest hb more⟩

/-- A reader of one token is sealed. -/
theorem kind (kind : TokenKind) (wanted : Wanted) : Sealed (plain (readKind kind wanted)) := by
  intro ts t rest hread more
  obtain ⟨rfl, hkind⟩ := plain_kind_eq_ok.1 hread
  exact plain_kind_eq_ok.2 ⟨rfl, hkind⟩

end Sealed

/-- A reader that always takes a token does not succeed without one. -/
theorem plain_nil_ne_ok {r : (ts : List Token) → Reading α ts} (x : α × List Token) :
    plain r [] ≠ .ok x := by
  intro h
  have hshorter : x.2.length < ([] : List Token).length := (forget_eq_ok.1 h).left
  exact Nat.not_lt_zero _ hshorter

/-- At the end of the tokens nothing is read whatever follows. -/
theorem bind_nil_ne_ok {r : (ts : List Token) → Reading α ts} {k : α → Reader β}
    (x : β × List Token) : (plain r >>= k) [] ≠ .ok x := by
  intro h
  obtain ⟨a, ha, _⟩ := bind_eq_ok.1 h
  exact plain_nil_ne_ok a ha

/-! ## Blocks -/

/-- Statements end in the brace that closes them. -/
theorem statements_sealed {ts rest : List Token} {r : List Stmt × Span}
    (hread : plain readStatements ts = .ok (r, rest)) (more : List Token) :
    plain readStatements (ts ++ more) = .ok (r, rest ++ more) := by
  cases ts with
  | nil => exact (plain_nil_ne_ok _ hread).elim
  | cons t ts =>
      by_cases hclose : t.kind = .rightBrace
      · rw [plain_readStatements_of_close hclose] at hread
        cases hread
        exact plain_readStatements_of_close hclose _
      · rw [plain_readStatements_of_ne hclose] at hread
        obtain ⟨⟨s, middle⟩, hs, hothers⟩ := bind_eq_ok.1 hread
        obtain ⟨⟨ss, left⟩, hss, hanswer⟩ := bind_eq_ok.1 hothers
        cases hanswer
        have hshorter : middle.length < (t :: ts).length := (forget_eq_ok.1 hs).left
        have hleft : middle ≠ [] := by
          rintro rfl
          exact plain_nil_ne_ok _ hss
        have hfirst := (statement_prompt (t :: ts)).more_behind hs hleft more
        have hlater := statements_sealed hss more
        rw [List.cons_append, plain_readStatements_of_ne hclose]
        exact bind_eq_ok.2 ⟨(s, middle ++ more), hfirst,
          bind_eq_ok.2 ⟨(ss, rest ++ more), hlater, rfl⟩⟩
termination_by ts.length

/-- A block is sealed by its closing brace. -/
theorem block_sealed : Sealed (plain readBlock) := by
  rw [plain_readBlock]
  intro ts r rest hread more
  obtain ⟨⟨opening, inside⟩, hopening, hstatements⟩ := bind_eq_ok.1 hread
  exact bind_eq_ok.2 ⟨(opening, inside ++ more), Sealed.kind _ _ ts opening inside hopening more,
    statements_sealed hstatements more⟩

/-! ## Functions -/

/-- A body is sealed by its semicolon or by the brace of its block. -/
theorem body_sealed (builtin : Bool) : Sealed (plain (readBody builtin)) := by
  cases builtin with
  | false =>
      rw [plain_readBody_of_block]
      exact block_sealed.answer Prod.fst
  | true =>
      intro ts body rest hread more
      obtain ⟨semicolon, rfl, hkind, rfl⟩ := reads_body_of_builtin.1 (forget_eq_ok.1 hread)
      exact forget_eq_ok.2 (reads_body_of_builtin.2 ⟨semicolon, rfl, hkind, rfl⟩)

/-- So is what stands behind the mark of a function. -/
theorem signatureAndBody_sealed (taken : List String) (builtin : Bool) (start : Span) :
    Sealed (plain (readSignatureAndBody taken builtin start)) := by
  rw [plain_readSignatureAndBody]
  refine .bind type_prompt (fun type => ?_) fun _ => bind_nil_ne_ok
  have hname : ∀ us, Prompt (fun _ => True) (plain (readFunctionName taken)) us :=
    fun us => functionName_prompt _ taken us trivial
  refine .bind hname (fun name => ?_) fun _ => bind_nil_ne_ok
  refine .bind argumentList_prompt (fun arguments => ?_) fun _ => bind_nil_ne_ok
  obtain ⟨vs, close⟩ := arguments
  exact (body_sealed builtin).answer fun body =>
    Function.mk name type.1 vs [] builtin (start.through close) body

/-- **The reader of a function is sealed.** -/
theorem function_sealed (taken : List String) : Sealed (plain (readFunction taken)) := by
  intro ts f rest hread more
  cases ts with
  | nil => exact (plain_nil_ne_ok _ hread).elim
  | cons t ts =>
      cases hbuiltin : t.isKeyword "builtin" with
      | true =>
          rw [plain_readFunction_of_builtin hbuiltin] at hread
          rw [List.cons_append, plain_readFunction_of_builtin hbuiltin]
          exact signatureAndBody_sealed taken true t.span ts f rest hread more
      | false =>
          rw [plain_readFunction_of_block hbuiltin] at hread
          rw [List.cons_append, plain_readFunction_of_block hbuiltin]
          exact signatureAndBody_sealed taken false t.span (t :: ts) f rest hread more

/-! ## Programs -/

/-- **Functions are read one behind the other.**  Behind functions that have been read, the
others are read as if they were alone, but that the names of the first ones are taken. -/
theorem readFunctions_append {taken : List String} {ts : List Token} {fs : List Function}
    (h : readFunctions taken ts = .ok fs) (more : List Token) :
    readFunctions taken (ts ++ more) =
      (readFunctions ((fs.map Function.name).reverse ++ taken) more).map (fs ++ ·) := by
  cases ts with
  | nil =>
      rw [readFunctions] at h
      cases h
      rw [List.nil_append, List.map_nil, List.reverse_nil, List.nil_append]
      cases readFunctions taken more <;> rfl
  | cons t ts =>
      obtain ⟨f, rest, others, hf, hothers, rfl⟩ := readFunctions_cons.1 h
      have hshorter : rest.length < (t :: ts).length := hf.left
      have hfirst := function_sealed taken (t :: ts) f rest (forget_eq_ok.2 hf) more
      have hlater := readFunctions_append hothers more
      rw [List.cons_append] at hfirst ⊢
      rw [readFunctions_eq, hfirst]
      show (readFunctions (f.name :: taken) (rest ++ more) >>= fun gs => pure (f :: gs)) = _
      rw [hlater, List.map_cons, List.reverse_cons, List.append_assoc, List.singleton_append]
      cases readFunctions ((others.map Function.name).reverse ++ f.name :: taken) more <;> rfl
termination_by ts.length

/-- The names that are taken matter to a function by its own name alone. -/
theorem function_of_taken {taken others : List String} {ts rest : List Token} {f : Function}
    (h : Reads (readFunction taken ts) f rest) (hfree : f.name ∉ others) :
    Reads (readFunction others ts) f rest := by
  have hsignature : ∀ {builtin : Bool} {start : Span} {us : List Token},
      Reads (readSignatureAndBody taken builtin start us) f rest →
        Reads (readSignatureAndBody others builtin start us) f rest := by
    intro builtin start us hus
    obtain ⟨result, typeSpan, afterType, name, afterName, arguments, close, afterArguments, body,
      htype, hname, harguments, hbody, rfl⟩ := reads_signatureAndBody.1 hus
    obtain ⟨t, htokens, hkind, htext, hreserved, _⟩ := reads_functionName.1 hname
    have hname' : Reads (readFunctionName others afterType) name afterName :=
      reads_functionName.2 ⟨t, htokens, hkind, htext, hreserved, hfree⟩
    exact reads_signatureAndBody.2 ⟨result, typeSpan, afterType, name, afterName, arguments, close,
      afterArguments, body, htype, hname', harguments, hbody, rfl⟩
  cases ts with
  | nil => exact (not_reads_function_nil h).elim
  | cons t ts =>
      cases hbuiltin : t.isKeyword "builtin" with
      | true =>
          rw [reads_function_of_builtin hbuiltin] at h ⊢
          exact hsignature h
      | false =>
          rw [reads_function_of_block hbuiltin] at h ⊢
          exact hsignature h

/-- Functions are read the same with other names taken, if none of them has such a name. -/
theorem readFunctions_of_taken {taken others : List String} {ts : List Token}
    {fs : List Function} (h : readFunctions taken ts = .ok fs)
    (hfree : ∀ f ∈ fs, f.name ∉ others) : readFunctions others ts = .ok fs := by
  cases ts with
  | nil =>
      rw [readFunctions] at h ⊢
      exact h
  | cons t ts =>
      obtain ⟨f, rest, gs, hf, hgs, rfl⟩ := readFunctions_cons.1 h
      have hshorter : rest.length < (t :: ts).length := hf.left
      obtain ⟨hfirst, hlater⟩ := List.forall_mem_cons.1 hfree
      have hfree' : ∀ g ∈ gs, g.name ∉ f.name :: others := by
        intro g hg hmem
        rcases List.mem_cons.1 hmem with hname | hmem
        · exact (readFunctions_names hgs).2 g hg (hname ▸ List.mem_cons_self)
        · exact hlater g hg hmem
      exact readFunctions_cons.2 ⟨f, rest, gs, function_of_taken hf hfirst,
        readFunctions_of_taken hgs hfree', rfl⟩
termination_by ts.length

end Slate
