import Slate.Proofs.Grammar.Earliest
import Slate.Proofs.Grammar.Placed

/-!
# No phrase holds an unknown token

The grammar has no place for a lexeme that the language does not know.  So none is among the
tokens of a phrase, nor among tokens that a phrase can begin with.  Where reading runs out of
tokens it has taken all of them, and then all of them are known (`readFunctions_faults`).
-/

namespace Slate

/-- All of the tokens are lexemes of the language. -/
def Known (ts : List Token) : Prop := ∀ t ∈ ts, t.kind ≠ .unknown

@[simp] theorem known_nil : Known [] := List.forall_mem_nil _

@[simp] theorem known_cons {t : Token} {ts : List Token} :
    Known (t :: ts) ↔ t.kind ≠ .unknown ∧ Known ts :=
  List.forall_mem_cons

/-- Two lists are known exactly if each of them is. -/
@[simp] theorem known_append {ts us : List Token} : Known (ts ++ us) ↔ Known ts ∧ Known us :=
  List.forall_mem_append

/-! ## Phrases -/

mutual

/-- Only known tokens derive an expression. -/
theorem DerivesExpr.known {level : Level} {ts : List Token} {e : Expr} :
    DerivesExpr level ts e → Known ts
  | .assign left sign right => by simp [left.known, sign, right.known]
  | .binary left sign right => by simp [left.known, sign.1, right.known]
  | .unary sign operand => by simp [sign.1, operand.known]
  | .next _ phrase => phrase.known
  | .number kind => by simp [kind]
  | .string kind => by simp [kind]
  | .truth word => by simp [kind_of_isKeyword word]
  | .falsity word => by simp [kind_of_isKeyword word]
  | .var kind => by simp [kind]
  | .callNone kind opens closes => by simp [kind, opens, closes]
  | .call kind opens arguments closes => by simp [kind, opens, arguments.known, closes]
  | .parens opens inner closes => by simp [opens, inner.known, closes]

/-- The same for written arguments. -/
theorem DerivesArguments.known {ts : List Token} {es : List Expr} :
    DerivesArguments ts es → Known ts
  | .one argument => argument.known
  | .more argument separates others => by simp [argument.known, separates, others.known]

end

/-- The same for a type. -/
theorem DerivesType.known {ts : List Token} {type : Ty} (h : DerivesType ts type) : Known ts := by
  cases h with
  | name kind => simp [kind]

/-- The same for a variable. -/
theorem DerivesVar.known {ts : List Token} {v : Var} (h : DerivesVar ts v) : Known ts := by
  cases h with
  | typed kind separates typing => simp [kind, separates, typing.known]

/-- The same for a condition. -/
theorem DerivesCondition.known {ts : List Token} {e : Expr} (h : DerivesCondition ts e) :
    Known ts := by
  cases h with
  | parens opens inner closes => simp [opens, inner.known, closes]

mutual

/-- Only known tokens derive a statement. -/
theorem DerivesStmt.known {ts : List Token} {s : Stmt} : DerivesStmt ts s → Known ts
  | .ret word ends => by simp [kind_of_isKeyword word, ends]
  | .retValue word value ends => by simp [kind_of_isKeyword word, value.known, ends]
  | .branch branches => branches.known
  | .loop word condition block => by
      simp [kind_of_isKeyword word, condition.known, block.known]
  | .declare word declared ends => by simp [kind_of_isKeyword word, declared.known, ends]
  | .declareValue word declared assigns value ends => by
      simp [kind_of_isKeyword word, declared.known, assigns, value.known, ends]
  | .expression value ends => by simp [value.known, ends]

/-- The same for a conditional. -/
theorem DerivesIf.known {ts : List Token} {s : Stmt} : DerivesIf ts s → Known ts
  | .ifThen word condition block => by
      simp [kind_of_isKeyword word, condition.known, block.known]
  | .ifElse word condition block otherwise branch => by
      simp [kind_of_isKeyword word, condition.known, block.known, kind_of_isKeyword otherwise,
        branch.known]

/-- The same for what stands behind `else`. -/
theorem DerivesElse.known {ts : List Token} {s : Stmt} : DerivesElse ts s → Known ts
  | .block block => block.known
  | .nested branches => branches.known

/-- The same for a block. -/
theorem DerivesBlock.known {ts : List Token} {body : List Stmt} : DerivesBlock ts body → Known ts
  | .braces opens statements closes => by simp [opens, statements.known, closes]

/-- The same for a list of statements. -/
theorem DerivesStmts.known {ts : List Token} {ss : List Stmt} : DerivesStmts ts ss → Known ts
  | .nil => known_nil
  | .cons first others => by simp [first.known, others.known]

end

/-- The same for the mark of a builtin, or its absence. -/
theorem DerivesMark.known {ts : List Token} {builtin : Bool} (h : DerivesMark ts builtin) :
    Known ts := by
  cases h with
  | absent => exact known_nil
  | present word => simp [kind_of_isKeyword word]

/-- The same for one parameter or more. -/
theorem DerivesParameters.known {ts : List Token} {vs : List Var} (h : DerivesParameters ts vs) :
    Known ts := by
  induction h with
  | one declared => exact declared.known
  | more declared separates _ ih => simp [declared.known, separates, ih]

/-- The same for the list of the parameters, which may be empty. -/
theorem DerivesParameterList.known {ts : List Token} {vs : List Var}
    (h : DerivesParameterList ts vs) : Known ts := by
  cases h with
  | none => exact known_nil
  | some parameters => exact parameters.known

/-- The same for a block or the semicolon of a builtin. -/
theorem DerivesBody.known {ts : List Token} {ending : Option (List Stmt)}
    (h : DerivesBody ts ending) : Known ts := by
  cases h with
  | block block => exact block.known
  | semicolon kind => simp [kind]

/-- Only known tokens derive a function. -/
theorem DerivesFunction.known {ts : List Token} {d : Definition} (h : DerivesFunction ts d) :
    Known ts := by
  cases h with
  | parts mark type kind opens parameters closes ending =>
      simp [mark.known, type.known, kind, opens, parameters.known, closes, ending.known]

/-- Only known tokens derive a program. -/
theorem DerivesProgram.known {ts : List Token} {ds : List Definition} (h : DerivesProgram ts ds) :
    Known ts := by
  induction h with
  | nil => exact known_nil
  | cons first _ ih => simp [first.known, ih]

/-! ## Beginnings of phrases -/

/-- Where only known tokens derive a phrase, only known tokens open one. -/
theorem OpensPhrase.known {β : Type} {Derives : List Token → β → Prop} {us : List Token}
    (h : OpensPhrase Derives us) (hknown : ∀ ts b, Derives ts b → Known ts) : Known us := by
  obtain ⟨more, b, hb, _⟩ := h
  exact (known_append.1 (hknown _ b hb)).1

/-- The same where a phrase may be refused for a repeated name. -/
theorem OpensOrRepeats.known {Opens : List Token → Prop} {us : List Token}
    (h : OpensOrRepeats Opens us) (hknown : ∀ ts, Opens ts → Known ts) : Known us := by
  rcases h with h | ⟨before, name, inside, rfl, hbefore, _, hvar⟩
  · exact hknown us h
  · have hinside : Known (name :: inside) := hvar.known fun _ _ hv => DerivesVar.known hv
    exact known_append.2 ⟨hknown before hbefore, hinside⟩

/-! ## Faults -/

/-- From the first token to any of them. -/
theorem Span.From.opening {t u : Token} {ts : List Token} (h : u ∈ t :: ts) :
    (t.span.through u.span).From (t :: ts) := by
  obtain ⟨k, hk⟩ := List.mem_iff_getElem?.1 h
  exact ⟨0, k, t, u, Nat.zero_le k, rfl, hk, rfl⟩

/-- A fault is found from a token to the same or a later one, or there are no more tokens and
all of them are known. -/
theorem readFunctions_faults {taken : List String} {ts : List Token} {f : SyntaxFault}
    (h : readFunctions taken ts = .error f) :
    (∃ s, f.span = some s ∧ s.From ts) ∨ (Known ts ∧ ∃ wanted, f = ⟨.endOfInput wanted, none⟩) := by
  obtain ⟨used, rest, rfl, hat, hused, _⟩ := readFunctions_stops h
  cases rest with
  | nil =>
      have hknown : Known used := hused.known fun _ hopens =>
        hopens.known fun _ _ hdefines => hdefines.1.known
      exact .inr ⟨by rwa [List.append_nil], hat⟩
  | cons t more =>
      obtain ⟨u, hu, hspan⟩ := hat
      have hfrom := (Span.From.opening hu).mono (List.sublist_append_right used (t :: more))
      exact .inl ⟨_, hspan, hfrom⟩

/-- **Where the parser reports a fault.**  It is at a span of the tokens.  For want of tokens
it is behind the last one, and then there is one and all of them are known. -/
theorem parse_faults {ts : List Token} {file : Option String} {d : Diagnostic}
    (h : Program.parse ts file = .error d) :
    d.file = file ∧ ((∃ s, d.span = some s ∧ s.From ts) ∨
      ∃ wanted last, Known ts ∧ d.message = (SyntaxCause.endOfInput wanted).message ∧
        ts.getLast? = some last ∧ d.span = some last.span.atStop) := by
  obtain ⟨f, hf, rfl⟩ := parse_eq_error h
  refine ⟨rfl, ?_⟩
  rcases readFunctions_faults hf with ⟨s, hspan, hfrom⟩ | ⟨hknown, wanted, rfl⟩
  · exact .inl ⟨s, SyntaxFault.span_placed hspan ts, hfrom⟩
  · obtain ⟨last, hlast⟩ := readFunctions_last hf
    have hspan := SyntaxFault.span_placed_behind (.endOfInput wanted) hlast
    exact .inr ⟨wanted, last, hknown, rfl, hlast, hspan⟩

end Slate
