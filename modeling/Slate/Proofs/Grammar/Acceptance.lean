import Slate.Proofs.Grammar.AsRead
import Slate.Proofs.Grammar.FunctionDerivations
import Slate.Token.Cursor

/-!
# The parser accepts exactly its grammar

A token sequence is read as a program when it is derivable from the grammar and
satisfies what no derivation can express: names of functions are distinct and none
is the name of the system call, names of arguments are distinct within one
function, and numbers fit.

The documented production lets every definition end in a block or in a semicolon.
The parser is stricter: a builtin has to end in a semicolon, and any other function
in a block (`Definition.Closed`).  The production alone therefore does not say what
is accepted; with this one further condition it does.

The derivation is the only one.  The readers are functions, so everything that they
read has one tree; what is left to show is that two derivations cannot cut the same
tokens differently into definitions.
-/

namespace Slate

/-- The side conditions on the definitions of a program. -/
structure Admissible (ds : List Definition) : Prop where
  distinct : (ds.map Definition.name).Nodup
  each : ∀ d ∈ ds, d.Admissible

/-! ## One derivation -/

/-- A variable is three tokens, which tell its name and its type. -/
theorem DerivesVar.tokens {ts : List Token} {v : Var} (h : DerivesVar ts v) :
    ∃ name colon type : Token, ts = [name, colon, type] ∧
      v = ⟨name.text, .named type.text⟩ := by
  cases h with
  | @typed name colon _ _ _ _ typing =>
      cases typing with
      | @name type _ => exact ⟨name, colon, type, rfl, rfl⟩

/-- Argument declarations are cut off at the parenthesis that closes them. -/
theorem DerivesParameters.unique {ts us : List Token} {vs ws : List Var}
    (h : DerivesParameters ts vs) (h' : DerivesParameters us ws) {c c' : Token}
    (hc : c.kind = .rightParen) (hc' : c'.kind = .rightParen) {rest other : List Token}
    (heq : ts ++ c :: rest = us ++ c' :: other) : vs = ws ∧ rest = other := by
  induction h generalizing us ws with
  | one declared =>
      obtain ⟨name, colon, type, rfl, rfl⟩ := declared.tokens
      cases h' with
      | one declared' =>
          obtain ⟨name', colon', type', rfl, rfl⟩ := declared'.tokens
          cases heq
          exact ⟨rfl, rfl⟩
      | more declared' separates' others' =>
          obtain ⟨name', colon', type', rfl, rfl⟩ := declared'.tokens
          simp only [List.cons_append, List.nil_append, List.cons.injEq] at heq
          obtain ⟨-, -, -, rfl, -⟩ := heq
          rw [hc] at separates'
          cases separates'
  | more declared separates others ih =>
      obtain ⟨name, colon, type, rfl, rfl⟩ := declared.tokens
      cases h' with
      | one declared' =>
          obtain ⟨name', colon', type', rfl, rfl⟩ := declared'.tokens
          simp only [List.cons_append, List.nil_append, List.cons.injEq] at heq
          obtain ⟨-, -, -, rfl, -⟩ := heq
          rw [hc'] at separates
          cases separates
      | more declared' separates' others' =>
          obtain ⟨name', colon', type', rfl, rfl⟩ := declared'.tokens
          simp only [List.cons_append, List.nil_append, List.cons.injEq] at heq
          obtain ⟨rfl, -, rfl, -, hmore⟩ := heq
          obtain ⟨rfl, hrest⟩ := ih others' hmore
          exact ⟨rfl, hrest⟩

/-- The list of the parameters ends where its parenthesis is closed. -/
theorem DerivesParameterList.unique {ts us : List Token} {vs ws : List Var}
    (h : DerivesParameterList ts vs) (h' : DerivesParameterList us ws) {c c' : Token}
    (hc : c.kind = .rightParen) (hc' : c'.kind = .rightParen) {rest other : List Token}
    (heq : ts ++ c :: rest = us ++ c' :: other) : vs = ws ∧ rest = other := by
  cases h with
  | none =>
      cases h' with
      | none =>
          cases heq
          exact ⟨rfl, rfl⟩
      | some parameters' =>
          obtain ⟨t, us, rfl, hk⟩ := parameters'.starts
          cases heq
          rw [hc] at hk
          cases hk
  | some parameters =>
      cases h' with
      | none =>
          obtain ⟨t, us, rfl, hk⟩ := parameters.starts
          cases heq
          rw [hc'] at hk
          cases hk
      | some parameters' => exact parameters.unique parameters' hc hc' heq

/-- A block is read, so it has one end and one tree. -/
theorem DerivesBlock.unique {ts us : List Token} {body body' : List Stmt}
    (h : DerivesBlock ts body) (h' : DerivesBlock us body') (hfit : NumbersFit ts)
    (hfit' : NumbersFit us) {rest other : List Token} (heq : ts ++ rest = us ++ other) :
    body = body' ∧ rest = other := by
  obtain ⟨read, close, hbody, hread⟩ := block_reads h hfit rest
  obtain ⟨read', close', hbody', hread'⟩ := block_reads h' hfit' other
  rw [← heq] at hread'
  obtain ⟨hpair, hrest⟩ := hread.unique hread'
  cases hpair
  exact ⟨hbody.symm.trans hbody', hrest⟩

/-- A body ends in one place. -/
theorem DerivesBody.unique {ts us : List Token} {ending ending' : Option (List Stmt)}
    (h : DerivesBody ts ending) (h' : DerivesBody us ending') (hfit : NumbersFit ts)
    (hfit' : NumbersFit us) {rest other : List Token} (heq : ts ++ rest = us ++ other) :
    ending = ending' ∧ rest = other := by
  cases h with
  | block block =>
      cases h' with
      | block block' =>
          obtain ⟨rfl, hrest⟩ := block.unique block' hfit hfit' heq
          exact ⟨rfl, hrest⟩
      | semicolon kind' =>
          obtain ⟨opening, more, rfl, ho⟩ := block.starts
          cases heq
          rw [ho] at kind'
          cases kind'
  | semicolon kind =>
      cases h' with
      | block block' =>
          obtain ⟨opening, more, rfl, ho⟩ := block'.starts
          cases heq
          rw [ho] at kind
          cases kind
      | semicolon _ =>
          cases heq
          exact ⟨rfl, rfl⟩

/-- A definition has one end, and says one thing. -/
theorem DerivesFunction.unique {ts us : List Token} {d c : Definition}
    (h : DerivesFunction ts d) (h' : DerivesFunction us c) (hfit : NumbersFit ts)
    (hfit' : NumbersFit us) {rest other : List Token} (heq : ts ++ rest = us ++ other) :
    d = c ∧ rest = other := by
  cases h with
  | @parts name opening closing ms rs ps bs builtin result arguments body mark type kind opens
      parameters closes ending =>
  cases h' with
  | @parts name' opening' closing' ms' rs' ps' bs' builtin' result' arguments' body' mark' type'
      kind' opens' parameters' closes' ending' =>
  simp only [numbersFit_append, numbersFit_cons] at hfit hfit'
  obtain ⟨-, -, -, -, -, -, hbody⟩ := hfit
  obtain ⟨-, -, -, -, -, -, hbody'⟩ := hfit'
  cases type with
  | @name t tkind =>
  cases type' with
  | @name t' tkind' =>
  -- A definition starts with the keyword or with the name of a type.
  have hstart : builtin = builtin' ∧ t = t' ∧ name = name' ∧
      ps ++ closing :: (bs ++ rest) = ps' ++ closing' :: (bs' ++ other) := by
    cases mark with
    | absent =>
        cases mark' with
        | absent =>
            simp only [List.nil_append, List.cons_append, List.append_assoc,
              List.cons.injEq] at heq
            exact ⟨rfl, heq.1, heq.2.1, heq.2.2.2⟩
        | @present u' word' =>
            simp only [List.nil_append, List.cons_append, List.cons.injEq] at heq
            rw [heq.1, kind_of_isKeyword word'] at tkind
            cases tkind
    | @present u word =>
        cases mark' with
        | absent =>
            simp only [List.nil_append, List.cons_append, List.cons.injEq] at heq
            rw [← heq.1, kind_of_isKeyword word] at tkind'
            cases tkind'
        | @present u' word' =>
            simp only [List.nil_append, List.cons_append, List.append_assoc,
              List.cons.injEq] at heq
            exact ⟨rfl, heq.2.1, heq.2.2.1, heq.2.2.2.2⟩
  obtain ⟨rfl, rfl, rfl, hparameters⟩ := hstart
  obtain ⟨rfl, hending⟩ := parameters.unique parameters' closes closes' hparameters
  obtain ⟨rfl, hrest⟩ := ending.unique ending' hbody hbody' hending
  exact ⟨rfl, hrest⟩

/-- A function takes a token. -/
theorem DerivesFunction.ne_nil {ts : List Token} {d : Definition} (h : DerivesFunction ts d) :
    ts ≠ [] := by
  cases h with
  | parts => simp

/-- **One derivation.**  Tokens whose numbers fit stand for at most one sequence of
definitions. -/
theorem DerivesProgram.unique {ts : List Token} {ds cs : List Definition}
    (h : DerivesProgram ts ds) (h' : DerivesProgram ts cs) (hfit : NumbersFit ts) : ds = cs := by
  induction h generalizing cs with
  | nil =>
      generalize hts : ([] : List Token) = ts at h'
      cases h' with
      | nil => rfl
      | cons first' _ => exact (first'.ne_nil (List.append_eq_nil_iff.1 hts.symm).1).elim
  | @cons used more d ds first others ih =>
      generalize hts : used ++ more = ts at h'
      cases h' with
      | nil => exact (first.ne_nil (List.append_eq_nil_iff.1 hts).1).elim
      | @cons used' more' c cs first' others' =>
          rw [hts] at hfit
          have hfit' := hfit
          rw [← hts] at hfit
          obtain ⟨rfl, rfl⟩ := first.unique first' hfit.left hfit'.left hts
          rw [ih others' hfit.right]

/-! ## Acceptance -/

/-- Reading succeeds when the definitions are read to the end of the tokens. -/
theorem parse_eq_ok {ts : List Token} {file : Option String} {p : Program} :
    Program.parse ts file = .ok p ↔ readFunctions [] ts = .ok p.functions ∧ p.file = file := by
  unfold Program.parse
  cases readFunctions [] ts with
  | ok functions =>
      constructor
      · intro h
        cases h
        exact ⟨rfl, rfl⟩
      · intro h
        obtain ⟨hfunctions, hfile⟩ := h
        cases hfunctions
        rw [← hfile]
  | error f =>
      constructor
      · intro h
        cases h
      · intro h
        cases h.1

/-- What is read as a program is derived from all tokens, and it satisfies the side
conditions. -/
theorem parse_derivable {ts : List Token} {file : Option String} {p : Program}
    (h : Program.parse ts file = .ok p) :
    ∃ ds, DerivesProgram ts ds ∧ ds.map Definition.function = p.functions.map Function.spanless ∧
      Admissible ds ∧ (∀ d ∈ ds, d.Closed) ∧ NumbersFit ts := by
  obtain ⟨ds, hds, hmap, hnodup, heach, hfit⟩ := functions_derivable (parse_eq_ok.1 h).1
  exact ⟨ds, hds, hmap, ⟨hnodup, fun d hd => (heach d hd).2.1⟩, fun d hd => (heach d hd).2.2, hfit⟩

/-- What is derived and satisfies the side conditions is read as a program. -/
theorem parse_of_derives {ts : List Token} {ds : List Definition} (file : Option String)
    (h : DerivesProgram ts ds) (had : Admissible ds) (hclosed : ∀ d ∈ ds, d.Closed)
    (hfit : NumbersFit ts) : ∃ p, Program.parse ts file = .ok p := by
  have heach : ∀ d ∈ ds, d.name ∉ [] ∧ d.Admissible ∧ d.Closed :=
    fun d hd => ⟨List.not_mem_nil, had.each d hd, hclosed d hd⟩
  obtain ⟨fs, _, hfs⟩ := functions_read h had.distinct heach hfit
  exact ⟨⟨fs, file⟩, parse_eq_ok.2 ⟨hfs, rfl⟩⟩

/-- Every function that is read has been defined. -/
theorem definition_of_mem {ds : List Definition} {fs : List Function} {f : Function}
    (hmap : ds.map Definition.function = fs.map Function.spanless) (hf : f ∈ fs) :
    ∃ d ∈ ds, d.function = f.spanless :=
  List.mem_map.1 (hmap ▸ List.mem_map.2 ⟨f, hf, rfl⟩)

/-- Every function of a program that is read is as read. -/
theorem parse_asRead {ts : List Token} {file : Option String} {p : Program}
    (h : Program.parse ts file = .ok p) : ∀ f ∈ p.functions, f.AsRead := by
  obtain ⟨ds, hds, hmap, _⟩ := parse_derivable h
  intro f hf
  obtain ⟨d, hd, heq⟩ := definition_of_mem hmap hf
  exact Function.asRead_of_spanless (heq ▸ hds.asRead d hd)

/-- Functions that are read have distinct names, and none that was taken. -/
theorem readFunctions_names {taken : List String} {ts : List Token} {fs : List Function}
    (h : readFunctions taken ts = .ok fs) :
    (fs.map Function.name).Nodup ∧ ∀ f ∈ fs, f.name ∉ taken := by
  obtain ⟨ds, _, hmap, hnodup, heach, _⟩ := functions_derivable h
  have hnames : fs.map Function.name = ds.map Definition.name := by
    calc fs.map Function.name
        = (fs.map Function.spanless).map Function.name := by
          rw [List.map_map]; rfl
      _ = (ds.map Definition.function).map Function.name := by rw [hmap]
      _ = ds.map Definition.name := by rw [List.map_map]; rfl
  refine ⟨hnames ▸ hnodup, ?_⟩
  intro f hf
  obtain ⟨d, hd, heq⟩ := definition_of_mem hmap hf
  have hname : d.name = f.name := congrArg Function.name heq
  exact hname ▸ (heach d hd).1

/-- Names of functions are distinct and free in a program that is read, and names of
arguments are distinct. -/
theorem parse_names {ts : List Token} {file : Option String} {p : Program}
    (h : Program.parse ts file = .ok p) :
    (p.functions.map Function.name).Nodup ∧
      ∀ f ∈ p.functions, f.name ≠ syscallName ∧ (f.arguments.map Var.name).Nodup := by
  obtain ⟨ds, _, hmap, had, _⟩ := parse_derivable h
  refine ⟨(readFunctions_names (parse_eq_ok.1 h).1).1, ?_⟩
  intro f hf
  obtain ⟨d, hd, heq⟩ := definition_of_mem hmap hf
  have hname : d.name = f.name := congrArg Function.name heq
  have harguments : d.arguments = f.arguments := congrArg Function.arguments heq
  obtain ⟨hfree, hdistinct⟩ := had.each d hd
  exact ⟨hname ▸ hfree, harguments ▸ hdistinct⟩

/-- A builtin that is read has no statements. -/
theorem parse_builtin {ts : List Token} {file : Option String} {p : Program}
    (h : Program.parse ts file = .ok p) :
    ∀ f ∈ p.functions, f.builtin = true → f.body = [] := by
  obtain ⟨ds, _, hmap, _, hclosed, _⟩ := parse_derivable h
  intro f hf hbuiltin
  obtain ⟨d, hd, heq⟩ := definition_of_mem hmap hf
  have hbody : d.body.getD [] = spanlessBody f.body := congrArg Function.body heq
  have hmark : d.builtin = f.builtin := congrArg Function.builtin heq
  have hnone : d.body = none := by
    simpa [Definition.Closed, hmark, hbuiltin] using hclosed d hd
  rw [hnone] at hbody
  cases hstatements : f.body with
  | nil => rfl
  | cons s ss =>
      rw [hstatements] at hbody
      cases hbody

/-- The production for definitions does not say what is accepted: it derives a
function that is no builtin and has no body, and the parser refuses it. -/
theorem derivable_and_refused :
    (∃ ds, DerivesProgram (tokensOf "i32 f();") ds ∧ Admissible ds ∧
      NumbersFit (tokensOf "i32 f();")) ∧
    ¬ ∃ p, Program.parse (tokensOf "i32 f();") none = .ok p := by
  have htokens : tokensOf "i32 f();" =
      [⟨.identifier, "i32", ⟨⟨1, 1⟩, ⟨1, 4⟩⟩⟩, ⟨.identifier, "f", ⟨⟨1, 5⟩, ⟨1, 6⟩⟩⟩,
        ⟨.leftParen, "(", ⟨⟨1, 6⟩, ⟨1, 7⟩⟩⟩, ⟨.rightParen, ")", ⟨⟨1, 7⟩, ⟨1, 8⟩⟩⟩,
        ⟨.semicolon, ";", ⟨⟨1, 8⟩, ⟨1, 9⟩⟩⟩] := by
    decide +kernel
  have hfit : NumbersFit (tokensOf "i32 f();") := by
    rw [htokens]
    simp
  have hderives : DerivesProgram (tokensOf "i32 f();") [⟨false, .int, "f", [], none⟩] := by
    rw [htokens]
    exact .cons (.parts .absent (.name rfl) rfl rfl .none rfl (.semicolon rfl)) .nil
  have had : Admissible [⟨false, .int, "f", [], none⟩] :=
    ⟨by decide, List.forall_mem_cons.2 ⟨⟨by decide, by decide⟩, List.forall_mem_nil _⟩⟩
  refine ⟨⟨_, hderives, had, hfit⟩, ?_⟩
  intro hp
  obtain ⟨p, hp⟩ := hp
  obtain ⟨ds, hds, _, _, hclosed, _⟩ := parse_derivable hp
  rw [← hderives.unique hds hfit] at hclosed
  exact absurd (hclosed _ List.mem_cons_self) (by simp [Definition.Closed])

/-- **The parser accepts exactly its grammar.**  Tokens are read as a program when
they are derived from the grammar by definitions of which a builtin has no body and
any other function has one, and the side conditions hold.  The derivation is then
the only one, and the program is, up to spans, what it says, without recorded
variables, noted types and casts. -/
theorem parse_accepts_grammar (ts : List Token) (file : Option String) :
    ((∃ p, Program.parse ts file = .ok p) ↔
      ∃ ds, DerivesProgram ts ds ∧ Admissible ds ∧ (∀ d ∈ ds, d.Closed) ∧ NumbersFit ts) ∧
    ∀ p, Program.parse ts file = .ok p →
      p.file = file ∧ (∀ f ∈ p.functions, f.AsRead) ∧
      ∃ ds, DerivesProgram ts ds ∧ (∀ cs, DerivesProgram ts cs → cs = ds) ∧
        p.functions.map Function.spanless = ds.map Definition.function := by
  refine ⟨⟨?_, ?_⟩, ?_⟩
  · intro h
    obtain ⟨p, hp⟩ := h
    obtain ⟨ds, hds, _, had, hclosed, hfit⟩ := parse_derivable hp
    exact ⟨ds, hds, had, hclosed, hfit⟩
  · intro h
    obtain ⟨ds, hds, had, hclosed, hfit⟩ := h
    exact parse_of_derives file hds had hclosed hfit
  · intro p hp
    obtain ⟨ds, hds, hmap, _, _, hfit⟩ := parse_derivable hp
    exact ⟨(parse_eq_ok.1 hp).2, parse_asRead hp, ds, hds,
      fun cs hcs => hcs.unique hds hfit, hmap.symm⟩

end Slate
