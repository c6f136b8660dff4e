import Slate.Proofs.Grammar.Known
import Slate.Proofs.Grammar.Sealed
import Slate.Proofs.Token.Classified
import Slate.Proofs.Token.Resumed
import Slate.Proofs.Tree.Relocated

/-!
# Programs one below the other

A source is a sequence of definitions, and so are two of them, one below the other with a
newline between them.

A newline ends whatever stands before it but a string: numbers and words end there, a sign
takes no second one from the next line, and a comment is closed.  So when a text has no
unknown token, and with it no quote that is left open, the tokens of the text with another
one below it are the tokens of the first text and those of the second one, moved by whole
lines (`tokensOf_below`).

No definition looks behind its last token (`readFunctions_append`), and moving a source moves
what is read from it (`readFunctions_relocated`).  What is left are the names: those of the
first source are taken in the second one.  So two programs make one if no name is defined in
both, and the functions of the second one stand some lines further down (`sources_join`).
-/

namespace Slate

/-! ## Whole lines -/

/-- The position that many lines further down. -/
def Position.below (lines : Nat) (p : Position) : Position := ⟨p.line + lines, p.column⟩

/-- Behind a text and a newline, places are those of a text of its own, some lines further
down. -/
theorem Position.moved_behind_newline (passed : List Char) :
    moved (behind (passed ++ ['\n'])) = below (passed.count '\n' + 1) := by
  funext p
  obtain ⟨line, column⟩ := p
  have hbehind : behind (passed ++ ['\n']) = ⟨1 + (passed.count '\n' + 1), 1⟩ := by
    simp [behind]
  unfold moved below
  rw [hbehind]
  split
  · next hfirst =>
    obtain rfl : line = 1 := hfirst
    simp
  · simp only [mk.injEq, and_true]
    omega

/-! ## What a newline ends -/

/-- A newline behind the text, and more behind it, does not change how the text starts for
anything that does not take a newline. -/
theorem head?_newline {after : List Char} (more : List Char) {P : Char → Prop}
    (h : ∀ d, after.head? = some d → P d) (hnewline : P '\n') :
    ∀ d, (after ++ '\n' :: more).head? = some d → P d := by
  intro d hd
  cases after with
  | nil =>
      cases hd
      exact hnewline
  | cons c after => exact h d hd

/-- A known lexeme of its kind is one with a newline behind the text as well. -/
theorem Lexeme.Classified.newline {x : Lexeme} {after : List Char} (h : x.Classified after)
    (hknown : x.kind ≠ .unknown) (more : List Char) :
    x.Classified (after ++ '\n' :: more) := by
  have halone : after.head? ≠ some '=' → (after ++ '\n' :: more).head? ≠ some '=' := by
    intro hsign hhead
    refine head?_newline more (P := (· ≠ '=')) ?_ (by decide) '=' hhead rfl
    rintro d hd rfl
    exact hsign hd
  cases h with
  | mark known => exact .mark known
  | assign alone => exact .assign (halone alone)
  | equal => exact .equal
  | not alone => exact .not (halone alone)
  | notEqual => exact .notEqual
  | string unquoted => exact .string unquoted
  | number digits longest => exact .number digits (head?_newline more longest (by decide))
  | keyword first others longest known =>
      exact .keyword first others (head?_newline more longest (by decide)) known
  | identifier first others longest other =>
      exact .identifier first others (head?_newline more longest (by decide)) other
  | unknown _ _ _ => exact (hknown rfl).elim
  | unterminated _ => exact (hknown rfl).elim

/-- Trivia to the end of a text is trivia within another text once a newline follows. -/
theorem Trivia.newline {gap : List Char} (h : Trivia true gap) : Trivia false (gap ++ ['\n']) := by
  induction h with
  | nil => exact .blank (by decide) .nil
  | blank is _ ih => exact .blank is ih
  | @comment body more oneLine _ ih =>
      rw [List.cons_append, List.cons_append, List.append_assoc, List.cons_append]
      exact .comment oneLine ih
  | @lastComment body oneLine _ => exact .comment oneLine .nil

namespace Cursor

/-- Trivia is passed. -/
theorem tokens_trivia {gap : List Char} (h : Trivia false gap) (passed text : List Char) :
    tokens ⟨gap ++ text, .behind passed⟩ = tokens ⟨text, .behind (passed ++ gap)⟩ := by
  have hnext : next ⟨gap ++ text, .behind passed⟩ = next ⟨text, .behind (passed ++ gap)⟩ := by
    unfold next
    rw [h.splitTrivia_append]
    rcases splitTrivia false text with ⟨trivia, _ | ⟨c, left⟩⟩
    · simp only [Position.afterAll_behind, List.append_assoc]
    · simp only [Position.afterAll_behind, List.append_assoc]
  rw [tokens_eq, hnext, ← tokens_eq]

/-- **A newline separates.**  If all tokens up to a newline are known, reading through it
goes on behind it. -/
theorem tokens_newline {passed text : List Char} (more : List Char)
    (hknown : ∀ t ∈ tokens ⟨text, .behind passed⟩, t.kind ≠ .unknown) :
    tokens ⟨text ++ '\n' :: more, .behind passed⟩ =
      tokens ⟨text, .behind passed⟩ ++ tokens ⟨more, .behind (passed ++ text ++ ['\n'])⟩ := by
  cases hnext : next ⟨text, .behind passed⟩ with
  | mk t? there =>
      rw [tokens_eq ⟨text, _⟩, hnext] at hknown ⊢
      cases t? with
      | none =>
          have htrivia : Trivia true text := trivia_of_next hnext
          have hpassed := tokens_trivia htrivia.newline passed more
          rw [List.append_assoc text, ← List.append_assoc passed] at hpassed
          exact hpassed
      | some t =>
          have hshorter := next_length_lt hnext
          obtain ⟨gap, htrivia, htext, _, hstands, hthere⟩ := next_eq_some hnext rfl
          obtain ⟨left, position⟩ := there
          obtain rfl : position = _ := hthere
          obtain rfl : text = gap ++ t.written ++ left := htext
          obtain ⟨hfirst, hothers⟩ := List.forall_mem_cons.1 hknown
          have hlater := tokens_newline more hothers
          have hclassified := (classified_of_next hnext).newline hfirst more
          rw [List.append_assoc _ left, tokens_eq, next_of_classified htrivia hstands hclassified]
          simp only [List.append_assoc] at hlater ⊢
          rw [hlater]
          rfl
termination_by text.length

end Cursor

/-- **Tokens of a text with another one below it.**  If all tokens of the first text are
known, they are followed by those of the second one, which stand as many lines further down as
the first text and the newline behind it take. -/
theorem tokensOf_below {a : String} (b : String) (hknown : ∀ t ∈ tokensOf a, t.kind ≠ .unknown) :
    tokensOf (a ++ "\n" ++ b) =
      tokensOf a ++ (tokensOf b).map (Token.relocated (.below (a.toList.count '\n' + 1))) := by
  have htext : (a ++ "\n" ++ b).toList = a.toList ++ '\n' :: b.toList := by
    simp
  have hmoved : Cursor.tokens ⟨b.toList, .behind (a.toList ++ ['\n'])⟩ =
      (tokensOf b).map (Token.relocated (.below (a.toList.count '\n' + 1))) := by
    rw [Cursor.tokens_eq_moved, String.ofList_toList, ← Position.moved_behind_newline]
    rfl
  have hjoined : Cursor.tokens ⟨a.toList ++ '\n' :: b.toList, .behind []⟩ = _ :=
    Cursor.tokens_newline b.toList hknown
  rw [tokensOf, Cursor.ofText, htext]
  exact hjoined.trans (congrArg (tokensOf a ++ ·) hmoved)

/-! ## Programs -/

/-- A program has no unknown token. -/
theorem parse_known {ts : List Token} {file : Option String} {p : Program}
    (h : Program.parse ts file = .ok p) : Known ts := by
  obtain ⟨ds, hds, _⟩ := parse_derivable h
  exact hds.known

/-- What is read of the second of two sources. -/
theorem readFunctions_below {taken : List String} {ts : List Token} {gs : List Function}
    (move : Position → Position) (h : readFunctions [] ts = .ok gs) (fs : List Function) :
    readFunctions taken (ts.map (Token.relocated move)) = .ok fs ↔
      (∀ g ∈ gs, g.name ∉ taken) ∧ fs = gs.map (Function.relocated move) := by
  rw [readFunctions_relocated]
  constructor
  · intro hread
    cases hgs : readFunctions taken ts with
    | error f =>
        rw [hgs] at hread
        cases hread
    | ok gs' =>
        rw [hgs] at hread
        obtain ⟨_, hfresh⟩ := readFunctions_names hgs
        have hsame := readFunctions_of_taken hgs fun _ _ => List.not_mem_nil
        obtain rfl : gs = gs' := Except.ok.inj (h.symm.trans hsame)
        exact ⟨hfresh, (Except.ok.inj hread).symm⟩
  · rintro ⟨hfree, rfl⟩
    rw [readFunctions_of_taken h hfree]
    rfl

/-- **Two sources, one below the other.**  If both are programs, their text with a newline
between them is a program exactly if no function is defined in both.  Its functions are then
those of the first one as they are, and behind them those of the second one, every line of
which is counted on by the newlines of the first source and the one between them. -/
theorem sources_join {a b : String} {fileA fileB : Option String} {p q : Program}
    (ha : Program.parse (tokensOf a) fileA = .ok p)
    (hb : Program.parse (tokensOf b) fileB = .ok q) (file : Option String) (r : Program) :
    Program.parse (tokensOf (a ++ "\n" ++ b)) file = .ok r ↔
      (∀ f ∈ p.functions, ∀ g ∈ q.functions, f.name ≠ g.name) ∧
      r = ⟨p.functions ++ q.functions.map fun g =>
        g.relocated (.below (a.toList.count '\n' + 1)), file⟩ := by
  obtain ⟨hp, _⟩ := parse_eq_ok.1 ha
  obtain ⟨hq, _⟩ := parse_eq_ok.1 hb
  have hdisjoint : (∀ g ∈ q.functions, g.name ∉ (p.functions.map Function.name).reverse ++ []) ↔
      ∀ f ∈ p.functions, ∀ g ∈ q.functions, f.name ≠ g.name := by
    simp only [List.append_nil, List.mem_reverse, List.mem_map, not_exists, not_and]
    exact ⟨fun h f hf g hg => h g hg f hf, fun h g hg f hf => h f hf g hg⟩
  obtain ⟨functions, file'⟩ := r
  rw [parse_eq_ok, tokensOf_below b (parse_known ha), readFunctions_append hp, ← hdisjoint,
    Program.mk.injEq, ← and_assoc]
  refine and_congr ?_ Iff.rfl
  constructor
  · intro hread
    cases hbelow : readFunctions ((p.functions.map Function.name).reverse ++ [])
        ((tokensOf b).map (Token.relocated (.below (a.toList.count '\n' + 1)))) with
    | error f =>
        rw [hbelow] at hread
        cases hread
    | ok fs =>
        rw [hbelow] at hread
        obtain ⟨hfree, rfl⟩ := (readFunctions_below _ hq fs).1 hbelow
        exact ⟨hfree, (Except.ok.inj hread).symm⟩
  · rintro ⟨hfree, rfl⟩
    rw [(readFunctions_below _ hq _).2 ⟨hfree, rfl⟩]
    rfl

/-- A text that ends in a comment. -/
def commentedSource : String := "i32 one() \x7b\n  return 1;\n\x7d // one"

/-- A text that starts with a line break. -/
def loweredSource : String := "\ni32 twice(n: i32) \x7b return n + n; \x7d"

/-- A text that ends in a comment, and one that starts with a line break: the newline between
them closes the comment, and `twice` has gone down by three lines. -/
theorem sources_join_comment :
    ∃ p q, Program.parse (tokensOf commentedSource) none = .ok p ∧
      Program.parse (tokensOf loweredSource) none = .ok q ∧
      (∀ f ∈ p.functions, ∀ g ∈ q.functions, f.name ≠ g.name) ∧
      q.functions.map Function.span = [⟨⟨2, 1⟩, ⟨2, 18⟩⟩] ∧
      Program.parse (tokensOf (commentedSource ++ "\n" ++ loweredSource)) none =
        .ok ⟨p.functions ++ q.functions.map fun g => g.relocated (.below 3), none⟩ := by
  have hcheck : (Program.parse (tokensOf commentedSource) none).toOption.any (fun p =>
        (Program.parse (tokensOf loweredSource) none).toOption.any fun q =>
            decide ((∀ f ∈ p.functions, ∀ g ∈ q.functions, f.name ≠ g.name) ∧
              q.functions.map Function.span = [⟨⟨2, 1⟩, ⟨2, 18⟩⟩])) = true := by
    decide +kernel
  have hlines : commentedSource.toList.count '\n' + 1 = 3 := by
    decide +kernel
  obtain ⟨p, hp, hcheck⟩ := (Option.any_eq_true _ _).1 hcheck
  obtain ⟨q, hq, hcheck⟩ := (Option.any_eq_true _ _).1 hcheck
  have hp := toOption_eq_some.1 hp
  have hq := toOption_eq_some.1 hq
  obtain ⟨hdisjoint, hspans⟩ := of_decide_eq_true hcheck
  have hjoined := (sources_join hp hq none _).2 ⟨hdisjoint, rfl⟩
  rw [hlines] at hjoined
  exact ⟨p, q, hp, hq, hdisjoint, hspans, hjoined⟩

end Slate
