import Slate.Token.Cursor

/-!
# Tokens tile their source

A source text is its lexemes with gaps between them: gap, lexeme, gap, lexeme, and so on,
and a last gap.  Gaps hold trivia and nothing else.  What is written of a token is its
text, or its text between double quotes, so the lexemes can be told from the tokens.

A token says where its lexeme stands.  The position behind a stretch of text counts the
newlines in it and the characters after the last of them (`Position.behind`); no reading
of tokens comes into this.  The span of a token runs from the position behind everything
before its lexeme to the position behind its lexeme, however many comments, strings over
several lines or unknown characters stand before it.

`Laid passed ts left` says this of the tokens from a place on: `passed` is the text before
that place and `left` the text from there.  The tokens from a cursor on are laid
(`Cursor.laid_tokens`), and the statement about whole texts (`tokens_tile`) reads the gaps
off.
-/

namespace Slate

/-! ## Positions -/

/-- The position behind a text: a line for every newline, and a column for every character
after the last one. -/
def Position.behind (passed : List Char) : Position :=
  ⟨1 + passed.count '\n', 1 + (passed.reverse.takeWhile (· ≠ '\n')).length⟩

/-- One character more moves the position by one. -/
theorem Position.behind_concat (passed : List Char) (c : Char) :
    behind (passed ++ [c]) = (behind passed).after c := by
  by_cases h : c = '\n'
  · subst h
    simp [behind, after]
    omega
  · simp [behind, after, h]
    omega

/-- Passing characters one after the other leads to the position behind them. -/
theorem Position.afterAll_behind (passed more : List Char) :
    (behind passed).afterAll more = behind (passed ++ more) := by
  induction more generalizing passed with
  | nil => simp
  | cons c more ih =>
      rw [afterAll_cons, ← behind_concat, ih, List.append_assoc, List.singleton_append]

/-! ## Trivia -/

/-- Blank characters, and comments with the newlines that end them.  Where the text ends,
the last comment needs no newline. -/
inductive Trivia (atEnd : Bool) : List Char → Prop
  | nil : Trivia atEnd []
  | blank {c : Char} {more : List Char} (is : Text.isBlank c = true)
      (others : Trivia atEnd more) : Trivia atEnd (c :: more)
  | comment {body more : List Char} (oneLine : '\n' ∉ body) (others : Trivia atEnd more) :
      Trivia atEnd ('/' :: '/' :: (body ++ '\n' :: more))
  | lastComment {body : List Char} (oneLine : '\n' ∉ body) (ends : atEnd = true) :
      Trivia atEnd ('/' :: '/' :: body)

/-- Inside a comment, what is passed are the rest of the comment and the trivia behind it. -/
def InComment (atEnd : Bool) (passed : List Char) : Prop :=
  ('\n' ∉ passed ∧ atEnd = true) ∨
    ∃ body more, passed = body ++ '\n' :: more ∧ '\n' ∉ body ∧ Trivia atEnd more

/-- A character that ends no line stays in a comment. -/
theorem InComment.cons {atEnd : Bool} {c : Char} {passed : List Char} (hc : c ≠ '\n')
    (h : InComment atEnd passed) : InComment atEnd (c :: passed) := by
  rcases h with ⟨hno, hend⟩ | ⟨body, more, rfl, hno, hmore⟩
  · exact .inl ⟨by simp [Ne.symm hc, hno], hend⟩
  · exact .inr ⟨c :: body, more, rfl, by simp [Ne.symm hc, hno], hmore⟩

/-- A comment behind its slashes is trivia. -/
theorem InComment.trivia {atEnd : Bool} {passed : List Char} (h : InComment atEnd passed) :
    Trivia atEnd ('/' :: '/' :: passed) := by
  rcases h with ⟨hno, hend⟩ | ⟨body, more, rfl, hno, hmore⟩
  · exact .lastComment hno hend
  · exact .comment hno hmore

/-- What is cut off as trivia is trivia; it ends with the text when no text is left. -/
theorem trivia_splitTrivia (inComment : Bool) (cs : List Char) :
    if inComment then
      InComment (splitTrivia inComment cs).2.isEmpty (splitTrivia inComment cs).1
    else Trivia (splitTrivia inComment cs).2.isEmpty (splitTrivia inComment cs).1 := by
  fun_induction splitTrivia inComment cs with
  | case1 inComment =>
      cases inComment with
      | false => exact .nil
      | true => exact .inl ⟨by simp, rfl⟩
  | case2 c rest trivia left heq ih =>
      rw [heq] at ih
      by_cases hc : c = '\n'
      · subst hc
        exact .inr ⟨[], trivia, rfl, by simp, by simpa using ih⟩
      · simp only [hc, ne_eq, not_false_eq_true, decide_true, if_true] at ih
        exact ih.cons hc
  | case3 rest trivia left heq ih =>
      rw [heq] at ih
      exact ih.trivia
  | case4 c rest hslash hblank trivia left heq ih =>
      rw [heq] at ih
      exact .blank hblank (by simpa using ih)
  | case5 c rest hslash hblank => exact .nil

/-- Two slashes begin a comment. -/
theorem splitTrivia_slashes (rest : List Char) :
    splitTrivia false ('/' :: '/' :: rest) =
      ('/' :: '/' :: (splitTrivia true rest).1, (splitTrivia true rest).2) :=
  rfl

/-- Inside a comment everything is passed, and the end of the line ends it. -/
theorem splitTrivia_inside (c : Char) (rest : List Char) :
    splitTrivia true (c :: rest) =
      (c :: (splitTrivia (c ≠ '\n') rest).1, (splitTrivia (c ≠ '\n') rest).2) :=
  rfl

/-- Inside a comment, everything through the next newline is cut off. -/
theorem splitTrivia_comment {body : List Char} (h : '\n' ∉ body) (rest : List Char) :
    splitTrivia true (body ++ '\n' :: rest) =
      (body ++ '\n' :: (splitTrivia false rest).1, (splitTrivia false rest).2) := by
  induction body with
  | nil => exact splitTrivia_inside '\n' rest
  | cons c body ih =>
      rw [List.mem_cons, not_or] at h
      obtain ⟨hc, hbody⟩ := h
      rw [List.cons_append, splitTrivia_inside, decide_eq_true (Ne.symm hc), ih hbody]
      rfl

/-- A comment without an end of line goes to the end of the source. -/
theorem splitTrivia_lastComment {body : List Char} (h : '\n' ∉ body) :
    splitTrivia true body = (body, []) := by
  induction body with
  | nil => rfl
  | cons c body ih =>
      rw [List.mem_cons, not_or] at h
      obtain ⟨hc, hbody⟩ := h
      rw [splitTrivia_inside, decide_eq_true (Ne.symm hc), ih hbody]

/-- Where no comment starts, a character is cut off if it is blank. -/
theorem splitTrivia_other {c : Char} {rest : List Char} (h : c = '/' → rest.head? ≠ some '/') :
    splitTrivia false (c :: rest) =
      if Text.isBlank c then (c :: (splitTrivia false rest).1, (splitTrivia false rest).2)
      else ([], c :: rest) := by
  rw [splitTrivia.eq_def]
  split
  · next heq => cases heq
  · next hinside _ => cases hinside
  · next heq =>
    cases heq
    exact (h rfl rfl).elim
  · next heq =>
    cases heq
    rfl

/-- A blank is cut off. -/
theorem splitTrivia_blank {c : Char} (h : Text.isBlank c = true) (rest : List Char) :
    splitTrivia false (c :: rest) =
      (c :: (splitTrivia false rest).1, (splitTrivia false rest).2) := by
  have hslash : c ≠ '/' := by
    rintro rfl
    exact absurd h (by decide)
  rw [splitTrivia_other fun heq => (hslash heq).elim, if_pos h]

/-- All of the trivia is cut off, and what else starts the text behind it. -/
theorem Trivia.splitTrivia_append {gap : List Char} (h : Trivia false gap) (rest : List Char) :
    splitTrivia false (gap ++ rest) =
      (gap ++ (splitTrivia false rest).1, (splitTrivia false rest).2) := by
  induction h with
  | nil => rfl
  | blank is _ ih => simp [splitTrivia_blank is, ih]
  | comment oneLine _ ih => simp [splitTrivia_slashes, splitTrivia_comment oneLine, ih]
  | lastComment _ ends => cases ends

/-- A text that is trivia is cut off whole. -/
theorem Trivia.splitTrivia_eq {atEnd : Bool} {gap : List Char} (h : Trivia atEnd gap) :
    splitTrivia false gap = (gap, []) := by
  induction h with
  | nil => rfl
  | blank is _ ih => simp [splitTrivia_blank is, ih]
  | comment oneLine _ ih => simp [splitTrivia_slashes, splitTrivia_comment oneLine, ih]
  | lastComment oneLine _ => simp [splitTrivia_slashes, splitTrivia_lastComment oneLine]

/-! ## Lexemes -/

/-- What is written of a token in its source. -/
def Token.written (t : Token) : List Char :=
  if t.kind = .string then '"' :: t.text.toList ++ ['"'] else t.text.toList

/-- No mark is a string. -/
theorem Lexeme.markKind?_ne_string (c : Char) : markKind? c ≠ some .string := by
  unfold markKind?
  split <;> simp

/-- Nor is a word. -/
theorem Lexeme.wordKind_ne_string (word : List Char) : wordKind word ≠ .string := by
  unfold wordKind
  split <;> simp

/-- The text of a lexeme is all of it, or what stands between its quotes. -/
theorem Lexeme.written_cut (c : Char) (rest : List Char) :
    (cut c rest).1.written =
      if (cut c rest).1.kind = .string then '"' :: (cut c rest).1.text ++ ['"']
      else (cut c rest).1.text := by
  unfold cut
  split
  · next kind hkind =>
    have hne : kind ≠ .string := by
      rintro rfl
      exact markKind?_ne_string c hkind
    simp [whole, hne]
  · split
    · split <;> simp [whole]
    · split
      · split <;> simp [whole]
      · split
        · split <;> simp [whole]
        · split
          · simp [whole]
          · split
            · simp [whole, wordKind_ne_string]
            · simp [whole]

/-- The span of the token is where its lexeme stands, when the text `before` is in front
of it. -/
def Token.StandsBehind (t : Token) (before : List Char) : Prop :=
  t.span = ⟨.behind before, .behind (before ++ t.written)⟩

/-! ## Tokens from a place on -/

/-- Without a token, what is left is trivia. -/
theorem Cursor.trivia_of_next {here there : Cursor} (h : here.next = (none, there)) :
    Trivia true here.rest := by
  have hpieces := splitTrivia_append false here.rest
  have htrivia := trivia_splitTrivia false here.rest
  unfold next at h
  split at h
  · next trivia hsplit =>
    rw [hsplit] at hpieces htrivia
    rw [← hpieces, List.append_nil]
    exact htrivia
  · cases h

/-- In front of trivia there is no token, and everything is passed. -/
theorem Cursor.next_of_trivia {here : Cursor} (h : Trivia true here.rest) :
    here.next = (none, ⟨[], here.position.afterAll here.rest⟩) := by
  unfold next
  rw [h.splitTrivia_eq]

/-- The next token stands behind a gap, at the span that it says, and reading goes on behind
it. -/
theorem Cursor.next_eq_some {here there : Cursor} {t : Token} {passed : List Char}
    (h : here.next = (some t, there)) (hposition : here.position = .behind passed) :
    ∃ gap, Trivia false gap ∧ here.rest = gap ++ t.written ++ there.rest ∧ t.written ≠ [] ∧
      t.StandsBehind (passed ++ gap) ∧ there.position = .behind (passed ++ gap ++ t.written) := by
  have hpieces := splitTrivia_append false here.rest
  have htrivia := trivia_splitTrivia false here.rest
  unfold next at h
  split at h
  · cases h
  · next gap c rest hsplit =>
    rw [hsplit] at hpieces htrivia
    have hcut := Lexeme.cut_append c rest
    have hwritten := Lexeme.written_cut c rest
    have hhead := Lexeme.cut_written_head c rest
    generalize Lexeme.cut c rest = pair at h hcut hwritten hhead
    obtain ⟨lexeme, left⟩ := pair
    simp only [Prod.mk.injEq, Option.some.injEq] at h hcut hwritten hhead
    obtain ⟨rfl, rfl⟩ := h
    obtain ⟨more, hhead⟩ := hhead
    refine ⟨gap, htrivia, ?_⟩
    simp only [Token.StandsBehind, Token.written, String.toList_ofList, ← hwritten, hposition,
      Position.afterAll_behind, List.append_assoc, hcut, and_true]
    exact ⟨hpieces.symm, by simp [hhead]⟩

/-- The text that is left behind `passed` holds the tokens, with trivia between them, at the
spans that they say. -/
inductive Laid : List Char → List Token → List Char → Prop
  | finish {passed gap : List Char} (trivia : Trivia true gap) : Laid passed [] gap
  | token {passed gap left : List Char} {t : Token} {ts : List Token}
      (trivia : Trivia false gap) (visible : t.written ≠ [])
      (stands : t.StandsBehind (passed ++ gap))
      (others : Laid (passed ++ gap ++ t.written) ts left) :
      Laid passed (t :: ts) (gap ++ t.written ++ left)

/-- The tokens from a cursor on are laid where it stands. -/
theorem Cursor.laid_tokens (here : Cursor) {passed : List Char}
    (hposition : here.position = .behind passed) : Laid passed here.tokens here.rest := by
  rw [tokens_eq]
  cases hnext : here.next with
  | mk t? there =>
      cases t? with
      | none => exact .finish (trivia_of_next hnext)
      | some t =>
          have hshorter := next_length_lt hnext
          obtain ⟨gap, htrivia, hrest, hvisible, hstands, hthere⟩ := next_eq_some hnext hposition
          rw [hrest]
          exact .token htrivia hvisible hstands (there.laid_tokens hthere)
termination_by here.rest.length

/-! ## Whole texts -/

/-- Gaps and tokens in turn, as they are written. -/
def laidOut (gaps : List (List Char)) (ts : List Token) : List Char :=
  (List.zipWith (fun gap t => gap ++ t.written) gaps ts).flatten

@[simp] theorem laidOut_nil (ts : List Token) : laidOut [] ts = [] := rfl

@[simp] theorem laidOut_cons (gap : List Char) (gaps : List (List Char)) (t : Token)
    (ts : List Token) : laidOut (gap :: gaps) (t :: ts) = gap ++ t.written ++ laidOut gaps ts :=
  rfl

/-- The tokens, with the gaps between them and the last gap behind them, are the text that is
left behind `passed`. -/
structure Tiles (passed : List Char) (gaps : List (List Char)) (ts : List Token)
    (last text : List Char) : Prop where
  count : gaps.length = ts.length
  whole : text = laidOut gaps ts ++ last
  trivia : ∀ gap ∈ gaps, Trivia false gap
  lastTrivia : Trivia true last
  stands : ∀ (i : Nat) (gap : List Char) (t : Token), gaps[i]? = some gap → ts[i]? = some t →
    t.StandsBehind (passed ++ laidOut (gaps.take i) (ts.take i) ++ gap)

namespace Tiles

variable {passed gap last text : List Char} {gaps : List (List Char)} {t : Token} {ts : List Token}

/-- A text without a token. -/
theorem nil (trivia : Trivia true last) : Tiles passed [] [] last last :=
  ⟨rfl, rfl, List.forall_mem_nil _, trivia, by simp⟩

/-- A token in front of others. -/
theorem cons (trivia : Trivia false gap) (stands : t.StandsBehind (passed ++ gap))
    (others : Tiles (passed ++ gap ++ t.written) gaps ts last text) :
    Tiles passed (gap :: gaps) (t :: ts) last (gap ++ t.written ++ text) := by
  obtain ⟨hcount, rfl, htrivia, hlast, hstands⟩ := others
  refine ⟨by simp [hcount], by simp, ?_, hlast, ?_⟩
  · exact List.forall_mem_cons.2 ⟨trivia, htrivia⟩
  · intro i gap' t' hgap ht
    cases i with
    | zero =>
        cases hgap
        cases ht
        simpa using stands
    | succ i => simpa using hstands i gap' t' hgap ht

/-- The tokens behind the first one. -/
theorem tail (h : Tiles passed (gap :: gaps) (t :: ts) last text) :
    Tiles (passed ++ gap ++ t.written) gaps ts last (laidOut gaps ts ++ last) := by
  refine ⟨Nat.succ.inj h.count, rfl, fun other hother => h.trivia other (.tail gap hother),
    h.lastTrivia, ?_⟩
  intro i other u hother hu
  simpa using h.stands (i + 1) other u hother hu

end Tiles

/-- Laid tokens tile the text. -/
theorem Laid.tiles {passed text : List Char} {ts : List Token} (h : Laid passed ts text) :
    ∃ gaps last, Tiles passed gaps ts last text := by
  induction h with
  | @finish passed gap trivia => exact ⟨[], gap, .nil trivia⟩
  | @token passed gap left t ts trivia visible stands others ih =>
      obtain ⟨gaps, last, hothers⟩ := ih
      exact ⟨gap :: gaps, last, hothers.cons trivia stands⟩

/-- **Tokens tile their source.**  A source is gaps and lexemes in turn, and a last gap.
Gaps are trivia, and the span of each token is where its lexeme stands. -/
theorem tokens_tile (source : String) :
    ∃ gaps last, Tiles [] gaps (tokensOf source) last source.toList :=
  ((Cursor.ofText source).laid_tokens rfl).tiles

/-- A comment with its newline, a string over two lines, a character that is not ASCII, and a
comment at the end. -/
example : (tokensOf "é //\n\"a\nb\" // c").map (fun t => (t.written, t.span)) =
    [(['é'], ⟨⟨1, 1⟩, ⟨1, 2⟩⟩), (['"', 'a', '\n', 'b', '"'], ⟨⟨2, 1⟩, ⟨3, 3⟩⟩)] := by
  decide +kernel

end Slate
