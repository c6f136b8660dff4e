import Slate.Proofs.Token.Stretches

/-!
# The tokens of a text

Which tokens a text has can be said without reading it.  Gaps and lexemes in turn are the
text (`Tiles`), and every lexeme is one of its kind in front of the text that follows it
(`Lexeme.Classified`): a number is a run of digits that no digit follows, a word goes on as
long as it can, `=` and `!` have no `=` behind them unless they take it, a string holds no
quote, and what is unknown is a character that starts no token, or an opening quote with no
other quote behind it.

This decides the tokens (`tokens_determined`).  Where a lexeme starts, the text allows for
one classification only, because the character tells the kind and the boundary the length.
Where it does not start, the gap before it has not ended: a gap takes all blanks and whole
comments, and no lexeme starts with a blank or with two slashes.
-/

namespace Slate

/-! ## Kinds of lexemes -/

namespace Lexeme

/-- The characters that are a token by themselves, with its kind. -/
def marks : List (Char × TokenKind) :=
  [(';', .semicolon), ('(', .leftParen), (')', .rightParen), ('[', .leftBracket),
    (']', .rightBracket), ('{', .leftBrace), ('}', .rightBrace), (':', .typeIndicator),
    (',', .comma), ('+', .operator), ('-', .operator), ('*', .operator), ('~', .operator)]

/-- A lexeme of the language can start with the character. -/
def CanStart (c : Char) : Prop := ∃ x : Lexeme, x.Genuine ∧ x.written.head? = some c

/-- The lexeme is one of its kind in front of a text. -/
inductive Classified : Lexeme → List Char → Prop
  | mark {c : Char} {kind : TokenKind} {after : List Char} (known : (c, kind) ∈ marks) :
      Classified (whole kind [c]) after
  | assign {after : List Char} (alone : after.head? ≠ some '=') :
      Classified (whole .assign ['=']) after
  | equal {after : List Char} : Classified (whole .operator ['=', '=']) after
  | not {after : List Char} (alone : after.head? ≠ some '=') :
      Classified (whole .operator ['!']) after
  | notEqual {after : List Char} : Classified (whole .operator ['!', '=']) after
  | string {body after : List Char} (unquoted : '"' ∉ body) :
      Classified ⟨.string, '"' :: body ++ ['"'], body⟩ after
  | number {c : Char} {more after : List Char} (digits : ∀ d ∈ c :: more, d.isDigit = true)
      (longest : ∀ d, after.head? = some d → d.isDigit = false) :
      Classified (whole .number (c :: more)) after
  | keyword {c : Char} {more after : List Char} (first : isWordStart c = true)
      (others : ∀ d ∈ more, isWordPart d = true)
      (longest : ∀ d, after.head? = some d → isWordPart d = false)
      (known : String.ofList (c :: more) ∈ Token.keywords) :
      Classified (whole .keyword (c :: more)) after
  | identifier {c : Char} {more after : List Char} (first : isWordStart c = true)
      (others : ∀ d ∈ more, isWordPart d = true)
      (longest : ∀ d, after.head? = some d → isWordPart d = false)
      (other : String.ofList (c :: more) ∉ Token.keywords) :
      Classified (whole .identifier (c :: more)) after
  | unknown {c : Char} {after : List Char} (startsNone : ¬ CanStart c) (visible : Text.Visible c)
      (noComment : c = '/' → after.head? ≠ some '/') : Classified (whole .unknown [c]) after
  | unterminated {body : List Char} (unquoted : '"' ∉ body) :
      Classified (whole .unknown ('"' :: body)) []

/-! ## What starts a lexeme -/

theorem markKind?_eq_some {c : Char} {kind : TokenKind} :
    markKind? c = some kind ↔ (c, kind) ∈ marks := by
  constructor
  · intro h
    unfold markKind? at h
    split at h <;> cases h <;> decide
  · intro h
    simp only [marks, List.mem_cons, List.not_mem_nil, or_false, Prod.mk.injEq] at h
    rcases h with h | h | h | h | h | h | h | h | h | h | h | h | h <;>
      obtain ⟨rfl, rfl⟩ := h <;> rfl

/-- A lexeme starts with a mark, with a sign or a quote, with a digit, or like a word. -/
theorem canStart_iff {c : Char} : CanStart c ↔
    markKind? c ≠ none ∨ c = '=' ∨ c = '!' ∨ c = '"' ∨ c.isDigit = true ∨
      isWordStart c = true := by
  constructor
  · rintro ⟨x, hx, hhead⟩
    cases hx with
    | mark known =>
        cases hhead
        exact .inl (by simp [known])
    | assign =>
        cases hhead
        simp
    | equal =>
        cases hhead
        simp
    | not =>
        cases hhead
        simp
    | notEqual =>
        cases hhead
        simp
    | string _ =>
        cases hhead
        simp
    | number first _ =>
        cases hhead
        simp [first]
    | word first _ =>
        cases hhead
        simp [first]
  · rintro (h | rfl | rfl | rfl | h | h)
    · obtain ⟨kind, hkind⟩ := Option.ne_none_iff_exists'.1 h
      exact ⟨_, .mark hkind, rfl⟩
    · exact ⟨_, .assign, rfl⟩
    · exact ⟨_, .not, rfl⟩
    · have hempty : '"' ∉ ([] : List Char) := List.not_mem_nil
      exact ⟨_, .string hempty, rfl⟩
    · have hempty : ∀ d ∈ ([] : List Char), d.isDigit = true := List.forall_mem_nil _
      exact ⟨_, .number h hempty, rfl⟩
    · have hempty : ∀ d ∈ ([] : List Char), isWordPart d = true := List.forall_mem_nil _
      exact ⟨_, .word h hempty, rfl⟩

/-! ## Cutting is classifying -/

/-- The first character that is dropped behind a run ends it. -/
theorem head?_dropWhile {p : Char → Bool} {rest : List Char} {d : Char}
    (h : (rest.dropWhile p).head? = some d) : p d = false := by
  have hno := List.head?_dropWhile_not p rest
  rw [h] at hno
  simpa using hno

/-- What is cut off is a lexeme of its kind in front of what is left. -/
theorem cut_classified {c : Char} {rest : List Char} (hvisible : Text.Visible c)
    (hcomment : c = '/' → rest.head? ≠ some '/') : Classified (cut c rest).1 (cut c rest).2 := by
  -- the cases are the tests of `cut` in their order; only behind all of them it is known that no
  -- lexeme starts here
  unfold cut
  split
  · next kind hkind => exact .mark (markKind?_eq_some.1 hkind)
  · next hmark =>
    split
    · next hassign =>
      split
      · exact .equal
      · next halone =>
        exact .assign fun hhead => by
          obtain ⟨left, rfl⟩ := List.head?_eq_some_iff.1 hhead
          exact halone left rfl
    · next hassign =>
      split
      · next hnot =>
        split
        · exact .notEqual
        · next halone =>
          exact .not fun hhead => by
            obtain ⟨left, rfl⟩ := List.head?_eq_some_iff.1 hhead
            exact halone left rfl
      · next hnot =>
        split
        · next hquote =>
          split
          · next body left hsplit => exact .string (splitAtFirst_eq_some.1 hsplit).2
          · next hsplit => exact .unterminated (splitAtFirst_eq_none.1 hsplit)
        · next hquote =>
          split
          · next hdigit =>
            refine .number (List.forall_mem_cons.2 ⟨hdigit, ?_⟩) fun d => head?_dropWhile
            exact fun d hd => List.all_eq_true.1 List.all_takeWhile d hd
          · next hdigit =>
            split
            · next hword =>
              have hlongest : ∀ d, (rest.dropWhile isWordPart).head? = some d →
                  isWordPart d = false := fun d => head?_dropWhile
              have hothers : ∀ d ∈ rest.takeWhile isWordPart, isWordPart d = true :=
                fun d hd => List.all_eq_true.1 List.all_takeWhile d hd
              by_cases hknown : String.ofList (c :: rest.takeWhile isWordPart) ∈ Token.keywords
              · simp only [wordKind, if_pos hknown]
                exact .keyword hword hothers hlongest hknown
              · simp only [wordKind, if_neg hknown]
                exact .identifier hword hothers hlongest hknown
            · next hword =>
              refine .unknown ?_ hvisible hcomment
              rw [canStart_iff]
              simp [hmark, hassign, hnot, hquote, hdigit, hword]

/-- A class that the next character is not of. -/
theorem any_head?_eq_false {p : Char → Bool} {after : List Char}
    (h : ∀ d, after.head? = some d → p d = false) : after.head?.any p = false := by
  cases hhead : after.head? with
  | none => rfl
  | some d => exact h d hhead

theorem not_runsInto_sign {x : Lexeme} {after : List Char} (hsign : x.runsInto = (· = '='))
    (halone : after.head? ≠ some '=') : after.head?.any x.runsInto = false := by
  rw [hsign]
  refine any_head?_eq_false fun d hd => decide_eq_false ?_
  rintro rfl
  exact halone hd

/-- A classified lexeme is one of the language that does not run into what follows, or it is
unknown. -/
theorem Classified.genuine_or_unknown {x : Lexeme} {after : List Char} (h : Classified x after) :
    (x.Genuine ∧ after.head?.any x.runsInto = false) ∨ x.kind = .unknown := by
  cases h with
  | @mark c kind _ known =>
      refine .inl ⟨.mark (markKind?_eq_some.2 known), any_head?_eq_false fun d _ => ?_⟩
      simp only [marks, List.mem_cons, List.not_mem_nil, or_false, Prod.mk.injEq] at known
      rcases known with h | h | h | h | h | h | h | h | h | h | h | h | h <;>
        obtain ⟨rfl, rfl⟩ := h <;> rfl
  | assign alone => exact .inl ⟨.assign, not_runsInto_sign rfl alone⟩
  | equal => exact .inl ⟨.equal, any_head?_eq_false fun _ _ => rfl⟩
  | not alone => exact .inl ⟨.not, not_runsInto_sign rfl alone⟩
  | notEqual => exact .inl ⟨.notEqual, any_head?_eq_false fun _ _ => rfl⟩
  | string unquoted => exact .inl ⟨.string unquoted, any_head?_eq_false fun _ _ => rfl⟩
  | number digits longest =>
      obtain ⟨hfirst, hothers⟩ := List.forall_mem_cons.1 digits
      exact .inl ⟨.number hfirst hothers, any_head?_eq_false longest⟩
  | @keyword c more _ first others longest known =>
      have hkind : wordKind (c :: more) = .keyword := if_pos known
      exact .inl ⟨hkind ▸ .word first others, any_head?_eq_false longest⟩
  | @identifier c more _ first others longest other =>
      have hkind : wordKind (c :: more) = .identifier := if_neg other
      exact .inl ⟨hkind ▸ .word first others, any_head?_eq_false longest⟩
  | unknown _ _ _ => exact .inr rfl
  | unterminated _ => exact .inr rfl

/-- A character that starts no lexeme is cut off alone. -/
theorem cut_unknown {c : Char} (h : ¬ CanStart c) (rest : List Char) :
    cut c rest = (whole .unknown [c], rest) := by
  simp only [canStart_iff, not_or, ne_eq, Decidable.not_not] at h
  obtain ⟨hmark, hassign, hnot, hquote, hdigit, hword⟩ := h
  simp [cut, hmark, hassign, hnot, hquote, hdigit, hword]

/-- Text is no trivia when it starts with a visible character and not with two slashes. -/
theorem splitTrivia_unknown {c : Char} {rest : List Char} (hvisible : Text.Visible c)
    (hcomment : c = '/' → rest.head? ≠ some '/') :
    splitTrivia false (c :: rest) = ([], c :: rest) := by
  have hblank : Text.isBlank c = false := hvisible
  rw [splitTrivia_other hcomment, hblank]
  rfl

/-- **Classifying is cutting.**  A classified lexeme is no trivia, and it is cut off in front
of what follows. -/
theorem Classified.cut_eq {x : Lexeme} {after : List Char} (h : Classified x after) :
    ∃ c more, x.written = c :: more ∧ cut c (more ++ after) = (x, after) ∧
      splitTrivia false (c :: (more ++ after)) = ([], c :: (more ++ after)) := by
  rcases h.genuine_or_unknown with ⟨hgenuine, hruns⟩ | hunknown
  · obtain ⟨c, more, hwritten, hcut⟩ := hgenuine.cut_eq hruns
    exact ⟨c, more, hwritten, hcut, hgenuine.splitTrivia_eq hwritten _⟩
  · cases h with
    | @unknown c _ startsNone visible noComment =>
        exact ⟨c, [], rfl, cut_unknown startsNone after, splitTrivia_unknown visible noComment⟩
    | @unterminated body unquoted =>
        refine ⟨'"', body, rfl, ?_, splitTrivia_visible (by decide) (by decide) _⟩
        simp [cut, markKind?, splitAtFirst_eq_none.2 unquoted]
    | @mark c kind _ known =>
        obtain rfl : kind = .unknown := hunknown
        exact absurd known (by simp [marks])
    | _ => cases hunknown

end Lexeme

/-! ## Tokens from a place on -/

/-- The lexeme that the token is. -/
def Token.lexeme (t : Token) : Lexeme := ⟨t.kind, t.written, t.text.toList⟩

/-- What follows the token of an index in the text that the tokens tile. -/
def textBehind (gaps : List (List Char)) (ts : List Token) (last : List Char) (i : Nat) :
    List Char :=
  laidOut (gaps.drop (i + 1)) (ts.drop (i + 1)) ++ last

/-- Every token is one of its kind in front of what follows it. -/
def EachClassified (gaps : List (List Char)) (ts : List Token) (last : List Char) : Prop :=
  ∀ (i : Nat) (t : Token), ts[i]? = some t → t.lexeme.Classified (textBehind gaps ts last i)

variable {gaps : List (List Char)} {gap last : List Char} {t : Token} {ts : List Token}

theorem eachClassified_cons :
    EachClassified (gap :: gaps) (t :: ts) last ↔
      t.lexeme.Classified (laidOut gaps ts ++ last) ∧ EachClassified gaps ts last := by
  constructor
  · intro h
    exact ⟨h 0 t rfl, fun i u hu => h (i + 1) u hu⟩
  · rintro ⟨hfirst, hothers⟩ i u hu
    cases i with
    | zero =>
        cases hu
        exact hfirst
    | succ i => exact hothers i u hu

/-- What is left behind trivia does not start with two slashes. -/
theorem noComment_of_splitTrivia {inComment : Bool} {cs : List Char} {c : Char} {rest : List Char}
    (h : (splitTrivia inComment cs).2 = c :: rest) : c = '/' → rest.head? ≠ some '/' := by
  fun_induction splitTrivia inComment cs with
  | case1 => cases h
  | case2 d more trivia left heq ih =>
      rw [heq] at ih
      exact ih h
  | case3 more trivia left heq ih =>
      rw [heq] at ih
      exact ih h
  | case4 d more hslash hblank trivia left heq ih =>
      rw [heq] at ih
      exact ih h
  | case5 d more hslash hblank =>
      cases h
      rintro rfl hhead
      obtain ⟨left, rfl⟩ := List.head?_eq_some_iff.1 hhead
      exact hslash left rfl rfl

namespace Cursor

variable {passed text : List Char}

/-- The next token is one of its kind in front of what is left behind it. -/
theorem classified_of_next {here there : Cursor} (h : here.next = (some t, there)) :
    t.lexeme.Classified there.rest := by
  unfold next at h
  split at h
  · cases h
  · next gap c rest hsplit =>
    have hleft : (splitTrivia false here.rest).2 = c :: rest := congrArg Prod.snd hsplit
    have hwritten := Lexeme.written_cut c rest
    have hclassified := Lexeme.cut_classified (visible_of_splitTrivia hleft)
      (noComment_of_splitTrivia hleft)
    generalize Lexeme.cut c rest = pair at h hwritten hclassified
    obtain ⟨lexeme, left⟩ := pair
    simp only [Prod.mk.injEq, Option.some.injEq] at h hwritten hclassified
    obtain ⟨rfl, rfl⟩ := h
    simp only [Token.lexeme, Token.written, String.toList_ofList, ← hwritten]
    exact hclassified

/-- The tokens from a cursor on tile what is left, and each is one of its kind. -/
theorem tokens_classified (here : Cursor) {passed : List Char}
    (hposition : here.position = .behind passed) :
    ∃ gaps last, Tiles passed gaps here.tokens last here.rest ∧
      EachClassified gaps here.tokens last := by
  rw [tokens_eq]
  cases hnext : here.next with
  | mk t? there =>
      cases t? with
      | none => exact ⟨[], here.rest, .nil (trivia_of_next hnext), by simp [EachClassified]⟩
      | some t =>
          have hshorter := next_length_lt hnext
          obtain ⟨gap, htrivia, hrest, _, hstands, hthere⟩ := next_eq_some hnext hposition
          obtain ⟨gaps, last, htiles, hothers⟩ := there.tokens_classified hthere
          have hfirst := classified_of_next hnext
          rw [htiles.whole] at hfirst
          rw [hrest]
          exact ⟨gap :: gaps, last, htiles.cons htrivia hstands,
            eachClassified_cons.2 ⟨hfirst, hothers⟩⟩
termination_by here.rest.length

/-- Behind a gap, a token that is one of its kind is the next one. -/
theorem next_of_classified (htrivia : Trivia false gap) (hstands : t.StandsBehind (passed ++ gap))
    (hclassified : t.lexeme.Classified text) :
    next ⟨gap ++ t.written ++ text, .behind passed⟩ =
      (some t, ⟨text, .behind (passed ++ gap ++ t.written)⟩) := by
  obtain ⟨c, more, hwritten, hcut, hvisible⟩ := hclassified.cut_eq
  have hwritten : t.written = c :: more := hwritten
  have hsplit : splitTrivia false (gap ++ t.written ++ text) = (gap, c :: (more ++ text)) := by
    rw [List.append_assoc, htrivia.splitTrivia_append, hwritten, List.cons_append, hvisible,
      List.append_nil]
  have hspan : t.span = ⟨.behind (passed ++ gap), .behind (passed ++ gap ++ t.written)⟩ := hstands
  unfold next
  simp only [hsplit, hcut, Token.lexeme, Position.afterAll_behind, String.ofList_toList, ← hspan]

end Cursor

/-- **What tiles a text, each of its kind, are its tokens.** -/
theorem Tiles.tokens_eq {passed text : List Char} (h : Tiles passed gaps ts last text)
    (hclassified : EachClassified gaps ts last) : Cursor.tokens ⟨text, .behind passed⟩ = ts := by
  induction ts generalizing passed gaps text with
  | nil =>
      obtain rfl := List.length_eq_zero_iff.1 h.count
      have htext : text = last := h.whole
      have htrivia : Trivia true text := htext ▸ h.lastTrivia
      rw [Cursor.tokens_eq, Cursor.next_of_trivia htrivia]
  | cons t ts ih =>
      cases gaps with
      | nil => cases h.count
      | cons gap gaps =>
          obtain ⟨hfirst, hothers⟩ := eachClassified_cons.1 hclassified
          have hstands : t.StandsBehind (passed ++ gap) := by
            simpa using h.stands 0 gap t rfl rfl
          have htext : text = gap ++ t.written ++ (laidOut gaps ts ++ last) := by
            simpa using h.whole
          rw [htext, Cursor.tokens_eq, Cursor.next_of_classified
            (h.trivia gap List.mem_cons_self) hstands hfirst]
          exact congrArg (t :: ·) (ih h.tail hothers)

/-! ## Whole texts -/

/-- An opening quote without a closing one is classified in front of nothing. -/
theorem Lexeme.Classified.nothing_behind {x : Lexeme} {after : List Char} (h : x.Classified after)
    (hunknown : x.kind = .unknown) (hquote : x.written.head? = some '"') : after = [] := by
  cases h with
  | unknown startsNone _ _ =>
      cases hquote
      exact (startsNone (canStart_iff.2 (by simp))).elim
  | unterminated _ => rfl
  | @mark c kind _ known =>
      obtain rfl : kind = .unknown := hunknown
      exact absurd known (by simp [marks])
  | _ => cases hunknown

/-- No token is classified in front of nothing but the last one. -/
theorem EachClassified.last_of_nothing (h : EachClassified gaps ts last)
    (hcount : gaps.length = ts.length) {i : Nat} (hi : i < ts.length)
    (hnothing : textBehind gaps ts last i = []) : i + 1 = ts.length := by
  refine Nat.le_antisymm hi (Nat.not_lt.1 fun hlater => ?_)
  have hgap : i + 1 < gaps.length := hcount ▸ hlater
  obtain ⟨c, more, hwritten, _⟩ := (h (i + 1) _ (List.getElem?_eq_getElem hlater)).cut_eq
  have hwritten : (ts[i + 1]).written = c :: more := hwritten
  rw [textBehind, List.drop_eq_getElem_cons hgap, List.drop_eq_getElem_cons hlater, laidOut_cons,
    hwritten] at hnothing
  simp at hnothing

/-- **The tokens of a text are determined** by what they are: they tile the text, and each is
one of its kind in front of what follows it.  A quote that is not closed is the last token. -/
theorem tokens_determined (source : String) :
    (∀ ts, tokensOf source = ts ↔
      ∃ gaps last, Tiles [] gaps ts last source.toList ∧ EachClassified gaps ts last) ∧
    ∀ (i : Nat) (t : Token), (tokensOf source)[i]? = some t → t.kind = .unknown →
      t.text.toList.head? = some '"' → i + 1 = (tokensOf source).length := by
  have hstart : (Cursor.ofText source).position = .behind [] := rfl
  have hclassified := (Cursor.ofText source).tokens_classified hstart
  refine ⟨fun ts => ⟨?_, ?_⟩, ?_⟩
  · rintro rfl
    exact hclassified
  · rintro ⟨gaps, last, htiles, heach⟩
    exact htiles.tokens_eq heach
  · intro i t ht hunknown hquote
    obtain ⟨gaps, last, htiles, heach⟩ := hclassified
    obtain ⟨hi, _⟩ := List.getElem?_eq_some_iff.1 ht
    have hwritten : t.lexeme.written = t.text.toList := if_neg (by rw [hunknown]; decide)
    rw [← hwritten] at hquote
    exact heach.last_of_nothing htiles.count hi ((heach i t ht).nothing_behind hunknown hquote)

/-- A slash of its own, a number in front of a word, three signs in a row, and a quote that is
not closed. -/
theorem tokens_determined_munch :
    (tokensOf "/12a===\"x").map Token.face =
        [(.unknown, "/"), (.number, "12"), (.identifier, "a"), (.operator, "=="), (.assign, "="),
          (.unknown, "\"x")] ∧
      (∃ gaps last, Tiles [] gaps (tokensOf "/12a===\"x") last "/12a===\"x".toList ∧
        EachClassified gaps (tokensOf "/12a===\"x") last) ∧
      5 + 1 = (tokensOf "/12a===\"x").length := by
  obtain ⟨hdetermined, hlast⟩ := tokens_determined "/12a===\"x"
  have hquote : (tokensOf "/12a===\"x")[5]? = some ⟨.unknown, "\"x", ⟨⟨1, 8⟩, ⟨1, 10⟩⟩⟩ := by
    decide +kernel
  exact ⟨by decide +kernel, (hdetermined _).1 rfl, hlast 5 _ hquote rfl rfl⟩

end Slate
