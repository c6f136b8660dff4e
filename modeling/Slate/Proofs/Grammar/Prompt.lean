import Slate.Proofs.Grammar.Reads

/-!
# Prompt readers

A reader is prompt when it stops as soon as it can be known that there is no phrase.
Say it fails at some tokens.  Then what it has taken before the fault opens a phrase: with
other tokens behind, there would have been one.  And with the token at the fault behind,
there is none, whatever else follows.

What makes this provable is that no reader looks further than at the first token behind
what it takes (`Prompt.looksAtOne`).  So when one reader follows another, what the first
one has answered does not change with the tokens behind the fault of the second.

The proofs that tokens become fewer are in the way here.  A `Reader` is a reader without
them, and `plain` forgets them.

* `Prompt.bind` — one reader after another is prompt, if each is and what opens a phrase of
  the first one opens a phrase of both.
* `Prompt.token` — a token of one kind, and what goes on behind it.
* `Prompt.skip`, `Prompt.congr` — decisions by the first token.
-/

namespace Slate

variable {α β : Type} {p q : List Token → Prop}

/-! ## Readers without proofs -/

/-- A reader that does not prove that it takes something. -/
abbrev Reader (α : Type) := StateT (List Token) (Except SyntaxFault) α

/-- An answer without the proof about what is left. -/
def forget (x : Except SyntaxFault (α × { rest : List Token // p rest })) :
    Except SyntaxFault (α × List Token) :=
  x.map fun r => (r.1, r.2.val)

/-- A reader without its proofs. -/
def plain {p : List Token → List Token → Prop}
    (r : (ts : List Token) → Except SyntaxFault (α × { rest : List Token // p ts rest })) :
    Reader α :=
  fun ts => forget (r ts)

/-- A reader forgets nothing about what is read. -/
theorem forget_eq_ok {x : Except SyntaxFault (α × { rest : List Token // p rest })} {a : α}
    {rest : List Token} : forget x = .ok (a, rest) ↔ Reads x a rest := by
  cases x with
  | error f =>
      constructor
      · intro h
        cases h
      · intro h
        exact (reads_error h).elim
  | ok r =>
      obtain ⟨b, ⟨more, hmore⟩⟩ := r
      constructor
      · intro h
        cases h
        exact ⟨hmore, rfl⟩
      · rintro ⟨_, h⟩
        cases h
        rfl

/-- Nor about its fault. -/
theorem forget_eq_error {x : Except SyntaxFault (α × { rest : List Token // p rest })}
    {f : SyntaxFault} : forget x = .error f ↔ x = .error f := by
  cases x with
  | error g =>
      constructor
      · intro h
        cases h
        rfl
      · intro h
        cases h
        rfl
  | ok r =>
      constructor
      · intro h
        cases h
      · intro h
        cases h

/-- The proofs about what is left are all that is forgotten. -/
theorem forget_injective {x y : Except SyntaxFault (α × { rest : List Token // p rest })}
    (h : forget x = forget y) : x = y := by
  cases hx : x with
  | error f => exact (forget_eq_error.1 (h ▸ forget_eq_error.2 hx)).symm
  | ok r =>
      obtain ⟨hleft, hy⟩ := forget_eq_ok.1 (h ▸ forget_eq_ok.2 ⟨r.2.property, hx⟩)
      exact hy.symm

/-- One reading after another, without the proofs. -/
theorem forget_bind {p : List Token → List Token → Prop}
    {r : (ts : List Token) → Except SyntaxFault (α × { rest : List Token // p ts rest })}
    {ts : List Token}
    {f : α × { rest : List Token // p ts rest } →
      Except SyntaxFault (β × { rest : List Token // q rest })}
    {k : α → Reader β} (h : ∀ a rest left, forget (f (a, ⟨rest, left⟩)) = k a rest) :
    forget (r ts >>= f) = (plain r >>= k) ts := by
  show _ = plain r ts >>= fun s => k s.1 s.2
  unfold plain
  cases r ts with
  | error g => rfl
  | ok s => exact h s.1 s.2.val s.2.property

/-- Two readers, each with what goes on behind it, that answer the same. -/
theorem bind_congr_reader {x y : Reader α} {k l : α → Reader β} {ts : List Token}
    (hx : x ts = y ts) (hk : ∀ a rest, x ts = .ok (a, rest) → k a rest = l a rest) :
    (x >>= k) ts = (y >>= l) ts := by
  show (x ts >>= fun r => k r.1 r.2) = y ts >>= fun r => l r.1 r.2
  rw [← hx]
  cases h : x ts with
  | error f => rfl
  | ok r => exact hk r.1 r.2 h

/-! ## Where faults are -/

/-- The fault is found from the first of the tokens through one of them, or for want of
tokens. -/
def SyntaxFault.At (f : SyntaxFault) : List Token → Prop
  | [] => ∃ wanted, f = ⟨.endOfInput wanted, none⟩
  | t :: ts => ∃ u ∈ t :: ts, f.span = some (t.span.through u.span)

/-- More tokens make no difference to where a fault is. -/
theorem SyntaxFault.At.behind {f : SyntaxFault} {t : Token} {ts : List Token} (h : f.At (t :: ts))
    (more : List Token) : f.At (t :: (ts ++ more)) := by
  obtain ⟨u, hu, hspan⟩ := h
  exact ⟨u, List.mem_append_left more hu, hspan⟩

/-- An unexpected token is reported at the tokens that are left. -/
theorem SyntaxFault.unexpected_at (wanted : Wanted) (ts : List Token) :
    (unexpected wanted ts).At ts := by
  cases ts with
  | nil => exact ⟨wanted, rfl⟩
  | cons t ts =>
      refine ⟨t, List.mem_cons_self, ?_⟩
      unfold unexpected
      dsimp only
      split
      · split <;> rfl
      · rfl

/-! ## Prompt readers -/

/-- The reader answers without looking further than at the first token behind what it takes.
When it fails, what stands before the fault is as `Opens` says, and with the token at the
fault behind it the reader does not succeed. -/
structure Prompt (Opens : List Token → Prop) (r : Reader α) (ts : List Token) : Prop where
  looksAtOne : ∀ a rest, r ts = .ok (a, rest) →
    ∃ used, ts = used ++ rest ∧
      ∀ t more, rest = t :: more → ∀ others, r (used ++ t :: others) = .ok (a, t :: others)
  stops : ∀ f, r ts = .error f →
    ∃ used rest, ts = used ++ rest ∧ f.At rest ∧ Opens used ∧
      ∀ t more, rest = t :: more → ∀ others x, r (used ++ t :: others) ≠ .ok x

/-- Tokens with the same first one. -/
theorem head?_append_cons (used : List Token) (t : Token) (more others : List Token) :
    (used ++ t :: others).head? = (used ++ t :: more).head? := by
  cases used <;> rfl

/-- What a reader has answered does not change with the tokens behind the first one that it
has left. -/
theorem answer_stays {x : Reader α} {a : α} {before used more : List Token} {t : Token}
    (h : ∀ u us, used ++ t :: more = u :: us →
      ∀ others, x (before ++ u :: others) = .ok (a, u :: others)) (others : List Token) :
    x (before ++ (used ++ t :: others)) = .ok (a, used ++ t :: others) := by
  cases used with
  | nil => exact h t more rfl others
  | cons u used => exact h u (used ++ t :: more) rfl (used ++ t :: others)

namespace Prompt

variable {Opens Others : List Token → Prop} {r s : Reader α} {ts : List Token} {t : Token}

/-- A reader that is prompt with some beginnings is so with more. -/
theorem mono (h : Prompt Opens r ts) (hopens : ∀ us rest, ts = us ++ rest → Opens us → Others us) :
    Prompt Others r ts := by
  refine ⟨h.looksAtOne, ?_⟩
  intro f hf
  obtain ⟨used, rest, hts, hat, hused, hno⟩ := h.stops f hf
  exact ⟨used, rest, hts, hat, hopens used rest hts hused, hno⟩

/-- Readers that agree on all tokens with the same first one. -/
theorem congr (heq : ∀ us : List Token, us.head? = ts.head? → r us = s us)
    (h : Prompt Opens s ts) : Prompt Opens r ts := by
  refine ⟨?_, ?_⟩
  · intro a rest hr
    rw [heq ts rfl] at hr
    obtain ⟨used, rfl, hlook⟩ := h.looksAtOne a rest hr
    refine ⟨used, rfl, ?_⟩
    rintro t more rfl others
    rw [heq _ (head?_append_cons used t more others)]
    exact hlook t more rfl others
  · intro f hr
    rw [heq ts rfl] at hr
    obtain ⟨used, rest, rfl, hat, hused, hno⟩ := h.stops f hr
    refine ⟨used, rest, rfl, hat, hused, ?_⟩
    rintro t more rfl others x
    rw [heq _ (head?_append_cons used t more others)]
    exact hno t more rfl others x

/-- A reader that goes on behind the first token. -/
theorem skip (heq : ∀ us, r (t :: us) = s us) (h : Prompt (fun us => Opens (t :: us)) s ts) :
    Prompt Opens r (t :: ts) := by
  refine ⟨?_, ?_⟩
  · intro a rest hr
    rw [heq ts] at hr
    obtain ⟨used, rfl, hlook⟩ := h.looksAtOne a rest hr
    refine ⟨t :: used, rfl, ?_⟩
    rintro u more rfl others
    rw [List.cons_append, heq]
    exact hlook u more rfl others
  · intro f hr
    rw [heq ts] at hr
    obtain ⟨used, rest, rfl, hat, hused, hno⟩ := h.stops f hr
    refine ⟨t :: used, rest, rfl, hat, hused, ?_⟩
    rintro u more rfl others x
    rw [List.cons_append, heq]
    exact hno u more rfl others x

/-- A reader that takes nothing. -/
theorem answer (a : α) (ts : List Token) : Prompt Opens (pure a) ts := by
  refine ⟨?_, ?_⟩
  · rintro b rest ⟨⟩
    exact ⟨[], rfl, fun t more _ others => rfl⟩
  · rintro f ⟨⟩

/-- A reader that fails at the first token, whatever follows it. -/
theorem refuse {f : SyntaxFault} (heq : ∀ us : List Token, us.head? = ts.head? → r us = .error f)
    (hat : f.At ts) (hopens : Opens []) : Prompt Opens r ts := by
  refine ⟨?_, ?_⟩
  · intro a rest hr
    rw [heq ts rfl] at hr
    cases hr
  · intro g hr
    rw [heq ts rfl] at hr
    cases hr
    refine ⟨[], ts, rfl, hat, hopens, ?_⟩
    rintro t more rfl others x hx
    have hfails : r (t :: others) = .error f := heq _ rfl
    rw [List.nil_append, hfails] at hx
    cases hx

/-- **One reader after another.**  What opens a phrase of the first one has to open one of
both.  The second one is judged by the tokens that the first one has taken. -/
theorem bind {x : Reader α} {k : α → Reader β} (hx : Prompt Opens x ts)
    (hopens : ∀ us rest, ts = us ++ rest → Opens us → Others us)
    (hk : ∀ a used rest, x ts = .ok (a, rest) → ts = used ++ rest →
      Prompt (fun us => Others (used ++ us)) (k a) rest) :
    Prompt Others (x >>= k) ts := by
  refine ⟨?_, ?_⟩
  · intro b rest hr
    obtain ⟨⟨a, middle⟩, ha, hb⟩ := bind_eq_ok.1 hr
    obtain ⟨before, hts, hfirst⟩ := hx.looksAtOne a middle ha
    obtain ⟨used, rfl, hsecond⟩ := (hk a before middle ha hts).looksAtOne b rest hb
    refine ⟨before ++ used, by rw [hts, List.append_assoc], ?_⟩
    rintro t more rfl others
    refine bind_eq_ok.2 ⟨(a, used ++ t :: others), ?_, hsecond t more rfl others⟩
    rw [List.append_assoc]
    exact answer_stays hfirst others
  · intro f hr
    rcases bind_eq_error.1 hr with hf | ⟨⟨a, middle⟩, ha, hf⟩
    · obtain ⟨used, rest, hts, hat, hused, hno⟩ := hx.stops f hf
      refine ⟨used, rest, hts, hat, hopens used rest hts hused, ?_⟩
      intro t more hrest others y hy
      obtain ⟨a, ha, _⟩ := bind_eq_ok.1 hy
      exact hno t more hrest others a ha
    · obtain ⟨before, hts, hfirst⟩ := hx.looksAtOne a middle ha
      obtain ⟨used, rest, rfl, hat, hused, hno⟩ := (hk a before middle ha hts).stops f hf
      refine ⟨before ++ used, rest, by rw [hts, List.append_assoc], hat, hused, ?_⟩
      rintro t more rfl others y hy
      obtain ⟨⟨b, left⟩, hb, hy⟩ := bind_eq_ok.1 hy
      rw [List.append_assoc, answer_stays hfirst others] at hb
      cases hb
      exact hno t more rfl others y hy

end Prompt

/-! ## Single tokens -/

/-- How tokens start is decided by the first one. -/
theorem startsWith_of_head {ts us : List Token} (kind : TokenKind) (h : us.head? = ts.head?) :
    startsWith kind us = startsWith kind ts := by
  cases us with
  | nil => rw [List.head?_eq_none_iff.1 h.symm]
  | cons u us =>
      obtain ⟨more, rfl⟩ := List.head?_eq_some_iff.1 h.symm
      rfl

/-- **One token of a kind**, and what goes on behind it. -/
theorem Prompt.token {Opens : List Token → Prop} {kind : TokenKind} {wanted : Wanted}
    {k : Token → Reader β} {ts : List Token} (hopens : Opens [])
    (hk : ∀ t rest, ts = t :: rest → t.kind = kind →
      Prompt (fun us => Opens (t :: us)) (k t) rest) :
    Prompt Opens (plain (readKind kind wanted) >>= k) ts := by
  cases ts with
  | nil =>
      refine Prompt.refuse ?_ (SyntaxFault.unexpected_at wanted []) hopens
      intro us hus
      rw [List.head?_eq_none_iff.1 hus]
      rfl
  | cons t ts =>
      by_cases hkind : t.kind = kind
      · refine Prompt.skip ?_ (hk t ts rfl hkind)
        intro us
        show (plain (readKind kind wanted) (t :: us) >>= fun r => k r.1 r.2) = k t us
        simp only [plain, readKind, if_pos hkind]
        rfl
      · refine Prompt.refuse ?_ (SyntaxFault.unexpected_at wanted (t :: ts)) hopens
        intro us hus
        obtain ⟨more, rfl⟩ := List.head?_eq_some_iff.1 hus
        show (plain (readKind kind wanted) (t :: more) >>= fun r => k r.1 r.2) = _
        simp only [plain, readKind, if_neg hkind]
        rfl

/-- A token that was read is of its kind. -/
theorem plain_kind_eq_ok {kind : TokenKind} {wanted : Wanted} {ts rest : List Token} {t : Token} :
    plain (readKind kind wanted) ts = .ok (t, rest) ↔ ts = t :: rest ∧ t.kind = kind :=
  forget_eq_ok.trans reads_kind

end Slate
