import Slate.Proofs.Grammar.Soundness

/-!
# What is derivable is read

A derived phrase is read back, whatever follows it, as long as what follows cannot
go on with the phrase: no infix operator that binds into it, no parenthesis
that would make a call of its last name, no `else` behind a conditional.  The
grammar never puts any of these behind a complete phrase.

Phrases that group to the left need a stronger statement than that they are read.
The reader does not return between `a + b` and the next `+`: it is in its loop,
with `a + b` as what has been read so far.  So a phrase is shown to *lead to* the
loop (`expression_reads`): reading it with a least power that it is not below
succeeds in the way in which the loop goes on from its tree.
-/

namespace Slate

/-- The numbers of the first of two pieces fit. -/
theorem NumbersFit.left {ts us : List Token} (h : NumbersFit (ts ++ us)) : NumbersFit ts :=
  (numbersFit_append.1 h).1

/-- So do those of the second. -/
theorem NumbersFit.right {ts us : List Token} (h : NumbersFit (ts ++ us)) : NumbersFit us :=
  (numbersFit_append.1 h).2

/-- So do those behind the first token. -/
theorem NumbersFit.tail {t : Token} {ts : List Token} (h : NumbersFit (t :: ts)) : NumbersFit ts :=
  (numbersFit_cons.1 h).2

/-- What follows cannot go on with a phrase: no parenthesis, and no infix operator
that binds as strongly as `power`. -/
def Stops (power : Nat) (ts : List Token) : Prop :=
  startsWith .leftParen ts = false ∧ EndsInfixes power ts

/-- Where weaker operators end, stronger ones do. -/
theorem EndsInfixes.mono {power stronger : Nat} {ts : List Token} (h : EndsInfixes power ts)
    (hle : power ≤ stronger) : EndsInfixes stronger ts := by
  cases ts with
  | nil => trivial
  | cons t ts => exact fun op hop => Nat.lt_of_lt_of_le (h op hop) hle

/-- Where a weaker expression stops, a stronger one does. -/
theorem Stops.mono {power stronger : Nat} {ts : List Token} (h : Stops power ts)
    (hle : power ≤ stronger) : Stops stronger ts :=
  ⟨h.1, h.2.mono hle⟩

/-- The kinds of the tokens that end every expression. -/
def endKinds : List TokenKind :=
  [.semicolon, .rightParen, .comma]

/-- At a token that ends expressions every expression stops. -/
theorem stops_of_kind {power : Nat} {t : Token} {ts : List Token} (h : t.kind ∈ endKinds) :
    Stops power (t :: ts) := by
  have hcases : t.kind = .semicolon ∨ t.kind = .rightParen ∨ t.kind = .comma := by
    simpa [endKinds] using h
  refine ⟨?_, ?_⟩
  · rcases hcases with hk | hk | hk <;> simp [startsWith_cons, hk]
  · intro op hop
    match op, hop with
    | .assign, hop =>
        have hk : t.kind = .assign := hop
        simp [hk] at hcases
    | .binary op, hop => simp [hop.1] at hcases

/-- An infix operator stops a phrase to whose right it may stand. -/
theorem stops_of_signs {power : Nat} {t : Token} {ts : List Token} {op : InfixOp}
    (hop : op.Signs t) (hlt : op.leftPower < power) : Stops power (t :: ts) := by
  have hop' := ofToken?_eq_some.2 hop
  refine ⟨?_, ?_⟩
  · match op, hop with
    | .assign, hop =>
        have hk : t.kind = .assign := hop
        simp [startsWith_cons, hk]
    | .binary op, hop => simp [startsWith_cons, hop.1]
  · intro other hother
    rw [ofToken?_eq_some.2 hother] at hop'
    cases hop'
    exact hlt

namespace Level

/-- The greatest least power with which the phrases of the level are read whole. -/
def power : Level → Nat
  | assignment => 2
  | equality => 3
  | additive => 5
  | multiplicative => 7
  | unary => 9
  | primary => 9

/-- The next level binds no weaker. -/
theorem power_le_power_next (level : Level) : level.power ≤ level.next.power := by
  cases level <;> decide

/-- Nor does what may stand in front of it. -/
theorem bound_le_bound_next (level : Level) : level.bound ≤ level.next.bound := by
  cases level <;> decide

end Level

/-! ## First tokens -/

/-- The tokens that an expression can start with. -/
def Token.StartsExpr (t : Token) : Prop :=
  t.kind ∈ [.operator, .leftParen, .identifier, .number, .string] ∨
    t.isKeyword "true" = true ∨ t.isKeyword "false" = true

mutual

/-- A derived expression begins with a token that may begin one. -/
theorem DerivesExpr.starts {level : Level} {ts : List Token} {e : Expr} :
    DerivesExpr level ts e → ∃ t us, ts = t :: us ∧ t.StartsExpr
  | .assign left _ _ => by
      obtain ⟨t, us, rfl, ht⟩ := left.starts
      exact ⟨t, _, rfl, ht⟩
  | .binary left _ _ => by
      obtain ⟨t, us, rfl, ht⟩ := left.starts
      exact ⟨t, _, rfl, ht⟩
  | .unary sign _ => ⟨_, _, rfl, .inl (by simp [sign.1])⟩
  | .next _ phrase => phrase.starts
  | .number kind => ⟨_, _, rfl, .inl (by simp [kind])⟩
  | .string kind => ⟨_, _, rfl, .inl (by simp [kind])⟩
  | .truth word => ⟨_, _, rfl, .inr (.inl word)⟩
  | .falsity word => ⟨_, _, rfl, .inr (.inr word)⟩
  | .var kind => ⟨_, _, rfl, .inl (by simp [kind])⟩
  | .callNone kind _ _ => ⟨_, _, rfl, .inl (by simp [kind])⟩
  | .call kind _ _ _ => ⟨_, _, rfl, .inl (by simp [kind])⟩
  | .parens opens _ _ => ⟨_, _, rfl, .inl (by simp [opens])⟩

/-- So do written arguments. -/
theorem DerivesArguments.starts {ts : List Token} {es : List Expr} :
    DerivesArguments ts es → ∃ t us, ts = t :: us ∧ t.StartsExpr
  | .one argument => argument.starts
  | .more argument _ _ => by
      obtain ⟨t, us, rfl, ht⟩ := argument.starts
      exact ⟨t, _, rfl, ht⟩

end

/-- A token that starts an expression is of none of the kinds that end one. -/
theorem Token.StartsExpr.kind_ne {t : Token} (h : t.StartsExpr) {kind : TokenKind}
    (hk : kind ∉ [.operator, .leftParen, .identifier, .number, .string, .keyword]) :
    t.kind ≠ kind := by
  intro heq
  subst heq
  simp only [List.mem_cons, List.not_mem_nil, or_false, not_or] at hk
  rcases h with h | h | h
  · simp only [List.mem_cons, List.not_mem_nil, or_false] at h
    rcases h with h | h | h | h | h <;> simp [h] at hk
  · exact hk.2.2.2.2.2 (kind_of_isKeyword h)
  · exact hk.2.2.2.2.2 (kind_of_isKeyword h)

/-- A keyword that starts an expression is `true` or `false`. -/
theorem Token.StartsExpr.isKeyword_eq_false {t : Token} (h : t.StartsExpr) {word : String}
    (hw : word ∉ ["true", "false"]) : t.isKeyword word = false := by
  simp only [List.mem_cons, List.not_mem_nil, or_false, not_or] at hw
  rcases h with h | h | h
  · apply Bool.eq_false_iff.2
    intro hword
    rw [kind_of_isKeyword hword] at h
    exact absurd h (by decide)
  · exact Slate.isKeyword_eq_false h (Ne.symm hw.1)
  · exact Slate.isKeyword_eq_false h (Ne.symm hw.2)

/-! ## Expressions -/

/-- Reading the tokens with a least power leads into the loop over infix operators,
with an expression as what has been read so far. -/
def LeadsTo (least : Nat) (ts : List Token) (e : Expr) (rest : List Token) : Prop :=
  ∀ e' rest', Reads (readInfixes least e rest) e' rest' → Reads (readExpression least ts) e' rest'

/-- An operand leads into the loop. -/
theorem leadsTo_of_operand {least : Nat} {ts rest : List Token} {e : Expr}
    (h : Reads (readOperand ts) e rest) : LeadsTo least ts e rest :=
  fun _ _ hmore => reads_expression.2 ⟨e, rest, h, hmore⟩

/-- Where no operator goes on, the loop ends at once. -/
theorem LeadsTo.reads {least : Nat} {ts rest : List Token} {e : Expr} (h : LeadsTo least ts e rest)
    (hends : EndsInfixes least rest) : Reads (readExpression least ts) e rest :=
  h e rest ((reads_infixes_of_ends hends).2 ⟨rfl, rfl⟩)

/-- With an operator and its right operand, what leads into the loop leads further. -/
theorem LeadsTo.joined {least : Nat} {t : Token} {ts us rest : List Token} {l r : Expr}
    {op : InfixOp} (h : LeadsTo least ts l (t :: us)) (hop : op.Signs t)
    (hle : least ≤ op.leftPower) (hr : Reads (readExpression op.rightPower us) r rest) :
    LeadsTo least ts (op.tree l r) rest :=
  fun e' rest' hmore => h e' rest' ((reads_infixes_of_le hop hle).2 ⟨r, rest, hr, hmore⟩)

/-- A token that is an expression by itself is read as an operand. -/
theorem atom_reads {t : Token} {rest : List Token} {e : Expr} (h : readAtom t = .ok e)
    (ho : t.kind ≠ .operator) (hp : t.kind ≠ .leftParen)
    (hstops : startsWith .leftParen rest = false) : Reads (readOperand (t :: rest)) e rest :=
  (reads_operand_of_atom ho hp (fun _ => hstops)).2 ⟨h, rfl⟩

/-- A number that fits is read as its value. -/
theorem readAtom_number {t : Token} (hk : t.kind = .number)
    (hfits : decimalValue t.text.toList ≤ maxInteger) :
    readAtom t = .ok (.literal (.unchecked t.span)
      (.int (Int32.ofNat (decimalValue t.text.toList)))) := by
  simp only [readAtom, hk, if_pos hfits]

/-- The words of truth values are read as these values. -/
theorem readAtom_word {t : Token} {word : String} {b : Bool} (h : t.isKeyword word = true)
    (hb : word = if b then "true" else "false") :
    readAtom t = .ok (.literal (.unchecked t.span) (.bool b)) := by
  have htext : t.text = word := by
    simp only [Token.isKeyword, Bool.and_eq_true, decide_eq_true_eq] at h
    exact h.2
  cases b <;> simp [readAtom, kind_of_isKeyword h, htext, hb]

mutual

/-- A derived expression leads into the loop, up to its spans. -/
theorem expression_leads {level : Level} {ts : List Token} {e : Expr} :
    DerivesExpr level ts e → NumbersFit ts → ∀ (least : Nat) (rest : List Token),
      least ≤ level.power → Stops level.bound rest →
      ∃ e' : Expr, e'.spanless = e ∧ LeadsTo least (ts ++ rest) e' rest
  | @DerivesExpr.assign t ls rs _ _ left sign right => by
      intro hfit least rest hle hstops
      have hsigns : InfixOp.assign.Signs t := sign
      obtain ⟨l, rfl, hl⟩ := expression_leads left hfit.left least (t :: (rs ++ rest))
        (Nat.le_trans hle (by decide)) (stops_of_signs hsigns (by decide))
      obtain ⟨r, rfl, hr⟩ := expression_leads right hfit.right.tail 1 rest (by decide) hstops
      refine ⟨InfixOp.assign.tree l r, rfl, ?_⟩
      rw [List.append_assoc, List.cons_append]
      exact hl.joined hsigns hle (hr.reads hstops.2)
  | @DerivesExpr.binary op t ls rs _ _ left sign right => by
      intro hfit least rest hle hstops
      have hsigns : (InfixOp.binary op).Signs t := sign
      have hpower : op.level.power = (InfixOp.binary op).leftPower := by cases op <;> rfl
      have hbound : op.level.bound = (InfixOp.binary op).rightPower := by cases op <;> rfl
      have hstep : (InfixOp.binary op).rightPower ≤ op.level.next.power := by cases op <;> decide
      obtain ⟨l, rfl, hl⟩ := expression_leads left hfit.left least (t :: (rs ++ rest)) hle
        (stops_of_signs hsigns (by cases op <;> decide))
      obtain ⟨r, rfl, hr⟩ := expression_leads right hfit.right.tail (InfixOp.binary op).rightPower
        rest hstep (hstops.mono op.level.bound_le_bound_next)
      refine ⟨(InfixOp.binary op).tree l r, rfl, ?_⟩
      rw [List.append_assoc, List.cons_append]
      exact hl.joined hsigns (hpower ▸ hle) (hr.reads (hbound ▸ hstops.2))
  | @DerivesExpr.unary op t _ _ sign operand => by
      intro hfit least rest _ hstops
      obtain ⟨o, rfl, ho⟩ := expression_leads operand hfit.tail prefixPower rest (by decide) hstops
      exact ⟨.unary (.unchecked (t.span.through o.span)) op o, rfl, leadsTo_of_operand
        ((reads_operand_of_operator sign.1).2 ⟨op, o, sign.2, ho.reads hstops.2, rfl⟩)⟩
  | @DerivesExpr.next level _ _ _ phrase => by
      intro hfit least rest hle hstops
      exact expression_leads phrase hfit least rest (Nat.le_trans hle level.power_le_power_next)
        (hstops.mono level.bound_le_bound_next)
  | @DerivesExpr.number t kind => by
      intro hfit least rest _ hstops
      have hatom := readAtom_number kind (hfit t List.mem_cons_self kind)
      exact ⟨_, rfl, leadsTo_of_operand
        (atom_reads hatom (by simp [kind]) (by simp [kind]) hstops.1)⟩
  | @DerivesExpr.string t kind => by
      intro _ least rest _ hstops
      have hatom : readAtom t = .ok (.literal (.unchecked t.span) (.string t.text)) := by
        simp only [readAtom, kind]
      exact ⟨_, rfl, leadsTo_of_operand
        (atom_reads hatom (by simp [kind]) (by simp [kind]) hstops.1)⟩
  | .truth word => by
      intro _ least rest _ hstops
      have kind := kind_of_isKeyword word
      exact ⟨_, rfl, leadsTo_of_operand
        (atom_reads (readAtom_word (b := true) word rfl) (by simp [kind]) (by simp [kind])
          hstops.1)⟩
  | .falsity word => by
      intro _ least rest _ hstops
      have kind := kind_of_isKeyword word
      exact ⟨_, rfl, leadsTo_of_operand
        (atom_reads (readAtom_word (b := false) word rfl) (by simp [kind]) (by simp [kind])
          hstops.1)⟩
  | @DerivesExpr.var t kind => by
      intro _ least rest _ hstops
      have hatom : readAtom t = .ok (.var (.unchecked t.span) t.text) := by
        simp only [readAtom, kind]
      exact ⟨_, rfl, leadsTo_of_operand
        (atom_reads hatom (by simp [kind]) (by simp [kind]) hstops.1)⟩
  | @DerivesExpr.callNone name _ closing kind opens closes => by
      intro _ least rest _ _
      have hargs : Reads (readArguments (closing :: rest)) ([], closing.span) rest :=
        (reads_arguments_of_close closes).2 ⟨rfl, rfl, rfl⟩
      exact ⟨.call (.unchecked (name.span.through closing.span)) name.text [], rfl,
        leadsTo_of_operand ((reads_operand_of_call kind opens).2 ⟨[], closing.span, hargs, rfl⟩)⟩
  | @DerivesExpr.call name _ closing ts _ kind opens arguments closes => by
      intro hfit least rest _ _
      obtain ⟨es, rfl, hes⟩ := arguments_read arguments hfit.tail.tail.left closing rest closes
      have hargs : Reads (readArguments (ts ++ closing :: rest)) (es, closing.span) rest := by
        obtain ⟨u, us, rfl, hu⟩ := arguments.starts
        have hne : u.kind ≠ .rightParen := hu.kind_ne (by decide)
        exact (reads_arguments_of_ne (by simp [startsWith_cons, hne])).2 hes
      refine ⟨.call (.unchecked (name.span.through closing.span)) name.text es, rfl, ?_⟩
      rw [List.cons_append, List.cons_append, List.append_assoc]
      exact leadsTo_of_operand
        ((reads_operand_of_call kind opens).2 ⟨es, closing.span, hargs, rfl⟩)
  | @DerivesExpr.parens _ closing _ _ opens inner closes => by
      intro hfit least rest _ _
      have hstops : Stops Level.assignment.bound (closing :: rest) :=
        stops_of_kind (by rw [closes]; decide)
      obtain ⟨e, rfl, he⟩ := expression_leads inner hfit.tail.left 0 (closing :: rest)
        (by decide) hstops
      have hread := he.reads (stops_of_kind (by rw [closes]; decide)).2
      refine ⟨e, rfl, ?_⟩
      rw [List.cons_append, List.append_assoc]
      exact leadsTo_of_operand ((reads_operand_of_paren opens).2 ⟨closing, hread, closes⟩)

/-- Derived arguments are read up to the parenthesis that closes them. -/
theorem arguments_read {ts : List Token} {es : List Expr} :
    DerivesArguments ts es → NumbersFit ts → ∀ (closing : Token) (rest : List Token),
      closing.kind = .rightParen →
      ∃ es' : List Expr, spanlessArguments es' = es ∧
        Reads (readMoreArguments (ts ++ closing :: rest)) (es', closing.span) rest
  | .one argument => by
      intro hfit closing rest hc
      have hkind : closing.kind ∈ endKinds := by rw [hc]; decide
      obtain ⟨e, rfl, he⟩ := expression_leads argument hfit 0 (closing :: rest) (by decide)
        (stops_of_kind hkind)
      exact ⟨[e], rfl, reads_moreArguments.2
        ⟨e, closing, rest, he.reads (stops_of_kind hkind).2, .inr ⟨hc, rfl, rfl, rfl⟩⟩⟩
  | @DerivesArguments.more comma _ us _ _ argument separates others => by
      intro hfit closing rest hc
      have hkind : comma.kind ∈ endKinds := by rw [separates]; decide
      obtain ⟨e, rfl, he⟩ := expression_leads argument hfit.left 0
        (comma :: (us ++ closing :: rest)) (by decide) (stops_of_kind hkind)
      obtain ⟨es, rfl, hes⟩ := arguments_read others hfit.right.tail closing rest hc
      refine ⟨e :: es, rfl, ?_⟩
      rw [List.append_assoc, List.cons_append]
      exact reads_moreArguments.2 ⟨e, comma, us ++ closing :: rest,
        he.reads (stops_of_kind hkind).2, .inl ⟨separates, es, hes, rfl⟩⟩

end

/-- A derived expression is read whole before a token that ends every expression. -/
theorem expression_reads {ts : List Token} (rest : List Token) {t : Token} {e : Expr}
    (h : DerivesExpr .assignment ts e) (hfit : NumbersFit ts) (ht : t.kind ∈ endKinds) :
    ∃ e' : Expr, e'.spanless = e ∧ Reads (readExpression 0 (ts ++ t :: rest)) e' (t :: rest) := by
  obtain ⟨e', he, hleads⟩ := expression_leads h hfit 0 (t :: rest) (by decide) (stops_of_kind ht)
  exact ⟨e', he, hleads.reads (stops_of_kind ht).2⟩

end Slate
