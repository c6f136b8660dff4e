import Slate.Proofs.Grammar.Descent

/-!
# Binding powers read levels

Reading with a least power answers as the procedure of its level in `Slate.Descent` does
(`powers_read_levels`).

There is one loop on the one side and a procedure for every level on the other.  What brings
them together is that the loop can be cut: reading with a power is reading with a greater one
first, and then the operators that bind too weakly for that (`expression_through`).  The cut
at the next stronger level leaves one kind of operator to the loop, and that is what the level
itself reads (`joined_descends`, `assigned_descends`).  The invariant is that no stronger
operator stands in front; it holds again behind a right operand, because that has been read
with the power of the stronger level.
-/

namespace Slate

/-! ## Reading with a stronger power first -/

/-- The operators that bind as strongly as `least` are those that bind as strongly as a
greater power, and what comes behind them. -/
theorem infixes_through {least power : Nat} (h : least ≤ power) (l : Expr) (ts : List Token) :
    plain (readInfixes least l) ts = (do
      let e ← plain (readInfixes power l)
      plain (readInfixes least e) : Reader Expr) ts := by
  by_cases hstop : EndsInfixes power ts
  · show _ = plain (readInfixes power l) ts >>= fun r => plain (readInfixes least r.1) r.2
    rw [plain_readInfixes_of_ends hstop]
    rfl
  · cases ts with
    | nil => exact absurd trivial hstop
    | cons t ts =>
        obtain ⟨op, hop, hpower⟩ := exists_signs_of_not_ends hstop
        have hassoc : ((do
            let e ← plain (readInfixes power l)
            plain (readInfixes least e) : Reader Expr) (t :: ts)) = (do
              let right ← plain (readExpression op.rightPower)
              let e ← plain (readInfixes power (op.tree l right))
              plain (readInfixes least e) : Reader Expr) ts := by
          show (plain (readInfixes power l) (t :: ts) >>=
            fun r => plain (readInfixes least r.1) r.2) = _
          rw [plain_readInfixes_of_le hop hpower]
          exact bind_assoc _ _ _
        rw [plain_readInfixes_of_le hop (Nat.le_trans h hpower), hassoc]
        refine bind_congr_reader rfl fun right rest hread => ?_
        have hshorter : rest.length < ts.length := (forget_eq_ok.1 hread).left
        exact infixes_through h (op.tree l right) rest
termination_by ts.length
decreasing_by simp only [List.length_cons]; omega

/-- Reading with a power is reading with a greater one, and then the operators that bind too
weakly for that. -/
theorem expression_through {least power : Nat} (h : least ≤ power) (ts : List Token) :
    plain (readExpression least) ts = (do
      let e ← plain (readExpression power)
      plain (readInfixes least e) : Reader Expr) ts := by
  have hassoc : (do
      let e ← plain (readExpression power)
      plain (readInfixes least e) : Reader Expr) = (do
        let left ← plain readOperand
        let e ← plain (readInfixes power left)
        plain (readInfixes least e)) := by
    rw [plain_readExpression]
    exact bind_assoc _ _ _
  rw [hassoc, plain_readExpression]
  exact bind_congr_reader rfl fun left rest _ => infixes_through h left rest

/-- What is left behind an expression is shorter, and starts with no operator that binds as
strongly as the power. -/
theorem expression_stops {least : Nat} {ts rest : List Token} {e : Expr}
    (h : plain (readExpression least) ts = .ok (e, rest)) :
    rest.length < ts.length ∧ EndsInfixes least rest := by
  have hreads := forget_eq_ok.1 h
  obtain ⟨_, _, _, _, hends⟩ := expression_derivable hreads
  exact ⟨hreads.left, hends⟩

/-! ## Powers read levels -/

/-- Reading the tokens with a power is reading a phrase of the level of that power. -/
def Descends (ts : List Token) : Prop :=
  ∀ least, plain (readExpression least) ts = plain (Descent.phrase (.ofPower least)) ts

/-- A fault at a token does not depend on what stands behind it. -/
theorem SyntaxFault.unexpected_cons (wanted : Wanted) (t : Token) (us : List Token) :
    unexpected wanted (t :: us) = unexpected wanted [t] := rfl

/-- Behind the left operand of a level stand the operators of that level, when none that is
stronger stands in front.  This holds again behind every right operand, since reading it has
taken all that binds more strongly. -/
theorem joined_descends {op : BinaryOp} {least : Nat} (hlevel : Level.ofPower least = op.level)
    (ts : List Token) (l : Expr) (ih : ∀ us, us.length < ts.length → Descends us)
    (hends : EndsInfixes (InfixOp.binary op).rightPower ts) :
    plain (readInfixes least l) ts = plain (Descent.joined op.level l) ts := by
  have hright := InfixOp.ofPower_rightPower (.binary op)
  cases ts with
  | nil =>
      rw [plain_readInfixes_of_ends (show EndsInfixes least [] from trivial)]
      exact (Descent.plain_joined_nil _ _).symm
  | cons t ts =>
      cases hop : BinaryOp.ofToken? op.level t with
      | none =>
          -- an operator that stands here binds more weakly than the power: it is no stronger than
          -- the level, and it is not of the level
          have hstop : EndsInfixes least (t :: ts) := by
            intro other hother
            have hrank := hends.rank_lt hother
            rw [hright, InfixOp.rightLevel, BinaryOp.rank_next_level] at hrank
            refine Nat.not_le.1 fun hpower => ?_
            rw [InfixOp.le_leftPower_iff, hlevel] at hpower
            have hequal : other.level = op.level := Level.eq_of_rank_eq (by omega)
            obtain ⟨same, rfl, hsame⟩ := InfixOp.binary_of_level hequal
            rw [BinaryOp.ofToken?_eq_some.2 ⟨hother, hsame⟩] at hop
            cases hop
          rw [plain_readInfixes_of_ends hstop]
          exact (Descent.plain_joined_of_none hop ts).symm
      | some other =>
          obtain ⟨hsigns, hother⟩ := BinaryOp.ofToken?_eq_some.1 hop
          have hpower : least ≤ (InfixOp.binary other).leftPower :=
            InfixOp.le_leftPower (hlevel.trans hother.symm)
          -- operators of one level have one right power, so the invariant holds behind `right`
          have hsame : (InfixOp.binary other).rightPower = (InfixOp.binary op).rightPower := by
            rw [← InfixOp.bound_level, ← InfixOp.bound_level]
            exact congrArg Level.bound hother
          rw [plain_readInfixes_of_le hsigns hpower, Descent.plain_joined_of_operator hop]
          refine bind_congr_reader ?_ fun right rest hread => ?_
          · rw [ih ts (Nat.lt_succ_self _), hsame, hright]
            rfl
          · obtain ⟨hshorter, hnext⟩ := expression_stops hread
            have hless : rest.length < (t :: ts).length := Nat.lt_succ_of_lt hshorter
            exact joined_descends hlevel rest _ (fun us hus => ih us (Nat.lt_trans hus hless))
              (hsame ▸ hnext)
termination_by ts.length
decreasing_by
  subst_vars
  exact hless

/-- Behind the left side stands the assigned value, when no operator but the assignment stands
in front. -/
theorem assigned_descends {least : Nat} (hlevel : Level.ofPower least = .assignment)
    (ts : List Token) (l : Expr) (ih : ∀ us, us.length < ts.length → Descends us)
    (hends : EndsInfixes 3 ts) :
    plain (readInfixes least l) ts = plain (Descent.assigned l) ts := by
  cases ts with
  | nil =>
      rw [plain_readInfixes_of_ends (show EndsInfixes least [] from trivial)]
      exact (Descent.plain_assigned_nil _).symm
  | cons t ts =>
      by_cases hsign : t.kind = .assign
      · have hassign : InfixOp.assign.Signs t := hsign
        rw [plain_readInfixes_of_le hassign (InfixOp.le_leftPower hlevel),
          Descent.plain_assigned_of_sign hsign]
        refine bind_congr_reader (ih ts (Nat.lt_succ_self _) _) fun right rest hread => ?_
        obtain ⟨_, hnext⟩ := expression_stops hread
        -- the right side has taken the assignments behind it, so the loop ends here
        exact plain_readInfixes_of_ends (hnext.of_assignment rfl)
      · have hstop : EndsInfixes least (t :: ts) := by
          intro op hop
          have hrank : op.level.rank < 1 := hends.rank_lt hop
          have hassign : op.level = .assignment := Level.eq_of_rank_eq (Nat.lt_one_iff.1 hrank)
          rw [InfixOp.eq_assign_of_level hassign] at hop
          exact absurd hop hsign
        rw [plain_readInfixes_of_ends hstop]
        exact (Descent.plain_assigned_of_ne hsign ts).symm

theorem moreArguments_descends (ts : List Token)
    (ih : ∀ us, us.length ≤ ts.length → Descends us) :
    plain readMoreArguments ts = plain Descent.moreArguments ts := by
  rw [plain_readMoreArguments, Descent.plain_moreArguments]
  refine bind_congr_reader (ih ts (Nat.le_refl _) 0) fun e rest hread => ?_
  have hshorter : rest.length < ts.length := (forget_eq_ok.1 hread).left
  unfold argumentsBehind
  split
  · refine bind_congr_reader ?_ fun es behind _ => rfl
    exact moreArguments_descends rest.tail fun us hus => ih us (by simp at hus; omega)
  · rfl
termination_by ts.length
decreasing_by simp only [List.length_tail]; omega

theorem arguments_descends (ts : List Token) (ih : ∀ us, us.length ≤ ts.length → Descends us) :
    plain readArguments ts = plain Descent.arguments ts := by
  cases hclose : startsWith .rightParen ts with
  | false =>
      rw [plain_readArguments_of_ne hclose, Descent.plain_arguments_of_ne hclose]
      exact moreArguments_descends ts ih
  | true =>
      cases ts with
      | nil => cases hclose
      | cons t ts =>
          have hkind : t.kind = .rightParen := kind_of_startsWith hclose
          rw [plain_readArguments_of_close hkind, Descent.plain_arguments_of_close hkind]

/-- What no prefix operator stands in front of is parentheses, a call or one token. -/
theorem primary_descends (t : Token) (ts : List Token)
    (ih : ∀ us, us.length ≤ ts.length → Descends us) (hnone : UnaryOp.ofToken? t = none) :
    plain readOperand (t :: ts) = plain Descent.primary (t :: ts) := by
  by_cases hp : t.kind = .leftParen
  · rw [plain_readOperand_of_paren hp, Descent.plain_primary_of_paren hp]
    exact bind_congr_reader (ih ts (Nat.le_refl _) 0) fun e rest _ => rfl
  · by_cases hcall : t.kind = .identifier ∧ startsWith .leftParen ts
    · obtain ⟨hk, hopens⟩ := hcall
      cases ts with
      | nil => cases hopens
      | cons paren ts =>
          have hparen : paren.kind = .leftParen := kind_of_startsWith hopens
          rw [plain_readOperand_of_call hk hparen, Descent.plain_primary_of_call hk hparen]
          refine bind_congr_reader ?_ fun args rest _ => rfl
          exact arguments_descends ts fun us hus => ih us (Nat.le_succ_of_le hus)
    · have hname : t.kind = .identifier → startsWith .leftParen ts = false := by
        intro hk
        simpa [hk] using hcall
      rw [Descent.plain_primary_of_atom hp hname]
      by_cases ho : t.kind = .operator
      · have hsymbol : UnaryOp.ofSymbol? t.text = none := by
          simpa [UnaryOp.ofToken?, ho] using hnone
        rw [plain_readOperand_of_symbol ho hsymbol, SyntaxFault.unexpected_cons]
        simp only [readAtom, ho]
        rfl
      · exact plain_readOperand_of_atom ho hp hname

/-- An operand is a phrase of the level of the prefix operators. -/
theorem operand_descends (ts : List Token) (ih : ∀ us, us.length < ts.length → Descends us) :
    plain readOperand ts = plain (Descent.phrase .unary) ts := by
  cases ts with
  | nil =>
      rw [Descent.plain_phrase_unary_nil]
      show forget (readOperand []) = _
      rw [readOperand.eq_def]
      rfl
  | cons t ts =>
      cases hop : UnaryOp.ofToken? t with
      | none =>
          rw [Descent.plain_phrase_unary_of_none hop]
          exact primary_descends t ts (fun us hus => ih us (Nat.lt_succ_of_le hus)) hop
      | some op =>
          have hsign := UnaryOp.ofToken?_eq_some.1 hop
          rw [plain_readOperand_of_operator hsign, Descent.plain_phrase_unary_of_operator hsign]
          refine bind_congr_reader ?_ fun operand rest _ => rfl
          exact ih ts (Nat.lt_succ_self _) prefixPower

/-- Reading with a power of a joining level descends, if reading with the power of its right
operands does. -/
theorem joining_descends (op : BinaryOp) {least : Nat} (hlevel : Level.ofPower least = op.level)
    (ts : List Token) (ih : ∀ us, us.length < ts.length → Descends us)
    (hnext : plain (readExpression (InfixOp.binary op).rightPower) ts =
      plain (Descent.phrase op.level.next) ts) :
    plain (readExpression least) ts = plain (Descent.phrase op.level) ts := by
  have hleft : least ≤ (InfixOp.binary op).leftPower := InfixOp.le_leftPower hlevel
  have hle : least ≤ (InfixOp.binary op).rightPower :=
    Nat.le_trans hleft (by cases op <;> decide)
  rw [expression_through hle, Descent.plain_phrase_joined]
  refine bind_congr_reader hnext fun e rest hread => ?_
  obtain ⟨hshorter, hends⟩ := expression_stops hread
  exact joined_descends hlevel rest e (fun us hus => ih us (Nat.lt_trans hus hshorter)) hends

/-- Reading with a power of the weakest level descends, if reading with the power above the
assignment does. -/
theorem assignment_descends {least : Nat} (hlevel : Level.ofPower least = .assignment)
    (ts : List Token) (ih : ∀ us, us.length < ts.length → Descends us)
    (hnext : plain (readExpression 3) ts = plain (Descent.phrase .equality) ts) :
    plain (readExpression least) ts = plain (Descent.phrase .assignment) ts := by
  have hleft : least ≤ InfixOp.assign.leftPower := InfixOp.le_leftPower hlevel
  rw [expression_through (Nat.le_succ_of_le hleft), Descent.plain_phrase_assignment]
  refine bind_congr_reader hnext fun e rest hread => ?_
  obtain ⟨hshorter, hends⟩ := expression_stops hread
  exact assigned_descends hlevel rest e (fun us hus => ih us (Nat.lt_trans hus hshorter)) hends

/-- With a power above all infix operators nothing is read but an operand. -/
theorem unary_descends {least : Nat} (hlevel : Level.ofPower least = .unary) (ts : List Token)
    (ih : ∀ us, us.length < ts.length → Descends us) :
    plain (readExpression least) ts = plain (Descent.phrase .unary) ts := by
  have hends : ∀ us, EndsInfixes least us := by
    intro us
    cases us with
    | nil => trivial
    | cons u us =>
        intro op _
        refine Nat.not_le.1 fun hpower => ?_
        rw [InfixOp.le_leftPower_iff, hlevel] at hpower
        match op with
        | .assign => exact absurd hpower (by decide)
        | .binary op => cases op <;> exact absurd hpower (by decide)
  rw [plain_readExpression, ← operand_descends ts ih]
  show (plain readOperand ts >>= fun r => plain (readInfixes least r.1) r.2) = _
  simp only [plain_readInfixes_of_ends (hends _)]
  exact bind_pure _

/-- **Whatever the power, reading descends from its level.**  The induction is on the number of
tokens; among as many tokens, the levels are taken from the strongest to the weakest. -/
theorem expression_descends (ts : List Token) : Descends ts := by
  have ih : ∀ us, us.length < ts.length → Descends us := fun us _ => expression_descends us
  have hunary : ∀ least, Level.ofPower least = .unary →
      plain (readExpression least) ts = plain (Descent.phrase .unary) ts :=
    fun least hlevel => unary_descends hlevel ts ih
  have hmultiplicative : ∀ least, Level.ofPower least = .multiplicative →
      plain (readExpression least) ts = plain (Descent.phrase .multiplicative) ts :=
    fun least hlevel => joining_descends .times hlevel ts ih (hunary _ rfl)
  have hadditive : ∀ least, Level.ofPower least = .additive →
      plain (readExpression least) ts = plain (Descent.phrase .additive) ts :=
    fun least hlevel => joining_descends .plus hlevel ts ih (hmultiplicative _ rfl)
  have hequality : ∀ least, Level.ofPower least = .equality →
      plain (readExpression least) ts = plain (Descent.phrase .equality) ts :=
    fun least hlevel => joining_descends .equal hlevel ts ih (hadditive _ rfl)
  intro least
  cases hlevel : Level.ofPower least with
  | assignment => exact assignment_descends hlevel ts ih (hequality _ rfl)
  | equality => exact hequality least hlevel
  | additive => exact hadditive least hlevel
  | multiplicative => exact hmultiplicative least hlevel
  | unary => exact hunary least hlevel
  | primary =>
      have hrank := Level.rank_ofPower_le_unary least
      rw [hlevel] at hrank
      exact absurd hrank (by decide)
termination_by ts.length

/-- **Binding powers compute the levels.**  With every least power and for all tokens, reading
answers as the procedure of the level of the power: with the same tree, spans included, and the
same tokens left, or with the same fault. -/
theorem powers_read_levels (least : Nat) (ts : List Token) :
    readExpression least ts = Descent.phrase (.ofPower least) ts :=
  forget_injective (expression_descends ts least)

end Slate
