import Slate.Proofs.Grammar.Reads
import Slate.Proofs.Tree.Spanless

/-!
# Levels and binding powers

The reader of expressions knows no levels, only binding powers.  The bridge is
`Level.ofPower`: reading with a least power reads a phrase of the level of that
power.

* `bound_level`, `rank_leftLevel_le` — an operator whose power to the left is
  below the bound of a phrase can have that phrase as its left operand, and the
  bound of what it makes is its power to the right;
* `ofPower_rightPower`, `rank_ofPower_le` — its right operand is read at its
  right level, and what it makes is of the level that is being read;
* `InfixOp.le_leftPower_iff` — an operator is read exactly if its level is not weaker than
  the one that is being read, so powers of one level read the same.
-/

namespace Slate

namespace Level

/-- How strongly the level binds. -/
def rank : Level → Nat
  | assignment => 0
  | equality => 1
  | additive => 2
  | multiplicative => 3
  | unary => 4
  | primary => 5

/-- The level that is read with a least power. -/
def ofPower (power : Nat) : Level :=
  if power ≤ 2 then assignment
  else if power ≤ 3 then equality
  else if power ≤ 5 then additive
  else if power ≤ 7 then multiplicative
  else unary

/-- What an infix operator behind a phrase of the level has to stay below. -/
def bound : Level → Nat
  | assignment => 1
  | equality => 4
  | additive => 6
  | multiplicative => 8
  | unary => 9
  | primary => 9

theorem rank_le_five (level : Level) : level.rank ≤ 5 := by
  cases level <;> decide

/-- The next level is one rank stronger. -/
theorem rank_next {level : Level} (h : level.rank < 5) : level.next.rank = level.rank + 1 := by
  cases level <;> first | rfl | exact absurd h (by decide)

/-- Levels of the same rank are the same. -/
theorem eq_of_rank_eq {level other : Level} (h : level.rank = other.rank) : level = other := by
  cases level <;> cases other <;> first | rfl | exact absurd h (by decide)

end Level

/-- The level of the phrases that an infix operator makes. -/
def InfixOp.level : InfixOp → Level
  | assign => .assignment
  | binary op => op.level

/-- The level of what stands to the left of an infix operator. -/
def InfixOp.leftLevel : InfixOp → Level
  | assign => .equality
  | binary op => op.level

/-- The level of what stands to the right of an infix operator. -/
def InfixOp.rightLevel : InfixOp → Level
  | assign => .assignment
  | binary op => op.level.next

/-- A phrase of a stronger level is one of every weaker level. -/
theorem DerivesExpr.weaken {level weaker : Level} {ts : List Token} {e : Expr}
    (h : DerivesExpr level ts e) (hle : weaker.rank ≤ level.rank) : DerivesExpr weaker ts e := by
  obtain ⟨d, hd⟩ : ∃ d, level.rank = weaker.rank + d := ⟨level.rank - weaker.rank, by omega⟩
  induction d generalizing weaker with
  | zero =>
      rw [Level.eq_of_rank_eq (show weaker.rank = level.rank by omega)]
      exact h
  | succ d ih =>
      have hfive := level.rank_le_five
      have hlt : weaker.rank < Level.primary.rank := by
        show weaker.rank < 5
        omega
      have hnext : weaker.next.rank = weaker.rank + 1 := Level.rank_next hlt
      have hweaker : weaker ≠ .primary := by
        rintro rfl
        exact Nat.lt_irrefl _ hlt
      exact .next hweaker (ih (by omega) (by omega))

/-- An infix operator joins a phrase of its left level and one of its right level. -/
theorem DerivesExpr.joined {op : InfixOp} {t : Token} {ls rs : List Token} {l r : Expr}
    (hl : DerivesExpr op.leftLevel ls l.spanless) (ht : op.Signs t)
    (hr : DerivesExpr op.rightLevel rs r.spanless) :
    DerivesExpr op.level (ls ++ t :: rs) (op.tree l r).spanless :=
  match op, ht with
  | .assign, ht => .assign hl ht hr
  | .binary _, ht => .binary hl ht hr

/-- The right operand is read with the power of its level. -/
theorem InfixOp.ofPower_rightPower (op : InfixOp) :
    Level.ofPower op.rightPower = op.rightLevel := by
  match op with
  | .assign => rfl
  | .binary op => cases op <;> rfl

/-- Behind a phrase that an operator has made, the next one has to stay below the
power with which its right operand was read. -/
theorem InfixOp.bound_level (op : InfixOp) : op.level.bound = op.rightPower := by
  match op with
  | .assign => rfl
  | .binary op => cases op <;> rfl

/-- An operator that may follow a phrase can have it as its left operand. -/
theorem InfixOp.rank_leftLevel_le {op : InfixOp} {level : Level} (h : op.leftPower < level.bound) :
    op.leftLevel.rank ≤ level.rank := by
  match op with
  | .assign => cases level <;> first | decide | exact absurd h (by decide)
  | .binary op => cases op <;> cases level <;> first | decide | exact absurd h (by decide)

/-- An operator that binds strongly enough makes a phrase of the level that is read. -/
theorem InfixOp.rank_ofPower_le {op : InfixOp} {least : Nat} (h : least ≤ op.leftPower) :
    (Level.ofPower least).rank ≤ op.level.rank := by
  have hp : op.leftPower ≤ 7 := by
    match op with
    | .assign => decide
    | .binary op => cases op <;> decide
  have hseven : least ≤ 7 := Nat.le_trans h hp
  revert h
  match op with
  | .assign =>
      intro h
      have : least ≤ 2 := h
      simp [Level.ofPower, this, InfixOp.level]
  | .binary op =>
      cases op <;> intro h <;> simp only [InfixOp.leftPower] at h <;>
        simp only [Level.ofPower, InfixOp.level, BinaryOp.level] <;>
        (repeat' split) <;> simp only [Level.rank] <;> omega

/-- Every level that is read is at most as strong as an operand. -/
theorem Level.rank_ofPower_le_unary (least : Nat) :
    (Level.ofPower least).rank ≤ Level.unary.rank := by
  simp only [Level.ofPower]
  (repeat' split) <;> decide

namespace InfixOp

/-- An operator binds at least as strongly as a power when its level is at least as strong as
the level of that power. -/
theorem le_leftPower_iff {op : InfixOp} {least : Nat} :
    least ≤ op.leftPower ↔ (Level.ofPower least).rank ≤ op.level.rank := by
  refine ⟨rank_ofPower_le, ?_⟩
  intro h
  simp only [Level.ofPower] at h
  match op with
  | .assign =>
      simp only [leftPower, level] at h ⊢
      (repeat' split at h) <;> simp only [Level.rank] at h <;> omega
  | .binary op =>
      cases op <;> simp only [leftPower, level, BinaryOp.level] at h ⊢ <;>
        (repeat' split at h) <;> simp only [Level.rank] at h <;> omega

/-- The operators of the level that is read are read. -/
theorem le_leftPower {op : InfixOp} {least : Nat} (h : Level.ofPower least = op.level) :
    least ≤ op.leftPower :=
  le_leftPower_iff.2 (h ▸ Nat.le_refl _)

/-- What makes a phrase of the level of a binary operator is a binary operator. -/
theorem binary_of_level {op : InfixOp} {other : BinaryOp} (h : op.level = other.level) :
    ∃ same : BinaryOp, op = .binary same ∧ same.level = other.level := by
  match op with
  | .assign => cases other <;> cases h
  | .binary same => exact ⟨same, rfl, h⟩

/-- Assignment is the only operator of its level. -/
theorem eq_assign_of_level {op : InfixOp} (h : op.level = .assignment) : op = .assign := by
  match op with
  | .assign => rfl
  | .binary op => cases op <;> cases h

end InfixOp

/-- The level next to that of a binary operator is one rank stronger. -/
theorem BinaryOp.rank_next_level (op : BinaryOp) : op.level.next.rank = op.level.rank + 1 := by
  cases op <;> rfl

/-- An operator that ends the infixes is of a weaker level than the one that is read. -/
theorem EndsInfixes.rank_lt {power : Nat} {t : Token} {us : List Token} {op : InfixOp}
    (h : EndsInfixes power (t :: us)) (hop : op.Signs t) :
    op.level.rank < (Level.ofPower power).rank := by
  have hweaker := Nat.not_le.2 (h op hop)
  rw [InfixOp.le_leftPower_iff] at hweaker
  exact Nat.not_le.1 hweaker

/-- Behind a phrase of the weakest level no infix operator stands. -/
theorem EndsInfixes.of_assignment {power least : Nat} {ts : List Token} (h : EndsInfixes power ts)
    (hlevel : Level.ofPower power = .assignment) : EndsInfixes least ts := by
  cases ts with
  | nil => trivial
  | cons t ts =>
      intro op hop
      have hrank := h.rank_lt hop
      rw [hlevel] at hrank
      exact absurd hrank (Nat.not_lt_zero _)

end Slate
