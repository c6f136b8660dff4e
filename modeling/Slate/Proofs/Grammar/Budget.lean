import Slate.Proofs.Grammar.Prompt

/-!
# Reading within a budget

The readers of the grammar recur on the number of tokens, so none of them can loop; but their
recursion hides how often a loop of the grammar goes round and how deeply phrases lie inside
each other.  Here is the grammar once more with both in sight.  A list of phrases is read by a
loop that counts its rounds (`rounds`), a phrase inside a phrase takes one from a count of
levels (`Budget.expression` and the readers beside it), and a reader that has used up either
gives up, which is neither an answer nor a fault.

* `rounds_eq`, `untilEnd_eq` — a loop answers as a reader does, if every single round agrees
  with the reader (`Turn`) and there are rounds enough for the tokens.
* `Comes.bind` — one reader after another stays within its budget if each does.
-/

namespace Slate

variable {σ α β : Type}

/-- A reader that may give up. -/
abbrev Attempt (α : Type) := StateT (List Token) (ExceptT SyntaxFault Option) α

/-- The reader that gives up. -/
def exhausted : Attempt α := fun _ => ExceptT.mk none

/-- A reader that does not give up. -/
def Reader.attempt (r : Reader α) : Attempt α := fun ts => ExceptT.mk (some (r ts))

/-- A fault. -/
def refuse (f : SyntaxFault) : Attempt α := fun _ => ExceptT.mk (some (.error f))

/-- A loop that gives up instead of going into one round more.  A round goes on with a state,
or ends the loop with an answer. -/
def rounds (round : σ → Attempt (σ ⊕ α)) : Nat → σ → Attempt α
  | 0, _ => exhausted
  | more + 1, s => do
    match ← round s with
    | .inl s => rounds round more s
    | .inr a => pure a

/-- A loop that goes on as long as tokens are left, and gives up instead of going into one
round more. -/
def untilEnd (round : σ → Attempt σ) : Nat → σ → Attempt σ
  | 0, s => fun ts => if ts.isEmpty then (pure s : Attempt σ) ts else exhausted ts
  | more + 1, s => fun ts =>
    if ts.isEmpty then (pure s : Attempt σ) ts
    else
      (do
        let s ← round s
        untilEnd round more s : Attempt σ) ts

/-! ## Staying within the budget -/

/-- The attempt does not give up on the tokens, and answers as the reader does. -/
def Comes (a : Attempt α) (r : Reader α) (ts : List Token) : Prop :=
  a ts = ExceptT.mk (some (r ts))

namespace Comes

variable {a a' : Attempt α} {r r' : Reader α} {ts us : List Token}

theorem attempt (r : Reader α) (ts : List Token) : Comes r.attempt r ts := rfl

theorem answer (x : α) (ts : List Token) : Comes (pure x) (pure x) ts := rfl

/-- Readers that go on with others. -/
theorem congr (h : Comes a' r' us) (ha : a ts = a' us) (hr : r ts = r' us) : Comes a r ts :=
  ha.trans (h.trans (congrArg (fun x => ExceptT.mk (some x)) hr.symm))

/-- An attempt with another one in its place. -/
theorem same (h : Comes a' r ts) (ha : a ts = a' ts) : Comes a r ts := h.congr ha rfl

/-- A reader that fails. -/
theorem refused {f : SyntaxFault} (ha : a ts = refuse f ts) (hr : r ts = .error f) :
    Comes a r ts :=
  ha.trans (congrArg (fun x => ExceptT.mk (some x)) hr.symm)

/-- **One reader after another.** -/
theorem bind {k : α → Attempt β} {l : α → Reader β} (h : Comes a r ts)
    (hk : ∀ x rest, r ts = .ok (x, rest) → Comes (k x) (l x) rest) :
    Comes (a >>= k) (r >>= l) ts := by
  show (a ts >>= fun x => k x.1 x.2) = ExceptT.mk (some (r ts >>= fun x => l x.1 x.2))
  rw [h]
  cases hr : r ts with
  | error f => rfl
  | ok x => exact hk x.1 x.2 hr

/-- A reader behind one that cannot give up. -/
theorem behind {k : α → Attempt β} {l : α → Reader β}
    (hk : ∀ x rest, r ts = .ok (x, rest) → Comes (k x) (l x) rest) :
    Comes (r.attempt >>= k) (r >>= l) ts :=
  (attempt r ts).bind hk

/-- A decision by the tokens, and what goes on with some of them in each case. -/
theorem decided {b : List Token → Bool} {f g : List Token → List Token}
    (hyes : b ts = true → Comes a r (f ts)) (hno : b ts = false → Comes a' r' (g ts)) :
    Comes (fun us => if b us then a (f us) else a' (g us))
      (fun us => if b us then r (f us) else r' (g us)) ts := by
  cases hb : b ts with
  | true => exact (hyes hb).congr (if_pos hb) (if_pos hb)
  | false =>
      have hn : ¬ b ts = true := Bool.eq_false_iff.1 hb
      exact (hno hb).congr (if_neg hn) (if_neg hn)

end Comes

/-! ## Loops -/

/-- What one round of a loop makes of its tokens, beside what the reader makes of them: it
ends the loop with the answer of the reader, it goes on in a state where the reader goes on
and with fewer tokens, or it fails as the reader does. -/
inductive Turn (r : σ → Reader α) (n : Nat) :
    ExceptT SyntaxFault Option ((σ ⊕ α) × List Token) →
      Except SyntaxFault (α × List Token) → Prop
  | ends (a : α) (rest : List Token) :
      Turn r n (ExceptT.mk (some (.ok (.inr a, rest)))) (.ok (a, rest))
  | goesOn (s : σ) {rest : List Token} (fewer : rest.length < n) :
      Turn r n (ExceptT.mk (some (.ok (.inl s, rest)))) (r s rest)
  | fails (f : SyntaxFault) : Turn r n (ExceptT.mk (some (.error f))) (.error f)

/-- A round that starts with a phrase. -/
theorem Turn.bind {r : σ → Reader α} {n : Nat} {a : Attempt β} {p : Reader β}
    {k : β → Attempt (σ ⊕ α)} {l : β → Reader α} {ts : List Token} (h : Comes a p ts)
    (hk : ∀ x rest, p ts = .ok (x, rest) → Turn r n (k x rest) (l x rest)) :
    Turn r n ((a >>= k) ts) ((p >>= l) ts) := by
  show Turn r n (a ts >>= fun x => k x.1 x.2) (p ts >>= fun x => l x.1 x.2)
  rw [h]
  cases hp : p ts with
  | error f => exact .fails f
  | ok x => exact hk x.1 x.2 hp

/-- **A loop takes no more rounds than there are tokens**, and one for the end, if every round
that goes on takes a token. -/
theorem rounds_eq {round : σ → Attempt (σ ⊕ α)} {r : σ → Reader α} {n : Nat}
    (hturn : ∀ s ts, ts.length < n → Turn r ts.length (round s ts) (r s ts)) (s : σ)
    (ts : List Token) (hn : ts.length < n) : Comes (rounds round n s) (r s) ts := by
  induction n generalizing s ts with
  | zero => exact (Nat.not_lt_zero _ hn).elim
  | succ n ih =>
      have hrest : ∀ s us, us.length < n → Turn r us.length (round s us) (r s us) :=
        fun s us hus => hturn s us (Nat.lt_succ_of_lt hus)
      have hround := hturn s ts hn
      show (round s ts >>= fun x => _) = ExceptT.mk (some (r s ts))
      generalize round s ts = x, r s ts = y at hround ⊢
      cases hround with
      | ends a rest => rfl
      | goesOn t fewer => exact ih hrest t _ (Nat.lt_of_lt_of_le fewer (Nat.le_of_lt_succ hn))
      | fails f => rfl

/-- **A loop to the end of the tokens takes no more rounds than there are tokens**, if the
reader reads one phrase after the other, and every phrase takes a token. -/
theorem untilEnd_eq {round : σ → Attempt σ} {p : σ → Reader σ} {r : σ → Reader σ} {n : Nat}
    (hend : ∀ s, r s [] = .ok (s, []))
    (hnext : ∀ s t ts, r s (t :: ts) = (p s >>= r) (t :: ts))
    (htakes : ∀ s ts s' rest, p s ts = .ok (s', rest) → rest.length < ts.length)
    (hround : ∀ s ts, ts.length ≤ n → Comes (round s) (p s) ts) (s : σ) (ts : List Token)
    (hn : ts.length ≤ n) : Comes (untilEnd round n s) (r s) ts := by
  induction n generalizing s ts with
  | zero =>
      obtain rfl := List.length_eq_zero_iff.1 (Nat.le_zero.1 hn)
      show _ = ExceptT.mk (some (r s []))
      rw [hend]
      rfl
  | succ n ih =>
      cases ts with
      | nil =>
          show _ = ExceptT.mk (some (r s []))
          rw [hend]
          rfl
      | cons t ts =>
          refine .congr ((hround s (t :: ts) hn).bind fun s' rest hs => ?_) rfl (hnext s t ts)
          have hshorter := htakes s (t :: ts) s' rest hs
          have hfewer : ∀ s us, us.length ≤ n → Comes (round s) (p s) us :=
            fun s us hus => hround s us (Nat.le_succ_of_le hus)
          exact ih hfewer s' rest (Nat.le_of_lt_succ (Nat.lt_of_lt_of_le hshorter hn))

end Slate
