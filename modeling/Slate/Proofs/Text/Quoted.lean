import Mathlib.Tactic.Common
import Slate.Text.Quoted

/-!
# Quoted text can be read back

What stands for a character inside quotes tells the character, whatever follows
(`unquoteChar`): a backslash announces a short name, or the code point between braces, and
every other character stands for itself.  None of these begins with a double quote, so the
first one that is not named ends the text.

So a quoted text is nowhere the beginning of another one (`quote_append_inj`).
-/

namespace Slate.Text

/-! ## Code points -/

/-- The value of a hexadecimal digit. -/
def hexDigit (c : Char) : Nat := if c.isDigit then c.toNat - '0'.toNat else c.toNat - 'a'.toNat + 10

/-- The number that hexadecimal digits stand for. -/
def hexValue (digits : List Char) : Nat := digits.foldl (fun n c => 16 * n + hexDigit c) 0

/-- A digit is read as its value. -/
theorem hexDigit_digitChar : ∀ d < 16, hexDigit (Nat.digitChar d) = d := by decide

/-- It is no brace. -/
theorem digitChar_ne_brace : ∀ d < 16, Nat.digitChar d ≠ '\x7d' := by decide

/-- One more digit makes the value sixteen times as large, and more by the digit. -/
theorem hexValue_append (digits : List Char) (c : Char) :
    hexValue (digits ++ [c]) = 16 * hexValue digits + hexDigit c := by
  simp only [hexValue, List.foldl_append, List.foldl_cons, List.foldl_nil]

/-- Hexadecimal digits are read back. -/
theorem hexValue_toDigits (n : Nat) : hexValue (Nat.toDigits 16 n) = n := by
  induction n using Nat.strongRecOn with
  | ind n ih =>
      rw [Nat.toDigits_eq_if (by decide)]
      split
      · next hlt => simp [hexValue, hexDigit_digitChar n hlt]
      · next hge =>
        have hdigit := hexDigit_digitChar (n % 16) (Nat.mod_lt n (by decide))
        rw [hexValue_append, ih (n / 16) (by omega), hdigit]
        omega

/-- There is no brace among the digits of a number. -/
theorem brace_not_mem_toDigits (n : Nat) : '\x7d' ∉ Nat.toDigits 16 n := by
  induction n using Nat.strongRecOn with
  | ind n ih =>
      rw [Nat.toDigits_eq_if (by decide)]
      split
      · next hlt => simp [(digitChar_ne_brace n hlt).symm]
      · next hge =>
        have hdigit := digitChar_ne_brace (n % 16) (Nat.mod_lt n (by decide))
        simpa [hdigit.symm] using ih (n / 16) (by omega)

/-! ## Characters -/

/-- What a backslash and the text behind it stand for, and what is left of the text. -/
def unescape : List Char → Option (Char × List Char)
  | '0' :: rest => some ('\x00', rest)
  | 't' :: rest => some ('\t', rest)
  | 'n' :: rest => some ('\n', rest)
  | 'r' :: rest => some ('\r', rest)
  | 'u' :: '\x7b' :: rest =>
    let digits := rest.takeWhile (· ≠ '\x7d')
    some (Char.ofNat (hexValue digits), rest.drop (digits.length + 1))
  | c :: rest => some (c, rest)
  | [] => none

/-- The first character that is meant inside quotes, and what is left of the text. -/
def unquoteChar : List Char → Option (Char × List Char)
  | [] => none
  | c :: rest => if c = '"' then none else if c = '\\' then unescape rest else some (c, rest)

/-- A code point between braces is read back. -/
theorem unescape_hidden (c : Char) (rest : List Char) :
    unescape ('u' :: '\x7b' :: (Nat.toDigits 16 c.toNat ++ '\x7d' :: rest)) = some (c, rest) := by
  have hdigits : (Nat.toDigits 16 c.toNat ++ '\x7d' :: rest).takeWhile (· ≠ '\x7d') =
      Nat.toDigits 16 c.toNat := by
    have hall : ∀ d ∈ Nat.toDigits 16 c.toNat, decide (d ≠ '\x7d') = true := by
      rintro d hd
      exact decide_eq_true fun heq => brace_not_mem_toDigits _ (heq ▸ hd)
    rw [List.takeWhile_append_of_pos hall]
    simp
  simp only [unescape, hdigits, hexValue_toDigits, Char.ofNat_toNat]
  simp

/-- What stands for a character is read back as this character. -/
theorem unquoteChar_append (c : Char) (rest : List Char) :
    unquoteChar (quoteChar c ++ rest) = some (c, rest) := by
  unfold quoteChar
  split
  · next h => subst h; rfl
  split
  · next h => subst h; rfl
  split
  · next h => subst h; rfl
  split
  · next h => subst h; rfl
  split
  · next h => subst h; rfl
  split
  · next h => subst h; rfl
  split
  · simp only [List.append_assoc, List.cons_append, List.nil_append]
    exact unescape_hidden c rest
  · next hquote hbackslash _ => simp [unquoteChar, hquote, hbackslash]

/-! ## Texts -/

/-- The first character of what is quoted is read back. -/
theorem unquoteChar_cons (c : Char) (cs rest : List Char) :
    unquoteChar ((c :: cs).flatMap quoteChar ++ rest) =
      some (c, cs.flatMap quoteChar ++ rest) := by
  rw [List.flatMap_cons, List.append_assoc, unquoteChar_append]

/-- Two texts that are quoted alike are the same, and so is what follows them. -/
theorem quoteChars_inj {cs ds u v : List Char}
    (h : cs.flatMap quoteChar ++ '"' :: u = ds.flatMap quoteChar ++ '"' :: v) :
    cs = ds ∧ u = v := by
  induction cs generalizing ds with
  | nil =>
      cases ds with
      | nil => exact ⟨rfl, (List.cons.inj h).2⟩
      | cons d ds =>
          have hread : none = some _ := (congrArg unquoteChar h).trans (unquoteChar_cons d ds _)
          cases hread
  | cons c cs ih =>
      cases ds with
      | nil =>
          have hread : some _ = none :=
            (unquoteChar_cons c cs _).symm.trans (congrArg unquoteChar h)
          cases hread
      | cons d ds =>
          have hread := congrArg unquoteChar h
          rw [unquoteChar_cons, unquoteChar_cons] at hread
          obtain ⟨rfl, hmore⟩ := Prod.mk.inj (Option.some.inj hread)
          obtain ⟨rfl, hrest⟩ := ih hmore
          exact ⟨rfl, hrest⟩

/-- What is quoted is its characters, one by one, between two quotes. -/
theorem quote_toList (s : String) :
    (quote s).toList = '"' :: (s.toList.flatMap quoteChar ++ ['"']) := by
  simp [quote]

/-- **A quoted text ends where it ends.**  Where two of them begin the same text, they are the
same and so is what follows. -/
theorem quote_append_inj {s t : String} {u v : List Char}
    (h : (quote s).toList ++ u = (quote t).toList ++ v) : s = t ∧ u = v := by
  simp only [quote_toList, List.cons_append, List.append_assoc, List.cons.injEq, true_and,
    List.nil_append] at h
  obtain ⟨hchars, hrest⟩ := quoteChars_inj h
  exact ⟨String.toList_injective hchars, hrest⟩

end Slate.Text
