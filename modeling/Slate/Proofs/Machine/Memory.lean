import Slate.Proofs.Machine.Basic

/-!
# Reading what was written

A word that is stored is read back where it was stored, and every byte outside of it
stays.  All further statements on memory are about single bytes, so what is known to
stay can be put together from several stores without looking at words.

* `Memory.word_setWord` — the word that was stored.
* `Memory.setWord_apart` — the bytes beside it.
-/

namespace Slate.Memory

variable {memory other : Memory} {p q : Nat}

/-- The word that was stored is read back. -/
theorem word_setWord (memory : Memory) (p : Nat) (w : Word) :
    (memory.setWord p w).word p = w := by
  have hw : w.toNat < 2 ^ 32 := w.isLt
  apply BitVec.eq_of_toNat_eq
  simp only [word, setWord, BitVec.toNat_ofNat]
  simp
  omega

/-- The bytes beside a word that is stored stay. -/
theorem setWord_apart (w : Word) (h : q < p ∨ p + 4 ≤ q) : (memory.setWord p w) q = memory q := by
  unfold setWord
  rw [if_neg (by omega), if_neg (by omega), if_neg (by omega), if_neg (by omega)]

theorem setByte_same (memory : Memory) (p : Nat) (b : UInt8) : (memory.setByte p b) p = b := by
  simp [setByte]

theorem setByte_apart (b : UInt8) (h : q ≠ p) : (memory.setByte p b) q = memory q := by
  simp [setByte, h]

/-- A word is read from its four bytes. -/
theorem word_congr (h : ∀ q, p ≤ q → q < p + 4 → memory q = other q) :
    memory.word p = other.word p := by
  unfold word
  rw [h p (by omega) (by omega), h (p + 1) (by omega) (by omega),
    h (p + 2) (by omega) (by omega), h (p + 3) (by omega) (by omega)]

/-- A word beside one that is stored stays. -/
theorem word_setWord_apart (w : Word) (h : q + 4 ≤ p ∨ p + 4 ≤ q) :
    (memory.setWord p w).word q = memory.word q :=
  word_congr fun _ hlow hhigh => setWord_apart w (by omega)

/-- The bytes that are read are those that lie there. -/
theorem bytes_eq {bs : List UInt8} {count : Nat} (hcount : count ≤ bs.length)
    (h : ∀ k b, bs[k]? = some b → k < count → memory (p + k) = b) :
    memory.bytes p count = ⟨(bs.take count).toArray⟩ := by
  unfold bytes
  congr 1
  apply Array.ext
  · simp [hcount]
  · intro i hi _
    have hlt : i < count := by
      simpa using hi
    have hbound : i < bs.length := by
      omega
    have hbyte := h i bs[i] (List.getElem?_eq_getElem hbound) hlt
    simpa using hbyte

end Slate.Memory
