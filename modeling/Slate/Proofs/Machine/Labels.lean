import Slate.Proofs.Machine.Leads

/-!
# Labels that are found

Labels are found by how they are written.  So a label leads to the line it stands on
if no other label of the assembly is written alike (`Listing.Unambiguous`).

Labels of control flow cannot be confused with each other: the last three words of
their text tell the number and the construct, and what is before them is the function
(`Label.key_control`).  No other label that the compiler makes up ends in a number
after one of these words.
-/

namespace Slate

/-- The labels that stand among the lines, in order. -/
def labelsOf (lines : List Line) : List Label :=
  lines.filterMap fun
    | .label l => some l
    | .instr _ _ => none

/-- The labels of two pieces are those of the first and those of the second. -/
theorem labelsOf_append (first second : List Line) :
    labelsOf (first ++ second) = labelsOf first ++ labelsOf second :=
  List.filterMap_append

/-- Instructions have no labels. -/
theorem labelsOf_codeLines (code : List Instr) : labelsOf (codeLines code) = [] := by
  induction code with
  | nil => rfl
  | cons i rest ih => exact ih

/-! ## How labels are found -/

/-- What a label is found by: whether it belongs to its routine, and its name or text. -/
def Label.key : Label → Bool × String
  | .inner name => (true, name)
  | l => (false, l.text)

/-- A label names another exactly if they have the same key. -/
theorem Label.names_iff {l other : Label} : l.names other = true ↔ l.key = other.key := by
  cases l <;> cases other <;> simp [Label.names, Label.key]

/-- No two labels of an assembly are confused, and no label of a line with one of
data. -/
structure Listing.Unambiguous (a : Listing) : Prop where
  lines : ((labelsOf a.lines).map Label.key).Nodup
  data : ∀ l ∈ labelsOf a.lines, ∀ i, l.key ≠ (Label.data i).key

namespace Listing.Unambiguous

variable {a : Listing} {l : Label} {i : Nat}

/-- A label is found where it stands. -/
theorem target?_eq (h : a.Unambiguous) (hlabel : a.lines[i]? = some (.label l)) :
    a.target? l = some i := by
  have hapart := List.pairwise_filterMap.1 (List.pairwise_map.1 h.lines)
  obtain ⟨hi, hline⟩ := List.getElem?_eq_some_iff.1 hlabel
  refine List.findIdx?_eq_some_iff_getElem.2 ⟨hi, ?_, ?_⟩
  · rw [hline]
    exact Label.names_iff.2 rfl
  · intro j hj
    have hjlt : j < a.lines.length := by
      omega
    cases hother : a.lines[j] with
    | instr _ _ => simp
    | label other =>
        have hne := List.pairwise_iff_getElem.1 hapart j i hjlt hi hj other (by rw [hother]) l
          (by rw [hline])
        intro hnames
        exact hne (Label.names_iff.1 hnames).symm

/-- The label of a data line stands on no line of code. -/
theorem target?_data (h : a.Unambiguous) (i : Nat) : a.target? (.data i) = none := by
  refine List.findIdx?_eq_none_iff.2 fun line hline => ?_
  cases line with
  | instr _ _ => rfl
  | label other =>
      have hmem : other ∈ labelsOf a.lines := List.mem_filterMap.2 ⟨.label other, hline, rfl⟩
      have hne := h.data other hmem i
      exact Bool.eq_false_iff.2 fun hnames => hne (Label.names_iff.1 hnames).symm

end Listing.Unambiguous

/-! ## How labels are written -/

/-- A text is cut at its last underscore in one way. -/
theorem split_underscore {xs ys ds es : List Char} (h : xs ++ '_' :: ds = ys ++ '_' :: es)
    (hds : '_' ∉ ds) (hes : '_' ∉ es) : xs = ys ∧ ds = es := by
  rcases List.append_eq_append_iff.1 h with ⟨more, hys, hrest⟩ | ⟨more, hxs, hrest⟩
  · cases more with
    | nil => exact ⟨by simpa using hys.symm, by simpa using hrest⟩
    | cons c more =>
        rw [List.cons_append] at hrest
        injection hrest with _ hrest
        exact (hds (hrest ▸ by simp)).elim
  · cases more with
    | nil => exact ⟨by simpa using hxs, by simpa using hrest.symm⟩
    | cons c more =>
        rw [List.cons_append] at hrest
        injection hrest with _ hrest
        exact (hes (hrest ▸ by simp)).elim

/-- The digits of a number have no underscore. -/
theorem not_mem_digits (n : Nat) : '_' ∉ (toString n).toList := by
  show '_' ∉ n.repr.toList
  rw [Nat.toList_repr]
  exact Nat.underscore_not_in_toDigits

/-- Numbers with the same digits are the same. -/
theorem eq_of_digits {i j : Nat} (h : (toString i).toList = (toString j).toList) : i = j := by
  have hdigits : Nat.toDigits 10 i = Nat.toDigits 10 j := by
    rw [← Nat.toList_repr, ← Nat.toList_repr]
    exact h
  rw [← @Nat.ofDigitChars_ten_toDigits i, hdigits, Nat.ofDigitChars_ten_toDigits]

/-- Words of the text of a construct. -/
def Construct.words : Construct → String × String
  | ifEnd => ("if", "end")
  | ifElse => ("if", "else")
  | whileStart => ("while", "start")
  | whileEnd => ("while", "end")

/-- The text of a construct is its two words. -/
theorem Construct.text_eq (c : Construct) :
    c.text.toList = c.words.1.toList ++ '_' :: c.words.2.toList := by
  cases c <;> decide

/-- These have no underscore. -/
theorem Construct.words_plain (c : Construct) :
    '_' ∉ c.words.1.toList ∧ '_' ∉ c.words.2.toList := by
  cases c <;> decide

/-- Constructs with the same words are the same. -/
theorem Construct.eq_of_words {c d : Construct} (h : c.words = d.words) : c = d := by
  cases c <;> cases d <;> first | rfl | exact absurd h (by decide)

/-- The characters of a label of control flow, cut at its last underscore. -/
theorem Label.text_control (function : String) (construct : Construct) (index : Nat) :
    (Label.control function construct index).text.toList =
      (function.toList ++ '_' :: construct.text.toList) ++ '_' :: (toString index).toList := by
  simp [Label.text]

/-- Labels of control flow that are written alike are the same. -/
theorem Label.key_control {f g : String} {c d : Construct} {i j : Nat}
    (h : (Label.control f c i).key = (Label.control g d j).key) :
    f = g ∧ c = d ∧ i = j := by
  have htext : (Label.control f c i).text.toList = (Label.control g d j).text.toList :=
    congrArg (fun key => String.toList key.2) h
  rw [text_control, text_control] at htext
  obtain ⟨hfront, hindex⟩ := split_underscore htext (not_mem_digits i) (not_mem_digits j)
  have hij : i = j := eq_of_digits hindex
  rw [c.text_eq, d.text_eq] at hfront
  have hwords : (f.toList ++ '_' :: c.words.1.toList) ++ '_' :: c.words.2.toList =
      (g.toList ++ '_' :: d.words.1.toList) ++ '_' :: d.words.2.toList := by
    simpa using hfront
  obtain ⟨hkind, hedge⟩ := split_underscore hwords c.words_plain.2 d.words_plain.2
  obtain ⟨hname, hkind⟩ := split_underscore hkind c.words_plain.1 d.words_plain.1
  have hconstruct : c = d :=
    Construct.eq_of_words (Prod.ext (String.toList_injective hkind) (String.toList_injective hedge))
  exact ⟨String.toList_injective hname, hconstruct, hij⟩

/-- A label of data is its word and its number. -/
theorem Label.text_data (i : Nat) :
    (Label.data i).text.toList = "data".toList ++ '_' :: (toString i).toList := by
  simp [Label.text]

/-- Labels of data that are written alike are the same. -/
theorem Label.key_data {i j : Nat} (h : (Label.data i).key = (Label.data j).key) : i = j := by
  have htext : (Label.data i).text.toList = (Label.data j).text.toList :=
    congrArg (fun key => String.toList key.2) h
  rw [text_data, text_data] at htext
  obtain ⟨_, hindex⟩ := split_underscore htext (not_mem_digits i) (not_mem_digits j)
  exact eq_of_digits hindex

/-- A label of control flow is not written like one of data. -/
theorem Label.key_control_ne_data (f : String) (c : Construct) (i j : Nat) :
    (Label.control f c i).key ≠ (Label.data j).key := by
  intro h
  have htext : (Label.control f c i).text.toList = (Label.data j).text.toList :=
    congrArg (fun key => String.toList key.2) h
  rw [text_control, text_data] at htext
  obtain ⟨hfront, _⟩ := split_underscore htext (not_mem_digits i) (not_mem_digits j)
  have hmem : '_' ∈ "data".toList := by
    rw [← hfront]
    simp
  exact absurd hmem (by decide)

/-- The entry label does not end in a number. -/
theorem Label.text_entry_ne {front : List Char} (i : Nat) :
    Label.entry.text.toList ≠ front ++ '_' :: (toString i).toList := by
  intro h
  have hentry : Label.entry.text.toList = [] ++ '_' :: "start".toList := by
    decide
  rw [hentry] at h
  obtain ⟨_, hword⟩ := split_underscore h (by decide) (not_mem_digits i)
  have hdigit : 's' ∈ Nat.toDigits 10 i := by
    rw [← Nat.toList_repr]
    show 's' ∈ (toString i).toList
    rw [← hword]
    decide
  have hno := Nat.isDigit_of_mem_toDigits (by decide) (by decide) hdigit
  exact absurd hno (by decide)

/-- The data line of a literal. -/
theorem Assembly.listing_data {a : Assembly} {i : Nat} {s : String}
    (h : a.literals[i]? = some s) :
    a.listing.data[i]? = some ((Label.data i).text, dataBytes s) := by
  unfold listing
  rw [List.getElem?_mapIdx, h]
  rfl

/-- The number of the data line that a label of data stands on. -/
theorem Assembly.datum?_eq {a : Assembly} {i : Nat} (hi : i < a.literals.length) :
    a.listing.datum? (.data i) = some i := by
  have hlength : a.listing.data.length = a.literals.length := List.length_mapIdx
  have hlabel : ∀ j (hj : j < a.listing.data.length),
      (a.listing.data[j]).1 = (Label.data j).text := by
    intro j hj
    simp [listing]
  refine List.findIdx?_eq_some_iff_getElem.2 ⟨by omega, ?_, ?_⟩
  · rw [hlabel]
    exact Label.names_iff.2 rfl
  · intro j hj hnames
    rw [hlabel] at hnames
    have hij := Label.key_data (Label.names_iff.1 hnames)
    omega

end Slate
