import Slate.FrontEnd
import Slate.Proofs.Grammar.Acceptance
import Slate.Proofs.Typing.Checked
import Slate.Typing.Elaboration

/-!
# Accepted programs are well typed

The front end reads a program, so its names are distinct and its trees are as read,
and checks each of its functions against the signatures of all.  What it answers
with is therefore a well-typed program: a check keeps names and signatures, so the
checked functions are typed against the signatures that they have themselves.

From here on nothing depends on how a program was read or checked.
-/

namespace Slate

/-! ## Lists by name -/

/-- What is looked up is in the list. -/
theorem mem_of_lookup {β : Type} {pairs : List (String × β)} {name : String} {b : β}
    (h : pairs.lookup name = some b) : (name, b) ∈ pairs := by
  obtain ⟨before, after, heq, _⟩ := List.lookup_eq_some_iff.1 h
  rw [heq]
  simp

/-- What has a name of its own is found under it. -/
theorem find?_eq_some_of_mem {α : Type} {name : α → String} {xs : List α} {x : α}
    (hnodup : (xs.map name).Nodup) (hx : x ∈ xs) : xs.find? (name · = name x) = some x := by
  induction xs with
  | nil => cases hx
  | cons y ys ih =>
      obtain ⟨hnew, hrest⟩ := List.nodup_cons.1 hnodup
      rcases List.mem_cons.1 hx with rfl | hmem
      · simp
      · have hne : name y ≠ name x := by
          intro heq
          exact hnew (heq ▸ List.mem_map.2 ⟨x, hmem, rfl⟩)
        rw [List.find?_cons_of_neg (by simpa using hne)]
        exact ih hrest hmem

/-! ## Functions and their signatures -/

variable {p : Program} {f : Function} {name : String}

/-- A function that is found is one of the program, under its name. -/
theorem function?_eq_some (h : p.function? name = some f) : f ∈ p.functions ∧ f.name = name := by
  refine ⟨List.mem_of_find?_eq_some h, ?_⟩
  simpa using List.find?_some h

/-- A signature that is known is that of a function. -/
theorem mem_of_signatures {signature : Signature} (h : p.signatures.lookup name = some signature) :
    ∃ f ∈ p.functions, f.name = name ∧ f.signature = signature := by
  have hmem := mem_of_lookup h
  rw [Program.signatures, List.mem_reverse] at hmem
  obtain ⟨f, hf, heq⟩ := List.mem_map.1 hmem
  cases heq
  exact ⟨f, hf, rfl, rfl⟩

/-- Where names are distinct, a name has the signature of its function. -/
theorem lookup_signature_of_nodup (hnames : (p.functions.map Function.name).Nodup)
    (hf : f ∈ p.functions) : p.signatures.lookup f.name = some f.signature := by
  have hmem : (f.name, f.signature) ∈ p.signatures := by
    rw [Program.signatures, List.mem_reverse]
    exact List.mem_map.2 ⟨f, hf, rfl⟩
  cases hlookup : p.signatures.lookup f.name with
  | none =>
      have hno := List.lookup_eq_none_iff.1 hlookup (f.name, f.signature) hmem
      simp at hno
  | some signature =>
      obtain ⟨g, hg, hname, rfl⟩ := mem_of_signatures hlookup
      have hsame : some g = some f := by
        rw [← find?_eq_some_of_mem hnames hg, ← find?_eq_some_of_mem hnames hf, hname]
      cases hsame
      rfl

namespace TypedProgram

/-- A function of the program is found by its name. -/
theorem function?_of_mem (hp : TypedProgram p) (hf : f ∈ p.functions) :
    p.function? f.name = some f :=
  find?_eq_some_of_mem hp.distinct hf

/-- A name with a signature is the name of a function with this signature. -/
theorem function?_of_signature (hp : TypedProgram p) {signature : Signature}
    (h : p.signatures.lookup name = some signature) :
    ∃ f, p.function? name = some f ∧ f.signature = signature := by
  obtain ⟨f, hf, rfl, hsignature⟩ := mem_of_signatures h
  exact ⟨f, hp.function?_of_mem hf, hsignature⟩

/-- A declared function has the signature that it declares. -/
theorem lookup_signature (hp : TypedProgram p) (hf : f ∈ p.functions) :
    p.signatures.lookup f.name = some f.signature :=
  lookup_signature_of_nodup hp.distinct hf

end TypedProgram

/-! ## The check of a program -/

/-- A check of functions that passes has passed every one of them. -/
theorem checkFunctions_eq_ok {signatures : Signatures} {fs gs : List Function}
    (h : checkFunctions signatures fs = .ok gs) :
    gs = fs.map (fun f => (f.check signatures).1) ∧
      ∀ f ∈ fs, (f.check signatures).2 = .ok () := by
  induction fs generalizing gs with
  | nil =>
      cases h
      exact ⟨rfl, List.forall_mem_nil _⟩
  | cons f fs ih =>
      simp only [checkFunctions] at h
      split at h
      · cases h
      · next g hcheck =>
        cases hrest : checkFunctions signatures fs with
        | error fault => simp [hrest, Except.map] at h
        | ok others =>
            rw [hrest] at h
            cases h
            obtain ⟨rfl, hall⟩ := ih hrest
            exact ⟨by simp [hcheck], List.forall_mem_cons.2 ⟨by rw [hcheck], hall⟩⟩

/-- Functions that pass one by one pass together. -/
theorem checkFunctions_of_passes {signatures : Signatures} {fs : List Function}
    (h : ∀ f ∈ fs, (f.check signatures).2 = .ok ()) :
    checkFunctions signatures fs = .ok (fs.map fun f => (f.check signatures).1) := by
  induction fs with
  | nil => rfl
  | cons f fs ih =>
      obtain ⟨hf, hfs⟩ := List.forall_mem_cons.1 h
      rcases hcheck : f.check signatures with ⟨g, verdict⟩
      rw [hcheck] at hf
      cases hf
      simp [checkFunctions, hcheck, ih hfs, Except.map]

/-- A program passes exactly if each of its functions does, and then these are left. -/
theorem Program.check_eq_ok {q : Program} :
    p.check = .ok q ↔ (∀ f ∈ p.functions, (f.check p.signatures).2 = .ok ()) ∧
      q = { p with functions := p.functions.map fun f => (f.check p.signatures).1 } := by
  unfold Program.check
  constructor
  · intro h
    cases hfunctions : checkFunctions p.signatures p.functions with
    | error fault => simp [hfunctions] at h
    | ok functions =>
        obtain ⟨rfl, hall⟩ := checkFunctions_eq_ok hfunctions
        rw [hfunctions] at h
        cases h
        exact ⟨hall, rfl⟩
  · rintro ⟨hall, rfl⟩
    rw [checkFunctions_of_passes hall]

/-- Checks do not change the signatures of a program. -/
theorem Program.signatures_checked (p : Program) :
    Program.signatures { p with functions := p.functions.map fun f => (f.check p.signatures).1 } =
      p.signatures := by
  simp only [Program.signatures, List.map_map, Function.comp_def, Function.name_check,
    Function.signature_check]

/-- What a function declares is well formed when its check passes. -/
theorem declarationCause?_eq_none (h : f.declarationCause? = none) :
    (f.result.isVoid = true ∨ f.result.isStorable = true) ∧
      ∀ v ∈ f.arguments, v.type.isStorable = true := by
  unfold Function.declarationCause? at h
  by_cases hresult : (!f.result.isVoid && !f.result.isStorable) = true
  · simp [hresult] at h
  · rw [if_neg hresult] at h
    split at h
    · cases h
    · have harguments : f.arguments.find? (fun v => !v.type.isStorable) = none :=
        Option.map_eq_none_iff.1 h
      refine ⟨?_, ?_⟩
      · cases hvoid : f.result.isVoid with
        | true => exact .inl rfl
        | false => simpa [hvoid] using hresult
      · intro v hv
        simpa using List.find?_eq_none.1 harguments v hv

/-! ## The check of a function -/

/-- A function with a faulty declaration is refused as it is. -/
theorem Function.check_of_cause {signatures : Signatures} {f : Function} {cause : TypeCause}
    (h : f.declarationCause? = some cause) :
    f.check signatures = (f, .error ⟨cause, f.span⟩) := by
  simp only [Function.check, h]

/-- A builtin has nothing else to check. -/
theorem Function.check_of_builtin {signatures : Signatures} {f : Function}
    (h : f.declarationCause? = none) (hbuiltin : f.builtin = true) :
    f.check signatures = (f, .ok ()) := by
  simp only [Function.check, h, hbuiltin, if_true]

/-- Any other function is checked by its body. -/
theorem Function.check_of_body {signatures : Signatures} {f : Function} {locals : List Var}
    {body : List Stmt} {verdict : Except TypeFault Unit} (h : f.declarationCause? = none)
    (hbuiltin : f.builtin = false)
    (hbody : checkStmts (f.typingEnv signatures) [] f.body = ⟨body, locals, verdict⟩) :
    f.check signatures = ({ f with locals := locals, body := body }, verdict) := by
  unfold Function.typingEnv at hbody
  simp [Function.check, h, hbuiltin, hbody]

/-- A function as read whose check passes is well typed. -/
theorem check_typed {signatures : Signatures} (hread : f.AsRead)
    (hdistinct : (f.arguments.map Var.name).Nodup)
    (hplain : (f.typingEnv signatures).Plain) (h : (f.check signatures).2 = .ok ()) :
    TypedFunction signatures (f.check signatures).1 := by
  unfold Function.check at h ⊢
  cases hcause : f.declarationCause? with
  | some cause => simp [hcause] at h
  | none =>
      obtain ⟨hresult, harguments⟩ := declarationCause?_eq_none hcause
      have hstorable : ∀ v ∈ f.arguments,
          v.type.isStorable = true ∧ v.type.isReference = false :=
        fun v hv => ⟨harguments v hv, hread.arguments v hv⟩
      simp only [hcause] at h ⊢
      by_cases hbuiltin : f.builtin = true
      · simp only [if_pos hbuiltin] at h ⊢
        refine ⟨hresult, hread.result, hstorable, hdistinct, ?_⟩
        intro hblock
        rw [hbuiltin] at hblock
        cases hblock
      · simp only [if_neg hbuiltin] at h ⊢
        exact ⟨hresult, hread.result, hstorable, hdistinct,
          fun _ => (checksStmts_of_passes h).typed hplain hread.body⟩

/-- The environments of functions that were read know no references. -/
theorem typingEnv_plain (hread : ∀ f ∈ p.functions, f.AsRead) (hf : f ∈ p.functions) :
    (f.typingEnv p.signatures).Plain := by
  refine ⟨(hread f hf).arguments, (hread f hf).result, ?_⟩
  intro name signature hlookup
  obtain ⟨g, hg, _, rfl⟩ := mem_of_signatures hlookup
  refine ⟨?_, (hread g hg).result⟩
  intro t ht
  obtain ⟨v, hv, rfl⟩ := List.mem_map.1 ht
  exact (hread g hg).arguments v hv

/-- A program that was read is well typed when its check has passed. -/
theorem checked_typed {ts : List Token} {file : Option String} {q : Program}
    (hparse : Program.parse ts file = .ok q) (hcheck : q.check = .ok p) : TypedProgram p := by
  obtain ⟨hdistinct, hnames⟩ := parse_names hparse
  have hread := parse_asRead hparse
  obtain ⟨hall, rfl⟩ := Program.check_eq_ok.1 hcheck
  have hname : ∀ f : Function, (f.check q.signatures).1.name = f.name :=
    fun f => f.name_check q.signatures
  refine ⟨?_, ?_, ?_⟩
  · have hmap : (q.functions.map fun f => (f.check q.signatures).1).map Function.name =
        q.functions.map Function.name := by
      rw [List.map_map]
      exact List.map_congr_left fun f _ => hname f
    exact hmap ▸ hdistinct
  · intro g hg
    obtain ⟨f, hf, rfl⟩ := List.mem_map.1 hg
    exact (hname f).symm ▸ (hnames f hf).1
  · intro g hg
    obtain ⟨f, hf, rfl⟩ := List.mem_map.1 hg
    rw [q.signatures_checked]
    exact check_typed (hread f hf) (hnames f hf).2 (typingEnv_plain hread hf) (hall f hf)

/-- **Accepted programs are well typed.** -/
theorem frontEnd_typed {source : String} {file : Option String}
    (h : frontEnd source file = .ok p) : TypedProgram p := by
  obtain ⟨q, hparse, hcheck⟩ := bind_eq_ok.1 h
  exact checked_typed hparse hcheck

end Slate
