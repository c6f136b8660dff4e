import Slate.Proofs.Eval.Related
import Slate.Proofs.Tree.Equality
import Slate.Proofs.Typing.Erased
import Slate.Proofs.Typing.Spanless
import Slate.Proofs.Typing.Widened

/-!
# Functions mean the same in every context

A program can be a part of another one: each of its functions is found there too, up to its
spans, in any order and among any others (`Program.PartOf`).

The names of functions are looked up by two means.  The checker has a table in which the
latest entry counts, and a run searches the functions from the first one on.  Names are
distinct, so both find the one function that there is, and it is the same in the part and in
the whole.  What the part has in common with the whole is therefore closed under calls: a
function that is called is found in the part, or the part would not have been accepted.

* `TypedExpr.callees_known` and its companions — a typed tree calls nothing but what its
  environment knows, so ways to run calls that agree there give the same runs;
* `enter_alike` — by induction on the depth of calls, functions are entered alike;
* `meaning_is_kept` — accepted programs, elaborated and called into.
-/

namespace Slate

variable {σ : Type}

/-- Every function of the program is a function of the other one, up to spans. -/
def Program.PartOf (p q : Program) : Prop :=
  ∀ f ∈ p.functions, ∃ g ∈ q.functions, g.spanless = f.spanless

instance (p q : Program) : Decidable (p.PartOf q) :=
  inferInstanceAs (Decidable (∀ f ∈ p.functions, ∃ g ∈ q.functions, g.spanless = f.spanless))

/-! ## Calls in typed trees -/

/-- A call of the name is of a function that is known, or a system call. -/
def Signatures.Knows (signatures : Signatures) (name : String) : Prop :=
  name = syscallName ∨ ∃ signature, signatures.lookup name = some signature

/-- Calls of what the signatures know are run alike. -/
def Calls.Agree (signatures : Signatures) (calls other : Calls σ) : Prop :=
  ∀ name, signatures.Knows name → calls name = other name

section

variable {env : Env}

mutual

/-- **A typed expression calls only what its environment knows.** -/
theorem TypedExpr.callees_known {before after : List Var} {e : Expr} {t : Ty} :
    TypedExpr env before e t after → ∀ name ∈ e.callees, env.signatures.Knows name
  | .literal _ => List.forall_mem_nil _
  | .declare _ _ _ _ => List.forall_mem_nil _
  | .var _ _ => List.forall_mem_nil _
  | .assign value place _ _ =>
      List.forall_mem_append.2 ⟨value.callees_known, place.callees_known⟩
  | .syscall _ arguments _ =>
      List.forall_mem_append.2 ⟨arguments.callees_known, List.forall_mem_singleton.2 (.inl rfl)⟩
  | .call _ known arguments _ =>
      List.forall_mem_append.2
        ⟨arguments.callees_known, List.forall_mem_singleton.2 (.inr ⟨_, known⟩)⟩
  | .binary first second _ _ _ =>
      List.forall_mem_append.2 ⟨first.callees_known, second.callees_known⟩
  | .unary value _ => value.callees_known
  | .cast place _ _ => place.callees_known

theorem TypedArguments.callees_known {before after : List Var} {es : List Expr} {ts : List Ty} :
    TypedArguments env before es ts after →
      ∀ name ∈ argumentCallees es, env.signatures.Knows name
  | .nil => List.forall_mem_nil _
  | .cons argument _ others =>
      List.forall_mem_append.2 ⟨argument.callees_known, others.callees_known⟩

end

mutual

/-- **A typed statement calls only what its environment knows.** -/
theorem TypedStmt.callees_known {before after : List Var} {s : Stmt} :
    TypedStmt env before s after → ∀ name ∈ s.callees, env.signatures.Knows name
  | .expression value => value.callees_known
  | .ret _ => List.forall_mem_nil _
  | .retValue _ value => value.callees_known
  | .ifThen test branch =>
      List.forall_mem_append.2 ⟨test.callees_known, branch.callees_known⟩
  | .ifElse test branch other =>
      List.forall_mem_append.2 ⟨test.callees_known,
        List.forall_mem_append.2 ⟨branch.callees_known, other.callees_known⟩⟩
  | .loop test rounds =>
      List.forall_mem_append.2 ⟨test.callees_known, rounds.callees_known⟩
  | .block inner => inner.callees_known

theorem TypedStmts.callees_known {before after : List Var} {ss : List Stmt} :
    TypedStmts env before ss after → ∀ name ∈ bodyCallees ss, env.signatures.Knows name
  | .nil => List.forall_mem_nil _
  | .cons first others =>
      List.forall_mem_append.2 ⟨first.callees_known, others.callees_known⟩

end

end

/-! ## Parts of programs -/

section

variable {p q : Program} {f g : Function}

/-- Functions that are the same up to spans agree in what does not show spans. -/
theorem Function.agree_of_spanless {α : Type} (part : Function → α)
    (hpart : ∀ f : Function, part f.spanless = part f) (h : g.spanless = f.spanless) :
    part g = part f := by
  rw [← hpart g, h, hpart f]

/-- What the part knows of a function, the whole knows too. -/
theorem Program.PartOf.signatures (hpart : p.PartOf q)
    (hnames : (q.functions.map Function.name).Nodup) : p.signatures.KnownTo q.signatures := by
  intro name signature hlookup
  obtain ⟨f, hf, rfl, rfl⟩ := mem_of_signatures hlookup
  obtain ⟨g, hg, hsame⟩ := hpart f hf
  have hname := Function.agree_of_spanless Function.name (fun _ => rfl) hsame
  have hsignature := Function.agree_of_spanless Function.signature (fun _ => rfl) hsame
  rw [← hname, ← hsignature]
  exact lookup_signature_of_nodup hnames hg

/-- **A function is elaborated alike** in the part and in the whole. -/
theorem Program.PartOf.check (hpart : p.PartOf q) (hnames : (q.functions.map Function.name).Nodup)
    (hpass : (f.check p.signatures).2 = .ok ()) (hsame : g.spanless = f.spanless) :
    (g.check q.signatures).1.spanless = (f.check p.signatures).1.spanless :=
  calc (g.check q.signatures).1.spanless
      = (g.spanless.check q.signatures).1 := by rw [g.check_spanless]
    _ = (f.spanless.check q.signatures).1 := by rw [hsame]
    _ = (f.check q.signatures).1.spanless := by rw [f.check_spanless]
    _ = (f.check p.signatures).1.spanless := by
        rw [Function.check_widened (hpart.signatures hnames) hpass]

/-- What a part is elaborated to is a part of what the whole is elaborated to. -/
theorem Program.PartOf.checked {p' q' : Program} (hpart : p.PartOf q)
    (hnames : (q.functions.map Function.name).Nodup) (hp : p.check = .ok p')
    (hq : q.check = .ok q') : p'.PartOf q' := by
  obtain ⟨hpass, rfl⟩ := Program.check_eq_ok.1 hp
  obtain ⟨_, rfl⟩ := Program.check_eq_ok.1 hq
  intro f' hf'
  obtain ⟨f, hf, rfl⟩ := List.mem_map.1 hf'
  obtain ⟨g, hg, hsame⟩ := hpart f hf
  exact ⟨_, List.mem_map.2 ⟨g, hg, rfl⟩, hpart.check hnames (hpass f hf) hsame⟩

/-! ## Runs of parts -/

variable (host : Host σ) (rounds : Nat)

/-- The body of a function runs alike, whatever program it stands in. -/
theorem body_alike (calls : Calls σ) (hsame : g.spanless = f.spanless) (args : List Value) :
    (Setting.mk q host rounds).body calls g args =
      (Setting.mk p host rounds).body calls f args := by
  have hwhole := (Setting.mk q host rounds).body_spanless calls g args
  have hpart := (Setting.mk p host rounds).body_spanless calls f args
  rw [← hwhole, ← hpart, hsame]
  rfl

/-- Calls of what the part knows are run alike in the whole, if functions are entered
alike. -/
theorem dispatch_alike (hp : TypedProgram p) (hq : TypedProgram q) (hpart : p.PartOf q)
    {enter enter' : Function → List Value → Run σ Value}
    (henter : ∀ f ∈ p.functions, f.builtin = false → ∀ g, g.spanless = f.spanless →
      enter' g = enter f) :
    ((Setting.mk p host rounds).dispatch enter).Agree p.signatures
      ((Setting.mk q host rounds).dispatch enter') := by
  intro name hname
  funext args
  unfold Setting.dispatch
  by_cases hsyscall : name = syscallName
  · rw [if_pos hsyscall, if_pos hsyscall]
  · obtain ⟨signature, hknown⟩ := hname.resolve_left hsyscall
    obtain ⟨f, hfound, _⟩ := hp.function?_of_signature hknown
    obtain ⟨hf, rfl⟩ := function?_eq_some hfound
    obtain ⟨g, hg, hsame⟩ := hpart f hf
    have hgname := Function.agree_of_spanless Function.name (fun _ => rfl) hsame
    have harguments := Function.agree_of_spanless Function.arguments (fun _ => rfl) hsame
    have hbuiltin := Function.agree_of_spanless Function.builtin (fun _ => rfl) hsame
    have hfound' : q.function? f.name = some g := hgname ▸ hq.function?_of_mem hg
    rw [if_neg hsyscall, if_neg hsyscall]
    dsimp only
    rw [hfound, hfound']
    dsimp only
    rw [harguments, hbuiltin]
    cases hblock : f.builtin with
    | true => simp only [if_true, callBuiltin, hgname]
    | false => simp only [Bool.false_eq_true, if_false, henter f hf hblock g hsame]

/-- **Functions are entered alike** in the part and in the whole, however deep calls may still
nest. -/
theorem enter_alike (hp : TypedProgram p) (hq : TypedProgram q) (hpart : p.PartOf q)
    (allowed : Nat) (hf : f ∈ p.functions) (hblock : f.builtin = false)
    (hsame : g.spanless = f.spanless) :
    (Setting.mk q host rounds).enter allowed g = (Setting.mk p host rounds).enter allowed f := by
  induction allowed generalizing f g with
  | zero => rfl
  | succ allowed ih =>
      have hcalls :
          ((Setting.mk p host rounds).dispatch ((Setting.mk p host rounds).enter allowed)).Agree
            p.signatures
            ((Setting.mk q host rounds).dispatch ((Setting.mk q host rounds).enter allowed)) :=
        dispatch_alike host rounds hp hq hpart fun f hf hblock g hsame => ih hf hblock hsame
      have hknown := ((hp.each f hf).body hblock).callees_known
      have hname := Function.agree_of_spanless Function.name (fun _ => rfl) hsame
      funext args
      have hbody : (Setting.mk p host rounds).body
          ((Setting.mk p host rounds).dispatch ((Setting.mk p host rounds).enter allowed)) f args =
          (Setting.mk p host rounds).body
            ((Setting.mk q host rounds).dispatch ((Setting.mk q host rounds).enter allowed)) f
            args := by
        unfold Setting.body
        rw [execStmts_congr rounds fun name hname => hcalls name (hknown name hname)]
      rw [Setting.enter, Setting.enter, hname, hbody, body_alike (p := p) host rounds _ hsame]

/-- **A function of the part is called alike** in the whole. -/
theorem call_alike (hp : TypedProgram p) (hq : TypedProgram q) (hpart : p.PartOf q)
    (hf : f ∈ p.functions) :
    (Setting.mk p host rounds).call f.name = (Setting.mk q host rounds).call f.name :=
  dispatch_alike host rounds hp hq hpart
    (fun _ hf hblock _ hsame => enter_alike host rounds hp hq hpart maxCallDepth hf hblock hsame)
    f.name (.inr ⟨_, hp.lookup_signature hf⟩)

end

/-! ## Accepted programs -/

/-- **A function means the same in every program that contains it and its callees.**  Let two
programs be read and accepted, and let each function of the first one stand in the second
one too, up to spans, in any order and among any others.  Then it is elaborated in both to
the same function up to spans, and calls of it run alike on every host, with any
arguments: to the same result or error with the same output, or without an end. -/
theorem meaning_is_kept {ts us : List Token} {file file' : Option String} {p q p' q' : Program}
    (hp : Program.parse ts file = .ok p) (hp' : p.check = .ok p')
    (hq : Program.parse us file' = .ok q) (hq' : q.check = .ok q') (hpart : p.PartOf q) :
    ∀ f ∈ p.functions, ∃ f' g', p'.function? f.name = some f' ∧ q'.function? f.name = some g' ∧
      f'.erased = f ∧ g'.spanless = f'.spanless ∧
      ∀ (σ : Type) (host : Host σ) (rounds : Nat) (args : List Value),
        (Setting.mk p' host rounds).call f.name args =
          (Setting.mk q' host rounds).call f.name args := by
  intro f hf
  have htyped := checked_typed hp hp'
  have htyped' := checked_typed hq hq'
  have hchecked := hpart.checked (parse_names hq).1 hp' hq'
  obtain ⟨_, hleft⟩ := Program.check_eq_ok.1 hp'
  have hmem : (f.check p.signatures).1 ∈ p'.functions := by
    rw [hleft]
    exact List.mem_map.2 ⟨f, hf, rfl⟩
  have hname : (f.check p.signatures).1.name = f.name := f.name_check p.signatures
  have herased : (f.check p.signatures).1.erased = f :=
    (f.erased_check p.signatures).trans ((parse_asRead hp) f hf).erased
  generalize (f.check p.signatures).1 = f' at hmem hname herased
  obtain ⟨g', hmem', hsame⟩ := hchecked f' hmem
  have hname' := Function.agree_of_spanless Function.name (fun _ => rfl) hsame
  refine ⟨f', g', ?_, ?_, herased, hsame, ?_⟩
  · exact hname ▸ htyped.function?_of_mem hmem
  · exact hname ▸ hname' ▸ htyped'.function?_of_mem hmem'
  · intro σ host rounds args
    rw [← hname, call_alike host rounds htyped htyped' hchecked hmem]

/-- A function, and another one that calls it. -/
def fourfoldSource : String :=
  "i32 twice(n: i32) { return n + n; } i32 fourfold(n: i32) { return twice(twice(n)); }"

/-- The same two, laid out anew, the other way round and behind a `main`. -/
def reorderedSource : String :=
  "i32 main() { return twice(21); }\n\n" ++
    "i32 fourfold(n: i32)\n{ return twice(twice(n)); }\n" ++
    "i32 twice(n: i32)\n{ return n + n; }\n"

/-- Two functions of which one calls the other, and the same two laid out anew, the other way
round and after a function that calls one of them. -/
theorem meaning_is_kept_reordered :
    ∃ p q p' q',
      Program.parse (tokensOf fourfoldSource) none = .ok p ∧
      p.check = .ok p' ∧
      Program.parse (tokensOf reorderedSource) none = .ok q ∧
      q.check = .ok q' ∧ p.PartOf q ∧ (p.function? "fourfold").isSome = true ∧
      ∀ (σ : Type) (host : Host σ) (rounds : Nat) (args : List Value),
        (Setting.mk p' host rounds).call "fourfold" args =
          (Setting.mk q' host rounds).call "fourfold" args := by
  have hcheck : (Program.parse (tokensOf fourfoldSource) none).toOption.any (fun p =>
      p.check.toOption.any fun _ =>
        (Program.parse (tokensOf reorderedSource) none).toOption.any fun q =>
          q.check.toOption.any fun _ =>
            decide (p.PartOf q) && (p.function? "fourfold").isSome) = true := by
    decide +kernel
  simp only [Option.any_eq_true, toOption_eq_some, Bool.and_eq_true, decide_eq_true_eq] at hcheck
  obtain ⟨p, hp, p', hp', q, hq, q', hq', hpart, hsome⟩ := hcheck
  obtain ⟨f, hf⟩ := Option.isSome_iff_exists.1 hsome
  obtain ⟨hmem, hname⟩ := function?_eq_some hf
  obtain ⟨_, _, _, _, _, _, halike⟩ := meaning_is_kept hp hp' hq hq' hpart f hmem
  exact ⟨p, q, p', q', hp, hp', hq, hq', hpart, hsome, hname ▸ halike⟩

end Slate
