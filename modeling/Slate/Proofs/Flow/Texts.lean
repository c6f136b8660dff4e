import Slate.Proofs.Grammar.Texts
import Slate.Proofs.Tree.Equality
import Slate.Proofs.Tree.Nodes
import Slate.Proofs.Typing.Accepted
import Slate.Proofs.Typing.Erased

/-!
# Texts of expressions in programs

A check changes no names: whether the names of a tree are words that are no keywords can be
seen when casts and noted types are erased (`Expr.wellNamed_erased`), and erasing takes away
all that the check has added.  So the names are such words in every program that comes from
source text, before and after checks (`Program.FromSource.wellNamed`), and with them in every
expression somewhere in it.

Wherever two such expressions occur, in one program or in two, their texts are the same
exactly if they are the same but for spans and noted types (`texts_identify`).
-/

namespace Slate

/-! ## Checks -/

mutual

/-- The names of an expression do not depend on types and casts. -/
theorem Expr.wellNamed_erased : ∀ e : Expr, e.erased.WellNamed ↔ e.WellNamed
  | .literal _ _ => .rfl
  | .declare _ _ => .rfl
  | .var _ _ => .rfl
  | .assign _ left right => and_congr left.wellNamed_erased right.wellNamed_erased
  | .call _ _ args => and_congr_right' (argumentsWellNamed_erased args)
  | .binary _ _ left right => and_congr left.wellNamed_erased right.wellNamed_erased
  | .unary _ _ operand => operand.wellNamed_erased
  | .cast _ operand => operand.wellNamed_erased

/-- The same for the arguments of a call. -/
theorem argumentsWellNamed_erased :
    ∀ es : List Expr, ArgumentsWellNamed (erasedArguments es) ↔ ArgumentsWellNamed es
  | [] => .rfl
  | e :: es => and_congr e.wellNamed_erased (argumentsWellNamed_erased es)

end

mutual

/-- The same for a statement. -/
theorem Stmt.wellNamed_erased : ∀ s : Stmt, s.erased.WellNamed ↔ s.WellNamed
  | .expression _ e => e.wellNamed_erased
  | .ret _ none => .rfl
  | .ret _ (some e) => e.wellNamed_erased
  | .ifThen _ condition body => and_congr condition.wellNamed_erased (bodyWellNamed_erased body)
  | .ifElse _ condition body otherwise =>
      and_congr condition.wellNamed_erased
        (and_congr (bodyWellNamed_erased body) otherwise.wellNamed_erased)
  | .loop _ condition body => and_congr condition.wellNamed_erased (bodyWellNamed_erased body)
  | .block _ body => bodyWellNamed_erased body

/-- The same for a list of statements. -/
theorem bodyWellNamed_erased :
    ∀ ss : List Stmt, BodyWellNamed (erasedBody ss) ↔ BodyWellNamed ss
  | [] => .rfl
  | s :: ss => and_congr s.wellNamed_erased (bodyWellNamed_erased ss)

end

/-- A check changes no names. -/
theorem Function.wellNamed_check (signatures : Signatures) (f : Function) :
    (f.check signatures).1.WellNamed ↔ f.WellNamed := by
  have hbody : erasedBody (f.check signatures).1.body = erasedBody f.body :=
    congrArg Function.body (f.erased_check signatures)
  unfold WellNamed
  rw [f.name_check, ← bodyWellNamed_erased, hbody, bodyWellNamed_erased]

/-! ## Programs from source text -/

/-- The program was read from tokens of source texts, or it is what a check has made of such
a program. -/
inductive Program.FromSource : Program → Prop
  | read {ts : List Token} {file : Option String} {p : Program}
      (lexed : ∀ t ∈ ts, ∃ source, t ∈ tokensOf source)
      (parsed : Program.parse ts file = .ok p) : FromSource p
  | checked {p q : Program} (source : FromSource p) (passed : p.check = .ok q) : FromSource q

/-- In a program from a source, the names are names. -/
theorem Program.FromSource.wellNamed {p : Program} (h : p.FromSource) :
    ∀ f ∈ p.functions, f.WellNamed := by
  induction h with
  | @read ts file p lexed parsed =>
      refine parse_wellNamed parsed fun t ht => ?_
      obtain ⟨source, hsource⟩ := lexed t ht
      exact namesFit_tokensOf source t hsource
  | checked _ passed ih =>
      obtain ⟨_, rfl⟩ := Program.check_eq_ok.1 passed
      intro f' hf'
      obtain ⟨f, hf, rfl⟩ := List.mem_map.1 hf'
      exact (f.wellNamed_check _).2 (ih f hf)

/-- What the front end accepts was read from source text. -/
theorem frontEnd_fromSource {source : String} {file : Option String} {p : Program}
    (h : frontEnd source file = .ok p) : p.FromSource := by
  obtain ⟨q, hparse, hcheck⟩ := bind_eq_ok.1 h
  exact .checked (.read (fun t ht => ⟨source, ht⟩) hparse) hcheck

/-! ## Expressions in programs -/

/-- The names of arguments are those of each argument. -/
theorem argumentsWellNamed_iff {es : List Expr} :
    ArgumentsWellNamed es ↔ ∀ e ∈ es, e.WellNamed := by
  induction es with
  | nil => simp [ArgumentsWellNamed]
  | cons e es ih => simp [ArgumentsWellNamed, ih]

/-- The names of statements are those of each statement. -/
theorem bodyWellNamed_iff {ss : List Stmt} : BodyWellNamed ss ↔ ∀ s ∈ ss, s.WellNamed := by
  induction ss with
  | nil => simp [BodyWellNamed]
  | cons s ss ih => simp [BodyWellNamed, ih]

namespace Node

/-- The names in the node are words that are no keywords. -/
def WellNamed : Node → Prop
  | expr e => e.WellNamed
  | stmt s => s.WellNamed

/-- So it is for arguments taken as nodes. -/
theorem wellNamed_exprs {es : List Expr} :
    (∀ n ∈ es.map expr, n.WellNamed) ↔ ArgumentsWellNamed es := by
  rw [argumentsWellNamed_iff, List.forall_mem_map]
  exact .rfl

/-- So it is for statements taken as nodes. -/
theorem wellNamed_stmts {ss : List Stmt} :
    (∀ n ∈ ss.map stmt, n.WellNamed) ↔ BodyWellNamed ss := by
  rw [bodyWellNamed_iff, List.forall_mem_map]
  exact .rfl

/-- The names in a node are the names in its parts, and more for some nodes. -/
theorem WellNamed.part {n : Node} (h : n.WellNamed) : ∀ m ∈ n.parts, m.WellNamed := by
  cases n with
  | expr e =>
      refine wellNamed_exprs.2 ?_
      cases e with
      | assign _ left right => exact ⟨h.1, h.2, trivial⟩
      | binary _ _ left right => exact ⟨h.1, h.2, trivial⟩
      | call _ _ args => exact h.2
      | unary _ _ operand => exact ⟨h, trivial⟩
      | cast _ operand => exact ⟨h, trivial⟩
      | _ => exact trivial
  | stmt s =>
      cases s with
      | expression _ e => exact List.forall_mem_singleton.2 h
      | ret _ value =>
          cases value with
          | none => exact List.forall_mem_nil _
          | some e => exact List.forall_mem_singleton.2 h
      | ifThen _ condition body => exact List.forall_mem_cons.2 ⟨h.1, wellNamed_stmts.2 h.2⟩
      | ifElse _ condition body otherwise =>
          exact List.forall_mem_cons.2 ⟨h.1, List.forall_mem_append.2
            ⟨wellNamed_stmts.2 h.2.1, List.forall_mem_singleton.2 h.2.2⟩⟩
      | loop _ condition body => exact List.forall_mem_cons.2 ⟨h.1, wellNamed_stmts.2 h.2⟩
      | block _ body => exact wellNamed_stmts.2 h

end Node

/-- The expression occurs in the program, at whatever depth. -/
def Program.Contains (p : Program) (e : Expr) : Prop :=
  ∃ f ∈ p.functions, ∃ s ∈ f.body, (Node.stmt s).Reaches (.expr e)

/-- So the names of every expression in it are names. -/
theorem Program.FromSource.wellNamed_of_contains {p : Program} (h : p.FromSource) {e : Expr}
    (he : p.Contains e) : e.WellNamed := by
  obtain ⟨f, hf, s, hs, hreaches⟩ := he
  have hs : (Node.stmt s).WellNamed := bodyWellNamed_iff.1 (h.wellNamed f hf).2 s hs
  exact hreaches.inherits (P := Node.WellNamed) (fun _ hn => hn.part) hs

/-- **The text of an expression identifies it.**  Take two expressions that occur, at whatever
depth, in programs that were read from source text, or in what checks have made of such
programs.  Their texts are the same exactly if the expressions are the same but for the spans
and noted types in them. -/
theorem texts_identify {p q : Program} (hp : p.FromSource) (hq : q.FromSource) {e f : Expr}
    (he : p.Contains e) (hf : q.Contains f) : e.text = f.text ↔ e.noteless = f.noteless :=
  Expr.text_eq_iff (hp.wellNamed_of_contains he) (hq.wellNamed_of_contains hf)

/-- The expression that the node is, if it is one. -/
def Node.expr? : Node → Option Expr
  | expr e => some e
  | stmt _ => none

/-- A node that is an expression is the node of this expression. -/
theorem Node.expr?_eq_some {n : Node} {e : Expr} (h : n.expr? = some e) : n = .expr e := by
  cases n with
  | expr e' => exact congrArg expr (Option.some.inj h)
  | stmt s => cases h

/-- An expression that is a part of a statement in a function occurs in the program. -/
theorem Program.contains_of_part {p : Program} {f : Function} {s : Stmt} {n : Node} {e : Expr}
    (hf : f ∈ p.functions) (hs : s ∈ f.body) (hn : n ∈ (Node.stmt s).parts)
    (he : n.expr? = some e) : p.Contains e := by
  cases Node.expr?_eq_some he
  exact ⟨f, hf, s, hs, .single hn⟩

/-- A string that looks like the end of a call, between both minus signs.  The first program
has been read and the second one checked, from another layout: the two expressions differ, in
their notes. -/
theorem texts_identify_layouts :
    ∃ (p q : Program) (e f : Expr), p.FromSource ∧ q.FromSource ∧ p.Contains e ∧ q.Contains f ∧
      e.text = "(- (call f \"a) \\\\\") (- 2))" ∧ e ≠ f ∧ e.noteless = f.noteless := by
  have hcheck : (Program.parse (tokensOf "i32 f(s: string) \x7b return f(\"a) \\\") - -2; \x7d")
      none).toOption.any (fun p =>
        (Program.parse (tokensOf "i32 f(s: string)\n\x7b\n  return (f(\"a) \\\")) - (-2);\n\x7d")
          none).toOption.any fun q => q.check.toOption.any fun r =>
            p.functions.any fun f => f.body.any fun s => (Node.stmt s).parts.any fun n =>
              n.expr?.any fun e => r.functions.any fun g => g.body.any fun s' =>
                (Node.stmt s').parts.any fun n' => n'.expr?.any fun e' =>
                  decide (e.text = "(- (call f \"a) \\\\\") (- 2))" ∧ e'.text = e.text ∧
                    e ≠ e')) = true := by
    decide +kernel
  obtain ⟨p, hp, hcheck⟩ := (Option.any_eq_true _ _).1 hcheck
  obtain ⟨q, hq, hcheck⟩ := (Option.any_eq_true _ _).1 hcheck
  obtain ⟨r, hr, hcheck⟩ := (Option.any_eq_true _ _).1 hcheck
  obtain ⟨f, hf, hcheck⟩ := List.any_eq_true.1 hcheck
  obtain ⟨s, hs, hcheck⟩ := List.any_eq_true.1 hcheck
  obtain ⟨n, hn, hcheck⟩ := List.any_eq_true.1 hcheck
  obtain ⟨e, he, hcheck⟩ := (Option.any_eq_true _ _).1 hcheck
  obtain ⟨g, hg, hcheck⟩ := List.any_eq_true.1 hcheck
  obtain ⟨s', hs', hcheck⟩ := List.any_eq_true.1 hcheck
  obtain ⟨n', hn', hcheck⟩ := List.any_eq_true.1 hcheck
  obtain ⟨e', he', hcheck⟩ := (Option.any_eq_true _ _).1 hcheck
  obtain ⟨htext, hsame, hne⟩ := of_decide_eq_true hcheck
  have hp : p.FromSource := .read (fun t ht => ⟨_, ht⟩) (toOption_eq_some.1 hp)
  have hq : q.FromSource := .read (fun t ht => ⟨_, ht⟩) (toOption_eq_some.1 hq)
  have hr : r.FromSource := .checked hq (toOption_eq_some.1 hr)
  have he : p.Contains e := Program.contains_of_part hf hs hn he
  have he' : r.Contains e' := Program.contains_of_part hg hs' hn' he'
  exact ⟨p, r, e, e', hp, hr, he, he', htext, hne, (texts_identify hp hr he he').1 hsame.symm⟩

end Slate
