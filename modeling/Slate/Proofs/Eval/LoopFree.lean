import Slate.Proofs.Eval.Entries
import Slate.Proofs.Eval.References

/-!
# Evaluations without loops end

An evaluation can fail to end in two ways: a loop goes on, or calls nest deeper and deeper.
The evaluator refuses to nest calls too deep, so without loops every evaluation ends, however
functions call themselves and each other, and whether or not the program has been checked.

In the evaluator both ways show as an evaluation that is left unfinished, for want of
further rounds or because the limit to its recursion is met.  So an evaluation ends if there
is one outcome that it has with every number of rounds, even with none, and with every limit
that leaves room for the depth, and if that outcome is an answer or an error
(`Outcome.Ends`).

* `Run.Settles` — two runs are one run, and it is never left unfinished;
* `enter_settles` — functions without loops, by induction on how deep calls may nest;
* `loop_free_evaluations_end` — calls and runs started at any depth.
-/

namespace Slate

variable {σ α β : Type}

/-- The evaluation has ended with an answer, or with an error that is not for want of a slot. -/
def Outcome.Ends : Outcome σ α → Prop
  | done _ _ => True
  | failed e _ => e.FindsSlots
  | unfinished _ => False

/-- The evaluation is not left unfinished. -/
def Outcome.Finished : Outcome σ α → Prop
  | unfinished _ => False
  | _ => True

/-- The run is never left unfinished. -/
def Run.Finishes (x : Run σ α) : Prop :=
  ∀ state, (x state).Finished

/-- An answer comes to an end. -/
theorem Run.Finishes.answer (a : α) : (pure a : Run σ α).Finishes :=
  fun _ => trivial

/-- So does a failure. -/
theorem Run.Finishes.fail (e : EvalError) : (Run.fail e : Run σ α).Finishes :=
  fun _ => trivial

/-- Two runs after each other end if each does. -/
theorem Run.Finishes.bind {x : Run σ α} {f : α → Run σ β} (hx : x.Finishes)
    (hf : ∀ a, (f a).Finishes) : (x >>= f).Finishes := by
  intro state
  have hfirst := hx state
  show (Run.andThen x f state).Finished
  unfold Run.andThen
  cases hrun : x state with
  | done a middle => exact hf a middle
  | failed e middle => trivial
  | unfinished middle =>
      rw [hrun] at hfirst
      exact hfirst.elim

/-- A finished run that finds its slots ends. -/
theorem Run.Finishes.ends {x : Run σ α} (h : x.Finishes) {P : α → Prop}
    (hmeets : x.Meets P EvalError.FindsSlots) (state : σ) : (x state).Ends := by
  have hfinished := h state
  have hstate := hmeets state
  cases hx : x state with
  | done a final => trivial
  | failed e final =>
      rw [hx] at hstate
      exact hstate
  | unfinished final =>
      rw [hx] at hfinished
      exact hfinished.elim

/-- The runs are one run, and it is never left unfinished. -/
structure Run.Settles (x y : Run σ α) : Prop where
  same : y = x
  finishes : x.Finishes

namespace Run.Settles

/-- What ends settles on itself. -/
theorem of_finishes {x : Run σ α} (h : x.Finishes) : x.Settles x :=
  ⟨rfl, h⟩

/-- Where a run settles, so does the run with its error for an answer. -/
theorem result {x y : Run σ α} (h : x.Settles y) : x.result.Settles y.result := by
  rw [h.same]
  refine of_finishes fun state => ?_
  have hfinished := h.finishes state
  unfold Run.result
  cases hx : x state with
  | done a final => trivial
  | failed e final => trivial
  | unfinished final =>
      rw [hx] at hfinished
      exact hfinished.elim

/-- Two runs after each other settle if each does. -/
theorem bind {x y : Run σ α} {f k : α → Run σ β} (hx : x.Settles y)
    (hf : ∀ a, (f a).Settles (k a)) : (x >>= f).Settles (y >>= k) := by
  have hk : k = f := funext fun a => (hf a).same
  rw [hx.same, hk]
  exact of_finishes (hx.finishes.bind fun a => (hf a).finishes)

/-- Runs that settle can be put together. -/
theorem compatible : Run.Relation.Compatible fun _ (x y : Run σ _) => x.Settles y :=
  ⟨fun a => of_finishes (.answer a), fun e => of_finishes (.fail e), bind⟩

end Run.Settles

/-! ## Calls -/

section

variable {p : Program} {host : Host σ} {rounds rounds' : Nat}

/-- Printing comes to an end. -/
theorem Host.finishes_print (host : Host σ) (bytes : ByteArray) : (host.print bytes).Finishes := by
  intro state
  unfold Host.print
  cases host.write bytes state <;> trivial

/-- So does flushing the output. -/
theorem Host.finishes_flushOutput (host : Host σ) : host.flushOutput.Finishes := by
  intro state
  unfold Host.flushOutput
  cases host.flush state <;> trivial

/-- Settling is respected by all that the settings of one program do. -/
theorem settles_related (p : Program) (host : Host σ) (rounds rounds' : Nat) :
    (Setting.mk p host rounds).Related (fun _ (x y : Run σ _) => x.Settles y)
      ⟨p, host, rounds'⟩ where
  compatible := Run.Settles.compatible
  program := rfl
  print bytes := .of_finishes (host.finishes_print bytes)
  tell _ := .of_finishes fun _ => trivial

/-- **Functions without loops** settle when they are entered, in a program without loops. -/
theorem enter_settles (hp : p.LoopFree) (allowed : Nat) {f : Function}
    (hf : bodyLoopFree f.body = true) (args : List Value) :
    ((Setting.mk p host rounds).enter allowed f args).Settles
      ((Setting.mk p host rounds').enter allowed f args) :=
  (settles_related p host rounds rounds').enter (.inl hp) allowed f (.inl hf) args

/-- The calls of a loop-free program settle, at any depth that is allowed. -/
theorem calls_settle (hp : p.LoopFree) (allowed : Nat) (name : String) (args : List Value) :
    ((Setting.mk p host rounds).calls allowed name args).Settles
      ((Setting.mk p host rounds').calls allowed name args) :=
  (settles_related p host rounds rounds').dispatch
    (fun g hg => enter_settles hp allowed (hp g hg)) name args

/-- So does its run. -/
theorem runBy_settles (hp : p.LoopFree) (allowed : Nat) :
    ((Setting.mk p host rounds).runBy ((Setting.mk p host rounds).calls allowed)).Settles
      ((Setting.mk p host rounds').runBy ((Setting.mk p host rounds').calls allowed)) :=
  (settles_related p host rounds rounds').runBy (.of_finishes host.finishes_flushOutput)
    (calls_settle hp allowed "main" []).result

end

/-! ## Evaluations -/

/-- No loop stands in what is entered. -/
def Entry.LoopFree : Entry → Prop
  | call _ => True
  | enter f => bodyLoopFree f.body = true

section

variable {p : Program} {host : Host σ} {rounds rounds' : Nat} {entry : Entry}

/-- So does each of its entries. -/
theorem evaluateBy_settles (hp : p.LoopFree) (hentry : entry.LoopFree) (allowed : Nat)
    (args : List Value) :
    ((Setting.mk p host rounds).evaluateBy ((Setting.mk p host rounds).enter allowed) entry
        args).Settles
      ((Setting.mk p host rounds').evaluateBy ((Setting.mk p host rounds').enter allowed) entry
        args) := by
  cases entry with
  | call name => exact calls_settle hp allowed name args
  | enter f => exact enter_settles hp allowed hentry args

/-- An entry with plain arguments gives a plain value, or an error of no slot. -/
theorem evaluateBy_contained (setting : Setting σ) (entry : Entry) (allowed : Nat)
    {args : List Value} (hargs : ∀ value ∈ args, value.IsPlain) :
    (setting.evaluateBy (setting.enter allowed) entry args).Meets Value.IsPlain
      EvalError.FindsSlots := by
  cases entry with
  | call name => exact calls_contained setting allowed name args hargs
  | enter f => exact enter_contained setting allowed f args hargs

end

/-- **Evaluations without loops end.**  Let no function of a program have a loop.  Then every
evaluation that is not given a reference ends with an answer or an error, and so does every
run of the program, whatever the host does and however many calls are in progress when it is
started.  The outcome is the same for all numbers of rounds and for all limits to the
recursion that leave room for the depth. -/
theorem loop_free_evaluations_end {p : Program} (hp : p.LoopFree) (host : Host σ) {depth : Nat}
    (hdepth : depth ≤ maxCallDepth) (state : σ) :
    (∀ entry : Entry, entry.LoopFree → ∀ args : List Value, (∀ value ∈ args, value.IsPlain) →
      ∃ outcome : Outcome σ Value, outcome.Ends ∧
        ∀ rounds limit, maxCallDepth < limit + depth →
          (Setting.mk p host rounds).evaluateFrom limit depth entry args state = outcome) ∧
    ∃ outcome : Outcome σ Int32, outcome.Ends ∧
      ∀ rounds limit, maxCallDepth < limit + depth →
        (Setting.mk p host rounds).runFrom limit depth state = outcome := by
  let setting := Setting.mk p host 0
  let allowed := maxCallDepth - depth
  refine ⟨?_, ?_⟩
  · intro entry hentry args hargs
    have hsettles := fun rounds =>
      @evaluateBy_settles σ p host 0 rounds entry hp hentry allowed args
    refine ⟨setting.evaluateBy (setting.enter allowed) entry args state, ?_, ?_⟩
    · exact (hsettles 0).finishes.ends (evaluateBy_contained setting entry allowed hargs) state
    · intro rounds limit hlimit
      rw [Setting.evaluateFrom_eq hdepth hlimit]
      exact congrFun (hsettles rounds).same state
  · have hsettles := fun rounds => @runBy_settles σ p host 0 rounds hp allowed
    refine ⟨setting.runBy (setting.calls allowed) state, ?_, ?_⟩
    · exact (hsettles 0).finishes.ends (runBy_contained setting allowed) state
    · intro rounds limit hlimit
      rw [Setting.runFrom_eq hdepth hlimit]
      exact congrFun (hsettles rounds).same state

/-- Two functions that call each other without an end, and twice each. -/
def endlessSource : String :=
  "i32 odd(n: i32) { return even(n) + even(n); } " ++
    "i32 even(n: i32) { return odd(n) * odd(n); }"

/-- Their evaluation ends where calls are too deep, whatever rounds and limit there are. -/
theorem loop_free_evaluations_end_mutual :
    ∃ p, frontEnd endlessSource none = .ok p ∧
      p.LoopFree ∧ 0 ≤ maxCallDepth ∧ (Entry.call "odd").LoopFree ∧
      (∀ value ∈ [Value.int 1], value.IsPlain) ∧
      ∀ rounds limit, maxCallDepth < limit + 0 →
        (Setting.mk p (.ofSink .collect) rounds).evaluateFrom limit 0 (.call "odd") [.int 1]
          ByteArray.empty = .failed .callDepth .empty := by
  have hcheck : (frontEnd endlessSource none).toOption.any (fun p => decide (p.LoopFree ∧
        (Setting.mk p (.ofSink .collect) 0).evaluateFrom 513 0 (.call "odd") [.int 1] .empty =
          .failed .callDepth .empty)) = true := by
    decide +kernel
  obtain ⟨p, haccepted, hcheck⟩ := (Option.any_eq_true _ _).1 hcheck
  obtain ⟨hp, hfirst⟩ := of_decide_eq_true hcheck
  have hdepth : 0 ≤ maxCallDepth := Nat.zero_le _
  have hargs : ∀ value ∈ [Value.int 1], value.IsPlain :=
    List.forall_mem_singleton.2 trivial
  obtain ⟨outcome, _, houtcome⟩ :=
    (loop_free_evaluations_end hp (.ofSink .collect) hdepth .empty).1 (.call "odd") trivial _ hargs
  have hvalue : outcome = .failed .callDepth .empty :=
    (houtcome 0 513 (by decide)).symm.trans hfirst
  exact ⟨p, toOption_eq_some.1 haccepted, hp, hdepth, trivial, hargs,
    fun rounds limit hlimit => (houtcome rounds limit hlimit).trans hvalue⟩

end Slate
