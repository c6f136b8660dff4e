import Slate.FrontEnd
import Slate.Proofs.Eval.Printed

/-!
# Failing sinks

A run on a sink that fails is compared with the run of the same program on a sink that takes
everything.

If the sink refuses all bytes, then nothing is printed, and the first bytes that would have
been printed end the run with the error of the sink, wherever they were written.  Up to
there the run does not depend on the sink; so a run that would have printed nothing ends as
it does on a sink that takes everything (`Run.Refused`).  Writing no bytes is no reason to
refuse them.

If the sink takes all bytes and fails to flush them, evaluation does not differ at all.  A run
flushes the output at its end, whatever became of `main`, and the error of the sink takes the
place of the result.  Without a `main` nothing is flushed.

* `Run.Refused.bind`, `call_refused` — up to the first bytes that are written;
* `call_same` — calls do not notice that the output cannot be flushed;
* `runBy_flushing`, `runBy_unflushed` — what is done when `main` has ended;
* `failing_sinks_are_reported` — runs on the three kinds of sinks.
-/

namespace Slate

variable {σ τ α β : Type}

/-- The end of a run with a result, which is an answer or an error. -/
def Outcome.ended (result : Except EvalError α) (state : σ) : Outcome σ α :=
  match result with
  | .ok a => .done a state
  | .error e => .failed e state

/-! ## Sinks -/

/-- The sink refuses all bytes, and has nothing to flush. -/
structure Sink.Refuses (sink : Sink σ) : Prop where
  nothing : ∀ state, sink.write .empty state = .ok state
  bytes : ∀ bytes state, bytes ≠ .empty → ∃ message, sink.write bytes state = .error message
  flush : ∀ state, sink.flush state = .ok state

/-- The sink takes all bytes, and has them as its state. -/
def Sink.Takes (sink : Sink ByteArray) : Prop :=
  ∀ bytes taken, sink.write bytes taken = .ok (taken ++ bytes)

/-- The closed sink refuses. -/
theorem Sink.closed_refuses : Sink.closed.Refuses where
  nothing := closed_write_empty
  bytes bytes taken hbytes := by
    have hsome : bytes.isEmpty = false := by
      simpa [ByteArray.isEmpty, ByteArray.size_eq_zero_iff] using hbytes
    exact ⟨"sink closed", by simp [closed, hsome]⟩
  flush _ := rfl

/-- The sink that cannot be flushed takes all that is written. -/
theorem Sink.unflushable_takes : Sink.unflushable.Takes :=
  fun _ _ => rfl

/-! ## The first bytes -/

/-- The sink refuses some bytes with which the printed ones begin. -/
def Sink.RefusesFirst (sink : Sink σ) (state : σ) (printed : ByteArray) (message : String) : Prop :=
  ∃ first, first ≠ .empty ∧ Extends first printed ∧ sink.write first state = .error message

section

variable {sink : Sink σ} {state : σ} {printed after : ByteArray} {message : String}

/-- A first write that is refused stays the first one however much is printed after it. -/
theorem Sink.RefusesFirst.extends (h : sink.RefusesFirst state printed message)
    (hmore : Extends printed after) : sink.RefusesFirst state after message := by
  obtain ⟨first, hsome, hfirst, hwrite⟩ := h
  exact ⟨first, hsome, hfirst.trans hmore, hwrite⟩

/-- Where a write is refused, something was printed. -/
theorem Sink.RefusesFirst.ne_empty (h : sink.RefusesFirst state printed message) :
    printed ≠ .empty := by
  rintro rfl
  obtain ⟨first, hsome, ⟨more, hmore⟩, _⟩ := h
  exact hsome (ByteArray.append_eq_empty_iff.1 hmore.symm).1

end

/-- The first run prints nothing, and the second one does not differ from it; or it prints
something, and the second one fails with the first bytes. -/
def Run.Refused (sink : Sink σ) (x : Run ByteArray α) (y : Run σ α) : Prop :=
  ∀ taken state, ∃ printed, (x taken).state = taken ++ printed ∧
    ((printed = .empty ∧ y state = (x taken).mapState fun _ => state) ∨
      ∃ message, sink.RefusesFirst state printed message ∧
        y state = .failed (.output message) state)

namespace Run.Refused

variable {sink : Sink σ} {x : Run ByteArray α} {y : Run σ α}

/-- A refused run only ever adds to what was printed. -/
theorem appends (h : x.Refused sink y) (state : σ) : x.Appends := by
  intro taken
  obtain ⟨printed, hprinted, _⟩ := h taken state
  exact ⟨printed, hprinted⟩

/-- A run that prints nothing does not depend on the sink. -/
theorem of_silent (hx : ∀ taken, (x taken).state = taken)
    (hy : ∀ taken state, y state = (x taken).mapState fun _ => state) : x.Refused sink y :=
  fun taken state =>
    ⟨.empty, (hx taken).trans ByteArray.append_empty.symm, .inl ⟨rfl, hy taken state⟩⟩

/-- Two runs after each other are refused if each is. -/
theorem bind {f : α → Run ByteArray β} {k : α → Run σ β} (hx : x.Refused sink y)
    (hf : ∀ a, (f a).Refused sink (k a)) : (x >>= f).Refused sink (y >>= k) := by
  intro taken state
  obtain ⟨before, hbefore, ⟨rfl, hsame⟩ | ⟨message, hfirst, hfails⟩⟩ := hx taken state
  · -- nothing has been printed yet, so the runs go on alike
    have htaken : (x taken).state = taken := hbefore.trans ByteArray.append_empty
    show ∃ printed, (Run.andThen x f taken).state = _ ∧
      ((_ ∧ Run.andThen y k state = (Run.andThen x f taken).mapState _) ∨
        ∃ message, _ ∧ Run.andThen y k state = _)
    unfold Run.andThen
    rw [hsame]
    cases hrun : x taken with
    | done a middle =>
        rw [hrun] at htaken
        cases htaken
        exact hf a middle state
    | failed e middle =>
        rw [hrun] at hbefore
        exact ⟨.empty, hbefore, .inl ⟨rfl, rfl⟩⟩
    | unfinished middle =>
        rw [hrun] at hbefore
        exact ⟨.empty, hbefore, .inl ⟨rfl, rfl⟩⟩
  · -- the second run has failed, and what follows the first one only adds
    obtain ⟨more, hmore⟩ := Run.extends_bind (x := x) (fun a => (hf a).appends state) taken
    refine ⟨before ++ more, ?_, .inr ⟨message, hfirst.extends ⟨more, rfl⟩, ?_⟩⟩
    · rw [hmore, hbefore, ByteArray.append_assoc]
    · exact Run.bind_eq_failed.2 (.inl hfails)

/-- Runs that are refused can be put together. -/
theorem compatible :
    Run.Relation.Compatible fun _ (x : Run ByteArray _) (y : Run σ _) => x.Refused sink y :=
  ⟨fun _ => of_silent (fun _ => rfl) fun _ _ => rfl,
    fun _ => of_silent (fun _ => rfl) fun _ _ => rfl, bind⟩

/-- Loops are refused as their rounds are. -/
theorem loops {rounds : Nat} :
    Run.Relation.Loops (fun _ (x : Run ByteArray _) (y : Run σ _) => x.Refused sink y) rounds
      rounds :=
  compatible.loops (of_silent (fun _ => rfl) fun _ _ => rfl)

/-- Bytes that are written are taken by the one sink and refused by the other. -/
theorem print (h : sink.Refuses) (bytes : ByteArray) :
    (Host.print (.ofSink .collect) bytes).Refused sink (Host.print (.ofSink sink) bytes) := by
  intro taken state
  refine ⟨bytes, rfl, ?_⟩
  by_cases hnothing : bytes = .empty
  · subst hnothing
    refine .inl ⟨rfl, ?_⟩
    have hwrite : (Host.ofSink sink).write ByteArray.empty state = .ok state := h.nothing state
    simp only [Host.print, hwrite]
    rfl
  · obtain ⟨message, hmessage⟩ := h.bytes bytes state hnothing
    have hwrite : (Host.ofSink sink).write bytes state = .error message := hmessage
    refine .inr ⟨message, ⟨bytes, hnothing, .refl bytes, hmessage⟩, ?_⟩
    simp only [Host.print, hwrite]

end Run.Refused

section

variable {p : Program} {rounds : Nat}

/-- Runs on a collecting sink and on a refusing one are related by the refusal. -/
theorem refused_related {sink : Sink σ} (h : sink.Refuses) (p : Program) (rounds : Nat) :
    (Setting.mk p (.ofSink .collect) rounds).Related
      (fun _ (x : Run ByteArray _) (y : Run σ _) => x.Refused sink y)
      ⟨p, .ofSink sink, rounds⟩ where
  compatible := Run.Refused.compatible
  program := rfl
  print := Run.Refused.print h
  tell _ := .of_silent (fun _ => rfl) fun _ _ => rfl

/-- **Calls** are refused the first bytes that they write. -/
theorem call_refused {sink : Sink σ} (h : sink.Refuses) (name : String) (args : List Value) :
    ((Setting.mk p (.ofSink .collect) rounds).call name args).Refused sink
      ((Setting.mk p (.ofSink sink) rounds).call name args) := by
  have hrelated := refused_related h p rounds
  exact hrelated.dispatch
    (fun f _ => hrelated.enter (.inr .loops) maxCallDepth f (.inr .loops)) name args

/-- Two runs that are one run can be put together to one run. -/
theorem Run.same_compatible :
    Run.Relation.Compatible fun _ (x y : Run σ _) => y = x :=
  ⟨fun _ => rfl, fun _ => rfl, fun hx hf => by rw [hx, funext hf]⟩

/-- Runs on a collecting sink and on one that takes all are the same. -/
theorem same_related {sink : Sink ByteArray} (h : sink.Takes) (p : Program) (rounds : Nat) :
    (Setting.mk p (.ofSink .collect) rounds).Related (fun _ (x y : Run ByteArray _) => y = x)
      ⟨p, .ofSink sink, rounds⟩ where
  compatible := Run.same_compatible
  program := rfl
  print bytes := by
    funext taken
    have hwrite : (Host.ofSink sink).write bytes taken = .ok (taken ++ bytes) := h bytes taken
    unfold Host.print
    rw [hwrite]
    rfl
  tell _ := rfl

/-- **Calls** do not depend on whether the output can be flushed. -/
theorem call_same {sink : Sink ByteArray} (h : sink.Takes) (name : String) (args : List Value) :
    (Setting.mk p (.ofSink sink) rounds).call name args =
      (Setting.mk p (.ofSink .collect) rounds).call name args := by
  have hrelated := same_related h p rounds
  have hloops : Run.Relation.Loops _ rounds rounds := hrelated.compatible.loops rfl
  exact hrelated.dispatch
    (fun f _ => hrelated.enter (.inr hloops) maxCallDepth f (.inr hloops)) name args

end

/-! ## Runs -/

/-- An outcome that has ended is its result and its state. -/
theorem Outcome.ended_inj {r r' : Except EvalError α} {state final : σ} :
    ended r state = ended r' final ↔ r = r' ∧ state = final := by
  cases r <;> cases r' <;> simp [ended]

/-- What the result of a run is that has called its `main` with this outcome. -/
def Outcome.verdict : Outcome σ Value → Option (Except EvalError Int32)
  | done result _ => some (Setting.status result)
  | failed (.exit code) _ => some (.ok code)
  | failed e _ => some (.error e)
  | unfinished _ => none

/-- A verdict does not depend on the state. -/
theorem Outcome.verdict_mapState (g : σ → τ) (outcome : Outcome σ Value) :
    (outcome.mapState g).verdict = outcome.verdict := by
  cases outcome with
  | done result state => rfl
  | failed e state => cases e <;> rfl
  | unfinished state => rfl

section

variable {p : Program} {rounds : Nat} {sink : Sink σ} {calls : Calls σ} {f : Function} {state : σ}

/-- A run without a `main` ends at once, and nothing is flushed. -/
theorem runBy_noMain (hmain : p.function? "main" = none) :
    (Setting.mk p (.ofSink sink) rounds).runBy calls state = .ended (.error .noMain) state := by
  rw [Setting.runBy_none hmain]
  rfl

/-- When `main` has ended, whatever with, the output is flushed before the result is given. -/
theorem runBy_verdict (hmain : p.function? "main" = some f) :
    (Setting.mk p (.ofSink sink) rounds).runBy calls state =
      match (calls "main" [] state).verdict with
      | some r =>
        ((Host.ofSink sink).flushOutput >>= fun _ => Run.ofExcept r) (calls "main" [] state).state
      | none => .unfinished (calls "main" [] state).state := by
  unfold Setting.runBy
  rw [hmain]
  dsimp only
  cases calls "main" [] state with
  | done result final => rfl
  | failed e final => cases e <;> rfl
  | unfinished final => rfl

/-- A run ends with the result of its `main`, if there is nothing to flush. -/
theorem runBy_flushing (hmain : p.function? "main" = some f)
    (hflush : ∀ state, sink.flush state = .ok state) {r : Except EvalError Int32} {final : σ} :
    (Setting.mk p (.ofSink sink) rounds).runBy calls state = .ended r final ↔
      (calls "main" [] state).verdict = some r ∧ (calls "main" [] state).state = final := by
  have hflushed : ∀ (r : Except EvalError Int32) state,
      ((Host.ofSink sink).flushOutput >>= fun _ => Run.ofExcept r) state = .ended r state := by
    intro r state
    have hflush : (Host.ofSink sink).flush state = .ok state := hflush state
    show Run.andThen _ _ state = _
    unfold Run.andThen Host.flushOutput
    rw [hflush]
    cases r <;> rfl
  rw [runBy_verdict hmain]
  cases (calls "main" [] state).verdict with
  | none => cases r <;> simp [Outcome.ended]
  | some verdict =>
      dsimp only
      rw [hflushed, Outcome.ended_inj, Option.some.injEq]

/-- A run ends with the error of the sink, if `main` has ended and its output cannot be
flushed. -/
theorem runBy_unflushed (hmain : p.function? "main" = some f) {r : Except EvalError Int32}
    (hverdict : (calls "main" [] state).verdict = some r) {message : String}
    (hflush : sink.flush (calls "main" [] state).state = .error message) :
    (Setting.mk p (.ofSink sink) rounds).runBy calls state =
      .failed (.output message) (calls "main" [] state).state := by
  have hfails : (Host.ofSink sink).flushOutput (calls "main" [] state).state =
      .failed (.output message) (calls "main" [] state).state := by
    have hflush : (Host.ofSink sink).flush (calls "main" [] state).state = .error message := hflush
    unfold Host.flushOutput
    rw [hflush]
  rw [runBy_verdict hmain, hverdict]
  exact Run.bind_eq_failed.2 (.inl hfails)

end

/-- **Failing sinks are reported**, and nothing else changes.  Let a run on a sink that takes
everything end with a result after it has printed something or nothing.

* On a sink that refuses all bytes the run ends with the same result if nothing was printed.
  Otherwise it ends with the error with which the sink refuses some bytes that would have been
  printed first, and nothing is printed.
* On a sink that takes all bytes and cannot flush them, the same is printed, and the run ends
  with the error of the sink, also if the result is an error or the status of an exit.  It
  ends without flushing if there is no `main`. -/
theorem failing_sinks_are_reported {p : Program} {rounds : Nat} {r : Except EvalError Int32}
    {printed : ByteArray}
    (h : (Setting.mk p (.ofSink .collect) rounds).run ByteArray.empty = .ended r printed) :
    (∀ (σ : Type) (sink : Sink σ), sink.Refuses → ∀ state,
      let run := (Setting.mk p (.ofSink sink) rounds).run state
      (printed = .empty → run = .ended r state) ∧
      (printed ≠ .empty → ∃ message, sink.RefusesFirst state printed message ∧
        run = .failed (.output message) state)) ∧
    ∀ sink : Sink ByteArray, sink.Takes → ∀ message, sink.flush printed = .error message →
      (Setting.mk p (.ofSink sink) rounds).run ByteArray.empty =
        .failed (if (p.function? "main").isSome then .output message else .noMain) printed := by
  cases hmain : p.function? "main" with
  | none =>
      obtain ⟨rfl, rfl⟩ := Outcome.ended_inj.1 ((runBy_noMain hmain).symm.trans h)
      exact ⟨fun σ sink _ state => ⟨fun _ => runBy_noMain hmain, fun hne => absurd rfl hne⟩,
        fun sink _ message _ => runBy_noMain hmain⟩
  | some f =>
      obtain ⟨hverdict, hstate⟩ := (runBy_flushing hmain fun _ => rfl).1 h
      refine ⟨fun σ sink hrefuses state => ?_, fun sink htakes message hflush => ?_⟩
      · obtain ⟨o, ho, hcase⟩ := @call_refused σ p rounds sink hrefuses "main" [] .empty state
        obtain rfl : printed = o := hstate.symm.trans (ho.trans ByteArray.empty_append)
        rcases hcase with ⟨rfl, hsame⟩ | ⟨message, hfirst, hfails⟩
        · refine ⟨fun _ => (runBy_flushing hmain hrefuses.flush).2 ?_, fun hne => absurd rfl hne⟩
          rw [hsame, Outcome.verdict_mapState, Outcome.state_mapState]
          exact ⟨hverdict, rfl⟩
        · refine ⟨fun hempty => absurd hempty hfirst.ne_empty, fun _ => ⟨message, hfirst, ?_⟩⟩
          refine (runBy_flushing (r := .error (.output message)) hmain hrefuses.flush).2 ?_
          rw [hfails]
          exact ⟨rfl, rfl⟩
      · have hsame := @call_same p rounds sink htakes "main" []
        rw [← hsame] at hverdict hstate
        rw [← hstate] at hflush ⊢
        exact runBy_unflushed hmain hverdict hflush

/-- A program that writes no bytes, prints a number and exits with a status. -/
def exitingSource : String :=
  "builtin void print(x: i32); i32 main() \x7b syscall(4, 1, \"none\", 0); print(5); " ++
    "syscall(1, 3); return 0; \x7d"

/-- A program that writes no bytes and then prints a number, and exits with a status: on the
closed sink it fails with the number, and on the sink that cannot flush at its end. -/
theorem failing_sinks_are_reported_exit :
    ∃ p, frontEnd exitingSource none = .ok p ∧
      (Setting.mk p (.ofSink .collect) 0).run ByteArray.empty = .ended (.ok 3) "5\n".toUTF8 ∧
      Sink.closed.Refuses ∧ Sink.unflushable.Takes ∧
      (∃ message, Sink.closed.RefusesFirst ByteArray.empty "5\n".toUTF8 message ∧
        (Setting.mk p (.ofSink .closed) 0).run ByteArray.empty =
          .failed (.output message) ByteArray.empty) ∧
      (Setting.mk p (.ofSink .unflushable) 0).run ByteArray.empty =
        .failed (.output "flush failed") "5\n".toUTF8 := by
  have hcheck : (frontEnd exitingSource none).toOption.any (fun p => decide (
        (Setting.mk p (.ofSink .collect) 0).run .empty = .ended (.ok 3) "5\n".toUTF8 ∧
        (p.function? "main").isSome)) = true := by
    decide +kernel
  obtain ⟨p, haccepted, hcheck⟩ := (Option.any_eq_true _ _).1 hcheck
  obtain ⟨hrun, hmain⟩ := of_decide_eq_true hcheck
  obtain ⟨hclosed, hunflushed⟩ := failing_sinks_are_reported hrun
  have hends := hunflushed .unflushable Sink.unflushable_takes "flush failed" rfl
  rw [if_pos hmain] at hends
  exact ⟨p, toOption_eq_some.1 haccepted, hrun, Sink.closed_refuses, Sink.unflushable_takes,
    (hclosed ByteArray .closed Sink.closed_refuses .empty).2 (by decide), hends⟩

end Slate
