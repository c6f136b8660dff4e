import Slate.FrontEnd
import Slate.Proofs.Eval.Carried

/-!
# Requests leave no trace

An evaluator serves a request as a new one would, whatever it has served before: the answer
or the error is the same, and so are the bytes that are printed.

Two things could be left behind.  One is the depth.  `enterCounting_carried` shows that a
call ends at the depth at which it was entered, on every way out, and that in between the
depth says how deep calls may still nest; so an evaluator at depth 0 serves requests as a
setting does, which has no depth at all.  The other is the output.  Sinks that only append
what they take (`Sink.Appends`) never look at what they have taken before, and the sinks
that programs are tried with are of this kind.

Both are about runs that are carried over to other states (`Run.Carries`): from states
without a depth to evaluators at one, and from the output of one request to all output.
-/

namespace Slate

variable {σ : Type} {setting : Setting σ}

/-! ## Depths -/

/-- An evaluator that counts its depth carries over what the host does. -/
theorem Setting.counting_carries (setting : Setting σ) (depth : Nat) :
    setting.Carries (Evaluator.mk · depth) setting.counting where
  program := rfl
  rounds := rfl
  host :=
    { write := fun bytes state => by
        show Except.map _ (setting.host.write bytes state) = _
        cases setting.host.write bytes state <;> rfl
      flush := fun state => by
        show Except.map _ (setting.host.flush state) = _
        cases setting.host.flush state <;> rfl
      notice := fun _ _ => rfl }

/-- A call that is in progress is counted, and it is no longer counted when it has ended. -/
theorem during_carried {α : Type} {x : Run σ α} {y : Run (Evaluator σ) α} {depth : Nat}
    (h : Run.Carries (Evaluator.mk · (depth + 1)) x y) :
    Run.Carries (Evaluator.mk · depth) x (Evaluator.during y) := by
  intro state
  have hrun := h state
  show (y ⟨state, depth + 1⟩).mapState _ = _
  rw [hrun, Outcome.mapState_mapState]
  rfl

/-- **The depth is restored.**  At a depth, a function is entered as when calls may nest as
much deeper as is missing to `maxCallDepth`, and the depth is the same behind the call. -/
theorem enterCounting_carried {limit depth : Nat} (hdepth : depth ≤ maxCallDepth)
    (hlimit : maxCallDepth < limit + depth) (f : Function) (args : List Value) :
    Run.Carries (Evaluator.mk · depth) (setting.enter (maxCallDepth - depth) f args)
      (setting.enterCounting limit f args) := by
  induction limit generalizing depth f args with
  | zero => exact absurd hlimit (by omega)
  | succ limit ih =>
      intro state
      rw [Setting.enterCounting]
      show (if maxCallDepth ≤ depth then _ else _) = _
      by_cases hfull : maxCallDepth ≤ depth
      · rw [if_pos hfull, Nat.sub_eq_zero_of_le hfull, Setting.enter]
        rfl
      · have hallowed : maxCallDepth - depth = (maxCallDepth - (depth + 1)) + 1 := by omega
        have hcount : maxCallDepth - (maxCallDepth - (depth + 1)) = depth + 1 := by omega
        rw [if_neg hfull, hallowed, Setting.enter, hcount]
        have hnested : ∀ f args, Run.Carries (Evaluator.mk · (depth + 1))
            (setting.enter (maxCallDepth - (depth + 1)) f args)
            (setting.enterCounting limit f args) :=
          ih (by omega) (by omega)
        have hinside := setting.counting_carries (depth + 1)
        have htold : Run.Carries (Evaluator.mk · (depth + 1))
            (setting.host.tell (.entered f.name (depth + 1))) (setting.announce f) :=
          fun _ => rfl
        exact during_carried
          (htold.bind fun _ => hinside.body (hinside.dispatch hnested) f args) state

/-- An evaluator without calls in progress serves a request as its setting does, and has no
calls in progress afterwards. -/
theorem serveCounting_eq (request : Request) (state : σ) :
    setting.serveCounting request (.fresh state) =
      (setting.serve request state).mapState .fresh :=
  (setting.counting_carries 0).serveBy
    (enterCounting_carried (Nat.zero_le _) (Nat.lt_succ_self _)) request state

/-- No calls are in progress between requests. -/
theorem evaluatorAfter_depth (requests : List Request) (state : σ) :
    (setting.evaluatorAfter requests (.fresh state)).depth = 0 := by
  induction requests generalizing state with
  | nil => rfl
  | cons request requests ih =>
      show (setting.evaluatorAfter requests
        (setting.serveCounting request (.fresh state)).state).depth = 0
      rw [serveCounting_eq, Outcome.state_mapState]
      exact ih _

/-! ## Outputs -/

/-- The sink never looks at what it has taken, and adds to it. -/
structure Sink.Appends (sink : Sink ByteArray) : Prop where
  write : ∀ bytes before taken,
    sink.write bytes (before ++ taken) = (sink.write bytes taken).map (before ++ ·)
  flush : ∀ before taken, sink.flush (before ++ taken) = (sink.flush taken).map (before ++ ·)

/-- The sinks that programs are tried with: one that takes everything, one that is closed,
and one that cannot flush. -/
def Sink.trial : List (Sink ByteArray) := [.collect, .closed, .unflushable]

/-- The sinks of the trial append. -/
theorem Sink.appends_of_trial {sink : Sink ByteArray} (h : sink ∈ Sink.trial) : sink.Appends := by
  simp only [Sink.trial, List.mem_cons, List.not_mem_nil, or_false] at h
  rcases h with rfl | rfl | rfl
  · exact ⟨fun bytes before taken => by simp [collect, Except.map, ByteArray.append_assoc],
      fun _ _ => rfl⟩
  · refine ⟨fun bytes before taken => ?_, fun _ _ => rfl⟩
    by_cases hempty : bytes.isEmpty <;> simp [closed, hempty, Except.map]
  · exact ⟨fun bytes before taken => by simp [unflushable, Except.map, ByteArray.append_assoc],
      fun _ _ => rfl⟩

/-- What was printed before a run stays in front of what the run prints. -/
theorem Sink.Appends.carries {sink : Sink ByteArray} (h : sink.Appends) (p : Program)
    (rounds : Nat) (before : ByteArray) :
    (Setting.mk p (.ofSink sink) rounds).Carries (before ++ ·) ⟨p, .ofSink sink, rounds⟩ where
  program := rfl
  rounds := rfl
  host := ⟨fun bytes => h.write bytes before, h.flush before, fun _ _ => rfl⟩

/-! ## Sessions -/

/-- The answer to a request in a session is that of the evaluator the earlier requests leave. -/
theorem session_middle (before : List Request) (request : Request) (after : List Request)
    (state : σ) :
    (setting.session (before ++ request :: after) state)[before.length]? =
      some ((setting.serveCounting request
        (setting.evaluatorAfter before (.fresh state))).mapState Evaluator.host) := by
  have hlength : (setting.serveAll before (.fresh state)).length = before.length := by
    generalize Evaluator.fresh state = evaluator
    induction before generalizing evaluator with
    | nil => rfl
    | cons first others ih => exact congrArg (· + 1) (ih _)
  unfold Setting.session
  rw [Setting.session_append, List.getElem?_map, List.getElem?_append_right (by omega), hlength,
    Nat.sub_self]
  rfl

/-- **Requests leave no trace.**  In a session on one of the trial sinks, every request ends
as it does alone on an evaluator that has not been used: with the same answer or error, and
with the same bytes behind those of the earlier requests.  No calls are in progress
between requests. -/
theorem requests_leave_no_trace (p : Program) {sink : Sink ByteArray} (hsink : sink ∈ Sink.trial)
    (rounds : Nat) (before : List Request) (request : Request) (after : List Request) :
    let setting := Setting.mk p (.ofSink sink) rounds
    let reached := setting.evaluatorAfter before (.fresh .empty)
    reached.depth = 0 ∧
      (setting.session (before ++ request :: after) .empty)[before.length]? =
        (setting.session [request] .empty)[0]?.map (·.mapState (reached.host ++ ·)) := by
  intro setting reached
  have hdepth : reached.depth = 0 := evaluatorAfter_depth before ByteArray.empty
  have hreached : reached = .fresh (reached.host ++ ByteArray.empty) := by
    rw [ByteArray.append_empty]
    exact congrArg (Evaluator.mk reached.host) hdepth
  have hcarried := ((Sink.appends_of_trial hsink).carries p rounds reached.host).serve request
  have hserved : setting.serveCounting request reached =
      ((setting.serve request .empty).mapState (reached.host ++ ·)).mapState .fresh :=
    calc setting.serveCounting request reached
        = setting.serveCounting request (.fresh (reached.host ++ ByteArray.empty)) :=
          congrArg _ hreached
      _ = (setting.serve request (reached.host ++ ByteArray.empty)).mapState .fresh :=
          serveCounting_eq request _
      _ = ((setting.serve request .empty).mapState (reached.host ++ ·)).mapState .fresh :=
          congrArg _ (hcarried ByteArray.empty)
  have halone : (setting.session [request] .empty)[0]? =
      some ((setting.serveCounting request (.fresh .empty)).mapState Evaluator.host) := rfl
  refine ⟨hdepth, ?_⟩
  rw [session_middle, halone, Option.map_some, serveCounting_eq request ByteArray.empty]
  show some ((setting.serveCounting request reached).mapState _) = _
  rw [hserved]
  simp only [Outcome.mapState_mapState]
  rfl

/-- A program that prints a number. -/
def printingSource : String := "builtin void print(x: i32); i32 main() { print(7); return 3; }"

/-- The theorem applies on a closed sink, behind a run that the sink has failed and a call of
a function that there is not. -/
theorem requests_leave_no_trace_closed :
    ∃ p, frontEnd printingSource none = .ok p ∧
      (let setting := Setting.mk p (.ofSink .closed) 1
      let reached := setting.evaluatorAfter [.run, .call "other" []] (.fresh .empty)
      (setting.session [.run, .call "other" [], .run] .empty)[0]? =
        some (.failed (.output "sink closed") .empty) ∧
      Sink.closed ∈ Sink.trial ∧ reached.depth = 0 ∧
      (setting.session ([.run, .call "other" []] ++ .run :: []) .empty)[2]? =
        (setting.session [.run] .empty)[0]?.map (·.mapState (reached.host ++ ·))) := by
  have hcheck : (frontEnd printingSource none).toOption.any (fun p => decide
        (((Setting.mk p (.ofSink .closed) 1).session [.run, .call "other" [], .run] .empty)[0]? =
          some (.failed (.output "sink closed") .empty))) = true := by
    decide +kernel
  obtain ⟨p, haccepted, hfirst⟩ := (Option.any_eq_true _ _).1 hcheck
  have hsink : Sink.closed ∈ Sink.trial := by simp [Sink.trial]
  exact ⟨p, toOption_eq_some.1 haccepted, of_decide_eq_true hfirst, hsink,
    requests_leave_no_trace p hsink 1 [.run, .call "other" []] .run []⟩

end Slate
