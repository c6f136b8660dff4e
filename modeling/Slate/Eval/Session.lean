import Slate.Eval.Evaluator

/-!
# Sessions

A program can be put to use again and again on one host: run as a whole,
called into by name, or entered at one of its functions.  A session is a list
of such requests, served by one evaluator.  Each finds the evaluator as the ones
before it left it, whether they were answered or failed.

Nothing else is kept from one request to the next: a frame lives no longer than
its call.

* `session_append` — a session goes on where its first part ended.
-/

namespace Slate

variable {σ : Type}

/-- What can be asked of a program.  A function that is entered is given the
arguments as they are, and one that is called is first asked how many it
takes. -/
inductive Request where
  | run
  | call (name : String) (args : List Value)
  | enter (name : String) (args : List Value)
deriving DecidableEq

/-- What a request is answered with.  There may be no function to enter. -/
inductive Reply where
  | status (status : Int32)
  | value (value : Value)
  | absent
deriving DecidableEq

namespace Setting

/-- Serves one request, with the given way to enter functions. -/
def serveBy (setting : Setting σ) (enter : Function → List Value → Run σ Value) :
    Request → Run σ Reply
  | .run => do
    let status ← setting.runBy (setting.dispatch enter)
    pure (.status status)
  | .call name args => do
    let value ← setting.dispatch enter name args
    pure (.value value)
  | .enter name args =>
    match setting.program.function? name with
    | none => pure .absent
    | some f => do
      let value ← enter f args
      pure (.value value)

/-- Serves one request on a host. -/
def serve (setting : Setting σ) : Request → Run σ Reply :=
  setting.serveBy (setting.enter maxCallDepth)

/-- Serves one request by an evaluator. -/
def serveCounting (setting : Setting σ) : Request → Run (Evaluator σ) Reply :=
  setting.counting.serveBy (setting.enterCounting (maxCallDepth + 1))

/-- Serves requests in order, each by the evaluator that the one before it left. -/
def serveAll (setting : Setting σ) :
    List Request → Evaluator σ → List (Outcome (Evaluator σ) Reply)
  | [], _ => []
  | request :: requests, evaluator =>
    let outcome := setting.serveCounting request evaluator
    outcome :: setting.serveAll requests outcome.state

/-- Serves requests in order by an evaluator that has not been used.  What is seen of
it is the host. -/
def session (setting : Setting σ) (requests : List Request) (state : σ) :
    List (Outcome σ Reply) :=
  (setting.serveAll requests (.fresh state)).map (·.mapState Evaluator.host)

/-- The evaluator after requests. -/
def evaluatorAfter (setting : Setting σ) (requests : List Request) (evaluator : Evaluator σ) :
    Evaluator σ :=
  requests.foldl (fun evaluator request => (setting.serveCounting request evaluator).state)
    evaluator

/-- A session goes on where its first part ended. -/
theorem session_append (setting : Setting σ) (first second : List Request)
    (evaluator : Evaluator σ) :
    setting.serveAll (first ++ second) evaluator =
      setting.serveAll first evaluator ++
        setting.serveAll second (setting.evaluatorAfter first evaluator) := by
  induction first generalizing evaluator with
  | nil => rfl
  | cons request requests ih =>
    rw [List.cons_append, serveAll, serveAll, ih]
    rfl

end Setting

end Slate
