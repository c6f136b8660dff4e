import Slate.Eval.Session
import Slate.Proofs.Eval.Related

/-!
# Runs carried over to other states

Evaluation looks at the host only through what the host offers: writing, flushing and
being told.  So when a map `g` between the states of two hosts commutes with these, it
commutes with every run: from `g state` the second host sees the run that the first one
sees from `state`, with the same answer or error, and ends in the image of its state
(`Run.Carries`).

This is a relation that is kept by the ways in which runs are put together
(`Run.carries_compatible`), so it holds of evaluations; the theorems here follow it through
calls up to requests.  How functions are entered is left open, as two settings can differ
in it.
-/

namespace Slate

variable {σ τ α β : Type} {g : σ → τ}

/-- The second run is the first one on the images of states. -/
def Run.Carries (g : σ → τ) (x : Run σ α) (y : Run τ α) : Prop :=
  ∀ state, y (g state) = (x state).mapState g

namespace Run.Carries

/-- An answer is carried over. -/
theorem answer (a : α) : Run.Carries g (pure a) (pure a) :=
  fun _ => rfl

/-- So is a failure. -/
theorem fail (e : EvalError) : Run.Carries g (Run.fail e : Run σ α) (Run.fail e) :=
  fun _ => rfl

/-- One run after another. -/
theorem bind {x : Run σ α} {y : Run τ α} {f : α → Run σ β} {k : α → Run τ β}
    (hx : Run.Carries g x y) (hf : ∀ a, Run.Carries g (f a) (k a)) :
    Run.Carries g (x >>= f) (y >>= k) := by
  intro state
  show Run.andThen y k (g state) = (Run.andThen x f state).mapState g
  unfold Run.andThen
  rw [hx state]
  cases x state with
  | done a middle => exact hf a middle
  | failed e middle => rfl
  | unfinished middle => rfl

/-- So is the run with its error for an answer. -/
theorem result {x : Run σ α} {y : Run τ α} (h : Run.Carries g x y) :
    Run.Carries g x.result y.result := by
  intro state
  unfold Run.result
  rw [h state]
  cases x state <;> rfl

end Run.Carries

/-- Runs that are carried over can be put together. -/
theorem Run.carries_compatible : Run.Relation.Compatible fun _ => Run.Carries g :=
  ⟨Run.Carries.answer, Run.Carries.fail, Run.Carries.bind⟩

/-- All calls are carried over. -/
def Calls.Carries (g : σ → τ) (calls : Calls σ) (other : Calls τ) : Prop :=
  ∀ name args, Run.Carries g (calls name args) (other name args)

/-! ## Hosts -/

/-- What the second host does to the image of a state is the image of what the first one
does. -/
structure Host.Carries (g : σ → τ) (host : Host σ) (other : Host τ) : Prop where
  write : ∀ bytes state, other.write bytes (g state) = (host.write bytes state).map g
  flush : ∀ state, other.flush (g state) = (host.flush state).map g
  notice : ∀ event state, other.notice event (g state) = g (host.notice event state)

section

variable {host : Host σ} {other : Host τ}

/-- Printing is carried over. -/
theorem Host.Carries.print (h : host.Carries g other) (bytes : ByteArray) :
    Run.Carries g (host.print bytes) (other.print bytes) := by
  intro state
  simp only [Host.print, h.write]
  cases host.write bytes state <;> rfl

/-- So is flushing the output. -/
theorem Host.Carries.flushOutput (h : host.Carries g other) :
    Run.Carries g host.flushOutput other.flushOutput := by
  intro state
  simp only [Host.flushOutput, h.flush]
  cases host.flush state <;> rfl

/-- So is what the sink is told. -/
theorem Host.Carries.tell (h : host.Carries g other) (event : Event) :
    Run.Carries g (host.tell event) (other.tell event) := by
  intro state
  simp only [Host.tell, h.notice]
  rfl

end

/-! ## Calls and requests -/

/-- The settings have one program and give loops the same rounds, and what happens to one
host is carried over to the other. -/
structure Setting.Carries (g : σ → τ) (setting : Setting σ) (other : Setting τ) : Prop where
  program : other.program = setting.program
  rounds : other.rounds = setting.rounds
  host : setting.host.Carries g other.host

namespace Setting.Carries

variable {setting : Setting σ} {other : Setting τ} {entry : Function → List Value → Run σ Value}
  {entry' : Function → List Value → Run τ Value}

/-- Carried settings are related by being carried. -/
theorem related (h : setting.Carries g other) :
    setting.Related (fun _ => Run.Carries g) other :=
  ⟨Run.carries_compatible, h.program, h.host.print, h.host.tell⟩

/-- So are their loops. -/
theorem loops (h : setting.Carries g other) :
    Run.Relation.Loops (fun _ => Run.Carries g) setting.rounds other.rounds := by
  rw [h.rounds]
  exact Run.carries_compatible.loops fun _ => rfl

/-- The body of a function is carried over where its calls are. -/
theorem body (h : setting.Carries g other) {calls : Calls σ} {calls' : Calls τ}
    (hcalls : calls.Carries g calls') (f : Function) (args : List Value) :
    Run.Carries g (setting.body calls f args) (other.body calls' f args) :=
  h.related.body hcalls f (.inr h.loops) args

/-- So is a call by name. -/
theorem dispatch (h : setting.Carries g other)
    (hentry : ∀ f args, Run.Carries g (entry f args) (entry' f args)) :
    (setting.dispatch entry).Carries g (other.dispatch entry') :=
  h.related.dispatch fun f _ => hentry f

/-- Functions are entered alike when calls may nest equally deep. -/
theorem enter (h : setting.Carries g other) (allowed : Nat) (f : Function) (args : List Value) :
    Run.Carries g (setting.enter allowed f args) (other.enter allowed f args) :=
  h.related.enter (.inr h.loops) allowed f (.inr h.loops) args

/-- So is the run of a program. -/
theorem runBy (h : setting.Carries g other) {call : Calls σ} {call' : Calls τ}
    (hcall : call.Carries g call') : Run.Carries g (setting.runBy call) (other.runBy call') :=
  h.related.runBy h.host.flushOutput (hcall "main" []).result

/-- So is the answer to a request. -/
theorem serveBy (h : setting.Carries g other)
    (hentry : ∀ f args, Run.Carries g (entry f args) (entry' f args)) (request : Request) :
    Run.Carries g (setting.serveBy entry request) (other.serveBy entry' request) := by
  cases request with
  | run => exact (h.runBy (h.dispatch hentry)).bind fun status => .answer _
  | call name args => exact (h.dispatch hentry name args).bind fun value => .answer _
  | enter name args =>
      unfold Setting.serveBy
      rw [h.program]
      dsimp only
      split
      · exact .answer _
      · next f _ => exact (hentry f args).bind fun value => .answer _

/-- Requests are served alike. -/
theorem serve (h : setting.Carries g other) (request : Request) :
    Run.Carries g (setting.serve request) (other.serve request) :=
  h.serveBy (h.enter maxCallDepth) request

end Setting.Carries

end Slate
