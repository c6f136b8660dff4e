import Slate.Proofs.Eval.Entries
import Slate.Proofs.Eval.Moments
import Slate.Proofs.Eval.Printed

/-!
# The limit of the call depth cuts runs off

Calls nest at most `maxCallDepth` deep, those that are in progress when an evaluation starts
included: a moment has as many activations and as much room for further ones as the start
has room (`Moment.room`), and no step makes this more.

The depth is looked at when a function is entered and nowhere else, and the refusal ends
every call in progress.  So an evaluation that is not refused does not depend on the depth
at which it started, and one that is refused is the beginning of what it would have been at
a smaller depth.  In this a refusal is like the end of the rounds that loops are given.  Both
cut a run off, and one that is cut off by neither is its own continuation
(`Run.Outlasted`): with more room and more rounds a run prints what it printed before, and
then perhaps more.

* `Setting.Begins.room_le`, `Setting.Reaches.activations_le` — how deep calls nest;
* `enter_outlasted` — functions entered with less room and with more;
* `depth_limit_cuts_off` — evaluations started at two depths.
-/

namespace Slate

variable {σ α β : Type}

/-! ## Nesting -/

namespace Moment

/-- How many activations there are at the moment, or can be before one of them ends. -/
def room : Moment σ → Nat
  | running _ => maxCallDepth
  | calling callers allowed _ _ _ => callers.length + allowed
  | entering callers allowed _ _ _ => callers.length + allowed
  | binding callers _ => callers.length + 1
  | working callers allowed _ => callers.length + 1 + allowed

/-- There are never more activations than there was room for. -/
theorem activations_le_room (m : Moment σ) : m.activations.length ≤ m.room := by
  cases m with
  | running state => exact Nat.zero_le _
  | calling callers allowed name args state => exact Nat.le_add_right _ _
  | entering callers allowed f args state => exact Nat.le_add_right _ _
  | binding callers frame => exact Nat.le_refl _
  | working callers allowed work => exact Nat.le_add_right _ _

end Moment

namespace Setting

variable {setting : Setting σ} {m m' : Moment σ}

/-- **One step** needs no more room. -/
theorem Begins.room_le (h : setting.Begins m m') : m'.room ≤ m.room := by
  cases h with
  | main known => simp [Moment.room]
  | entry other known count block => exact Nat.le_refl _
  | bind declared => simp [Moment.room]
  | body => simp [Moment.room, Nat.add_assoc, Nat.add_comm 1]
  | inside part => exact Nat.le_refl _
  | call noted first => exact Nat.le_refl _

/-- At every moment there are as many activations as the start has room for, and no more. -/
theorem Reaches.activations_le (h : setting.Reaches m m') : m'.activations.length ≤ m.room := by
  have hroom : m'.room ≤ m.room := by
    induction h with
    | refl => exact Nat.le_refl _
    | tail _ hlast ih => exact Nat.le_trans hlast.room_le ih
  exact Nat.le_trans m'.activations_le_room hroom

end Setting

/-- The moment at which an evaluation starts when calls may nest `allowed` deep. -/
def Entry.start (allowed : Nat) (args : List Value) (state : σ) : Entry → Moment σ
  | call name => .calling [] allowed name args state
  | enter f => .entering [] allowed f args state

/-- An entry begins with all the room it is allowed. -/
theorem Entry.room_start (allowed : Nat) (args : List Value) (state : σ) (entry : Entry) :
    (entry.start allowed args state).room = allowed := by
  cases entry <;> exact Nat.zero_add allowed

/-! ## Runs that are cut off -/

/-- The run was refused a call, or its loops had no rounds left. -/
def Outcome.CutOff : Outcome σ α → Prop
  | failed .callDepth _ => True
  | unfinished _ => True
  | _ => False

/-- What would follow a run that is cut off is not reached. -/
theorem Outcome.CutOff.bind {x : Run σ α} {state : σ} (h : (x state).CutOff) (f : α → Run σ β) :
    ((x >>= f) state).CutOff ∧ ((x >>= f) state).state = (x state).state := by
  show (Run.andThen x f state).CutOff ∧ (Run.andThen x f state).state = (x state).state
  unfold Run.andThen
  cases hx : x state with
  | done a middle =>
      rw [hx] at h
      exact h.elim
  | failed e middle =>
      rw [hx] at h
      cases e with
      | callDepth => exact ⟨trivial, rfl⟩
      | _ => exact h.elim
  | unfinished middle => exact ⟨trivial, rfl⟩

/-- The second run is the first one; or the first one was cut off, and the second one prints
what it printed and may go on. -/
structure Run.Outlasted (x y : Run ByteArray α) : Prop where
  appends : y.Appends
  goesOn : ∀ printed, y printed = x printed ∨
    ((x printed).CutOff ∧ Extends (x printed).state (y printed).state)

namespace Run.Outlasted

/-- A run only outlasts itself by what it adds. -/
theorem of_eq {x : Run ByteArray α} (h : x.Appends) : x.Outlasted x :=
  ⟨h, fun _ => .inl rfl⟩

/-- A run that was cut off at once is outlasted by every one that only adds. -/
theorem of_cutOff {x y : Run ByteArray α} (hcut : ∀ printed, (x printed).CutOff)
    (hstate : ∀ printed, (x printed).state = printed) (h : y.Appends) : x.Outlasted y :=
  ⟨h, fun printed => .inr ⟨hcut printed, (hstate printed).symm ▸ h printed⟩⟩

/-- Two runs after each other are outlasted if each is. -/
theorem bind {x y : Run ByteArray α} {f k : α → Run ByteArray β} (hx : x.Outlasted y)
    (hf : ∀ a, (f a).Outlasted (k a)) : (x >>= f).Outlasted (y >>= k) := by
  have hk : ∀ a, (k a).Appends := fun a => (hf a).appends
  refine ⟨hx.appends.bind hk, fun printed => ?_⟩
  rcases hx.goesOn printed with hsame | ⟨hcut, hmore⟩
  · show Run.andThen y k printed = Run.andThen x f printed ∨
      (Run.andThen x f printed).CutOff ∧
        Extends (Run.andThen x f printed).state (Run.andThen y k printed).state
    unfold Run.andThen
    rw [hsame]
    cases x printed with
    | done a middle => exact (hf a).goesOn middle
    | failed e middle => exact .inl rfl
    | unfinished middle => exact .inl rfl
  · -- what follows the first run is not reached, and what follows the second one only adds
    obtain ⟨hends, hstate⟩ := hcut.bind f
    exact .inr ⟨hends, hstate ▸ hmore.trans (Run.extends_bind hk printed)⟩

/-- Runs of which one outlasts the other can be put together. -/
theorem compatible :
    Run.Relation.Compatible fun _ (x y : Run ByteArray _) => x.Outlasted y :=
  ⟨fun _ => of_eq fun printed => .refl printed, fun _ => of_eq fun printed => .refl printed, bind⟩

/-- **Loops of more rounds** outlast those of fewer. -/
theorem loops {rounds more : Nat} (h : rounds ≤ more) :
    Run.Relation.Loops (fun _ (x y : Run ByteArray _) => x.Outlasted y) rounds more := by
  induction rounds generalizing more with
  | zero =>
      intro condition condition' body body' htest hround frame
      have hloops : Run.Relation.Loops (fun _ (_ y : Run ByteArray _) => y.Appends) more more :=
        Run.appends_compatible.loops fun printed => .refl printed
      have happends : (runLoop condition' body' more frame).Appends :=
        @hloops condition condition' body body' (fun frame => (htest frame).appends)
          (fun frame => (hround frame).appends) frame
      exact of_cutOff (fun _ => trivial) (fun _ => rfl) happends
  | succ rounds ih =>
      cases more with
      | zero => exact absurd h (Nat.not_succ_le_zero rounds)
      | succ more => exact compatible.loops_succ (ih (Nat.le_of_succ_le_succ h))

section

variable {x y : Run ByteArray α} {printed o : ByteArray}

/-- An answer does not depend on what could cut the run off. -/
theorem of_done (h : x.Outlasted y) {a : α} (hx : x printed = .done a o) :
    y printed = .done a o := by
  rcases h.goesOn printed with hsame | ⟨hcut, _⟩
  · rw [hsame, hx]
  · rw [hx] at hcut
    exact hcut.elim

/-- An error other than the refusal does not depend on it either. -/
theorem of_failed (h : x.Outlasted y) {e : EvalError} (hx : x printed = .failed e o)
    (he : e ≠ .callDepth) : y printed = .failed e o := by
  rcases h.goesOn printed with hsame | ⟨hcut, _⟩
  · rw [hsame, hx]
  · rw [hx] at hcut
    cases e with
    | callDepth => exact absurd rfl he
    | _ => exact hcut.elim

/-- What a run has printed when it ends is what the other one prints first. -/
theorem extends_failed (h : x.Outlasted y) {e : EvalError} (hx : x printed = .failed e o) :
    Extends o (y printed).state := by
  rcases h.goesOn printed with hsame | ⟨_, hmore⟩
  · rw [hsame, hx]
    exact .refl o
  · rw [hx] at hmore
    exact hmore

end

end Run.Outlasted

/-! ## Evaluations -/

section

variable {p : Program} {rounds more allowed wider : Nat}

/-- Being outlasted is respected by all that the settings of one program do. -/
theorem outlasted_related (p : Program) (rounds more : Nat) :
    (Setting.mk p (.ofSink .collect) rounds).Related
      (fun _ (x y : Run ByteArray _) => x.Outlasted y) ⟨p, .ofSink .collect, more⟩ where
  compatible := Run.Outlasted.compatible
  program := rfl
  print bytes := .of_eq fun _ => ⟨bytes, rfl⟩
  tell _ := .of_eq fun printed => .refl printed

/-- **A function that is entered with more room** outlasts itself with less. -/
theorem enter_outlasted (hrounds : rounds ≤ more) (hallowed : allowed ≤ wider) (f : Function)
    (args : List Value) :
    ((Setting.mk p (.ofSink .collect) rounds).enter allowed f args).Outlasted
      ((Setting.mk p (.ofSink .collect) more).enter wider f args) := by
  have hrelated := outlasted_related p rounds more
  have hloops := Run.Outlasted.loops hrounds
  induction allowed generalizing wider f args with
  | zero =>
      -- with more room the function outlasts itself, so it only adds to what was printed
      have hsame := Run.Outlasted.loops (Nat.le_refl more)
      have hself := (outlasted_related p more more).enter (.inr hsame) wider f (.inr hsame) args
      exact .of_cutOff (fun _ => trivial) (fun _ => rfl) hself.appends
  | succ allowed ih =>
      cases wider with
      | zero => exact absurd hallowed (Nat.not_succ_le_zero allowed)
      | succ wider =>
          have hcalls := hrelated.dispatch fun g _ => ih (Nat.le_of_succ_le_succ hallowed) g
          have htold : Run.Outlasted
              (Host.tell (.ofSink .collect) (.entered f.name (maxCallDepth - allowed)))
              (Host.tell (.ofSink .collect) (.entered f.name (maxCallDepth - wider))) :=
            .of_eq fun printed => .refl printed
          rw [Setting.enter, Setting.enter]
          exact htold.bind fun _ => hrelated.body hcalls f (.inr hloops) args

/-- So an entry with more rounds and more depth outlasts it with fewer. -/
theorem evaluateBy_outlasted (hrounds : rounds ≤ more) (hallowed : allowed ≤ wider)
    (entry : Entry) (args : List Value) :
    ((Setting.mk p (.ofSink .collect) rounds).evaluateBy
        ((Setting.mk p (.ofSink .collect) rounds).enter allowed) entry args).Outlasted
      ((Setting.mk p (.ofSink .collect) more).evaluateBy
        ((Setting.mk p (.ofSink .collect) more).enter wider) entry args) := by
  have hentered := enter_outlasted (p := p) hrounds hallowed
  cases entry with
  | call name => exact (outlasted_related p rounds more).dispatch (fun g _ => hentered g) name args
  | enter f => exact hentered f args

end

/-- **The limit of the call depth cuts runs off** and does nothing else.  Whatever is
evaluated, and with however many calls in progress it is started, calls nest at most
`maxCallDepth` deep.  Let an evaluation be started at a depth and at a smaller one, on a sink
that takes everything.  If at the greater depth it ends otherwise than by the limit, it ends
likewise at the smaller one, with the same output; and if it ends by the limit, what it has
printed is the beginning of what is printed at the smaller depth. -/
theorem depth_limit_cuts_off (p : Program) (entry : Entry) (args : List Value)
    {depth deeper limit : Nat} (hdepth : depth < deeper) (hdeeper : deeper ≤ maxCallDepth)
    (hlimit : maxCallDepth < limit) (rounds : Nat) :
    let setting := fun rounds => Setting.mk p (.ofSink .collect) rounds
    let evaluate := fun rounds depth =>
      (setting rounds).evaluateFrom limit depth entry args ByteArray.empty
    (∀ start ≤ maxCallDepth, ∀ m,
      (setting rounds).Reaches (entry.start (maxCallDepth - start) args .empty) m →
      start + m.activations.length ≤ maxCallDepth) ∧
    ∀ more ≥ rounds,
      (∀ value o, evaluate rounds deeper = .done value o → evaluate more depth = .done value o) ∧
      (∀ e o, evaluate rounds deeper = .failed e o → e ≠ .callDepth →
        evaluate more depth = .failed e o) ∧
      ∀ o, evaluate rounds deeper = .failed .callDepth o →
        Extends o (evaluate more depth).state := by
  intro setting evaluate
  refine ⟨?_, ?_⟩
  · intro start hstart m hreaches
    have hroom := hreaches.activations_le
    rw [Entry.room_start] at hroom
    omega
  · intro more hmore
    have hallowed : maxCallDepth - deeper ≤ maxCallDepth - depth := by omega
    have houtlasted := evaluateBy_outlasted (p := p) hmore hallowed entry args
    have hfirst : evaluate rounds deeper = (setting rounds).evaluateBy
        ((setting rounds).enter (maxCallDepth - deeper)) entry args ByteArray.empty :=
      Setting.evaluateFrom_eq hdeeper (Nat.lt_add_right deeper hlimit) entry args ByteArray.empty
    have hsecond : evaluate more depth = (setting more).evaluateBy
        ((setting more).enter (maxCallDepth - depth)) entry args ByteArray.empty :=
      Setting.evaluateFrom_eq (Nat.le_trans (Nat.le_of_lt hdepth) hdeeper)
        (Nat.lt_add_right depth hlimit) entry args ByteArray.empty
    rw [hfirst, hsecond]
    exact ⟨fun _ _ => houtlasted.of_done, fun _ _ => houtlasted.of_failed,
      fun _ => houtlasted.extends_failed⟩

/-- A countdown that calls itself and prints its numbers. -/
def descendingSource : String :=
  "builtin void print(x: i32); " ++
    "i32 down(n: i32) { print(n); if (n == 0) { return 7; } return down(n - 1); }"

/-- A countdown that has room for two more calls, and prints three numbers when it has more. -/
theorem depth_limit_cuts_off_countdown :
    ∃ p, frontEnd descendingSource none = .ok p ∧
      (let evaluate := fun rounds depth =>
        (Setting.mk p (.ofSink .collect) rounds).evaluateFrom 513 depth (.call "down") [.int 2]
          ByteArray.empty
      evaluate 0 510 = .failed .callDepth "2\n1\n".toUTF8 ∧
      evaluate 4 500 = .done (.int 7) "2\n1\n0\n".toUTF8 ∧
      500 < 510 ∧ 510 ≤ maxCallDepth ∧ maxCallDepth < 513 ∧
      Extends "2\n1\n".toUTF8 (evaluate 4 500).state) := by
  have hcheck : (frontEnd descendingSource none).toOption.any (fun p => decide
        ((Setting.mk p (.ofSink .collect) 0).evaluateFrom 513 510 (.call "down") [.int 2] .empty =
          .failed .callDepth "2\n1\n".toUTF8 ∧
        (Setting.mk p (.ofSink .collect) 4).evaluateFrom 513 500 (.call "down") [.int 2] .empty =
          .done (.int 7) "2\n1\n0\n".toUTF8)) = true := by
    decide +kernel
  obtain ⟨p, haccepted, hcheck⟩ := (Option.any_eq_true _ _).1 hcheck
  obtain ⟨hcut, hdone⟩ := of_decide_eq_true hcheck
  have hcuts := @depth_limit_cuts_off p (.call "down") [.int 2] 500 510 513 (by decide) (by decide)
    (by decide) 0
  obtain ⟨_, _, hextends⟩ := hcuts.2 4 (Nat.zero_le 4)
  exact ⟨p, toOption_eq_some.1 haccepted, hcut, hdone, by decide, by decide, by decide,
    hextends _ hcut⟩

end Slate
