import Slate.Eval.Evaluator
import Slate.Proofs.Eval.Related

/-!
# What runs print

On a sink that takes everything the state of the host is what has been printed.  A run only
adds to it (`Run.Appends`), so what is printed up to any point of a run is the beginning of
what the run prints altogether.
-/

namespace Slate

variable {α β : Type}

/-- What was printed later begins with what was printed before. -/
def Extends (before after : ByteArray) : Prop :=
  ∃ more, after = before ++ more

theorem Extends.refl (printed : ByteArray) : Extends printed printed :=
  ⟨.empty, ByteArray.append_empty.symm⟩

/-- What extends an extension extends the whole. -/
theorem Extends.trans {first second third : ByteArray} (h : Extends first second)
    (h' : Extends second third) : Extends first third := by
  obtain ⟨more, rfl⟩ := h
  obtain ⟨others, rfl⟩ := h'
  exact ⟨more ++ others, ByteArray.append_assoc⟩

/-- The run only adds to what was printed before it. -/
def Run.Appends (x : Run ByteArray α) : Prop :=
  ∀ printed, Extends printed (x printed).state

namespace Run

/-- What follows a run adds to what the run leaves. -/
theorem extends_bind {x : Run ByteArray α} {f : α → Run ByteArray β}
    (hf : ∀ a, (f a).Appends) (printed : ByteArray) :
    Extends (x printed).state ((x >>= f) printed).state := by
  show Extends (x printed).state (Run.andThen x f printed).state
  unfold Run.andThen
  cases x printed with
  | done a middle => exact hf a middle
  | failed e middle => exact .refl middle
  | unfinished middle => exact .refl middle

/-- Two runs after each other append if each does. -/
theorem Appends.bind {x : Run ByteArray α} {f : α → Run ByteArray β} (hx : x.Appends)
    (hf : ∀ a, (f a).Appends) : (x >>= f).Appends :=
  fun printed => (hx printed).trans (extends_bind hf printed)

/-- Runs that only add can be put together. -/
theorem appends_compatible :
    Run.Relation.Compatible fun _ (_ : Run ByteArray _) (y : Run ByteArray _) => y.Appends :=
  ⟨fun _ printed => .refl printed, fun _ printed => .refl printed, Appends.bind⟩

end Run

end Slate
