/-!
# Sinks

Where output goes.  A sink takes bytes into a state of its own, and may refuse
them with a message; a refused write leaves the state as it was.  Three sinks
serve to see how a program meets the world: one that takes everything, one
that is closed and refuses every byte, and one that takes everything and then
fails to flush.

* `closed_write_empty` — writing nothing is not refused, not even by the closed one.
-/

namespace Slate

/-- Where output goes, with a state of type `σ`. -/
structure Sink (σ : Type) where
  write : ByteArray → σ → Except String σ
  flush : σ → Except String σ

namespace Sink

/-- Takes everything, and keeps it. -/
def collect : Sink ByteArray where
  write bytes taken := .ok (taken ++ bytes)
  flush taken := .ok taken

/-- Refuses every byte. -/
def closed : Sink ByteArray where
  write bytes taken := if bytes.isEmpty then .ok taken else .error "sink closed"
  flush taken := .ok taken

/-- Takes everything, and cannot flush it. -/
def unflushable : Sink ByteArray where
  write bytes taken := .ok (taken ++ bytes)
  flush _ := .error "flush failed"

/-- Writing nothing is not refused. -/
theorem closed_write_empty (taken : ByteArray) :
    closed.write ByteArray.empty taken = .ok taken := by
  simp [closed, ByteArray.isEmpty]

end Sink

end Slate
