import Mathlib.Data.List.Basic
import Mathlib.Algebra.Order.Group.Nat

/-!
# Bytes that arrive in pieces

What a socket or a stream reader still delivers, cut up in any way into nonempty
pieces. A call takes what it asked for from the first piece and leaves the rest for
the next call; it gets nothing exactly at the end of the stream.
-/

namespace Pylyskom

/-- The nonempty pieces in which the rest of a stream arrives. -/
structure Pieces where
  pieces : List (List UInt8)
  nonempty : ∀ p ∈ pieces, p ≠ []

namespace Pieces

/-- All the bytes that still arrive. -/
def bytes (self : Pieces) : List UInt8 := self.pieces.flatten

/-- The end of the stream. -/
def eof : Pieces := ⟨[], by simp⟩

/-- Put what is left of a first piece back in front. -/
def restore (p : List UInt8) (self : Pieces) : Pieces :=
  if h : p = [] then self
  else ⟨p :: self.pieces, by
    intro q hq
    rcases List.mem_cons.mp hq with rfl | hq
    · exact h
    · exact self.nonempty q hq⟩

/-- Take at most `wanted` bytes; none at the end of the stream. -/
def recv (wanted : ℕ) : Pieces → List UInt8 × Pieces
  | ⟨[], h⟩ => ([], ⟨[], h⟩)
  | ⟨p :: ps, h⟩ => (p.take wanted, restore (p.drop wanted) ⟨ps, fun q hq => h q (by simp [hq])⟩)

@[simp] theorem bytes_eof : eof.bytes = [] := rfl

@[simp] theorem bytes_restore (p : List UInt8) (self : Pieces) :
    (restore p self).bytes = p ++ self.bytes := by
  unfold restore
  split
  · next h => simp [h]
  · rfl

/-- No byte is lost between two calls. -/
theorem recv_bytes (wanted : ℕ) (self : Pieces) :
    (self.recv wanted).1 ++ (self.recv wanted).2.bytes = self.bytes := by
  obtain ⟨_ | ⟨p, ps⟩, h⟩ := self
  · rfl
  · rw [recv, bytes_restore, ← List.append_assoc, List.take_append_drop]
    rfl

/-- A call for at least one byte gets none exactly at the end of the stream. -/
theorem recv_eq_nil_iff {wanted : ℕ} (hwanted : 0 < wanted) {self : Pieces} :
    (self.recv wanted).1 = [] ↔ self.bytes = [] := by
  obtain ⟨_ | ⟨p, ps⟩, h⟩ := self
  · simp [recv, bytes]
  · have hp : p ≠ [] := h p List.mem_cons_self
    simp [recv, bytes, hp, Nat.ne_of_gt hwanted]

/-- A call that gets something shortens the stream. -/
theorem recv_length_lt {wanted : ℕ} {self : Pieces} (h : (self.recv wanted).1 ≠ []) :
    (self.recv wanted).2.bytes.length < self.bytes.length := by
  have hlen := congrArg List.length (self.recv_bytes wanted)
  have hpos := List.length_pos_iff.mpr h
  rw [List.length_append] at hlen
  omega

end Pieces

end Pylyskom
