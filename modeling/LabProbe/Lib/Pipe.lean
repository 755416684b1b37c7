import Mathlib.Data.List.Basic

/-!
# Copying from a source to a sink

A copier reads its source in chunks and writes each chunk on before it reads
the next; an empty chunk is the end of the source, which the sink is told. A
sink that breaks may have taken a part of the chunk. The copier counts the
chunks that were written whole.
-/

namespace Pipes

variable {α ε : Type}

structure Pipe (α : Type) where
  /-- What was read from the source. -/
  taken : List α := []
  /-- What the sink has been given. -/
  given : List α := []
  counted : Nat := 0
  /-- The source has ended, and the sink has been told. -/
  closed : Bool := false

/-- What a pass meets: the chunk that is read, and a sink that takes it or
breaks after some of it. -/
structure Chunk (α ε : Type) where
  read : Except ε (List α)
  broken : Option (Nat × ε) := none

namespace Pipe

variable {p : Pipe α} {c : Chunk α ε}

def close (p : Pipe α) : Pipe α := { p with closed := true }

def copy (chunk : List α) (p : Pipe α) : Pipe α where
  taken := p.taken ++ chunk
  given := p.given ++ chunk
  counted := p.counted + chunk.length
  closed := p.closed

/-- The sink broke after some of the chunk. -/
def cut (chunk : List α) (n : Nat) (p : Pipe α) : Pipe α where
  taken := p.taken ++ chunk
  given := p.given ++ chunk.take n
  counted := p.counted
  closed := p.closed

def pass (p : Pipe α) (c : Chunk α ε) : Pipe α × Except ε Nat :=
  if p.closed then (p, .ok 0)
  else match c.read, c.broken with
    | .error e, _ => (p, .error e)
    | .ok [], _ => (p.close, .ok 0)
    | .ok (a :: chunk), none => (p.copy (a :: chunk), .ok (chunk.length + 1))
    | .ok (a :: chunk), some (n, e) => (p.cut (a :: chunk) n, .error e)

theorem pass_cases (p : Pipe α) (c : Chunk α ε) :
    (p.closed = true ∧ p.pass c = (p, .ok 0)) ∨
      p.closed = false ∧
        ((∃ e, p.pass c = (p, .error e)) ∨ p.pass c = (p.close, .ok 0) ∨
          (∃ chunk, p.pass c = (p.copy chunk, .ok chunk.length)) ∨
            ∃ chunk n e, p.pass c = (p.cut chunk n, .error e)) := by
  unfold pass
  cases hclosed : p.closed with
  | true => exact .inl ⟨rfl, rfl⟩
  | false =>
    refine .inr ⟨rfl, ?_⟩
    simp only [Bool.false_eq_true, if_false]
    split
    · exact .inl ⟨_, rfl⟩
    · exact .inr (.inl rfl)
    · exact .inr (.inr (.inl ⟨_, rfl⟩))
    · exact .inr (.inr (.inr ⟨_, _, _, rfl⟩))

structure Whole (p : Pipe α) : Prop where
  given : p.given = p.taken
  counted : p.counted = p.given.length

/-- The sink has what was read up to some point, and no less than is counted. -/
structure Faithful (p : Pipe α) : Prop where
  given : p.given <+: p.taken
  counted : p.counted ≤ p.given.length

theorem Whole.faithful (h : p.Whole) : p.Faithful where
  given := h.given ▸ List.prefix_rfl
  counted := Nat.le_of_eq h.counted

theorem whole_empty : ({} : Pipe α).Whole := ⟨rfl, rfl⟩

theorem Whole.close (h : p.Whole) : p.close.Whole := ⟨h.given, h.counted⟩

theorem Whole.copy (h : p.Whole) (chunk : List α) : (p.copy chunk).Whole where
  given := by simp [Pipe.copy, h.given]
  counted := by simp [Pipe.copy, h.counted]

theorem Whole.cut (h : p.Whole) (chunk : List α) (n : Nat) : (p.cut chunk n).Faithful where
  given := by
    simp only [Pipe.cut, h.given]
    exact (List.prefix_append_right_inj _).mpr (List.take_prefix n chunk)
  counted := by simp [Pipe.cut, h.counted]

theorem Whole.pass (h : p.Whole) {n : Nat} (hpass : (p.pass c).2 = .ok n) :
    (p.pass c).1.Whole := by
  rcases p.pass_cases c with ⟨-, heq⟩ | ⟨-, ⟨e, heq⟩ | heq | ⟨chunk, heq⟩ | ⟨chunk, k, e, heq⟩⟩ <;>
    rw [heq] at hpass ⊢
  · exact h
  · cases hpass
  · exact h.close
  · exact h.copy chunk
  · cases hpass

theorem Whole.pass_faithful (h : p.Whole) (c : Chunk α ε) : (p.pass c).1.Faithful := by
  rcases p.pass_cases c with ⟨-, heq⟩ | ⟨-, ⟨e, heq⟩ | heq | ⟨chunk, heq⟩ | ⟨chunk, k, e, heq⟩⟩ <;>
    rw [heq]
  · exact h.faithful
  · exact h.faithful
  · exact h.close.faithful
  · exact (h.copy chunk).faithful
  · exact h.cut chunk k

theorem counted_pass (p : Pipe α) (c : Chunk α ε) :
    (p.pass c).1.counted = p.counted + (p.pass c).2.toOption.getD 0 := by
  rcases p.pass_cases c with ⟨-, heq⟩ | ⟨-, ⟨e, heq⟩ | heq | ⟨chunk, heq⟩ | ⟨chunk, k, e, heq⟩⟩ <;>
    rw [heq] <;> rfl

end Pipe

end Pipes
