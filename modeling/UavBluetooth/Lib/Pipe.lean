import Mathlib.Tactic

set_option autoImplicit false

/-! # Pipes

A stream is relayed from a source to a sink: what has arrived waits in a queue, is read into a
buffer and is written from there, in pieces of any size. The lists `arrived`, `read` and `written`
record what has passed; a pipe in which nothing is lost or added is `Conserved`.
-/

structure Pipe (α : Type) where
  arrived : List α := []
  queue : List α := []
  read : List α := []
  buffer : List α := []
  written : List α := []
  deriving DecidableEq, Repr

namespace Pipe

variable {α : Type}

/-- More arrives at the source. -/
def arrive (p : Pipe α) (more : List α) : Pipe α :=
  { p with arrived := p.arrived ++ more, queue := p.queue ++ more }

/-- Read a piece from the queue into the buffer. -/
def take (p : Pipe α) (count : Nat) : Pipe α :=
  { p with
    queue := p.queue.drop count
    read := p.read ++ p.queue.take count
    buffer := p.queue.take count }

/-- Write a piece of the buffer. -/
def put (p : Pipe α) (count : Nat) : Pipe α :=
  { p with buffer := p.buffer.drop count, written := p.written ++ p.buffer.take count }

/-- What has been read and what waits is what arrived; what has been written and what is in the
buffer is what was read. -/
structure Conserved (p : Pipe α) : Prop where
  source : p.read ++ p.queue = p.arrived
  sink : p.written ++ p.buffer = p.read

theorem conserved_empty : ({} : Pipe α).Conserved := ⟨rfl, rfl⟩

variable {p : Pipe α}

theorem Conserved.arrive (h : p.Conserved) (more : List α) : (p.arrive more).Conserved where
  source := by
    unfold Pipe.arrive
    dsimp only
    rw [← List.append_assoc, h.source]
  sink := h.sink

/-- A read keeps everything, if the buffer was empty. -/
theorem Conserved.take (h : p.Conserved) (hempty : p.buffer = []) (count : Nat) :
    (p.take count).Conserved where
  source := by
    unfold Pipe.take
    dsimp only
    rw [List.append_assoc, List.take_append_drop, h.source]
  sink := by
    have hsink := h.sink
    rw [hempty, List.append_nil] at hsink
    unfold Pipe.take
    dsimp only
    rw [hsink]

theorem Conserved.put (h : p.Conserved) (count : Nat) : (p.put count).Conserved where
  source := h.source
  sink := by
    unfold Pipe.put
    dsimp only
    rw [List.append_assoc, List.take_append_drop, h.sink]

theorem Conserved.written_of_read (h : p.Conserved) : p.written <+: p.read :=
  ⟨p.buffer, h.sink⟩

theorem Conserved.read_of_arrived (h : p.Conserved) : p.read <+: p.arrived :=
  ⟨p.queue, h.source⟩

/-- A drained pipe has forwarded everything. -/
theorem Conserved.forwarded (h : p.Conserved) (hqueue : p.queue = []) (hbuffer : p.buffer = []) :
    p.written = p.arrived := by
  have hsource := h.source
  have hsink := h.sink
  rw [hqueue, List.append_nil] at hsource
  rw [hbuffer, List.append_nil] at hsink
  exact hsink.trans hsource

end Pipe
