import Mathlib

/-!
# `Mudmux.Lib.LinearBuffer`: a fixed array with a read and a write cursor

A linear buffer is an array of `cap` cells with a read cursor `start` and a write cursor `stop`.
Only the cells between the two are ever read, so the buffer is `start` together with the list of
those cells. The bound `start + data.length ≤ cap` is a field: a buffer whose write cursor is past
its array cannot be built, and `append` asks for the room it needs.

New symbols go to the tail, where `room` cells are free. `compact` moves the contents to the
front, which turns the `start` consumed cells into room at the tail; `free` is the room that
remains after that move.
-/

set_option autoImplicit false

namespace Mudmux.Lib

/-- The contents of an array of `cap` cells between its read cursor `start` and its write
cursor. -/
structure LinearBuffer (α : Type) (cap : Nat) where
  start : Nat
  data : List α
  fits : start + data.length ≤ cap
  deriving DecidableEq, Repr

namespace LinearBuffer

variable {α : Type} {cap : Nat}

/-- Both cursors at the front. -/
def empty : LinearBuffer α cap := ⟨0, [], Nat.zero_le cap⟩

instance : Inhabited (LinearBuffer α cap) := ⟨empty⟩

/-- The write cursor. -/
def stop (b : LinearBuffer α cap) : Nat := b.start + b.data.length

/-- The free cells behind the write cursor. -/
def room (b : LinearBuffer α cap) : Nat := cap - b.stop

/-- The cells that hold no unread symbol, on either side of the contents. -/
def free (b : LinearBuffer α cap) : Nat := cap - b.data.length

/-- Copy `xs` behind the write cursor. -/
def append (b : LinearBuffer α cap) (xs : List α) (h : xs.length ≤ b.room) :
    LinearBuffer α cap where
  start := b.start
  data := b.data ++ xs
  fits := by
    have hb := b.fits
    simp only [room, stop] at h
    simp only [List.length_append]
    omega

/-- Advance the read cursor over at most `n` symbols. -/
def consume (b : LinearBuffer α cap) (n : Nat) : LinearBuffer α cap where
  start := b.start + min n b.data.length
  data := b.data.drop n
  fits := by
    have hb := b.fits
    simp only [List.length_drop]
    omega

theorem fits_zero {xs : List α} (h : xs.length ≤ cap) : 0 + xs.length ≤ cap := by omega

/-- Move the contents to the front of the array. -/
def compact (b : LinearBuffer α cap) : LinearBuffer α cap :=
  ⟨0, b.data, by have hb := b.fits; omega⟩

/-- Replace the contents by as many other symbols, cell by cell. -/
def overwrite (b : LinearBuffer α cap) (xs : List α) (h : xs.length = b.data.length) :
    LinearBuffer α cap :=
  ⟨b.start, xs, by have hb := b.fits; omega⟩

@[simp] theorem empty_data : (empty : LinearBuffer α cap).data = [] := rfl
@[simp] theorem empty_start : (empty : LinearBuffer α cap).start = 0 := rfl
@[simp] theorem empty_stop : (empty : LinearBuffer α cap).stop = 0 := rfl
@[simp] theorem empty_room : (empty : LinearBuffer α cap).room = cap := rfl

variable (b : LinearBuffer α cap)

variable (xs : List α)

@[simp] theorem append_data (h : xs.length ≤ b.room) :
    (b.append xs h).data = b.data ++ xs := rfl

@[simp] theorem append_start (h : xs.length ≤ b.room) :
    (b.append xs h).start = b.start := rfl

@[simp] theorem consume_data (n : Nat) :
    (b.consume n).data = b.data.drop n := rfl

@[simp] theorem compact_data : b.compact.data = b.data := rfl
@[simp] theorem compact_start : b.compact.start = 0 := rfl

@[simp] theorem overwrite_data (h : xs.length = b.data.length) :
    (b.overwrite xs h).data = xs := rfl

theorem stop_le : b.stop ≤ cap := b.fits

theorem length_le : b.data.length ≤ cap := by
  have hb := b.fits
  omega

theorem room_le_free : b.room ≤ b.free := by
  simp only [room, free, stop]
  omega

/-- Moving the contents to the front makes every free cell room at the tail. -/
@[simp] theorem compact_room : b.compact.room = b.free := by
  simp [room, free, stop, compact]

theorem append_stop (h : xs.length ≤ b.room) : (b.append xs h).stop = b.stop + xs.length := by
  simp only [stop, append_start, append_data, List.length_append]
  omega

theorem append_room (h : xs.length ≤ b.room) : (b.append xs h).room + xs.length = b.room := by
  have hstop := append_stop b xs h
  have hle := b.stop_le
  simp only [room] at h ⊢
  omega

end LinearBuffer

end Mudmux.Lib
