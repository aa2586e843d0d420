import Mathlib

/-!
# `Mudmux.Lib.Ring`: the contents of a circular array

A circular array of `capacity` cells holds `count` elements from the cell `tail` on. `Ring.contents` is
the list of them. Writing the cell behind the last one appends (`contents_write`), and moving `tail` on
drops the first (`contents_succ`); the cells outside of the range are never looked at, so nothing has to
be cleared.
-/

set_option autoImplicit false

namespace Mudmux.Lib

/-- The cells of a circular array. -/
abbrev Ring (α : Type) (capacity : Nat) := Fin capacity → α

namespace Ring

variable {α : Type} {capacity : Nat} [NeZero capacity]

/-- The cell at a position, counted around the array. -/
def cell (cells : Ring α capacity) (position : Nat) : α := cells (Fin.ofNat capacity position)

/-- Write the cell at a position. -/
def write (cells : Ring α capacity) (position : Nat) (a : α) : Ring α capacity :=
  Function.update cells (Fin.ofNat capacity position) a

/-- The elements from `tail` on. -/
def contents (cells : Ring α capacity) (tail count : Nat) : List α :=
  (List.range count).map fun i => cells.cell (tail + i)

variable (cells : Ring α capacity)

@[simp]
theorem length_contents (tail count : Nat) : (cells.contents tail count).length = count := by
  simp [contents]

theorem contents_zero (tail : Nat) : cells.contents tail 0 = [] := rfl

variable (position : Nat)

/-- Positions count modulo the capacity. -/
theorem cell_mod : cells.cell (position % capacity) = cells.cell position := by
  have hsame : Fin.ofNat capacity (position % capacity) = Fin.ofNat capacity position :=
    Fin.ext (Nat.mod_mod position capacity)
  rw [cell, hsame, cell]

theorem contents_mod (tail count : Nat) :
    cells.contents (tail % capacity) count = cells.contents tail count := by
  refine List.map_congr_left fun i _ => ?_
  rw [← cell_mod, Nat.mod_add_mod, cell_mod]

theorem write_mod (a : α) : cells.write (position % capacity) a = cells.write position a := by
  have hsame : Fin.ofNat capacity (position % capacity) = Fin.ofNat capacity position :=
    Fin.ext (Nat.mod_mod position capacity)
  rw [write, hsame, write]

theorem cell_write_self (a : α) : (cells.write position a).cell position = a := by
  rw [cell, write, Function.update_self]

/-- Two positions less than a turn apart are different cells. -/
theorem cell_write_of_lt {tail i n : Nat} (hi : i < n) (hn : n < capacity) (a : α) :
    (cells.write (tail + n) a).cell (tail + i) = cells.cell (tail + i) := by
  have hne : Fin.ofNat capacity (tail + i) ≠ Fin.ofNat capacity (tail + n) := by
    intro heq
    have hmod : tail + i ≡ tail + n [MOD capacity] := congrArg Fin.val heq
    have hmod' : i ≡ n [MOD capacity] := Nat.ModEq.add_left_cancel' tail hmod
    have heq' : i = n := Nat.ModEq.eq_of_lt_of_lt hmod' (by omega) hn
    omega
  rw [cell, write, Function.update_of_ne hne, cell]

/-- Writing the cell behind the last element appends. -/
theorem contents_write {tail count : Nat} (hcount : count < capacity) (a : α) :
    (cells.write (tail + count) a).contents tail (count + 1) = cells.contents tail count ++ [a] := by
  rw [contents, List.range_succ, List.map_append, List.map_singleton, cell_write_self]
  congr 1
  refine List.map_congr_left fun i hi => ?_
  exact cells.cell_write_of_lt (List.mem_range.mp hi) hcount a

/-- The first element and the others. -/
theorem contents_succ (tail count : Nat) :
    cells.contents tail (count + 1) = cells.cell tail :: cells.contents (tail + 1) count := by
  rw [contents, List.range_succ_eq_map, List.map_cons, List.map_map, Nat.add_zero, contents]
  congr 1
  refine List.map_congr_left fun i _ => ?_
  show cells.cell (tail + (i + 1)) = cells.cell (tail + 1 + i)
  rw [Nat.add_right_comm, Nat.add_assoc]

end Ring

end Mudmux.Lib
