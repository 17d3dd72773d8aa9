import Mathlib.Data.List.Basic
import Mathlib.Algebra.Ring.Nat

/-!
# Lists in rows

A list cut into rows of one size, as an array is that is reshaped, and what is left over.

* `rows_carry`, `rest_carry`: a list that comes in two parts is cut into the same rows when what the
  first part leaves over is put before the second.
-/

namespace ReactorRuntime.Lists

variable {α : Type*} {size : ℕ} {l m : List α}

def rows (size : ℕ) (l : List α) : List (List α) :=
  (List.range (l.length / size)).map fun i => (l.drop (i * size)).take size

/-- What the whole rows leave over. -/
def rest (size : ℕ) (l : List α) : List α := l.drop (l.length / size * size)

theorem length_of_mem_rows {r : List α} (h : r ∈ rows size l) : r.length = size := by
  obtain ⟨i, hi, rfl⟩ := List.mem_map.mp h
  have hle : (i + 1) * size ≤ l.length :=
    Nat.le_trans (Nat.mul_le_mul_right size (List.mem_range.mp hi)) (Nat.div_mul_le_self _ _)
  rw [List.length_take, List.length_drop]
  rw [Nat.add_mul, Nat.one_mul] at hle
  omega

theorem rows_of_lt (h : l.length < size) : rows size l = [] := by
  rw [rows, Nat.div_eq_of_lt h]
  rfl

theorem length_rest (size : ℕ) (l : List α) : (rest size l).length = l.length % size := by
  rw [rest, List.length_drop, Nat.mod_eq_sub_div_mul]

theorem length_rest_lt (hsize : 0 < size) : (rest size l).length < size :=
  length_rest size l ▸ Nat.mod_lt _ hsize

theorem flatten_slices (n : ℕ) :
    ((List.range n).map fun i => (l.drop (i * size)).take size).flatten = l.take (n * size) := by
  induction n with
  | zero => simp
  | succ n ih =>
    rw [List.range_succ, List.map_append, List.flatten_append, ih, Nat.succ_mul, List.take_add]
    simp

theorem flatten_rows (size : ℕ) (l : List α) :
    (rows size l).flatten = l.take (l.length / size * size) :=
  flatten_slices _

theorem flatten_rows_append_rest (size : ℕ) (l : List α) :
    (rows size l).flatten ++ rest size l = l := by
  rw [flatten_rows]
  exact List.take_append_drop _ l

theorem take_whole (size : ℕ) (l : List α) :
    l.take (l.length - l.length % size) = (rows size l).flatten := by
  rw [flatten_rows, Nat.div_mul_self_eq_mod_sub_self]

theorem drop_whole (size : ℕ) (l : List α) : l.drop (l.length - l.length % size) = rest size l := by
  rw [rest, Nat.div_mul_self_eq_mod_sub_self]

theorem dvd_length_flatten_rows (size : ℕ) (l : List α) : size ∣ (rows size l).flatten.length := by
  rw [flatten_rows, List.length_take, Nat.min_eq_left (Nat.div_mul_le_self _ _)]
  exact Nat.dvd_mul_left _ _

theorem rows_append (hsize : 0 < size) (h : size ∣ l.length) (m : List α) :
    rows size (l ++ m) = rows size l ++ rows size m := by
  obtain ⟨n, hn⟩ := h
  have hl : l.length / size = n := by rw [hn, Nat.mul_div_cancel_left _ hsize]
  have hlm : (l ++ m).length / size = n + m.length / size := by
    rw [List.length_append, hn, Nat.mul_add_div hsize]
  unfold rows
  rw [hlm, hl, List.range_add, List.map_append, List.map_map]
  congr 1
  · refine List.map_congr_left fun i hi => ?_
    have hle : (i + 1) * size ≤ l.length := by
      rw [hn, Nat.mul_comm size]
      exact Nat.mul_le_mul_right size (List.mem_range.mp hi)
    rw [Nat.add_mul, Nat.one_mul] at hle
    rw [List.drop_append_of_le_length (by omega), List.take_append_of_le_length]
    rw [List.length_drop]
    omega
  · refine List.map_congr_left fun i _ => ?_
    have hdrop : (n + i) * size = l.length + i * size := by rw [hn, Nat.add_mul, Nat.mul_comm n]
    rw [Function.comp_apply, hdrop, List.drop_length_add_append]

theorem rest_append (hsize : 0 < size) (h : size ∣ l.length) (m : List α) :
    rest size (l ++ m) = rest size m := by
  obtain ⟨n, hn⟩ := h
  have hlm : (l ++ m).length / size * size = l.length + m.length / size * size := by
    rw [List.length_append, hn, Nat.mul_add_div hsize, Nat.add_mul, Nat.mul_comm n]
  rw [rest, hlm, List.drop_length_add_append, rest]

theorem rows_flatten_rows (hsize : 0 < size) (l : List α) :
    rows size (rows size l).flatten = rows size l := by
  have hrest : rows size (rest size l) = [] := rows_of_lt (length_rest_lt hsize)
  have h := rows_append hsize (dvd_length_flatten_rows size l) (rest size l)
  rw [flatten_rows_append_rest, hrest, List.append_nil] at h
  exact h.symm

/-- What the first part leaves over goes before the second. -/
theorem rows_carry (hsize : 0 < size) (l m : List α) :
    rows size (l ++ m) = rows size l ++ rows size (rest size l ++ m) := by
  conv_lhs => rw [← flatten_rows_append_rest size l, List.append_assoc]
  rw [rows_append hsize (dvd_length_flatten_rows size l), rows_flatten_rows hsize]

theorem rest_carry (hsize : 0 < size) (l m : List α) :
    rest size (l ++ m) = rest size (rest size l ++ m) := by
  conv_lhs => rw [← flatten_rows_append_rest size l, List.append_assoc]
  exact rest_append hsize (dvd_length_flatten_rows size l) _

end ReactorRuntime.Lists
