import Mathlib.Data.List.Basic

/-!
# Checked slices

Slices of a garbage-collected language, seen as lists: indexing and slicing
check their bounds and stop the program when these are violated, copying
moves as many elements as both sides have room for.

The last element of a slice is also the last one of the array behind it, so
no slice expression may reach past the length of the list.
-/

namespace TurnBasedGame
namespace Kernel

universe u

section Slice

variable {α : Type u}

/-- The run-time failures of an index or slice expression. -/
inductive Panic
  | indexOutOfRange
  | sliceOutOfRange
deriving DecidableEq, Repr

/-- A computation that may be stopped by a run-time failure. -/
abbrev Checked (α : Type u) := Except Panic α

/-- The element `s[i]`. -/
def index (s : List α) (i : Nat) : Checked α :=
  match s[i]? with
  | some a => .ok a
  | none => .error .indexOutOfRange

/-- The slice `s[lo:]`. -/
def sliceFrom (s : List α) (lo : Nat) : Checked (List α) :=
  if lo ≤ s.length then .ok (s.drop lo) else .error .sliceOutOfRange

/-- The slice `s[:hi]`. -/
def sliceTo (s : List α) (hi : Nat) : Checked (List α) :=
  if hi ≤ s.length then .ok (s.take hi) else .error .sliceOutOfRange

/-- The slice `s[lo:hi]`. -/
def slice (s : List α) (lo hi : Nat) : Checked (List α) :=
  if lo ≤ hi ∧ hi ≤ s.length then
    .ok ((s.take hi).drop lo)
  else
    .error .sliceOutOfRange

/-- The slice `s[lo:]` at a signed index. -/
def sliceFromInt (s : List α) (lo : Int) : Checked (List α) :=
  if lo < 0 then .error .sliceOutOfRange else sliceFrom s lo.toNat

/-- Contents of `dst` after `copy(dst, src)`. -/
def copyInto (dst src : List α) : List α :=
  src.take dst.length ++ dst.drop src.length

/-- Number of elements moved by `copy(dst, src)`. -/
def copyCount (dst src : List α) : Nat :=
  min dst.length src.length

/-- An index below the length yields the element there. -/
theorem index_ok
    {s : List α} {i : Nat}
    (h : i < s.length) :
    index s i = .ok s[i] := by
  simp [index, h]

/-- A lower bound inside the slice drops that many elements. -/
theorem sliceFrom_ok
    {s : List α} {lo : Nat}
    (h : lo ≤ s.length) :
    sliceFrom s lo = .ok (s.drop lo) := by
  simp [sliceFrom, h]

/-- What a slice with a lower bound can return. -/
theorem sliceFrom_eq_ok_iff
    {s v : List α} {lo : Nat} :
    sliceFrom s lo = .ok v ↔ lo ≤ s.length ∧ s.drop lo = v := by
  unfold sliceFrom
  split_ifs with h <;> simp [h]

/-- An upper bound inside the slice keeps that many elements. -/
theorem sliceTo_ok
    {s : List α} {hi : Nat}
    (h : hi ≤ s.length) :
    sliceTo s hi = .ok (s.take hi) := by
  simp [sliceTo, h]

/-- Ordered bounds inside the slice cut out the elements between them. -/
theorem slice_ok
    {s : List α} {lo hi : Nat}
    (hlo : lo ≤ hi)
    (hhi : hi ≤ s.length) :
    slice s lo hi = .ok ((s.take hi).drop lo) := by
  simp [slice, hlo, hhi]

/-- An upper bound past the length stops the program. -/
theorem slice_panic
    {s : List α} {lo hi : Nat}
    (h : s.length < hi) :
    slice s lo hi = .error .sliceOutOfRange := by
  unfold slice
  rw [if_neg]
  omega

/-- What a slice with two bounds can return. -/
theorem slice_eq_ok_iff
    {s v : List α} {lo hi : Nat} :
    slice s lo hi = .ok v ↔
      (lo ≤ hi ∧ hi ≤ s.length) ∧ (s.take hi).drop lo = v := by
  unfold slice
  split_ifs with h <;> simp [h]

/-- A non-negative signed bound slices like the natural number it is. -/
theorem sliceFromInt_ok
    {s : List α} {lo : Int}
    (h0 : 0 ≤ lo)
    (h : lo.toNat ≤ s.length) :
    sliceFromInt s lo = .ok (s.drop lo.toNat) := by
  unfold sliceFromInt
  rw [if_neg (by omega), sliceFrom_ok h]

/-- Copying never changes the length of the destination. -/
@[simp] theorem copyInto_length
    (dst src : List α) :
    (copyInto dst src).length = dst.length := by
  simp only [copyInto, List.length_append, List.length_take,
    List.length_drop]
  omega

/-- The copied elements come first in the destination. -/
theorem copyInto_take
    (dst src : List α) :
    (copyInto dst src).take (copyCount dst src)
      =
    src.take (copyCount dst src) := by
  have hlen :
      (src.take dst.length).length = copyCount dst src := by
    simp [copyCount]
  rw [copyInto, List.take_append_of_le_length (Nat.le_of_eq hlen.symm)]
  rw [List.take_take]
  congr 1
  simp only [copyCount]
  omega

/-- A source as long as the destination replaces all of it. -/
theorem copyInto_of_length_eq
    {dst src : List α}
    (h : src.length = dst.length) :
    copyInto dst src = src := by
  have hdrop : dst.drop src.length = [] := by
    rw [h, List.drop_length]
  rw [copyInto, hdrop, List.append_nil,
    List.take_of_length_le (Nat.le_of_eq h)]

end Slice

end Kernel
end TurnBasedGame
