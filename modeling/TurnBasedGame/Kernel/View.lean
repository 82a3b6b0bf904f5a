import TurnBasedGame.Kernel.Slice

/-!
# Slices over their backing array

A slice header names the first elements of a backing array.  Deleting an
element by appending what follows it to what precedes it moves the tail one
place to the front, in the array itself: another header over the same array
sees its elements move, and finds the last one twice.
-/

namespace TurnBasedGame
namespace Kernel

universe u

section View

variable {α : Type u}

/-- A slice header over the backing array it was made for. -/
structure View (α : Type u) where
  array : List α
  len : Nat
  le_array : len ≤ array.length

namespace View

/-- The elements of a slice. -/
def toList (v : View α) : List α :=
  v.array.take v.len

/-- A slice that fills its array. -/
def full (l : List α) : View α :=
  ⟨l, l.length, Nat.le_refl _⟩

/-- The array after `append(v[:i], v[i+1:]...)`. -/
def shifted (v : View α) (i : Nat) : List α :=
  v.array.take i ++ copyInto (v.array.drop i) (v.toList.drop (i + 1))

@[simp] theorem toList_full
    (l : List α) :
    (full l).toList = l :=
  List.take_length

@[simp] theorem toList_length
    (v : View α) :
    v.toList.length = v.len := by
  simp [toList, v.le_array]

/-- Moving elements in an array does not change its length. -/
@[simp] theorem shifted_length
    (v : View α) (i : Nat) :
    (v.shifted i).length = v.array.length := by
  simp only [shifted, List.length_append, List.length_take, copyInto_length,
    List.length_drop]
  omega

theorem le_shifted
    (v : View α) (i : Nat) :
    v.len - 1 ≤ (v.shifted i).length := by
  rw [shifted_length]
  exact Nat.le_trans (Nat.sub_le _ _) v.le_array

/-- The slice `append(v[:i], v[i+1:]...)`. -/
def removeAt (v : View α) (i : Nat) : View α where
  array := v.shifted i
  len := v.len - 1
  le_array := v.le_shifted i

/-- The parts of an array around the element that is deleted. -/
theorem exists_parts
    (v : View α) {i : Nat}
    (hi : i < v.len) :
    ∃ front a tail rest, front.length = i ∧
      v.toList = front ++ a :: tail ∧
      v.array = front ++ a :: tail ++ rest := by
  have hlen : i < v.toList.length := by
    rw [toList_length]
    exact hi
  refine ⟨v.toList.take i, v.toList[i], v.toList.drop (i + 1),
    v.array.drop v.len, ?_, ?_, ?_⟩
  · rw [List.length_take]
    omega
  · rw [List.getElem_cons_drop, List.take_append_drop]
  · rw [List.getElem_cons_drop, List.take_append_drop]
    exact (List.take_append_drop _ _).symm

/-- The array after a deletion: the last element is there twice. -/
theorem shifted_eq
    {v : View α} {front tail rest : List α} {a : α}
    (hlist : v.toList = front ++ a :: tail)
    (harray : v.array = front ++ a :: tail ++ rest) :
    v.shifted front.length =
      front ++ (tail ++ (a :: tail).getLast (List.cons_ne_nil a tail) ::
        rest) := by
  have htake : v.array.take front.length = front := by
    rw [harray, List.append_assoc, List.take_left]
  have hdrop : v.array.drop front.length = a :: tail ++ rest := by
    rw [harray, List.append_assoc, List.drop_left]
  have hmoved : v.toList.drop (front.length + 1) = tail := by
    rw [hlist, ← List.drop_drop, List.drop_left, List.drop_succ_cons,
      List.drop_zero]
  have hstale : (a :: tail).drop tail.length =
      [(a :: tail).getLast (List.cons_ne_nil a tail)] := by
    have hsplit := List.dropLast_concat_getLast (List.cons_ne_nil a tail)
    conv_lhs => rw [← hsplit]
    exact List.drop_left' (by simp)
  have hroom : tail.length ≤ (a :: tail).length := by simp
  rw [shifted, htake, hdrop, hmoved, copyInto,
    List.take_of_length_le (by simp; omega), List.drop_append_of_le_length
      hroom, hstale]
  rfl

/-- Deleting from a slice deletes from its list. -/
theorem toList_removeAt
    (v : View α) {i : Nat}
    (hi : i < v.len) :
    (v.removeAt i).toList = v.toList.eraseIdx i := by
  obtain ⟨front, a, tail, rest, rfl, hlist, harray⟩ := v.exists_parts hi
  have hlen : v.len - 1 = (front ++ tail).length := by
    rw [← v.toList_length, hlist]
    simp
  have herase : (front ++ a :: tail).eraseIdx front.length =
      front ++ tail := by
    simp [List.eraseIdx_append_of_length_le]
  calc
    (v.removeAt front.length).toList
        = (v.shifted front.length).take (v.len - 1) := rfl
    _ = (front ++ tail ++ _).take (front ++ tail).length := by
        rw [shifted_eq hlist harray, hlen, ← List.append_assoc]
    _ = v.toList.eraseIdx front.length := by
        rw [List.take_left, hlist, herase]

section Count

variable [DecidableEq α]

/--
What a reader at position `j` still finds of another element after a deletion
at position `i`: an element that moves behind the reader is missed, and the
last one is found once more.
-/
theorem count_drop_shifted
    (v : View α) {i : Nat} {c : α}
    (hi : i < v.len)
    (hc : v.toList[i]? ≠ some c)
    (j : Nat) :
    ((v.shifted i).drop j).count c +
        (if i < j ∧ v.toList[j]? = some c then 1 else 0) =
      (v.array.drop j).count c +
        (if j < v.len ∧ v.toList[v.len - 1]? = some c then 1 else 0) := by
  obtain ⟨front, a, tail, rest, rfl, hlist, harray⟩ := v.exists_parts hi
  have hlen : v.len = front.length + (tail.length + 1) := by
    rw [← v.toList_length, hlist]
    simp
  have hac : a ≠ c := by
    rintro rfl
    simp [hlist] at hc
  have hlast : v.toList[v.len - 1]? =
      some ((a :: tail).getLast (List.cons_ne_nil a tail)) := by
    have hend : v.len - 1 = v.toList.length - 1 := by simp
    rw [hend, ← List.getLast?_eq_getElem?, hlist, List.getLast?_append,
      List.getLast?_eq_getLast_of_ne_nil (List.cons_ne_nil a tail)]
    rfl
  rw [hlast, shifted_eq hlist harray, harray]
  generalize (a :: tail).getLast (List.cons_ne_nil a tail) = last
  by_cases hj : j ≤ front.length
  · -- the reader has not come to the deleted element
    rw [List.append_assoc, List.drop_append_of_le_length hj,
      List.drop_append_of_le_length hj]
    simp only [List.count_append, List.count_cons, List.cons_append,
      Nat.not_lt.mpr hj, false_and, if_false, Option.some.injEq]
    have hjlen : j < v.len := by omega
    simp [hjlen, hac]
    omega
  obtain ⟨m, rfl⟩ : ∃ m, j = front.length + (m + 1) :=
    ⟨j - front.length - 1, by omega⟩
  have hafter : front.length < front.length + (m + 1) := by omega
  rw [List.append_assoc, List.drop_length_add_append,
    List.drop_length_add_append, List.cons_append, List.drop_succ_cons]
  by_cases hm : m < tail.length
  · -- the reader is among the elements that move
    have hread : v.toList[front.length + (m + 1)]? = some tail[m] := by
      rw [hlist, List.getElem?_append_right (by omega)]
      simp [hm]
    have hlt : front.length + (m + 1) < v.len := by omega
    rw [List.drop_append_of_le_length (show m + 1 ≤ tail.length from hm),
      List.drop_append_of_le_length (Nat.le_of_lt hm),
      List.drop_eq_getElem_cons hm, hread]
    simp only [hafter, hlt, true_and, Option.some.injEq, List.count_append,
      List.count_cons, List.cons_append, beq_iff_eq]
    omega
  · -- the reader has passed the slice
    have hge : ¬ front.length + (m + 1) < v.len := by omega
    have hstale : (tail ++ last :: rest).drop (m + 1) =
        (tail ++ rest).drop m := by
      obtain ⟨k, rfl⟩ : ∃ k, m = tail.length + k := ⟨m - tail.length, by omega⟩
      rw [Nat.add_assoc, List.drop_length_add_append,
        List.drop_length_add_append, List.drop_succ_cons]
    simp [hge, hstale]

end Count

end View

end View

end Kernel
end TurnBasedGame
