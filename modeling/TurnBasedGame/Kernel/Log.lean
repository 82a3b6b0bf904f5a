import Mathlib.Tactic

/-!
# Marked logs

A log in which some entries are marked, for instance those of a common log
that concern one party.  A marked entry is known by its position in the log,
so that entries with the same contents are told apart.  Two parties that mark
the same log see the entries they both mark in the same order.  Where a later
entry replaces an earlier one of the same kind, the last of each kind counts.
-/

namespace TurnBasedGame
namespace Kernel

universe u

section Log

variable {α : Type u}

/-- The marked entries of a log, with their positions. -/
def marked (log : List (α × Bool)) : List (α × Nat) :=
  (log.zipIdx.filter (fun x => x.1.2)).map (fun x => (x.1.1, x.2))

/-- Without positions, the marked entries are those with a mark. -/
theorem marked_map_fst
    (log : List (α × Bool)) :
    (marked log).map Prod.fst = (log.filter Prod.snd).map Prod.fst := by
  have hlog : log.filter Prod.snd =
      (log.zipIdx.filter (fun x => x.1.2)).map Prod.fst := by
    conv_lhs => rw [← List.zipIdx_map_fst 0 log, List.filter_map]
    rfl
  rw [hlog, marked, List.map_map, List.map_map]
  rfl

/-- The marked entries are some of all entries, in their order. -/
theorem marked_sublist
    (log : List (α × Bool)) :
    (marked log).Sublist (log.map Prod.fst).zipIdx := by
  have hall : (log.map Prod.fst).zipIdx =
      log.zipIdx.map (fun x => (x.1.1, x.2)) := by
    rw [List.zipIdx_map]
    rfl
  rw [hall, marked]
  exact List.filter_sublist.map _

/-- Positions make all entries of a log different. -/
theorem nodup_zipIdx
    (entries : List α) :
    entries.zipIdx.Nodup := by
  refine List.Nodup.of_map Prod.snd ?_
  rw [List.zipIdx_map_snd]
  exact List.nodup_range'

section Common

variable [BEq α] [LawfulBEq α]

/-- A sublist of a list without duplicates is found by membership. -/
theorem eq_filter_of_sublist
    {l a : List α}
    (ha : a.Sublist l)
    (hl : l.Nodup) :
    a = l.filter (· ∈ a) := by
  induction ha with
  | slnil => rfl
  | @cons a l x ha ih =>
      obtain ⟨hx, hl⟩ := List.nodup_cons.mp hl
      have hxa : x ∉ a := fun hmem => hx (ha.subset hmem)
      rw [List.filter_cons_of_neg (by simpa using hxa)]
      exact ih hl
  | @cons_cons a l x ha ih =>
      obtain ⟨hx, hl⟩ := List.nodup_cons.mp hl
      have hrest : l.filter (· ∈ x :: a) = l.filter (· ∈ a) := by
        refine List.filter_congr fun y hy => ?_
        have hyx : y ≠ x := fun heq => hx (heq ▸ hy)
        simp [hyx]
      rw [List.filter_cons_of_pos (by simp), hrest, ← ih hl]

/-- Two sublists have their common entries in the same order. -/
theorem filter_mem_comm
    {l a b : List α}
    (hl : l.Nodup)
    (ha : a.Sublist l)
    (hb : b.Sublist l) :
    a.filter (· ∈ b) = b.filter (· ∈ a) := by
  conv_lhs => rw [eq_filter_of_sublist ha hl]
  conv_rhs => rw [eq_filter_of_sublist hb hl]
  rw [List.filter_filter, List.filter_filter]
  exact List.filter_congr fun x _ => Bool.and_comm _ _

/-- Two parties that mark one log see their common entries in one order. -/
theorem marked_common
    {log log' : List (α × Bool)}
    (h : log.map Prod.fst = log'.map Prod.fst) :
    (marked log).filter (· ∈ marked log') =
      (marked log').filter (· ∈ marked log) := by
  have hsub := marked_sublist log'
  rw [← h] at hsub
  exact filter_mem_comm (nodup_zipIdx _) (marked_sublist log) hsub

end Common

section Last

variable {a b : α} {l : List α} {i : Nat}

/-- The entry at this position is the last of its kind. -/
structure LastAt (l : List α) (i : Nat) (a : α) : Prop where
  here : l[i]? = some a
  later : ∀ j, i < j → l[j]? ≠ some a

/-- A new entry is the last of its kind and leaves the other kinds alone. -/
theorem lastAt_snoc :
    LastAt (l ++ [b]) i a ↔
      (a = b ∧ i = l.length) ∨ (a ≠ b ∧ LastAt l i a) := by
  have hlast : (l ++ [b])[l.length]? = some b := List.getElem?_concat_length
  have hold : ∀ j, j < l.length → (l ++ [b])[j]? = l[j]? :=
    fun j hj => List.getElem?_append_left hj
  have hnone : ∀ j, l.length < j → (l ++ [b])[j]? = none := fun j hj =>
    List.getElem?_eq_none (by simpa using hj)
  have hend : ∀ j, l.length ≤ j → l[j]? = none :=
    fun j hj => List.getElem?_eq_none hj
  constructor
  · rintro ⟨here, later⟩
    rcases Nat.lt_trichotomy i l.length with hi | rfl | hi
    · refine Or.inr ⟨?_, ?_, fun j hj => ?_⟩
      · rintro rfl
        exact later _ hi hlast
      · rwa [hold i hi] at here
      · rcases Nat.lt_or_ge j l.length with hjl | hjl
        · exact hold j hjl ▸ later j hj
        · simp [hend j hjl]
    · rw [hlast] at here
      exact Or.inl ⟨(Option.some.inj here).symm, rfl⟩
    · simp [hnone i hi] at here
  · rintro (⟨rfl, rfl⟩ | ⟨hne, here, later⟩)
    · exact ⟨hlast, fun j hj => by simp [hnone j hj]⟩
    · have hi : i < l.length := (List.getElem?_eq_some_iff.mp here).1
      refine ⟨by rwa [hold i hi], fun j hj => ?_⟩
      rcases Nat.lt_trichotomy j l.length with hjl | rfl | hjl
      · exact hold j hjl ▸ later j hj
      · rw [hlast]
        exact fun heq => hne (Option.some.inj heq).symm
      · simp [hnone j hjl]

/-- Only one entry of a kind is the last one. -/
theorem LastAt.unique
    {j : Nat}
    (hi : LastAt l i a)
    (hj : LastAt l j a) :
    i = j := by
  rcases Nat.lt_trichotomy i j with hlt | heq | hlt
  · exact absurd hj.here (hi.later j hlt)
  · exact heq
  · exact absurd hi.here (hj.later i hlt)

/-- There are at most as many last entries as kinds. -/
theorem card_lastAt_le
    {kinds : Finset α} {positions : Finset Nat}
    (hkinds : ∀ a ∈ l, a ∈ kinds)
    (hlast : ∀ i ∈ positions, ∃ a, LastAt l i a) :
    positions.card ≤ kinds.card := by
  choose kind hkind using hlast
  rw [← positions.card_attach]
  refine Finset.card_le_card_of_injOn (fun i => kind i.1 i.2)
    (fun i _ => hkinds _ (List.mem_of_getElem? (hkind i.1 i.2).here))
    (fun i _ j _ heq => Subtype.ext ?_)
  exact (hkind i.1 i.2).unique ((congrArg (LastAt l j.1) heq).mpr (hkind j.1 j.2))

end Last

end Log

end Kernel
end TurnBasedGame
