import Mathlib.Algebra.BigOperators.Finprod
import TurnBasedGame.Kernel.Transition

/-!
# Progress by a measure

A natural number that steps make smaller bounds how many such steps a run can
have, and leads to a goal wherever some step that makes it smaller can be
taken.  Where a system has many parts, the number is a sum over those that are
not at rest.
-/

namespace TurnBasedGame
namespace Kernel

universe u v w

section Progress

variable {σ : Type u} {ε : Type v} {ω : Type w}
variable {M : System σ ε ω}

namespace System.Run

variable {s₀ s : σ} {tr : List (Transition σ ε ω)}

/-- What the steps of a run spend, they had or were given on the way. -/
theorem spent_add_le
    (run : M.Run s₀ tr s)
    (I : σ → Prop) (μ : σ → Nat) (spent given : Transition σ ε ω → Nat)
    (init : I s₀)
    (keep : ∀ t, M.Valid t → I t.pre → I t.post)
    (balance : ∀ t, M.Valid t → I t.pre →
      μ t.post + spent t ≤ μ t.pre + given t) :
    (tr.map spent).sum + μ s ≤ μ s₀ + (tr.map given).sum := by
  induction run with
  | nil => simp
  | snoc t run valid ih =>
      have hstep := balance t valid (run.invariant init keep)
      simp only [List.map_append, List.sum_append, List.map_singleton,
        List.sum_singleton]
      omega

/-- A run of good steps is no longer than the measure at its start. -/
theorem length_add_le
    (run : M.Run s₀ tr s)
    (I : σ → Prop) (Good : Transition σ ε ω → Prop) (μ : σ → Nat)
    (init : I s₀)
    (keep : ∀ t, M.Valid t → I t.pre → I t.post)
    (less : ∀ t, M.Valid t → Good t → I t.pre → μ t.post < μ t.pre)
    (good : ∀ t ∈ tr, Good t) :
    tr.length + μ s ≤ μ s₀ := by
  induction run with
  | nil => simp
  | snoc t run valid ih =>
      have hbefore := ih fun t' ht' => good t' (List.mem_append_left _ ht')
      have hlast := less t valid (good t (by simp))
        (run.invariant init keep)
      simp only [List.length_append, List.length_singleton]
      omega

end System.Run

/-- A goal that some good step always comes closer to can be reached. -/
theorem System.exists_run_to
    (I Done : σ → Prop) (Good : Transition σ ε ω → Prop) (μ : σ → Nat)
    (progress : ∀ s, I s → ¬ Done s →
      ∃ t, t.pre = s ∧ M.Valid t ∧ Good t ∧ I t.post ∧ μ t.post < μ s)
    (s : σ) (h : I s) :
    ∃ tr s', M.Run s tr s' ∧ (∀ t ∈ tr, Good t) ∧ I s' ∧ Done s' := by
  induction hμ : μ s using Nat.strong_induction_on generalizing s with
  | _ n ih =>
      by_cases hdone : Done s
      · exact ⟨[], s, .nil, by simp, h, hdone⟩
      · obtain ⟨t, rfl, hvalid, hgood, hpost, hlt⟩ := progress s h hdone
        obtain ⟨tr, s', hrun, hall, hs', hdone'⟩ := ih (μ t.post)
          (by omega) t.post hpost rfl
        refine ⟨t :: tr, s', .cons t hvalid hrun, ?_, hs', hdone'⟩
        exact List.forall_mem_cons.mpr ⟨hgood, hall⟩

/--
Where all own steps make a number smaller, they can be taken until each of
them has to wait, or one panics.
-/
theorem System.exists_stuck
    (I : σ → Prop) (Own : ε → Prop) (μ : σ → Nat)
    (keep : ∀ t, M.Valid t → I t.pre → I t.post)
    (less : ∀ t, M.Valid t → Own t.event → I t.pre → μ t.post < μ t.pre)
    (s : σ) (h : I s) :
    ∃ tr s', M.Run s tr s' ∧ (∀ t ∈ tr, Own t.event) ∧
      ((∀ e, Own e → M.step s' e = .blocked) ∨
        ∃ e, Own e ∧ M.step s' e = .panic) := by
  have hprogress : ∀ s, I s → ¬ ((∀ e, Own e → M.step s e = .blocked) ∨
      ∃ e, Own e ∧ M.step s e = .panic) →
        ∃ t : Transition σ ε ω, t.pre = s ∧ M.Valid t ∧ Own t.event ∧
          I t.post ∧ μ t.post < μ s := by
    intro s hs hnot
    obtain ⟨hmoves, hsafe⟩ := not_or.mp hnot
    obtain ⟨e, hown, hstep⟩ : ∃ e, Own e ∧ M.step s e ≠ .blocked := by
      simpa using hmoves
    cases hnext : M.step s e with
    | blocked => exact absurd hnext hstep
    | panic => exact absurd ⟨e, hown, hnext⟩ hsafe
    | next s' out =>
        have hvalid : M.Valid ⟨s, e, out, s'⟩ := hnext
        exact ⟨⟨s, e, out, s'⟩, rfl, hvalid, hown, keep _ hvalid hs,
          less _ hvalid hown hs⟩
  obtain ⟨tr, s', hrun, hown, -, hdone⟩ := System.exists_run_to I _
    (fun t => Own t.event) μ hprogress s h
  exact ⟨tr, s', hrun, hown, hdone⟩

section Total

variable {ι : Type u} {f f' : ι → Nat}

/-- The measure of many parts of which finitely many are not at rest. -/
noncomputable def total (f : ι → Nat) : Nat :=
  ∑ᶠ i, f i

theorem total_of_rest
    (rest : ∀ i, f i = 0) :
    total f = 0 := by
  rw [total, finsum_congr rest, finsum_zero]

/-- When one part changes, the whole changes by as much. -/
theorem total_add_of_changed
    (finite : (Function.support f).Finite)
    (i : ι)
    (same : ∀ j, j ≠ i → f' j = f j) :
    total f' + f i = total f + f' i := by
  classical
  have hsub : Function.support f ⊆ ↑(insert i finite.toFinset) := by
    intro j hj
    simp [hj]
  have hsub' : Function.support f' ⊆ ↑(insert i finite.toFinset) := by
    intro j hj
    by_cases hji : j = i
    · simp [hji]
    · rw [Function.mem_support, same j hji] at hj
      simp [hj]
  rw [total, total, finsum_eq_sum_of_support_subset _ hsub,
    finsum_eq_sum_of_support_subset _ hsub']
  have hmem : i ∈ insert i finite.toFinset := Finset.mem_insert_self _ _
  have hrest : ∑ j ∈ (insert i finite.toFinset).erase i, f' j =
      ∑ j ∈ (insert i finite.toFinset).erase i, f j :=
    Finset.sum_congr rfl (fun j hj => same j (Finset.ne_of_mem_erase hj))
  rw [← Finset.add_sum_erase _ f' hmem, ← Finset.add_sum_erase _ f hmem, hrest]
  ring

end Total

end Progress

end Kernel
end TurnBasedGame
