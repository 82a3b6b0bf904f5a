import Mathlib.Algebra.Order.Archimedean.Basic
import Mathlib.Tactic

/-!
# Loops with outputs

Loops whose bodies give out lists: one over the elements of a list, and one
that counts a variable up by a fixed step while a condition holds.  A body may
fail to return, and the counting loop has fuel for its iterations, so the
module says when a loop returns for all large enough amounts of fuel, and
what has been given out when it does.

A loop that draws one tile of the width of its step in each iteration leaves
no gap before the end of its condition, and draws over no point twice.
-/

namespace TurnBasedGame
namespace Kernel

universe u v w

section Loop

variable {α : Type u} {ω : Type v}

/-- Run the body for all elements and collect its outputs. -/
def forEach (body : α → Option (List ω)) : List α → Option (List ω)
  | [] => some []
  | x :: rest => do
      let out ← body x
      let more ← forEach body rest
      return out ++ more

/-- Run the body while the condition holds, counting up by the step. -/
def forLoop [Add α] (cond : α → Bool) (step : α)
    (body : α → Option (List ω)) : Nat → α → Option (List ω)
  | 0, _ => none
  | fuel + 1, x =>
      if cond x then do
        let out ← body x
        let more ← forLoop cond step body fuel (x + step)
        return out ++ more
      else
        some []

/-- The value is returned for every large enough amount of fuel. -/
def Returns (f : Nat → Option α) (a : α) : Prop :=
  ∃ n, ∀ fuel, n ≤ fuel → f fuel = some a

/-- Some value is returned for every large enough amount of fuel. -/
def Terminates (f : Nat → Option α) : Prop :=
  ∃ a, Returns f a

theorem terminates_some
    (a : α) :
    Terminates (fun _ => some a) :=
  ⟨a, 0, fun _ _ => rfl⟩

/-- One computation after the other, both with the same fuel. -/
theorem Terminates.bind
    {β : Type v} {f : Nat → Option α} {g : Nat → α → Option β}
    (hf : Terminates f)
    (hg : ∀ a, Terminates (fun fuel => g fuel a)) :
    Terminates (fun fuel => (f fuel).bind (g fuel)) := by
  obtain ⟨a, n, hn⟩ := hf
  obtain ⟨b, m, hm⟩ := hg a
  refine ⟨b, max n m, fun fuel hfuel => ?_⟩
  simp only [hn fuel (le_of_max_le_left hfuel), Option.bind_some]
  exact hm fuel (le_of_max_le_right hfuel)

/-- What the second computation returns after the first. -/
theorem Returns.bind
    {β : Type v} {f : Nat → Option α} {g : Nat → α → Option β} {a : α} {b : β}
    (hf : Returns f a)
    (hg : Returns (fun fuel => g fuel a) b) :
    Returns (fun fuel => (f fuel).bind (g fuel)) b := by
  obtain ⟨n, hn⟩ := hf
  obtain ⟨m, hm⟩ := hg
  refine ⟨max n m, fun fuel hfuel => ?_⟩
  simp only [hn fuel (le_of_max_le_left hfuel), Option.bind_some]
  exact hm fuel (le_of_max_le_right hfuel)

theorem returns_some
    (a : α) :
    Returns (fun _ => some a) a :=
  ⟨0, fun _ _ => rfl⟩

section ForEach

variable {body : α → Option (List ω)} {l : List α} {out : List ω}

/-- The loop over a list terminates when its bodies do. -/
theorem forEach_terminates
    {body : Nat → α → Option (List ω)}
    (l : List α)
    (h : ∀ x, Terminates (fun fuel => body fuel x)) :
    Terminates (fun fuel => forEach (body fuel) l) := by
  induction l with
  | nil => exact terminates_some []
  | cons x rest ih =>
      exact (h x).bind fun out =>
        ih.bind fun more => terminates_some (out ++ more)

/-- Bodies of the loop over a list have returned, and gave their outputs out. -/
theorem forEach_body
    (h : forEach body l = some out) {x : α}
    (hx : x ∈ l) :
    ∃ o, body x = some o ∧ ∀ w ∈ o, w ∈ out := by
  induction l generalizing out with
  | nil => cases hx
  | cons y rest ih =>
      simp only [forEach, bind, Option.bind_eq_some_iff] at h
      obtain ⟨o, ho, more, hmore, heq⟩ := h
      cases heq
      rcases List.mem_cons.mp hx with rfl | hx
      · exact ⟨o, ho, fun w hw => List.mem_append_left _ hw⟩
      · obtain ⟨o', ho', hmem⟩ := ih hmore hx
        exact ⟨o', ho', fun w hw => List.mem_append_right _ (hmem w hw)⟩

/-- Whatever the loop gave out was given out by the body of an element. -/
theorem mem_forEach
    (h : forEach body l = some out) {w : ω}
    (hw : w ∈ out) :
    ∃ x ∈ l, ∃ o, body x = some o ∧ w ∈ o := by
  induction l generalizing out with
  | nil =>
      cases h
      cases hw
  | cons x rest ih =>
      simp only [forEach, bind, Option.bind_eq_some_iff] at h
      obtain ⟨o, ho, more, hmore, heq⟩ := h
      cases heq
      rcases List.mem_append.mp hw with hw | hw
      · exact ⟨x, by simp, o, ho, hw⟩
      · obtain ⟨y, hy, o', ho', hw'⟩ := ih hmore hw
        exact ⟨y, List.mem_cons_of_mem x hy, o', ho', hw'⟩

/-- What is selected from the outputs of the loop over a list. -/
theorem forEach_filterMap
    {β : Type w} {f : ω → Option β} {g : α → List β}
    (h : forEach body l = some out)
    (hbody : ∀ x ∈ l, ∀ o, body x = some o → o.filterMap f = g x) :
    out.filterMap f = l.flatMap g := by
  induction l generalizing out with
  | nil =>
      cases h
      rfl
  | cons x rest ih =>
      simp only [forEach, bind, Option.bind_eq_some_iff] at h
      obtain ⟨o, ho, more, hmore, heq⟩ := h
      cases heq
      rw [List.filterMap_append, List.flatMap_cons, hbody x (by simp) o ho,
        ih hmore fun y hy => hbody y (List.mem_cons_of_mem x hy)]

end ForEach

section ForLoop

variable [AddCommGroup α] {cond : α → Bool} {step x : α}
variable {body : α → Option (List ω)} {fuel : Nat} {out : List ω}

/-- A body of the loop has returned, and what it gave out was given out. -/
theorem forLoop_body
    (h : forLoop cond step body fuel x = some out)
    (k : Nat)
    (hcond : ∀ j ≤ k, cond (x + j • step) = true) :
    ∃ o, body (x + k • step) = some o ∧ ∀ w ∈ o, w ∈ out := by
  induction fuel generalizing x out k with
  | zero => cases h
  | succ fuel ih =>
      have hfirst : cond x = true := by
        simpa using hcond 0 (Nat.zero_le k)
      simp only [forLoop, hfirst, if_true, bind,
        Option.bind_eq_some_iff] at h
      obtain ⟨o, ho, more, hmore, heq⟩ := h
      cases heq
      cases k with
      | zero =>
          exact ⟨o, by simpa using ho, fun w hw => List.mem_append_left _ hw⟩
      | succ k =>
          have hshift : ∀ j : Nat, x + step + j • step = x + (j + 1) • step := by
            intro j
            rw [succ_nsmul', add_assoc]
          obtain ⟨o', ho', hmem⟩ := ih hmore k fun j hj => by
            rw [hshift]
            exact hcond (j + 1) (Nat.succ_le_succ hj)
          rw [hshift] at ho'
          exact ⟨o', ho', fun w hw => List.mem_append_right _ (hmem w hw)⟩

/-- Whatever the loop gave out was given out by the body of an iteration. -/
theorem mem_forLoop
    (h : forLoop cond step body fuel x = some out) {w : ω}
    (hw : w ∈ out) :
    ∃ (k : Nat) (o : List ω), cond (x + k • step) = true ∧
      body (x + k • step) = some o ∧ w ∈ o := by
  induction fuel generalizing x out with
  | zero => cases h
  | succ fuel ih =>
      by_cases hfirst : cond x = true
      · simp only [forLoop, hfirst, if_true, bind,
          Option.bind_eq_some_iff] at h
        obtain ⟨o, ho, more, hmore, heq⟩ := h
        cases heq
        rcases List.mem_append.mp hw with hw | hw
        · exact ⟨0, o, by simpa using hfirst, by simpa using ho, hw⟩
        · obtain ⟨k, o', hcond, ho', hw'⟩ := ih hmore hw
          rw [add_assoc, ← succ_nsmul'] at hcond ho'
          exact ⟨k + 1, o', hcond, ho', hw'⟩
      · rw [forLoop, if_neg hfirst] at h
        cases h
        cases hw

variable [LinearOrder α] [IsOrderedAddMonoid α]

/-- The counting loop terminates when it has a bound and its bodies do. -/
theorem forLoop_terminates
    [Archimedean α]
    {body : Nat → α → Option (List ω)}
    (hstep : 0 < step) {bound : α}
    (hcond : ∀ y, cond y = true → y ≤ bound)
    (hbody : ∀ y, Terminates (fun fuel => body fuel y))
    (x : α) :
    Terminates (fun fuel => forLoop cond step (body fuel) fuel x) := by
  -- the fuel of the bodies is kept apart from that of the iterations
  have hmain : ∀ (k : Nat) (x : α), bound < x + k • step →
      ∃ out n, ∀ fuel fuel', n ≤ fuel → n ≤ fuel' →
        forLoop cond step (body fuel') fuel x = some out := by
    intro k
    induction k with
    | zero =>
        intro x hx
        have hfirst : ¬ cond x = true := fun hc =>
          absurd (hcond x hc) (not_le.mpr (by simpa using hx))
        refine ⟨[], 1, fun fuel fuel' hfuel _ => ?_⟩
        obtain ⟨fuel, rfl⟩ := Nat.exists_eq_add_of_le' hfuel
        rw [forLoop, if_neg hfirst]
    | succ k ih =>
        intro x hx
        by_cases hfirst : cond x = true
        · obtain ⟨o, n, hn⟩ := hbody x
          obtain ⟨more, m, hm⟩ := ih (x + step) (by
            rwa [add_assoc, ← succ_nsmul'])
          refine ⟨o ++ more, max n m + 1, fun fuel fuel' hfuel hfuel' => ?_⟩
          obtain ⟨fuel, rfl⟩ : ∃ f, fuel = f + 1 :=
            Nat.exists_eq_add_of_le' (le_of_add_le_right hfuel)
          simp only [forLoop, hfirst, if_true, hn fuel' (by omega),
            hm fuel fuel' (by omega) (by omega), bind, Option.bind_some,
            pure]
        · refine ⟨[], 1, fun fuel fuel' hfuel _ => ?_⟩
          obtain ⟨fuel, rfl⟩ := Nat.exists_eq_add_of_le' hfuel
          rw [forLoop, if_neg hfirst]
  obtain ⟨k, hk⟩ := Archimedean.arch (bound - x) hstep
  have hpast : bound < x + (k + 1) • step := by
    rw [succ_nsmul]
    calc
      bound = x + (bound - x) := by abel
      _ ≤ x + k • step := add_le_add_right hk x
      _ < x + (k • step + step) := by simpa using hstep
  obtain ⟨out, n, hn⟩ := hmain (k + 1) x hpast
  exact ⟨out, n, fun fuel hfuel => hn fuel fuel hfuel hfuel⟩

end ForLoop

section Tiles

variable {K : Type w} [AddCommGroup K] [LinearOrder K] [IsOrderedAddMonoid K]

/-- Equal tiles, laid from a point on, reach every point behind it. -/
theorem exists_tile
    [Archimedean K] {x step t : K}
    (hstep : 0 < step)
    (h : x ≤ t) :
    ∃ k : Nat, x + k • step ≤ t ∧ t < x + k • step + step := by
  obtain ⟨k, ⟨hle, hlt⟩, -⟩ := existsUnique_zsmul_near_of_pos hstep (t - x)
  have hpos : (0 : ℤ) • step < (k + 1) • step := by
    rw [zero_zsmul]
    exact (sub_nonneg.mpr h).trans_lt hlt
  have hk : 0 ≤ k :=
    Int.lt_add_one_iff.mp ((zsmul_lt_zsmul_iff_left hstep).mp hpos)
  obtain ⟨n, rfl⟩ := Int.eq_ofNat_of_zero_le hk
  rw [natCast_zsmul] at hle
  rw [add_zsmul, one_zsmul, natCast_zsmul] at hlt
  refine ⟨n, le_sub_iff_add_le'.mp hle, ?_⟩
  rw [add_assoc]
  exact sub_lt_iff_lt_add'.mp hlt

/--
A point that the counting loop does not stop before lies in the tile of one of
its iterations.  The points may belong to a larger group than the variable.
-/
theorem forLoop_tile
    [Archimedean K] [AddCommGroup α] {cond : α → Bool} {step x : α}
    {body : α → Option (List ω)} {fuel : Nat} {out : List ω}
    (h : forLoop cond step body fuel x = some out)
    (φ : α →+ K)
    (hstep : 0 < φ step) {t : K}
    (hx : φ x ≤ t)
    (hcond : ∀ k : Nat, φ x + k • φ step ≤ t →
      cond (x + k • step) = true) :
    ∃ y o, φ y ≤ t ∧ t < φ y + φ step ∧ body y = some o ∧
      ∀ w ∈ o, w ∈ out := by
  obtain ⟨k, hle, hlt⟩ := exists_tile hstep hx
  have hbefore : ∀ j ≤ k, φ x + j • φ step ≤ t := fun j hj =>
    (add_le_add_right (nsmul_le_nsmul_left hstep.le hj) _).trans hle
  obtain ⟨o, ho, hmem⟩ := forLoop_body h k fun j hj => hcond j (hbefore j hj)
  have hφ : φ (x + k • step) = φ x + k • φ step := by
    rw [map_add, map_nsmul]
  exact ⟨x + k • step, o, hφ ▸ hle, hφ ▸ hlt, ho, hmem⟩

section Once

variable [AddCommGroup α] {cond : α → Bool} {step x : α}
variable {body : α → Option (List ω)} {fuel : Nat} {out : List ω}
variable {β : Type*} {f : ω → Option β} {φ : α →+ K} {t : K}

/--
From each iteration at most one output is selected, and none where the point
is not in its tile.
-/
def OncePerTile (f : ω → Option β) (φ : α →+ K) (t : K) (step : α)
    (body : α → Option (List ω)) : Prop :=
  ∀ y o, body y = some o → (o.filterMap f).length ≤ 1 ∧
    (¬ (φ y ≤ t ∧ t < φ y + φ step) → o.filterMap f = [])

/-- A loop that starts behind the point has no tile over it. -/
theorem forLoop_filterMap_nil
    (h : forLoop cond step body fuel x = some out)
    (hstep : 0 < φ step)
    (htiles : OncePerTile f φ t step body)
    (hx : t < φ x) :
    out.filterMap f = [] := by
  induction fuel generalizing x out with
  | zero => cases h
  | succ fuel ih =>
      by_cases hfirst : cond x = true
      · simp only [forLoop, hfirst, if_true, bind,
          Option.bind_eq_some_iff] at h
        obtain ⟨o, ho, more, hmore, heq⟩ := h
        cases heq
        have hnone := (htiles x o ho).2 fun htile =>
          absurd htile.1 (not_le.mpr hx)
        have hnext : t < φ (x + step) := by
          rw [map_add]
          exact hx.trans (lt_add_of_pos_right _ hstep)
        rw [List.filterMap_append, hnone, ih hmore hnext, List.append_nil]
      · rw [forLoop, if_neg hfirst] at h
        cases h
        rfl

/-- Tiles of the width of the step do not overlap. -/
theorem forLoop_filterMap_length_le
    (h : forLoop cond step body fuel x = some out)
    (hstep : 0 < φ step)
    (htiles : OncePerTile f φ t step body) :
    (out.filterMap f).length ≤ 1 := by
  induction fuel generalizing x out with
  | zero => cases h
  | succ fuel ih =>
      by_cases hfirst : cond x = true
      · simp only [forLoop, hfirst, if_true, bind,
          Option.bind_eq_some_iff] at h
        obtain ⟨o, ho, more, hmore, heq⟩ := h
        cases heq
        obtain ⟨hone, hnone⟩ := htiles x o ho
        rw [List.filterMap_append]
        by_cases hbehind : t < φ x + φ step
        · have hrest := forLoop_filterMap_nil hmore hstep htiles
            (by rwa [map_add])
          rwa [hrest, List.append_nil]
        · rw [hnone fun htile => hbehind htile.2, List.nil_append]
          exact ih hmore
      · rw [forLoop, if_neg hfirst] at h
        cases h
        exact Nat.zero_le _

end Once

end Tiles

end Loop

end Kernel
end TurnBasedGame
