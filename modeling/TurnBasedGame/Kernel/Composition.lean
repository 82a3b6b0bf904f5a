import TurnBasedGame.Kernel.Transition

/-!
# Parts of a composed system

A system composed of others moves several of them in one step.  A view of a
part tells for each step of the whole what the part did in it, if anything.
The steps that a view shows form a run of the part; a part that is opened in
the middle of a run has a run of its own from the state it was opened in.
-/

namespace TurnBasedGame
namespace Kernel

universe u v w u' v' w'

section Composition

variable {σ : Type u} {ε : Type v} {ω : Type w}
variable {τ : Type u'} {ι : Type v'} {ο : Type w'}

/-- Put the state an outcome leads to into a larger one. -/
def Outcome.map (f : τ → σ) : Outcome τ ω → Outcome σ ω
  | .blocked => .blocked
  | .panic => .panic
  | .next state out => .next (f state) out

@[simp] theorem Outcome.map_eq_next_iff
    {f : τ → σ} {o : Outcome τ ω} {s : σ} {out : List ω} :
    o.map f = .next s out ↔ ∃ t, o = .next t out ∧ f t = s := by
  cases o with
  | blocked => simp [Outcome.map]
  | panic => simp [Outcome.map]
  | next t out' =>
      simp only [Outcome.map, Outcome.next.injEq]
      constructor
      · rintro ⟨hs, rfl⟩
        exact ⟨t, ⟨rfl, rfl⟩, hs⟩
      · rintro ⟨t', ⟨rfl, rfl⟩, hs⟩
        exact ⟨hs, rfl⟩

@[simp] theorem Outcome.map_eq_panic_iff
    {f : τ → σ} {o : Outcome τ ω} :
    o.map f = .panic ↔ o = .panic := by
  cases o <;> simp [Outcome.map]

@[simp] theorem Outcome.map_eq_blocked_iff
    {f : τ → σ} {o : Outcome τ ω} :
    o.map f = .blocked ↔ o = .blocked := by
  cases o <;> simp [Outcome.map]

/-- The step of a part that a view shows. -/
def shownStep
    (part : σ → τ) (view : Transition σ ε ω → Option (ι × List ο))
    (t : Transition σ ε ω) : Option (Transition τ ι ο) :=
  (view t).map (fun io => ⟨part t.pre, io.1, io.2, part t.post⟩)

/-- The steps of a part that a view shows in a run. -/
def shown
    (part : σ → τ) (view : Transition σ ε ω → Option (ι × List ο))
    (tr : List (Transition σ ε ω)) : List (Transition τ ι ο) :=
  tr.filterMap (shownStep part view)

section Shown

variable {part : σ → τ} {view : Transition σ ε ω → Option (ι × List ο)}

theorem shown_append
    (tr tr' : List (Transition σ ε ω)) :
    shown part view (tr ++ tr') = shown part view tr ++ shown part view tr' :=
  List.filterMap_append

theorem shown_singleton
    (t : Transition σ ε ω) :
    shown part view [t] = (shownStep part view t).toList := by
  cases h : shownStep part view t <;> simp [shown, h]

theorem mem_shown
    {tr : List (Transition σ ε ω)} {t' : Transition τ ι ο} :
    t' ∈ shown part view tr ↔
      ∃ t ∈ tr, ∃ i out, view t = some (i, out) ∧
        t' = ⟨part t.pre, i, out, part t.post⟩ := by
  constructor
  · intro h
    obtain ⟨t, ht, hstep⟩ := List.mem_filterMap.mp h
    obtain ⟨⟨i, out⟩, hview, rfl⟩ := Option.map_eq_some_iff.mp hstep
    exact ⟨t, ht, i, out, hview, rfl⟩
  · rintro ⟨t, ht, i, out, hview, rfl⟩
    exact List.mem_filterMap.mpr ⟨t, ht, by simp [shownStep, hview]⟩

/-- As many steps are shown as the view shows something of. -/
theorem length_shown
    (tr : List (Transition σ ε ω)) :
    (shown part view tr).length =
      (tr.map (fun t => (view t).toList.length)).sum := by
  induction tr with
  | nil => rfl
  | cons t rest ih =>
      rw [← List.singleton_append, shown_append, shown_singleton,
        List.length_append, ih]
      cases hview : view t <;> simp [shownStep, hview]

/-- Quantities summed over a run can be summed over the steps of a part. -/
theorem flatMap_shown
    {β : Type*} {tr : List (Transition σ ε ω)}
    {f : Transition τ ι ο → List β} {g : Transition σ ε ω → List β}
    (h : ∀ t ∈ tr, (shownStep part view t).toList.flatMap f = g t) :
    (shown part view tr).flatMap f = tr.flatMap g := by
  induction tr with
  | nil => rfl
  | cons t rest ih =>
      have hrest := ih (fun t' ht' => h t' (List.mem_cons_of_mem t ht'))
      have hfirst := h t (by simp)
      rw [← List.singleton_append, shown_append, shown_singleton,
        List.flatMap_append, List.flatMap_append, hfirst, hrest]
      simp

end Shown

namespace System.Run

variable {M : System σ ε ω} {A : System τ ι ο}
variable {s₀ s : σ} {tr : List (Transition σ ε ω)}

/-- What a step of the whole is for one of its parts. -/
structure Projects
    (A : System τ ι ο) (part : σ → τ)
    (view : Transition σ ε ω → Option (ι × List ο))
    (t : Transition σ ε ω) : Prop where
  hidden : view t = none → part t.post = part t.pre
  visible : ∀ i out, view t = some (i, out) →
    A.step (part t.pre) i = .next (part t.post) out

/-- A part that exists from the start runs along with the whole. -/
theorem shown_run
    {I : σ → Prop} {part : σ → τ}
    {view : Transition σ ε ω → Option (ι × List ο)}
    (run : M.Run s₀ tr s)
    (init : I s₀)
    (keep : ∀ t, M.Valid t → I t.pre → I t.post)
    (projects : ∀ t, M.Valid t → I t.pre → Projects A part view t) :
    A.Run (part s₀) (shown part view tr) (part s) :=
  run.refines part view init keep
    (fun t valid h => (projects t valid h).hidden)
    (fun t i out valid h => (projects t valid h).visible i out)

/-- What a step of the whole is for a part that may not be open yet. -/
structure Opens
    (A : System τ ι ο) (part : σ → τ) (Open : σ → Prop)
    (Fresh : Transition σ ε ω → Prop)
    (view : Transition σ ε ω → Option (ι × List ο))
    (t : Transition σ ε ω) : Prop where
  unopened : ¬ Open t.pre → view t = none
  opened : ¬ Open t.pre → Open t.post → Fresh t
  stays : Open t.pre → Open t.post
  projects : Open t.pre → Projects A part view t

/--
A part that is opened by a step of a run runs along with the rest of it, from
the state that step left it in.
-/
theorem opened_run
    {I : σ → Prop} {part : σ → τ} {Open : σ → Prop}
    {Fresh : Transition σ ε ω → Prop}
    {view : Transition σ ε ω → Option (ι × List ο)}
    (run : M.Run s₀ tr s)
    (init : I s₀)
    (closed : ¬ Open s₀)
    (keep : ∀ t, M.Valid t → I t.pre → I t.post)
    (opens : ∀ t, M.Valid t → I t.pre → Opens A part Open Fresh view t) :
    (¬ Open s → shown part view tr = []) ∧
      (Open s → ∃ t ∈ tr, Fresh t ∧
        A.Run (part t.post) (shown part view tr) (part s)) := by
  induction run with
  | nil => exact ⟨fun _ => rfl, fun h => absurd h closed⟩
  | snoc t run valid ih =>
      obtain ⟨hbefore, hafter⟩ := ih
      have h := opens t valid (run.invariant init keep)
      rw [shown_append, shown_singleton]
      by_cases hopen : Open t.pre
      · refine ⟨fun hclosed => absurd (h.stays hopen) hclosed, fun _ => ?_⟩
        obtain ⟨t', ht', hfresh, hrun⟩ := hafter hopen
        refine ⟨t', List.mem_append_left _ ht', hfresh, ?_⟩
        have hproj := h.projects hopen
        cases hview : view t with
        | none =>
            simpa [shownStep, hview, hproj.hidden hview] using hrun
        | some io =>
            obtain ⟨i, out⟩ := io
            simpa [shownStep, hview] using
              hrun.snoc ⟨part t.pre, i, out, part t.post⟩
                (hproj.visible i out hview)
      · have hnone := h.unopened hopen
        simp only [hbefore hopen, shownStep, hnone, Option.map_none,
          Option.toList_none, List.append_nil, implies_true, true_and]
        exact fun hopened => ⟨t, by simp, h.opened hopen hopened, .nil⟩

end System.Run

end Composition

end Kernel
end TurnBasedGame
