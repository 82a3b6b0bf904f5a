import Mathlib.Tactic

/-!
# Labelled transition systems with outputs

A system takes an event in a state and either moves on, emitting a list of
outputs, or is stopped by a run-time failure, or cannot take the event at all
for now.  A run is recorded as the list of its transitions, each with the
state before it and the state after it, so that conditions on the steps of a
run and quantities read off its history are plain functions of that list.

The module provides the induction rules used for whole runs: invariants,
invariants that hold on runs whose steps meet a condition, conservation laws
between what enters and what leaves a system, and refinement of an abstract
system by a projection of the run.
-/

namespace TurnBasedGame
namespace Kernel

universe u v w

section Transition

variable {σ : Type u} {ε : Type v} {ω : Type w}

/-- What taking an event in a state leads to. -/
inductive Outcome (σ : Type u) (ω : Type w)
  | blocked
  | panic
  | next (state : σ) (out : List ω)

/-- A deterministic labelled transition system with outputs. -/
structure System (σ : Type u) (ε : Type v) (ω : Type w) where
  step : σ → ε → Outcome σ ω

/-- One recorded step of a run. -/
structure Transition (σ : Type u) (ε : Type v) (ω : Type w) where
  pre : σ
  event : ε
  out : List ω
  post : σ

namespace System

/-- The recorded step is a step of the system. -/
def Valid (M : System σ ε ω) (t : Transition σ ε ω) : Prop :=
  M.step t.pre t.event = .next t.post t.out

/-- Runs of a system from a given state, with their recorded steps. -/
inductive Run (M : System σ ε ω) (s₀ : σ) :
    List (Transition σ ε ω) → σ → Prop
  | nil :
      Run M s₀ [] s₀
  | snoc
      {tr : List (Transition σ ε ω)}
      (t : Transition σ ε ω)
      (run : Run M s₀ tr t.pre)
      (valid : M.Valid t) :
      Run M s₀ (tr ++ [t]) t.post

/-- Run a list of events, as far as each of them can be taken. -/
def exec (M : System σ ε ω) (s : σ) :
    List ε → Option (List (Transition σ ε ω) × σ)
  | [] => some ([], s)
  | e :: rest =>
      match M.step s e with
      | .next s' out =>
          (exec M s' rest).map
            (fun r => (⟨s, e, out, s'⟩ :: r.1, r.2))
      | .blocked => none
      | .panic => none

namespace Run

variable {M : System σ ε ω} {s₀ s : σ}
variable {tr : List (Transition σ ε ω)}

/-- Every recorded step of a run is a step of the system. -/
theorem valid_of_mem
    (run : M.Run s₀ tr s) :
    ∀ t ∈ tr, M.Valid t := by
  induction run with
  | nil =>
      intro t ht
      cases ht
  | snoc t run valid ih =>
      intro t' ht'
      rcases List.mem_append.mp ht' with ht' | ht'
      · exact ih t' ht'
      · rw [List.mem_singleton.mp ht']
        exact valid

/-- Two runs, the second from the end of the first, make one run. -/
theorem append
    {m : σ} {tr' : List (Transition σ ε ω)}
    (run : M.Run s₀ tr m)
    (run' : M.Run m tr' s) :
    M.Run s₀ (tr ++ tr') s := by
  induction run' with
  | nil =>
      simpa using run
  | snoc t run' valid ih =>
      rw [← List.append_assoc]
      exact ih.snoc t valid

/-- A step followed by a run is a run. -/
theorem cons
    (t : Transition σ ε ω)
    (valid : M.Valid t)
    (run : M.Run t.post tr s) :
    M.Run t.pre (t :: tr) s := by
  have hfirst : M.Run t.pre [t] t.post :=
    (Run.nil (M := M)).snoc t valid
  exact hfirst.append run

/-- A run whose trace is cut in two is two runs through a middle state. -/
theorem exists_middle
    {tr' : List (Transition σ ε ω)}
    (run : M.Run s₀ (tr ++ tr') s) :
    ∃ m, M.Run s₀ tr m ∧ M.Run m tr' s := by
  induction tr' using List.reverseRecOn generalizing s with
  | nil =>
      exact ⟨s, by simpa using run, .nil⟩
  | append_singleton tr' t ih =>
      rw [← List.append_assoc] at run
      generalize htrace : tr ++ tr' ++ [t] = whole at run
      cases run with
      | nil =>
          simp at htrace
      | snoc t' run valid =>
          obtain ⟨hinit, hlast⟩ := List.append_inj' htrace rfl
          have ht : t = t' := by simpa using hlast
          subst ht
          subst hinit
          obtain ⟨m, hfirst, hsecond⟩ := ih run
          exact ⟨m, hfirst, hsecond.snoc t valid⟩

/-- A run without steps ends where it starts. -/
theorem eq_of_nil
    (run : M.Run s₀ [] s) :
    s = s₀ := by
  generalize htrace : ([] : List (Transition σ ε ω)) = whole at run
  cases run with
  | nil => rfl
  | snoc t run valid => simp at htrace

/-- The part of a run before one of its steps reaches the state before it. -/
theorem before
    {t : Transition σ ε ω} {tr' : List (Transition σ ε ω)}
    (run : M.Run s₀ (tr ++ t :: tr') s) :
    M.Run s₀ tr t.pre ∧ M.Valid t ∧ M.Run t.post tr' s := by
  obtain ⟨m, hfirst, hsecond⟩ := run.exists_middle
  have hsplit : M.Run m ([t] ++ tr') s := hsecond
  obtain ⟨m', hstep, hrest⟩ := hsplit.exists_middle
  generalize htrace : [t] = whole at hstep
  cases hstep with
  | nil => cases htrace
  | @snoc tr₀ t' hnil valid =>
      have hinj : ([] : List (Transition σ ε ω)) ++ [t] = tr₀ ++ [t'] := htrace
      obtain ⟨hinit, hlast⟩ := List.append_inj' hinj rfl
      have ht : t = t' := by simpa using hlast
      subst ht
      subst hinit
      have hm : t.pre = m := hnil.eq_of_nil
      exact ⟨hm ▸ hfirst, valid, hrest⟩

/--
A statement about history and state that holds at the start and is kept by
every step of a run holds at its end.
-/
theorem history_induction
    {J : List (Transition σ ε ω) → σ → Prop}
    (init : J [] s₀)
    (step : ∀ tr t, M.Run s₀ tr t.pre → M.Valid t →
      J tr t.pre → J (tr ++ [t]) t.post)
    (run : M.Run s₀ tr s) :
    J tr s := by
  induction run with
  | nil => exact init
  | snoc t run valid ih => exact step _ t run valid ih

/-- Invariant rule for runs whose steps all meet a condition. -/
theorem invariant_where
    {I : σ → Prop} {C : Transition σ ε ω → Prop}
    (init : I s₀)
    (step : ∀ t, M.Valid t → C t → I t.pre → I t.post)
    (run : M.Run s₀ tr s)
    (cond : ∀ t ∈ tr, C t) :
    I s := by
  induction run with
  | nil => exact init
  | snoc t run valid ih =>
      have hpre := ih (fun t' ht' => cond t' (List.mem_append_left _ ht'))
      exact step t valid (cond t (by simp)) hpre

/-- Invariant rule for all runs. -/
theorem invariant
    {I : σ → Prop}
    (init : I s₀)
    (step : ∀ t, M.Valid t → I t.pre → I t.post)
    (run : M.Run s₀ tr s) :
    I s :=
  run.invariant_where (C := fun _ => True) init
    (fun t valid _ => step t valid) (fun _ _ => trivial)

/-- An invariant holds before every step of a run. -/
theorem invariant_pre
    {I : σ → Prop}
    (init : I s₀)
    (step : ∀ t, M.Valid t → I t.pre → I t.post)
    (run : M.Run s₀ tr s) :
    ∀ t ∈ tr, I t.pre := by
  intro t ht
  obtain ⟨before, after, rfl⟩ := List.append_of_mem ht
  exact (run.before.1).invariant init step

/--
Conservation law: if every step balances what it takes in against what it
gives out and keeps, a whole run does, in order.
-/
theorem conservation
    {β : Type*} {I : σ → Prop}
    (held : σ → List β)
    (entered left : Transition σ ε ω → List β)
    (init : I s₀)
    (keep : ∀ t, M.Valid t → I t.pre → I t.post)
    (balance : ∀ t, M.Valid t → I t.pre →
      held t.pre ++ entered t = left t ++ held t.post)
    (run : M.Run s₀ tr s) :
    held s₀ ++ tr.flatMap entered = tr.flatMap left ++ held s := by
  induction run with
  | nil => simp
  | snoc t run valid ih =>
      have hinv := run.invariant init keep
      simp only [List.flatMap_append, List.flatMap_singleton]
      calc
        held s₀ ++ (_ ++ entered t)
            = (held s₀ ++ _) ++ entered t := by rw [List.append_assoc]
        _ = (_ ++ held t.pre) ++ entered t := by rw [ih]
        _ = _ ++ (left t ++ held t.post) := by
            rw [List.append_assoc, balance t valid hinv]
        _ = (_ ++ left t) ++ held t.post := by rw [List.append_assoc]

/--
Refinement by projection: where every step is either invisible and leaves the
abstract state alone, or is a step of the abstract system, the visible steps
of a run form a run of the abstract system.
-/
theorem refines
    {τ : Type*} {ι : Type*} {ο : Type*}
    {A : System τ ι ο} {I : σ → Prop}
    (abs : σ → τ)
    (view : Transition σ ε ω → Option (ι × List ο))
    (init : I s₀)
    (keep : ∀ t, M.Valid t → I t.pre → I t.post)
    (hidden : ∀ t, M.Valid t → I t.pre → view t = none →
      abs t.post = abs t.pre)
    (visible : ∀ t i out, M.Valid t → I t.pre → view t = some (i, out) →
      A.step (abs t.pre) i = .next (abs t.post) out)
    (run : M.Run s₀ tr s) :
    A.Run (abs s₀)
      (tr.filterMap (fun t =>
        (view t).map (fun io => ⟨abs t.pre, io.1, io.2, abs t.post⟩)))
      (abs s) := by
  induction run with
  | nil => exact .nil
  | snoc t run valid ih =>
      have hinv := run.invariant init keep
      rw [List.filterMap_append]
      cases hview : view t with
      | none =>
          rw [hidden t valid hinv hview]
          simpa [hview] using ih
      | some io =>
          obtain ⟨i, out⟩ := io
          have hstep := visible t i out valid hinv hview
          simpa [hview] using
            ih.snoc ⟨abs t.pre, i, out, abs t.post⟩ hstep

end Run

/-- What `exec` returns is a run on the given events. -/
theorem exec_run
    (M : System σ ε ω) (events : List ε) (s : σ)
    {r : List (Transition σ ε ω) × σ}
    (h : M.exec s events = some r) :
    M.Run s r.1 r.2 ∧ r.1.map Transition.event = events := by
  induction events generalizing s r with
  | nil =>
      have hr : ([], s) = r := by simpa [exec] using h
      subst hr
      exact ⟨.nil, rfl⟩
  | cons e rest ih =>
      cases hstep : M.step s e with
      | blocked => simp [exec, hstep] at h
      | panic => simp [exec, hstep] at h
      | next s' out =>
          simp only [exec, hstep, Option.map_eq_some_iff] at h
          obtain ⟨r', hrest, rfl⟩ := h
          obtain ⟨hrun, hevents⟩ := ih s' hrest
          exact ⟨Run.cons ⟨s, e, out, s'⟩ hstep hrun, by simp [hevents]⟩

/-- What is read off an executed run is read off a run on the given events. -/
theorem run_of_exec
    {β : Type*} {M : System σ ε ω} {s : σ} {events : List ε}
    {f : List (Transition σ ε ω) × σ → β} {b : β}
    (h : (M.exec s events).map f = some b) :
    ∃ tr s', M.Run s tr s' ∧ tr.map Transition.event = events ∧
      f (tr, s') = b := by
  obtain ⟨⟨tr, s'⟩, hr, hend⟩ := Option.map_eq_some_iff.mp h
  obtain ⟨hrun, hevents⟩ := M.exec_run events s hr
  exact ⟨tr, s', hrun, hevents, hend⟩

end System

end Transition

end Kernel
end TurnBasedGame
