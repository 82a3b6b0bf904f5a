import Mathlib.Tactic

/-!
# Framing of a stream

A framing says, for the bytes received so far, whether they begin with a
complete frame and how long that frame is.  The answer must not change when
more bytes arrive, and must depend on the frame alone.  Under these laws the
frames of a stream do not depend on how the stream is cut into chunks: cutting
the frames off the bytes left over from before together with the next chunk
is the same as cutting them off the whole stream at once.
-/

namespace TurnBasedGame
namespace Kernel

universe u

section Framing

/-- A rule that recognizes a complete frame at the front of a stream. -/
structure Framing (α : Type u) where
  /-- Length of the first frame, once it has arrived completely. -/
  cut : List α → Option Nat
  pos : ∀ {w n}, cut w = some n → 0 < n
  le : ∀ {w n}, cut w = some n → n ≤ w.length
  stable : ∀ {w n} (v : List α), cut w = some n → cut (w ++ v) = some n
  self : ∀ {w n}, cut w = some n → cut (w.take n) = some n

variable {α : Type u}

namespace Framing

variable (F : Framing α)

/-- The word is exactly one complete frame. -/
def IsFrame (p : List α) : Prop :=
  F.cut p = some p.length

/-- The word is the beginning of a frame of which something is missing. -/
def IsUnfinished (r : List α) : Prop :=
  ∃ p, F.IsFrame p ∧ r <+: p ∧ r.length < p.length

/-- The frames at the front of a stream, and the bytes left over. -/
def split (w : List α) : List (List α) × List α :=
  match _h : F.cut w with
  | none => ([], w)
  | some n =>
      let r := split (w.drop n)
      (w.take n :: r.1, r.2)
termination_by w.length
decreasing_by
  have hpos := F.pos _h
  have hle := F.le _h
  simp only [List.length_drop]
  omega

variable {F}

theorem split_of_none
    {w : List α}
    (h : F.cut w = none) :
    F.split w = ([], w) := by
  rw [split]
  split
  · rfl
  · rename_i n hsome
    rw [h] at hsome
    cases hsome

theorem split_of_some
    {w : List α} {n : Nat}
    (h : F.cut w = some n) :
    F.split w =
      (w.take n :: (F.split (w.drop n)).1, (F.split (w.drop n)).2) := by
  rw [split]
  split
  · rename_i hnone
    rw [h] at hnone
    cases hnone
  · rename_i m hsome
    rw [h] at hsome
    cases hsome
    rfl

/-- Induction along the frames of a stream. -/
theorem split_induction
    {P : List α → Prop}
    (rest : ∀ w, F.cut w = none → P w)
    (frame : ∀ w n, F.cut w = some n → P (w.drop n) → P w) :
    ∀ w, P w := by
  intro w
  induction hlen : w.length using Nat.strong_induction_on generalizing w with
  | _ k ih =>
      cases hcut : F.cut w with
      | none => exact rest w hcut
      | some n =>
          have hpos := F.pos hcut
          have hle := F.le hcut
          refine frame w n hcut (ih (w.drop n).length ?_ (w.drop n) rfl)
          simp only [List.length_drop]
          omega

/-- Splitting loses, repeats and reorders nothing. -/
theorem split_flatten
    (w : List α) :
    (F.split w).1.flatten ++ (F.split w).2 = w := by
  induction w using split_induction (F := F) with
  | rest w h => simp [split_of_none h]
  | frame w n h ih =>
      rw [split_of_some h]
      simp only [List.flatten_cons, List.append_assoc]
      rw [ih, List.take_append_drop]

/-- What splitting cuts off are complete frames. -/
theorem isFrame_of_mem_split
    (w : List α) :
    ∀ p ∈ (F.split w).1, F.IsFrame p := by
  induction w using split_induction (F := F) with
  | rest w h => simp [split_of_none h]
  | frame w n h ih =>
      rw [split_of_some h]
      intro p hp
      rcases List.mem_cons.mp hp with rfl | hp
      · have hlen : (w.take n).length = n := by
          simp [F.le h]
        rw [IsFrame, hlen]
        exact F.self h
      · exact ih p hp

/-- A stream has at most as many frames as it has letters. -/
theorem split_length_le
    (w : List α) :
    (F.split w).1.length ≤ w.length := by
  induction w using split_induction (F := F) with
  | rest w h => simp [split_of_none h]
  | frame w n h ih =>
      have hpos := F.pos h
      have hle := F.le h
      rw [split_of_some h]
      simp only [List.length_cons, List.length_drop] at ih ⊢
      omega

/-- A complete frame at the front is recognized whatever follows it. -/
theorem IsFrame.cut_append
    {p : List α}
    (hp : F.IsFrame p)
    (v : List α) :
    F.cut (p ++ v) = some p.length :=
  F.stable v hp

/-- No frame is recognized in the beginning of an unfinished one. -/
theorem IsUnfinished.cut_eq_none
    {r : List α}
    (hr : F.IsUnfinished r) :
    F.cut r = none := by
  obtain ⟨p, hp, ⟨v, rfl⟩, hlt⟩ := hr
  cases hcut : F.cut r with
  | none => rfl
  | some n =>
      have hle := F.le hcut
      have hfull : F.cut (r ++ v) = some n := F.stable v hcut
      rw [hp] at hfull
      have hn : (r ++ v).length = n := Option.some.inj hfull
      omega

/-- A sequence of frames and a rest without one split in the only way. -/
theorem split_frames
    {ps : List (List α)} {r : List α}
    (hps : ∀ p ∈ ps, F.IsFrame p)
    (hr : F.cut r = none) :
    F.split (ps.flatten ++ r) = (ps, r) := by
  induction ps with
  | nil => simpa using split_of_none hr
  | cons p rest ih =>
      have hp : F.IsFrame p := hps p (by simp)
      have hrest := ih (fun q hq => hps q (List.mem_cons_of_mem _ hq))
      have hcut : F.cut (p ++ (rest.flatten ++ r)) = some p.length :=
        hp.cut_append _
      rw [List.flatten_cons, List.append_assoc, split_of_some hcut]
      simp [hrest]

/--
Frames do not depend on where the stream is cut: splitting the left-over
bytes together with the next chunk continues the splitting of the stream.
-/
theorem split_append
    (w v : List α) :
    F.split (w ++ v) =
      ((F.split w).1 ++ (F.split ((F.split w).2 ++ v)).1,
        (F.split ((F.split w).2 ++ v)).2) := by
  induction w using split_induction (F := F) with
  | rest w h => simp [split_of_none h]
  | frame w n h ih =>
      have hle := F.le h
      rw [split_of_some (F.stable v h), split_of_some h]
      rw [List.take_append_of_le_length hle,
        List.drop_append_of_le_length hle, ih]
      simp

end Framing

/--
Start of the frame a stream position lies in, for frames of the given
lengths: the last frame boundary at or before the position.
-/
def frameStart : List Nat → Nat → Nat
  | [], _ => 0
  | l :: rest, i => if l ≤ i then l + frameStart rest (i - l) else 0

namespace Framing

variable {F : Framing α}

/--
A beginning of a stream of frames splits into the frames it contains
completely and an unfinished one, which starts at the last frame boundary.
-/
theorem split_beginning
    {ps : List (List α)} {r w : List α}
    (hps : ∀ p ∈ ps, F.IsFrame p)
    (hr : F.IsUnfinished r)
    (hw : w <+: ps.flatten ++ r) :
    F.IsUnfinished (F.split w).2 ∧
      (F.split w).1.flatten.length =
        frameStart (ps.map List.length) w.length := by
  induction ps generalizing w with
  | nil =>
      have hunf : F.IsUnfinished w := by
        obtain ⟨p, hp, hpre, hlt⟩ := hr
        have hwr : w <+: r := by simpa using hw
        exact ⟨p, hp, hwr.trans hpre, by have := hwr.length_le; omega⟩
      rw [split_of_none hunf.cut_eq_none]
      exact ⟨hunf, by simp [frameStart]⟩
  | cons p rest ih =>
      have hp : F.IsFrame p := hps p (by simp)
      have hrest : ∀ q ∈ rest, F.IsFrame q :=
        fun q hq => hps q (List.mem_cons_of_mem _ hq)
      rw [List.flatten_cons, List.append_assoc] at hw
      by_cases hlen : p.length ≤ w.length
      · -- the whole first frame has arrived
        obtain ⟨w', rfl⟩ : p <+: w :=
          List.prefix_of_prefix_length_le (List.prefix_append _ _) hw hlen
        have hw' : w' <+: rest.flatten ++ r :=
          (List.prefix_append_right_inj p).mp hw
        obtain ⟨hunf, hstart⟩ := ih hrest hw'
        rw [split_of_some (hp.cut_append w')]
        simp only [List.drop_left, List.take_left, List.map_cons,
          frameStart, List.length_append, List.flatten_cons]
        refine ⟨hunf, ?_⟩
        rw [if_pos (by omega), hstart, Nat.add_sub_cancel_left]
      · -- the first frame is still unfinished
        have hwp : w <+: p :=
          List.prefix_of_prefix_length_le hw (List.prefix_append _ _)
            (by omega)
        have hunf : F.IsUnfinished w := ⟨p, hp, hwp, by omega⟩
        rw [split_of_none hunf.cut_eq_none]
        refine ⟨hunf, ?_⟩
        simp [frameStart, hlen]

/-- No bytes contain no frame. -/
theorem cut_nil :
    F.cut [] = none := by
  by_contra hne
  obtain ⟨n, hn⟩ := Option.ne_none_iff_exists'.mp hne
  have hpos := F.pos hn
  have hle : n ≤ 0 := F.le hn
  omega

/-- Frames in front are split off, whatever follows. -/
theorem split_frames_append
    {ps : List (List α)}
    (hps : ∀ p ∈ ps, F.IsFrame p)
    (w : List α) :
    F.split (ps.flatten ++ w) = (ps ++ (F.split w).1, (F.split w).2) := by
  have hall : F.split ps.flatten = (ps, []) := by
    simpa using split_frames hps F.cut_nil
  rw [split_append, hall]
  simp

end Framing

end Framing

end Kernel
end TurnBasedGame
