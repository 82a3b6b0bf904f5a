import TurnBasedGame.Web.StageCoverage

/-!
# What is seen on the canvas

Images are drawn one over the other.  At each point of the canvas `draw` has
drawn every layer of the backdrop once, from the first to the last, and over
them at most one tile; below the stage there is one tile and nothing else.  So
the counting loops, which agree neither on their starts nor on their ends, draw
nothing twice.
-/

namespace TurnBasedGame
namespace Web

open Kernel

section Screen

open Classical in
/-- The image a call draws over a point, if it does. -/
noncomputable def imageAt (p : ℝ × ℝ) (c : DrawImage) : Option Image :=
  if p ∈ c.region then some c.image else none

/-- The images the calls draw over a point, from the lowest to the topmost. -/
noncomputable def seen (p : ℝ × ℝ) (calls : List DrawImage) : List Image :=
  calls.filterMap (imageAt p)

/-- The points of the canvas. -/
def DisplayDriver.points (d : DisplayDriver) : Set (ℝ × ℝ) :=
  Set.Ico (0 : ℝ) d.canvas.width ×ˢ Set.Ico (0 : ℝ) d.canvas.height

/-- What belongs at a height of the canvas. -/
noncomputable def scenery (d : DisplayDriver)
    (floorTile undergroundTile : Tile) (v : ℝ) : List Image :=
  if v < d.ctxHeight - floorTile.size.y * d.scale then
    d.backDrop.layers
  else if v < d.ctxHeight then
    d.backDrop.layers ++ [floorTile.tile]
  else
    [undergroundTile.tile]

theorem seen_append
    (p : ℝ × ℝ) (calls calls' : List DrawImage) :
    seen p (calls ++ calls') = seen p calls ++ seen p calls' :=
  List.filterMap_append

theorem mem_seen
    {p : ℝ × ℝ} {calls : List DrawImage} {c : DrawImage}
    (hc : c ∈ calls)
    (hp : p ∈ c.region) :
    c.image ∈ seen p calls :=
  List.mem_filterMap.mpr ⟨c, hc, if_pos hp⟩

/-- A single image that is seen is all that is seen. -/
theorem eq_singleton_of_mem
    {l : List Image} {image : Image}
    (hlength : l.length ≤ 1)
    (hmem : image ∈ l) :
    l = [image] := by
  obtain ⟨other, rfl⟩ := List.length_eq_one_iff.mp
    (Nat.le_antisymm hlength (List.length_pos_of_mem hmem))
  rw [List.mem_singleton.mp hmem]

section Calls

variable {d : DisplayDriver} {n m : ℤ} {fuel : Nat} {p : ℝ × ℝ}

/-- One call with the width of the step of its loop. -/
theorem once_of_call
    (d : DisplayDriver) (p : ℝ × ℝ) {image : Image} {y width height : Number} :
    OncePerTile (imageAt p) (Rat.castHom ℝ : ℚ →+ ℝ) (p.1 - d.xOffset) width
      (fun x => some [⟨image, d.cX x, y, width, height⟩]) := by
  rintro x o ⟨⟩
  refine ⟨List.length_filterMap_le _ _, fun hout => ?_⟩
  have hregion : p ∉ DrawImage.region ⟨image, d.cX x, y, width, height⟩ := by
    rintro ⟨⟨hle, hlt⟩, -⟩
    simp only [DisplayDriver.cX, Rat.cast_add] at hle hlt
    exact hout ⟨le_sub_iff_add_le'.mpr hle, by
      change p.1 - _ < (x : ℝ) + width
      linarith⟩
  rw [List.filterMap_cons, imageAt, if_neg hregion, List.filterMap_nil]

/-- Whatever a row draws lies in its height. -/
theorem imageAt_drawRow_none
    {tile : Tile} {y : Number} {calls : List DrawImage}
    (hrow : d.drawRow fuel tile y = some calls)
    (hv : p.2 ∉ Set.Ico (y : ℝ) (y + (tile.size.y * d.scale : Number))) :
    seen p calls = [] := by
  refine List.filterMap_eq_nil_iff.mpr fun c hc => if_neg ?_
  obtain ⟨k, o, -, ho, hc⟩ := mem_forLoop hrow hc
  cases ho
  rw [List.mem_singleton.mp hc]
  exact fun hp => hv hp.2

/-- No two tiles of a row are drawn over the same point. -/
theorem seen_drawRow_length_le
    {tile : Tile}
    (hstep : 0 < tile.size.x * d.scale) {y : Number} {calls : List DrawImage}
    (hrow : d.drawRow fuel tile y = some calls) :
    (seen p calls).length ≤ 1 := by
  have hwide : (0 : ℝ) < (tile.size.x * d.scale : Number) :=
    Rat.cast_pos.mpr hstep
  exact forLoop_filterMap_length_le hrow hwide (once_of_call d p)

/-- A row draws its tile once over each point of the canvas in its height. -/
theorem seen_drawRow
    (h : Fitted d n m)
    {tile : Tile}
    (hsize : tile.size = ⟨21, 21⟩) {y : Number} {calls : List DrawImage}
    (hrow : d.drawRow fuel tile y = some calls)
    (ht : p.1 ∈ Set.Ico (0 : ℝ) (d.canvas.width : ℝ))
    (hv : p.2 ∈ Set.Ico (y : ℝ) (y + (tile.size.y * d.scale : Number))) :
    seen p calls = [tile.tile] := by
  have hstep : 0 < tile.size.x * d.scale := by
    rw [hsize]
    exact mul_pos (by norm_num) h.stage_pos.1
  obtain ⟨c, hc, himage, hy, hheight, hcover⟩ :=
    drawRow_point h (by rw [hsize]; rfl) (by norm_num : (0 : ℤ) < 21) hrow ht
  have hp : p ∈ c.region := ⟨hcover, by rw [hy, hheight]; exact hv⟩
  exact eq_singleton_of_mem (seen_drawRow_length_le hstep hrow)
    (himage ▸ mem_seen hc hp)

/-- The rows of the underground draw one tile over each point below the stage. -/
theorem seen_underground
    (h : Fitted d n m)
    {floorTile undergroundTile : Tile}
    (htiles : Laid d floorTile undergroundTile) {underground : List DrawImage}
    (hunder : forLoop (fun y => decide (y ≤ d.canvas.height))
      (undergroundTile.size.y * d.scale)
      (fun y => d.drawRow fuel undergroundTile y)
      fuel d.ctxHeight = some underground)
    (hp : p ∈ d.points) :
    seen p underground =
      if p.2 < d.ctxHeight then [] else [undergroundTile.tile] := by
  have hsize := htiles.undergroundSize
  have hstepx : 0 < undergroundTile.size.x * d.scale := by
    rw [hsize]
    exact mul_pos (by norm_num) h.stage_pos.1
  have hstepy : 0 < undergroundTile.size.y * d.scale := by
    rw [hsize]
    exact mul_pos (by norm_num) h.stage_pos.1
  have hrows : OncePerTile (imageAt p) (Rat.castHom ℝ : ℚ →+ ℝ) p.2
      (undergroundTile.size.y * d.scale)
      (fun y => d.drawRow fuel undergroundTile y) :=
    fun y o ho => ⟨seen_drawRow_length_le hstepx ho,
      fun hv => imageAt_drawRow_none ho hv⟩
  have hstep : (0 : ℝ) < (undergroundTile.size.y * d.scale : Number) :=
    Rat.cast_pos.mpr hstepy
  split
  case isTrue habove =>
    exact forLoop_filterMap_nil hunder hstep hrows habove
  case isFalse hbelow =>
    obtain ⟨c, hc, himage, hregion⟩ := underground_point h htiles hunder hp.1
      ⟨not_lt.mp hbelow, hp.2.2⟩
    exact eq_singleton_of_mem
      (forLoop_filterMap_length_le hunder hstep hrows)
      (himage ▸ mem_seen hc hregion)

/-- The iterations for a layer draw it once over each point of the stage. -/
theorem seen_layer
    (h : Fitted d n m)
    {layer : Image} {out : List DrawImage}
    (hlayer : forLoop (fun x => decide (x ≤
        (⌊d.canvas.width / d.ctxWidth⌋ : Number) * d.ctxWidth)) d.ctxWidth
      (fun x => some [⟨layer, d.cX x, 0, d.ctxWidth, d.ctxHeight⟩])
      fuel (0 - (⌊d.canvas.width / d.ctxWidth⌋ : Number) * d.ctxWidth) =
        some out)
    (ht : p.1 ∈ Set.Ico (0 : ℝ) (d.canvas.width : ℝ))
    (hv : 0 ≤ p.2) :
    seen p out = if p.2 < d.ctxHeight then [layer] else [] := by
  have hstep : (0 : ℝ) < (d.ctxWidth : ℝ) := Rat.cast_pos.mpr h.stage_pos.2
  split
  case isTrue hstage =>
    -- the same iterations draw a backdrop of this layer alone
    have halone : { d with backDrop := ⟨[layer]⟩ }.drawBackDrop fuel =
        some out := by
      simp only [DisplayDriver.cX] at hlayer
      simp only [DisplayDriver.drawBackDrop, DisplayDriver.cX, forEach, bind,
        pure, hlayer, Option.bind_some, List.append_nil]
    have hfitted : Fitted { d with backDrop := ⟨[layer]⟩ } n m :=
      ⟨h.scale, h.scale_pos, h.ctxWidth, h.width, h.margin, h.xOffset⟩
    obtain ⟨c, hc, himage, hy, hheight, hcover⟩ :=
      drawBackDrop_point hfitted halone (List.mem_singleton_self layer) ht
    have hp : p ∈ c.region := by
      refine ⟨hcover, ?_⟩
      rw [hy, hheight]
      simpa using And.intro hv hstage
    exact eq_singleton_of_mem
      (forLoop_filterMap_length_le hlayer hstep (once_of_call d p))
      (himage ▸ mem_seen hc hp)
  case isFalse hbelow =>
    refine List.filterMap_eq_nil_iff.mpr fun c hc => if_neg ?_
    obtain ⟨k, o, -, ho, hc⟩ := mem_forLoop hlayer hc
    cases ho
    rw [List.mem_singleton.mp hc]
    exact fun hp => hbelow (by simpa using hp.2.2)

/-- The layers are drawn over each point of the stage, in their order. -/
theorem seen_drawBackDrop
    (h : Fitted d n m)
    {calls : List DrawImage}
    (hback : d.drawBackDrop fuel = some calls)
    (ht : p.1 ∈ Set.Ico (0 : ℝ) (d.canvas.width : ℝ))
    (hv : 0 ≤ p.2) :
    seen p calls =
      if p.2 < d.ctxHeight then d.backDrop.layers else [] := by
  rw [seen, forEach_filterMap hback
    (fun layer _ out hlayer => seen_layer h hlayer ht hv)]
  split
  · exact List.flatMap_singleton' _
  · simp

/-- What `draw` draws over a point is what belongs at its height. -/
theorem seen_draw
    (h : Fitted d n m)
    {floorTile undergroundTile : Tile}
    (htiles : Laid d floorTile undergroundTile)
    {time : Number} {calls : List DrawImage}
    (hdraw : d.draw fuel time = some calls)
    (hp : p ∈ d.points) :
    seen p calls = scenery d floorTile undergroundTile p.2 := by
  simp only [draw_eq htiles, Option.bind_eq_some_iff] at hdraw
  obtain ⟨backDrop, hback, floor, hfloor, underground, hunder, heq⟩ := hdraw
  cases heq
  have hbackSeen := seen_drawBackDrop h hback hp.1 hp.2.1
  have hunderSeen := seen_underground h htiles hunder hp
  have hbottom : (((d.ctxHeight - floorTile.size.y * d.scale : Number)) : ℝ) +
      (floorTile.size.y * d.scale : Number) = d.ctxHeight := by
    push_cast
    ring
  have htop : ((d.ctxHeight - floorTile.size.y * d.scale : Number) : ℝ) =
      d.ctxHeight - floorTile.size.y * d.scale := by
    push_cast
    ring
  have hpos : (0 : ℝ) < floorTile.size.y * d.scale := by
    rw [htiles.floorSize]
    exact mul_pos (by norm_num) (Rat.cast_pos.mpr h.stage_pos.1)
  rw [seen_append, seen_append, hbackSeen, hunderSeen, scenery]
  split
  case isTrue hstage =>
    by_cases hfloorTop : p.2 < d.ctxHeight - floorTile.size.y * d.scale
    · rw [if_pos hfloorTop, imageAt_drawRow_none hfloor, List.append_nil,
        List.append_nil]
      rw [htop]
      exact fun hv => absurd hv.1 (not_le.mpr hfloorTop)
    · rw [if_neg hfloorTop, seen_drawRow h htiles.floorSize hfloor hp.1,
        List.append_nil]
      rw [hbottom, htop]
      exact ⟨not_lt.mp hfloorTop, hstage⟩
  case isFalse hbelow =>
    rw [if_neg fun hfloorTop => hbelow (by linarith),
      imageAt_drawRow_none hfloor]
    · rfl
    · rw [hbottom]
      exact fun hv => hbelow hv.2

end Calls

end Screen

end Web
end TurnBasedGame
