import Mathlib.Algebra.Order.Archimedean.Real.Basic
import TurnBasedGame.Web.DisplayDriver

/-!
# The stage fills the canvas

After `resize` the stage is a whole number of times as large as its base, the
canvas is at least as large, and the margin between them is an integer of
which the offset is half.  From these facts alone it follows that the layers
of the backdrop and the rows of tiles, which count their tiles in different
ways, leave no point of the canvas out.
-/

namespace TurnBasedGame
namespace Web

open Kernel

section StageCoverage

/-- What no call of `resize` changes. -/
structure Stocked (d : DisplayDriver) : Prop where
  baseWidth : d.baseWidth = 320
  baseHeight : d.baseHeight = 180
  backDrop : d.backDrop = newBackDrop jungleBackground
  tileSet : d.tileSet = newTileSet jungleTiles

/-- The measures of a driver after `resize`, with `n` as scale and margin `m`. -/
structure Fitted (d : DisplayDriver) (n m : ℤ) : Prop where
  scale : d.scale = n
  scale_pos : 0 < n
  ctxWidth : d.ctxWidth = (n * 320 : ℤ)
  width : d.canvas.width = d.ctxWidth + m
  margin : 0 ≤ m
  xOffset : d.xOffset = (m / 2 : ℤ)

/-- The points an image is drawn over. -/
def DrawImage.region (c : DrawImage) : Set (ℝ × ℝ) :=
  Set.Ico (c.x : ℝ) (c.x + c.width) ×ˢ Set.Ico (c.y : ℝ) (c.y + c.height)

/-- The points the calls draw one of the images over. -/
def drawn (calls : List DrawImage) (images : Set Image) : Set (ℝ × ℝ) :=
  {p | ∃ c ∈ calls, c.image ∈ images ∧ p ∈ c.region}

/-- The points of a row, at height `y`, that the calls draw an image over. -/
def rowDrawn (calls : List DrawImage) (image : Image) (y : Number) : Set ℝ :=
  {t | ∃ c ∈ calls, c.image = image ∧ c.y = y ∧
    t ∈ Set.Ico (c.x : ℝ) (c.x + c.width)}

/--
The calls leave no gap on the canvas: each layer of the backdrop covers the
stage over the whole width, the floor and all rows of the underground cover
the width, and backdrop and underground together cover everything.
-/
structure FillsCanvas (d : DisplayDriver) (floorTile undergroundTile : Tile)
    (calls : List DrawImage) : Prop where
  backDrop : ∀ layer ∈ d.backDrop.layers,
    Set.Ico (0 : ℝ) d.canvas.width ×ˢ Set.Ico (0 : ℝ) d.ctxHeight ⊆
      drawn calls {layer}
  floor : Set.Ico (0 : ℝ) d.canvas.width ⊆
    rowDrawn calls floorTile.tile
      (d.ctxHeight - floorTile.size.y * d.scale)
  underground : ∀ k : Nat,
    d.ctxHeight + k * (undergroundTile.size.y * d.scale) ≤ d.canvas.height →
      Set.Ico (0 : ℝ) d.canvas.width ⊆
        rowDrawn calls undergroundTile.tile
          (d.ctxHeight + k * (undergroundTile.size.y * d.scale))
  noOtherRow : ∀ c ∈ calls, c.image = undergroundTile.tile →
    ∃ k : Nat, c.y = d.ctxHeight + k * (undergroundTile.size.y * d.scale) ∧
      c.y ≤ d.canvas.height
  canvas : Set.Ico (0 : ℝ) d.canvas.width ×ˢ
      Set.Ico (0 : ℝ) d.canvas.height ⊆
    drawn calls {image | image ∈ d.backDrop.layers ∨
      image = undergroundTile.tile}

/-- The two tiles the stage is made of, and what tells the underground apart. -/
structure Laid (d : DisplayDriver) (floorTile undergroundTile : Tile) :
    Prop where
  floor : d.tileSet 1 = some floorTile
  underground : d.tileSet 2 = some undergroundTile
  floorSize : floorTile.size = ⟨21, 21⟩
  undergroundSize : undergroundTile.size = ⟨21, 21⟩
  tiles_ne : undergroundTile.tile ≠ floorTile.tile
  not_layer : undergroundTile.tile ∉ d.backDrop.layers
  layers_ne : d.backDrop.layers ≠ []

/-- A canvas size of at least zero is rounded down. -/
theorem truncate_eq
    {x : Number}
    (h : 0 ≤ x) :
    truncate x = ⌊x⌋ := by
  rw [truncate, if_pos h]

theorem stocked_resize
    {d : DisplayDriver}
    (h : Stocked d) (box : BoundingBox) :
    Stocked (d.resize box) :=
  ⟨h.baseWidth, h.baseHeight, h.backDrop, h.tileSet⟩

theorem laid_of_stocked
    {d : DisplayDriver}
    (h : Stocked d) :
    ∃ floorTile undergroundTile, Laid d floorTile undergroundTile := by
  refine ⟨_, _, ⟨by rw [h.tileSet]; rfl, by rw [h.tileSet]; rfl, rfl, rfl,
    by decide, ?_, ?_⟩⟩
  · rw [h.backDrop]
    decide
  · rw [h.backDrop]
    decide

/-- The scale is at least one, and the scaled stage no wider than the box. -/
theorem scale_fits
    {width height : Number}
    (hwidth : 320 ≤ width)
    (hheight : 180 ≤ height) :
    0 < ⌊min (width / 320) (height / 180)⌋ ∧
      ⌊min (width / 320) (height / 180)⌋ * 320 ≤ ⌊width⌋ := by
  constructor
  · have hone : (1 : ℤ) ≤ ⌊min (width / 320) (height / 180)⌋ := by
      rw [Int.le_floor, Int.cast_one]
      exact le_min ((one_le_div (by norm_num)).mpr hwidth)
        ((one_le_div (by norm_num)).mpr hheight)
    omega
  · have hfloor : (⌊min (width / 320) (height / 180)⌋ : ℚ) ≤ width / 320 :=
      (Int.floor_le _).trans (min_le_left _ _)
    rw [le_div_iff₀ (by norm_num)] at hfloor
    rw [Int.le_floor]
    exact_mod_cast hfloor

/-- The offset is half of the margin left by the truncated width. -/
theorem floor_half_margin
    (width : Number) (stage : ℤ) :
    ⌊(width - stage) / 2⌋ = (⌊width⌋ - stage) / 2 := by
  have hdiv := Int.floor_div_natCast (width - stage) 2
  rw [Int.floor_sub_intCast] at hdiv
  exact_mod_cast hdiv

/-- `resize` fits the stage into the canvas, whatever the box is. -/
theorem fitted_resize
    {d : DisplayDriver}
    (h : Stocked d) (box : BoundingBox) :
    ∃ n m, Fitted (d.resize box) n m := by
  set width : Number := max box.width 320 with hwidth
  set height : Number := max box.height 180 with hheight
  set n : ℤ := ⌊min (width / 320) (height / 180)⌋ with hn
  have hmin : (320 : ℚ) ≤ width := le_max_right _ _
  have hminHeight : (180 : ℚ) ≤ height := le_max_right _ _
  obtain ⟨hpos, hfits⟩ := scale_fits hmin hminHeight
  have hhalf := floor_half_margin width (n * 320)
  have hresize : d.resize box =
      { d with
        ctxWidth := n * 320
        ctxHeight := n * 180
        scale := n
        canvas := ⟨truncate width, truncate height⟩
        xOffset := ⌊(width - n * 320) / 2⌋
        yOffset := ⌊(height - n * 180) / 2⌋ } := by
    simp only [DisplayDriver.resize, h.baseWidth, h.baseHeight, hn, hwidth,
      hheight]
  push_cast at hhalf
  rw [hresize]
  refine ⟨n, ⌊width⌋ - n * 320, ⟨rfl, hpos, by push_cast; rfl, ?_,
    by omega, by simp only [hhalf]⟩⟩
  simp only [truncate_eq (show 0 ≤ width by linarith)]
  push_cast
  ring

section Points

variable {d : DisplayDriver} {n m : ℤ} {fuel : Nat}

/--
A real point that a counting loop does not stop before lies in the tile of one
of its iterations.
-/
theorem forLoop_point
    {cond : Number → Bool} {step x : Number}
    {body : Number → Option (List DrawImage)} {calls : List DrawImage}
    (h : forLoop cond step body fuel x = some calls)
    (hstep : 0 < step) {t : ℝ}
    (hx : (x : ℝ) ≤ t)
    (hcond : ∀ k : Nat, (x + k * step : ℝ) ≤ t →
      cond (x + k * step) = true) :
    ∃ (y : Number) (o : List DrawImage), (y : ℝ) ≤ t ∧ t < y + step ∧
      body y = some o ∧ ∀ c ∈ o, c ∈ calls := by
  have hstep' : (0 : ℝ) < ((step : ℚ) : ℝ) := by exact_mod_cast hstep
  refine forLoop_tile h (Rat.castHom ℝ : ℚ →+ ℝ) hstep' hx fun k hk => ?_
  rw [nsmul_eq_mul] at hk ⊢
  exact hcond k hk

theorem Fitted.stage_pos
    (h : Fitted d n m) :
    0 < d.scale ∧ 0 < d.ctxWidth := by
  have := h.scale_pos
  rw [h.scale, h.ctxWidth]
  exact ⟨by exact_mod_cast h.scale_pos,
    by exact_mod_cast (by omega : 0 < n * 320)⟩

/-- The canvas is wider than the stage by the margin, also in real numbers. -/
theorem Fitted.width_real
    (h : Fitted d n m) :
    (d.canvas.width : ℝ) = d.ctxWidth + m := by
  rw [h.width]
  push_cast
  ring

theorem Fitted.xOffset_real
    (h : Fitted d n m) :
    (d.xOffset : ℝ) = (m / 2 : ℤ) := by
  rw [h.xOffset, Rat.cast_intCast]

/-- `cX` moves a tile of the stage to where it is drawn. -/
theorem cX_covers
    (d : DisplayDriver) {x w : Number} {t : ℝ}
    (hle : (x : ℝ) ≤ t - d.xOffset)
    (hlt : t - d.xOffset < x + w) :
    t ∈ Set.Ico (d.cX x : ℝ) (d.cX x + w) := by
  have hcast : (d.cX x : ℝ) = d.xOffset + x := by
    rw [DisplayDriver.cX, Rat.cast_add]
  rw [hcast]
  constructor <;> linarith

/-- A row of tiles of integer width leaves out no point of the canvas. -/
theorem drawRow_point
    (h : Fitted d n m)
    {tile : Tile} {s : ℤ}
    (hsize : tile.size.x = s)
    (hs : 0 < s) {y : Number} {calls : List DrawImage}
    (hrow : d.drawRow fuel tile y = some calls) {t : ℝ}
    (ht : t ∈ Set.Ico (0 : ℝ) (d.canvas.width : ℝ)) :
    ∃ c ∈ calls, c.image = tile.tile ∧ c.y = y ∧
      c.height = tile.size.y * d.scale ∧
      t ∈ Set.Ico (c.x : ℝ) (c.x + c.width) := by
  -- the tiles to the left of the stage are an integer wide, and so reach
  -- over the larger half of the margin too
  set z : ℤ := ⌈(d.canvas.width - d.ctxWidth) / 2 / (s * n)⌉ * s * n with hz
  have hstep : 0 < s * n := mul_pos hs h.scale_pos
  have hreach : m ≤ 2 * z := by
    have hceil := Int.le_ceil
      ((d.canvas.width - d.ctxWidth) / 2 / ((s : ℚ) * n))
    have hpos : (0 : ℚ) < s * n := by exact_mod_cast hstep
    rw [div_le_iff₀ hpos, h.width] at hceil
    have hcast : (m : ℚ) ≤ 2 * (z : ℚ) := by
      rw [hz]
      push_cast
      rw [h.width]
      linarith
    exact_mod_cast hcast
  have hleft : ((m / 2 : ℤ) : ℝ) ≤ z := by exact_mod_cast (by omega : m / 2 ≤ z)
  have hright : (m : ℝ) - (m / 2 : ℤ) ≤ z := by
    exact_mod_cast (by omega : m - m / 2 ≤ z)
  have hoffset := h.xOffset_real
  have hwidth := h.width_real
  have hwide : ⌈(d.canvas.width - d.ctxWidth) / 2 / (tile.size.x * d.scale)⌉ *
      tile.size.x * d.scale = (z : ℚ) := by
    rw [hsize, h.scale, hz]
    push_cast
    ring
  simp only [DisplayDriver.drawRow, hwide] at hrow
  have htile : 0 < tile.size.x * d.scale := by
    rw [hsize, h.scale]
    exact_mod_cast hstep
  have hfrom : ((0 - z : ℚ) : ℝ) ≤ t - d.xOffset := by
    push_cast
    linarith [ht.1]
  obtain ⟨x, o, hle, hlt, ho, hmem⟩ :=
    forLoop_point hrow htile hfrom fun k hk => by
      rw [decide_eq_true_iff]
      have hend : (t - d.xOffset : ℝ) < ((d.ctxWidth + z : ℚ) : ℝ) := by
        push_cast
        linarith [ht.2]
      exact_mod_cast hk.trans_lt hend
  cases ho
  exact ⟨_, hmem _ (List.mem_singleton_self _), rfl, rfl, rfl,
    cX_covers d hle hlt⟩

/-- A layer of the backdrop leaves out no point of the canvas. -/
theorem drawBackDrop_point
    (h : Fitted d n m)
    {calls : List DrawImage}
    (hback : d.drawBackDrop fuel = some calls) {layer : Image}
    (hlayer : layer ∈ d.backDrop.layers) {t : ℝ}
    (ht : t ∈ Set.Ico (0 : ℝ) (d.canvas.width : ℝ)) :
    ∃ c ∈ calls, c.image = layer ∧ c.y = 0 ∧ c.height = d.ctxHeight ∧
      t ∈ Set.Ico (c.x : ℝ) (c.x + c.width) := by
  set o : ℤ := ⌊d.canvas.width / d.ctxWidth⌋ with ho
  obtain ⟨-, hstage⟩ := h.stage_pos
  have hcanvas : d.canvas.width < (o + 1) * d.ctxWidth :=
    (div_lt_iff₀ hstage).mp (Int.lt_floor_add_one _)
  have hwidth : (d.canvas.width : ℝ) < (o + 1) * d.ctxWidth := by
    exact_mod_cast hcanvas
  have hmargin := h.width_real
  have hoffset : (0 : ℝ) ≤ d.xOffset ∧ (d.xOffset : ℝ) ≤ m := by
    rw [h.xOffset_real]
    have := h.margin
    exact ⟨by exact_mod_cast (by omega : 0 ≤ m / 2),
      by exact_mod_cast (by omega : m / 2 ≤ m)⟩
  obtain ⟨out, hout, hmem⟩ := forEach_body hback hlayer
  have hfrom : ((0 - o * d.ctxWidth : ℚ) : ℝ) ≤ t - d.xOffset := by
    push_cast
    linarith [ht.1]
  obtain ⟨x, o', hle, hlt, ho', hmem'⟩ :=
    forLoop_point hout hstage hfrom fun k hk => by
      rw [decide_eq_true_iff]
      have hbefore : 0 - o * d.ctxWidth + k * d.ctxWidth <
          (o + 1) * d.ctxWidth := by
        have hreal : ((0 - o * d.ctxWidth : ℚ) : ℝ) + k * d.ctxWidth <
            (o + 1) * d.ctxWidth := by
          linarith [ht.2]
        exact_mod_cast hreal
      -- the iterations start a whole number of stages apart
      have hcount : (k : ℤ) - o ≤ o := by
        have hlattice : ((k : ℤ) - o : ℤ) * d.ctxWidth <
            ((o + 1 : ℤ) : ℚ) * d.ctxWidth := by
          push_cast
          linarith
        have hless := lt_of_mul_lt_mul_right hlattice hstage.le
        exact Int.lt_add_one_iff.mp (by exact_mod_cast hless)
      have hlast : (((k : ℤ) - o : ℤ) : ℚ) * d.ctxWidth ≤ o * d.ctxWidth :=
        mul_le_mul_of_nonneg_right (by exact_mod_cast hcount) hstage.le
      push_cast at hlast
      linarith
  cases ho'
  exact ⟨_, hmem _ (hmem' _ (List.mem_singleton_self _)), rfl, rfl, rfl,
    cX_covers d hle hlt⟩

/-- Whatever a row draws is its tile. -/
theorem mem_drawRow
    {tile : Tile} {y : Number} {calls : List DrawImage}
    (hrow : d.drawRow fuel tile y = some calls) {c : DrawImage}
    (hc : c ∈ calls) :
    c.image = tile.tile ∧ c.y = y := by
  obtain ⟨k, o, -, ho, hc⟩ := mem_forLoop hrow hc
  cases ho
  rw [List.mem_singleton.mp hc]
  exact ⟨rfl, rfl⟩

/-- Whatever the backdrop draws is one of its layers. -/
theorem mem_drawBackDrop
    {calls : List DrawImage}
    (hback : d.drawBackDrop fuel = some calls) {c : DrawImage}
    (hc : c ∈ calls) :
    c.image ∈ d.backDrop.layers := by
  obtain ⟨layer, hlayer, out, hout, hc⟩ := mem_forEach hback hc
  obtain ⟨k, o, -, ho, hc⟩ := mem_forLoop hout hc
  cases ho
  rwa [List.mem_singleton.mp hc]

/-- What `draw` does, once both tiles are there. -/
theorem draw_eq
    {floorTile undergroundTile : Tile}
    (h : Laid d floorTile undergroundTile) (fuel : Nat) (time : Number) :
    d.draw fuel time =
      (d.drawBackDrop fuel).bind fun backDrop =>
      (d.drawRow fuel floorTile
        (d.ctxHeight - floorTile.size.y * d.scale)).bind fun floor =>
      (forLoop (fun y => decide (y ≤ d.canvas.height))
        (undergroundTile.size.y * d.scale)
        (fun y => d.drawRow fuel undergroundTile y)
        fuel d.ctxHeight).bind fun underground =>
      some (backDrop ++ (floor ++ underground)) := by
  simp only [DisplayDriver.draw, DisplayDriver.drawStage, h.floor,
    h.underground, bind, pure, Option.bind_some, Option.bind_assoc]

theorem drawRow_terminates
    {tile : Tile}
    (hstep : 0 < tile.size.x * d.scale) (y : Number) :
    Terminates (fun fuel => d.drawRow fuel tile y) :=
  forLoop_terminates hstep
    (fun _ hx => (decide_eq_true_iff.mp hx).le)
    (fun _ => terminates_some _) _

theorem drawBackDrop_terminates
    (hstep : 0 < d.ctxWidth) :
    Terminates (fun fuel => d.drawBackDrop fuel) :=
  forEach_terminates _ fun _ =>
    forLoop_terminates hstep
      (fun _ hx => decide_eq_true_iff.mp hx)
      (fun _ => terminates_some _) _

theorem draw_terminates
    (h : Fitted d n m)
    {floorTile undergroundTile : Tile}
    (htiles : Laid d floorTile undergroundTile) (time : Number) :
    Terminates (fun fuel => d.draw fuel time) := by
  obtain ⟨hscale, hstage⟩ := h.stage_pos
  have hfloor : 0 < floorTile.size.x * d.scale := by
    rw [htiles.floorSize]
    exact mul_pos (by norm_num) hscale
  have hunderground : ∀ side, side = undergroundTile.size.x ∨
      side = undergroundTile.size.y → 0 < side * d.scale := by
    rw [htiles.undergroundSize]
    rintro side (rfl | rfl) <;> exact mul_pos (by norm_num) hscale
  simp only [draw_eq htiles]
  exact (drawBackDrop_terminates hstage).bind fun _ =>
    (drawRow_terminates hfloor _).bind fun _ =>
    (forLoop_terminates (hunderground _ (.inr rfl))
      (fun _ hy => decide_eq_true_iff.mp hy)
      (fun y => drawRow_terminates (hunderground _ (.inl rfl)) y) _).bind
    fun _ => terminates_some _

section Underground

variable {floorTile undergroundTile : Tile} {underground : List DrawImage}

/-- Every row the height of the canvas has room for is drawn over its width. -/
theorem underground_row
    (h : Fitted d n m)
    (htiles : Laid d floorTile undergroundTile)
    (hunder : forLoop (fun y => decide (y ≤ d.canvas.height))
      (undergroundTile.size.y * d.scale)
      (fun y => d.drawRow fuel undergroundTile y)
      fuel d.ctxHeight = some underground) {k : Nat}
    (hk : d.ctxHeight + k * (undergroundTile.size.y * d.scale) ≤
      d.canvas.height) {t : ℝ}
    (ht : t ∈ Set.Ico (0 : ℝ) (d.canvas.width : ℝ)) :
    ∃ c ∈ underground, c.image = undergroundTile.tile ∧
      c.y = d.ctxHeight + k * (undergroundTile.size.y * d.scale) ∧
      t ∈ Set.Ico (c.x : ℝ) (c.x + c.width) := by
  have hstep : 0 ≤ undergroundTile.size.y * d.scale := by
    rw [htiles.undergroundSize]
    exact mul_nonneg (by norm_num) h.stage_pos.1.le
  obtain ⟨o, ho, hmem⟩ := forLoop_body hunder k fun j hj => by
    have hle : (j : ℚ) * (undergroundTile.size.y * d.scale) ≤
        k * (undergroundTile.size.y * d.scale) :=
      mul_le_mul_of_nonneg_right (by exact_mod_cast hj) hstep
    rw [nsmul_eq_mul, decide_eq_true_iff]
    linarith
  rw [nsmul_eq_mul] at ho
  obtain ⟨c, hc, himage, hy, -, hcover⟩ :=
    drawRow_point h (by rw [htiles.undergroundSize]; rfl)
      (by norm_num : (0 : ℤ) < 21) ho ht
  exact ⟨c, hmem c hc, himage, hy, hcover⟩

/-- Below the stage each point of the canvas has a tile of the underground. -/
theorem underground_point
    (h : Fitted d n m)
    (htiles : Laid d floorTile undergroundTile)
    (hunder : forLoop (fun y => decide (y ≤ d.canvas.height))
      (undergroundTile.size.y * d.scale)
      (fun y => d.drawRow fuel undergroundTile y)
      fuel d.ctxHeight = some underground) {t v : ℝ}
    (ht : t ∈ Set.Ico (0 : ℝ) (d.canvas.width : ℝ))
    (hv : v ∈ Set.Ico (d.ctxHeight : ℝ) (d.canvas.height : ℝ)) :
    ∃ c ∈ underground, c.image = undergroundTile.tile ∧ (t, v) ∈ c.region := by
  have hstep : 0 < undergroundTile.size.y * d.scale := by
    rw [htiles.undergroundSize]
    exact mul_pos (by norm_num) h.stage_pos.1
  obtain ⟨y, o, hle, hlt, ho, hmem⟩ :=
    forLoop_point hunder hstep hv.1 fun k hk => by
      rw [decide_eq_true_iff]
      exact_mod_cast (hk.trans_lt hv.2).le
  obtain ⟨c, hc, himage, hy, hheight, hcover⟩ :=
    drawRow_point h (by rw [htiles.undergroundSize]; rfl)
      (by norm_num : (0 : ℤ) < 21) ho ht
  refine ⟨c, hmem c hc, himage, hcover, ?_⟩
  rw [hy, hheight]
  exact ⟨hle, hlt⟩

end Underground

theorem draw_fills
    (h : Fitted d n m)
    {floorTile undergroundTile : Tile}
    (htiles : Laid d floorTile undergroundTile)
    {time : Number} {calls : List DrawImage}
    (hdraw : d.draw fuel time = some calls) :
    FillsCanvas d floorTile undergroundTile calls := by
  simp only [draw_eq htiles, Option.bind_eq_some_iff] at hdraw
  obtain ⟨backDrop, hback, floor, hfloor, underground, hunder, heq⟩ := hdraw
  cases heq
  have hlayer : ∀ layer ∈ d.backDrop.layers, ∀ p : ℝ × ℝ,
      p.1 ∈ Set.Ico (0 : ℝ) d.canvas.width →
      p.2 ∈ Set.Ico (0 : ℝ) d.ctxHeight →
      ∃ c ∈ backDrop, c.image = layer ∧ p ∈ c.region := by
    intro layer hlayer p ht hv
    obtain ⟨c, hc, himage, hy, hheight, hcover⟩ :=
      drawBackDrop_point h hback hlayer ht
    refine ⟨c, hc, himage, hcover, ?_⟩
    simpa [hy, hheight] using hv
  constructor
  case backDrop =>
    rintro layer hmem p ⟨ht, hv⟩
    obtain ⟨c, hc, himage, hp⟩ := hlayer layer hmem p ht hv
    exact ⟨c, List.mem_append_left _ hc, himage, hp⟩
  case floor =>
    intro t ht
    obtain ⟨c, hc, himage, hy, -, hcover⟩ :=
      drawRow_point h (by rw [htiles.floorSize]; rfl)
        (by norm_num : (0 : ℤ) < 21) hfloor ht
    exact ⟨c, by simp [hc], himage, hy, hcover⟩
  case underground =>
    intro k hk t ht
    obtain ⟨c, hc, hrow⟩ := underground_row h htiles hunder hk ht
    exact ⟨c, by simp [hc], hrow⟩
  case noOtherRow =>
    intro c hc himage
    rcases List.mem_append.mp hc with hc | hc
    · exact absurd (himage ▸ mem_drawBackDrop hback hc) htiles.not_layer
    rcases List.mem_append.mp hc with hc | hc
    · obtain ⟨himage', -⟩ := mem_drawRow hfloor hc
      exact absurd (himage.symm.trans himage') htiles.tiles_ne
    · obtain ⟨k, o, hcond, ho, hc⟩ := mem_forLoop hunder hc
      obtain ⟨-, hy⟩ := mem_drawRow ho hc
      rw [nsmul_eq_mul] at hcond hy
      rw [hy]
      exact ⟨k, rfl, decide_eq_true_iff.mp hcond⟩
  case canvas =>
    rintro ⟨t, v⟩ ⟨ht, hv⟩
    by_cases hstage : v < d.ctxHeight
    · obtain ⟨layer, hmem⟩ := List.exists_mem_of_ne_nil _ htiles.layers_ne
      obtain ⟨c, hc, himage, hp⟩ := hlayer layer hmem (t, v) ht ⟨hv.1, hstage⟩
      exact ⟨c, List.mem_append_left _ hc, .inl (himage ▸ hmem), hp⟩
    · obtain ⟨c, hc, himage, hp⟩ :=
        underground_point h htiles hunder ht ⟨not_lt.mp hstage, hv.2⟩
      exact ⟨c, by simp [hc], .inr himage, hp⟩

end Points

/-- A driver stays stocked and fitted over any number of resizes. -/
theorem fitted_foldl
    (boxes : List BoundingBox) {d : DisplayDriver}
    (hstocked : Stocked d)
    (hfitted : ∃ n m, Fitted d n m) :
    Stocked (boxes.foldl DisplayDriver.resize d) ∧
      ∃ n m, Fitted (boxes.foldl DisplayDriver.resize d) n m := by
  induction boxes generalizing d with
  | nil => exact ⟨hstocked, hfitted⟩
  | cons box rest ih =>
      exact ih (stocked_resize hstocked box) (fitted_resize hstocked box)

/-- The constructor stocks the driver and fits it to the window. -/
theorem fitted_newDisplayDriver
    (canvas : Canvas) (boundingBox : BoundingBox) :
    Stocked (DisplayDriver.newDisplayDriver canvas boundingBox) ∧
      ∃ n m, Fitted (DisplayDriver.newDisplayDriver canvas boundingBox) n m :=
  ⟨stocked_resize ⟨rfl, rfl, rfl, rfl⟩ boundingBox,
    fitted_resize ⟨rfl, rfl, rfl, rfl⟩ boundingBox⟩

/--
The stage fills the canvas, whatever the size of the window has been at the
start and after each resize.
-/
theorem stage_fills_canvas
    (canvas : Canvas) (boundingBox : BoundingBox) (boxes : List BoundingBox)
    (time : Number) :
    let d := boxes.foldl DisplayDriver.resize
      (DisplayDriver.newDisplayDriver canvas boundingBox)
    ∃ floorTile undergroundTile calls,
      d.tileSet 1 = some floorTile ∧ d.tileSet 2 = some undergroundTile ∧
        Returns (fun fuel => d.draw fuel time) calls ∧
          FillsCanvas d floorTile undergroundTile calls := by
  intro d
  obtain ⟨hnew, hfits⟩ := fitted_newDisplayDriver canvas boundingBox
  obtain ⟨hstocked, n, m, hfitted⟩ := fitted_foldl boxes hnew hfits
  obtain ⟨floorTile, undergroundTile, htiles⟩ := laid_of_stocked hstocked
  obtain ⟨calls, k, hreturns⟩ := draw_terminates hfitted htiles time
  exact ⟨floorTile, undergroundTile, calls, htiles.floor, htiles.underground,
    ⟨k, hreturns⟩, draw_fills hfitted htiles (hreturns k le_rfl)⟩

end StageCoverage

end Web
end TurnBasedGame
