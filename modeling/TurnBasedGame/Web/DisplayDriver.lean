import Mathlib.Data.Rat.Floor
import TurnBasedGame.Kernel.Loop

/-!
# The display driver of the web client

`resize` fits the stage into the box its canvas stands in, at an integer scale
and centred, and `draw` covers the canvas with the backdrop, a row of floor
tiles and rows of underground tiles.  Numbers are exact rationals; assigning to
the size of a canvas truncates them.

The driver is translated as the calls of `drawImage` it makes.  A call that
throws, or a loop that has used up its fuel, is `none`.
-/

namespace TurnBasedGame
namespace Web

open Kernel

section DisplayDriver

abbrev Number := ℚ

/-- The constant `BASE_WIDTH`. -/
def baseWidth : Number := 320

/-- The constant `BASE_HEIGHT`. -/
def baseHeight : Number := 180

structure Vector where
  x : Number
  y : Number
deriving DecidableEq, Repr

/-- An image element, by its source. -/
structure Image where
  src : String
deriving DecidableEq, Repr

structure BackDrop where
  layers : List Image
deriving DecidableEq, Repr

structure Tile where
  tile : Image
  size : Vector
deriving DecidableEq, Repr

/-- Tiles by key; a key without a tile is undefined. -/
abbrev TileSet := Nat → Option Tile

/-- What a tile set is made from. -/
structure TileSource where
  key : Nat
  path : String
  size : Vector
deriving DecidableEq, Repr

def newTileSet (tiles : List TileSource) : TileSet :=
  tiles.foldl (fun tileMap tile =>
    Function.update tileMap tile.key (some ⟨⟨tile.path⟩, tile.size⟩))
    (fun _ => none)

def newBackDrop (paths : List String) : BackDrop where
  layers := paths.map Image.mk

/-- The constant `JUNGLE_BACKGROUND`. -/
def jungleBackground : List String :=
  ["./assets/jungle_asset_pack/parallax_background/plx-1.png",
    "./assets/jungle_asset_pack/parallax_background/plx-2.png",
    "./assets/jungle_asset_pack/parallax_background/plx-3.png",
    "./assets/jungle_asset_pack/parallax_background/plx-4.png",
    "./assets/jungle_asset_pack/parallax_background/plx-5.png"]

/-- The constant `JUNGLE_TILES`. -/
def jungleTiles : List TileSource :=
  [⟨1, "./assets/platforms/tiles/tile_0003.png", ⟨21, 21⟩⟩,
    ⟨2, "./assets/platforms/tiles/tile_0032.png", ⟨21, 21⟩⟩]

/-- The size of a canvas. -/
structure Canvas where
  width : Number
  height : Number
deriving DecidableEq, Repr

/-- The integer a number becomes when it is assigned to a canvas size. -/
def truncate (x : Number) : Number :=
  if 0 ≤ x then ⌊x⌋ else ⌈x⌉

/-- What `getBoundingClientRect` returns for the parent of the canvas. -/
structure BoundingBox where
  width : Number
  height : Number
  width_nonneg : 0 ≤ width
  height_nonneg : 0 ≤ height

/-- One call of `ctx.drawImage`. -/
structure DrawImage where
  image : Image
  x : Number
  y : Number
  width : Number
  height : Number
deriving DecidableEq, Repr

structure DisplayDriver where
  canvas : Canvas
  baseWidth : Number
  baseHeight : Number
  ctxWidth : Number
  ctxHeight : Number
  xOffset : Number
  yOffset : Number
  scale : Number
  backDrop : BackDrop
  tileSet : TileSet

namespace DisplayDriver

def cX (d : DisplayDriver) (x : Number) : Number :=
  d.xOffset + x

def resize (d : DisplayDriver) (boundingBox : BoundingBox) :
    DisplayDriver :=
  let width := max boundingBox.width d.baseWidth
  let height := max boundingBox.height d.baseHeight
  let scale : Number := ⌊min (width / d.baseWidth) (height / d.baseHeight)⌋
  let ctxWidth := scale * d.baseWidth
  let ctxHeight := scale * d.baseHeight
  { d with
    ctxWidth := ctxWidth
    ctxHeight := ctxHeight
    scale := scale
    canvas := ⟨truncate width, truncate height⟩
    xOffset := ⌊(width - ctxWidth) / 2⌋
    yOffset := ⌊(height - ctxHeight) / 2⌋ }

/-- The constructor, for a canvas of any size. -/
def newDisplayDriver (canvas : Canvas) (boundingBox : BoundingBox) :
    DisplayDriver :=
  resize
    { canvas := canvas
      baseWidth := Web.baseWidth
      baseHeight := Web.baseHeight
      ctxWidth := Web.baseWidth
      ctxHeight := Web.baseHeight
      xOffset := 0
      yOffset := 0
      scale := 1
      backDrop := newBackDrop jungleBackground
      tileSet := newTileSet jungleTiles }
    boundingBox

def drawBackDrop (fuel : Nat) (d : DisplayDriver) :
    Option (List DrawImage) :=
  let overflow : Number := ⌊d.canvas.width / d.ctxWidth⌋
  forEach (fun layer =>
    forLoop (fun x => decide (x ≤ overflow * d.ctxWidth)) d.ctxWidth
      (fun x => some [⟨layer, d.cX x, 0, d.ctxWidth, d.ctxHeight⟩])
      fuel (0 - overflow * d.ctxWidth))
    d.backDrop.layers

def drawRow (fuel : Nat) (d : DisplayDriver) (tile : Tile) (y : Number) :
    Option (List DrawImage) :=
  let overflowTiles : Number :=
    ⌈((d.canvas.width - d.ctxWidth) / 2) / (tile.size.x * d.scale)⌉
  let overflowTilesWidth := overflowTiles * tile.size.x * d.scale
  forLoop (fun x => decide (x < d.ctxWidth + overflowTilesWidth))
    (tile.size.x * d.scale)
    (fun x => some [⟨tile.tile, d.cX x, y, tile.size.x * d.scale,
      tile.size.y * d.scale⟩])
    fuel (0 - overflowTilesWidth)

def drawStage (fuel : Nat) (d : DisplayDriver) :
    Option (List DrawImage) := do
  let floorTile ← d.tileSet 1
  let floorTiley := d.ctxHeight - floorTile.size.y * d.scale
  let floor ← d.drawRow fuel floorTile floorTiley
  let undergroundTile ← d.tileSet 2
  let underground ←
    forLoop (fun y => decide (y ≤ d.canvas.height))
      (undergroundTile.size.y * d.scale)
      (fun y => d.drawRow fuel undergroundTile y)
      fuel d.ctxHeight
  return floor ++ underground

def draw (fuel : Nat) (d : DisplayDriver) (_time : Number) :
    Option (List DrawImage) := do
  let backDrop ← d.drawBackDrop fuel
  let stage ← d.drawStage fuel
  return backDrop ++ stage

end DisplayDriver

end DisplayDriver

end Web
end TurnBasedGame
