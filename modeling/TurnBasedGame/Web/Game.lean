import TurnBasedGame.Web.Screen

/-!
# The game and its animation frames

The constructor of the game draws once.  Each call of `draw` asks for an
animation frame, on which it is called again; a resize of the window assigns
to the size of the canvas, which clears it.  After any history of resizes and
frames exactly one frame is asked for, and what is seen on the canvas is what
belongs there at the present size of the window, once for each call of `draw`
since the last resize.
-/

namespace TurnBasedGame
namespace Web

open Kernel

section Game

/-- The game in its window. -/
structure Game where
  displayDriver : DisplayDriver
  /-- What has been drawn on the canvas since it was cleared. -/
  painted : List DrawImage
  /-- Number of callbacks waiting for the next animation frame. -/
  requested : Nat

/-- What happens to the window. -/
inductive WindowEvent
  | resize (boundingBox : BoundingBox)
  | animationFrame (time : Number)

namespace Game

def draw (fuel : Nat) (time : Number) (game : Game) : Option Game := do
  let calls ← game.displayDriver.draw fuel time
  return { game with
    painted := game.painted ++ calls
    requested := game.requested + 1 }

/-- The constructor, for a canvas of any size. -/
def newGame (fuel : Nat) (canvas : Canvas) (boundingBox : BoundingBox) :
    Option Game :=
  draw fuel 0
    { displayDriver := DisplayDriver.newDisplayDriver canvas boundingBox
      painted := []
      requested := 0 }

/-- Call back what was asked for before the frame. -/
def callbacks (fuel : Nat) (time : Number) : Nat → Game → Option Game
  | 0, game => some game
  | count + 1, game => do
      let game ← game.draw fuel time
      callbacks fuel time count game

def onEvent (fuel : Nat) (game : Game) : WindowEvent → Option Game
  | .resize boundingBox =>
      some { game with
        displayDriver := game.displayDriver.resize boundingBox
        painted := [] }
  | .animationFrame time =>
      callbacks fuel time game.requested { game with requested := 0 }

def run (fuel : Nat) : List WindowEvent → Game → Option Game
  | [], game => some game
  | event :: rest, game => do
      let game ← game.onEvent fuel event
      run fuel rest game

end Game

/-- The driver after an event. -/
def WindowEvent.driver (d : DisplayDriver) : WindowEvent → DisplayDriver
  | .resize boundingBox => d.resize boundingBox
  | .animationFrame _ => d

/-- How often the canvas has been drawn since it was cleared. -/
def WindowEvent.drawings (count : Nat) : WindowEvent → Nat
  | .resize _ => 0
  | .animationFrame _ => count + 1

/-- The calls draw the scenery over the canvas so many times. -/
def Painted (d : DisplayDriver) (count : Nat) (calls : List DrawImage) :
    Prop :=
  ∀ floorTile undergroundTile, Laid d floorTile undergroundTile →
    ∀ p ∈ d.points, seen p calls =
      (List.replicate count (scenery d floorTile undergroundTile p.2)).flatten

/-- The scenery of the present window is on the canvas so many times. -/
structure Displays (d : DisplayDriver) (count : Nat) (game : Game) : Prop where
  driver : game.displayDriver = d
  stocked : Stocked d
  fitted : ∃ n m, Fitted d n m
  requested : game.requested = 1
  painted : Painted d count game.painted

theorem painted_nil
    (d : DisplayDriver) :
    Painted d 0 [] :=
  fun _ _ _ _ _ => rfl

section Displays

variable {d : DisplayDriver} {count : Nat} {game : Game}

/-- Drawing puts the scenery on the canvas once more. -/
theorem displays_draw
    (game : Game)
    (stocked : Stocked d)
    (fitted : ∃ n m, Fitted d n m)
    (time : Number)
    (driver : game.displayDriver = d)
    (requested : game.requested = 0)
    (painted : Painted d count game.painted) :
    ∃ game', Returns (fun fuel => game.draw fuel time) game' ∧
      Displays d (count + 1) game' := by
  obtain ⟨floorTile, undergroundTile, htiles⟩ := laid_of_stocked stocked
  obtain ⟨n, m, hfitted⟩ := fitted
  obtain ⟨calls, k, hcalls⟩ := draw_terminates hfitted htiles time
  refine ⟨{ game with
    painted := game.painted ++ calls
    requested := game.requested + 1 }, ⟨k, fun fuel hfuel => ?_⟩, driver,
    stocked, ⟨n, m, hfitted⟩, by simp [requested], ?_⟩
  · simp only [Game.draw, driver, hcalls fuel hfuel, bind, Option.bind_some,
      pure]
  · intro floorTile' undergroundTile' htiles' p hp
    rw [seen_append, painted floorTile' undergroundTile' htiles' p hp,
      seen_draw hfitted htiles' (hcalls k le_rfl) hp, List.replicate_succ',
      List.flatten_append, List.flatten_singleton]

theorem displays_newGame
    (canvas : Canvas) (boundingBox : BoundingBox) :
    ∃ game, Returns (fun fuel => Game.newGame fuel canvas boundingBox) game ∧
      Displays (DisplayDriver.newDisplayDriver canvas boundingBox) 1 game := by
  obtain ⟨hstocked, hfitted⟩ := fitted_newDisplayDriver canvas boundingBox
  exact displays_draw _ hstocked hfitted 0 rfl rfl (painted_nil _)

/-- Each event keeps the canvas up to date. -/
theorem displays_onEvent
    (h : Displays d count game)
    (event : WindowEvent) :
    ∃ game', Returns (fun fuel => game.onEvent fuel event) game' ∧
      Displays (event.driver d) (event.drawings count) game' := by
  cases event with
  | resize boundingBox =>
      refine ⟨_, returns_some _, ?_, stocked_resize h.stocked boundingBox,
        fitted_resize h.stocked boundingBox, h.requested, ?_⟩
      · rw [h.driver]
        rfl
      · exact painted_nil _
  | animationFrame time =>
      obtain ⟨game', hreturns, hdisplays⟩ :=
        displays_draw { game with requested := 0 } h.stocked h.fitted time
          h.driver rfl h.painted
      refine ⟨game', ?_, hdisplays⟩
      obtain ⟨k, hk⟩ := hreturns
      refine ⟨k, fun fuel hfuel => ?_⟩
      simp only [Game.onEvent, h.requested, Game.callbacks, hk fuel hfuel,
        bind, Option.bind_some]

/-- And so does any number of events. -/
theorem displays_run
    (events : List WindowEvent)
    (h : Displays d count game) :
    ∃ game', Returns (fun fuel => game.run fuel events) game' ∧
      Displays (events.foldl WindowEvent.driver d)
        (events.foldl WindowEvent.drawings count) game' := by
  induction events generalizing d count game with
  | nil => exact ⟨game, returns_some game, h⟩
  | cons event rest ih =>
      obtain ⟨next, hnext, hdisplays⟩ := displays_onEvent h event
      obtain ⟨game', hgame, hdisplays'⟩ := ih hdisplays
      exact ⟨game', hnext.bind hgame, hdisplays'⟩

end Displays

/--
The canvas is never stale.  Whatever the window has gone through, the game
returns, waits for exactly one animation frame, and has drawn over each point
of the canvas, in this order and as often as it was called since the last
resize, the images that belong there at the present size: the layers and at
most the floor over them, or one tile of the underground.
-/
theorem canvas_up_to_date
    (canvas : Canvas) (boundingBox : BoundingBox) (events : List WindowEvent) :
    let d := events.foldl WindowEvent.driver
      (DisplayDriver.newDisplayDriver canvas boundingBox)
    let count := events.foldl WindowEvent.drawings 1
    ∃ game floorTile undergroundTile,
      Returns (fun fuel => (Game.newGame fuel canvas boundingBox).bind
        (Game.run fuel events)) game ∧
      game.displayDriver = d ∧ game.requested = 1 ∧
      d.tileSet 1 = some floorTile ∧ d.tileSet 2 = some undergroundTile ∧
      ∀ p ∈ d.points, seen p game.painted =
        (List.replicate count
          (scenery d floorTile undergroundTile p.2)).flatten := by
  intro d count
  obtain ⟨first, hfirst, hdisplays⟩ := displays_newGame canvas boundingBox
  obtain ⟨game, hgame, hdisplays'⟩ := displays_run events hdisplays
  obtain ⟨floorTile, undergroundTile, htiles⟩ :=
    laid_of_stocked hdisplays'.stocked
  exact ⟨game, floorTile, undergroundTile, hfirst.bind hgame,
    hdisplays'.driver, hdisplays'.requested, htiles.floor,
    htiles.underground, hdisplays'.painted floorTile undergroundTile htiles⟩

end Game

end Web
end TurnBasedGame
