import Grzetris.Engine.Playfield
import Grzetris.Foundation.Windows
import Grzetris.Ui.Menu

/-!
# Drawing

`drawPlayfield`, `drawNextShape`, `drawControls`, `drawGame` and the end of
`deinit` of `ui/main.cpp`, `rendererMain` of `ui/menu.cpp`, and the names of
binds and keys that they print.  Of ncurses only the windows of
`Foundation.Windows` are used.  The logo above the menu is left out.
-/

namespace Grzetris

open Foundation

/-! ## Names -/

def bindToFriendlyString : Bind → String
  | .gameLeft => "Left"
  | .gameRight => "Right"
  | .gameDown => "Down"
  | .gameDrop => "Drop"
  | .gameRotate => "Rotate"
  | .gamePause => "Pause"
  | .gameQuit => "Quit"
  | _ => "(unknown)"

def codeToFriendlyString : Code → String
  | .keyA => "A"
  | .keyB => "B"
  | .keyC => "C"
  | .keyD => "D"
  | .keyE => "E"
  | .keyF => "F"
  | .keyG => "G"
  | .keyH => "H"
  | .keyI => "I"
  | .keyJ => "J"
  | .keyK => "K"
  | .keyL => "L"
  | .keyM => "M"
  | .keyN => "N"
  | .keyO => "O"
  | .keyP => "P"
  | .keyQ => "Q"
  | .keyR => "R"
  | .keyS => "S"
  | .keyT => "T"
  | .keyU => "U"
  | .keyV => "V"
  | .keyW => "W"
  | .keyX => "X"
  | .keyY => "Y"
  | .keyZ => "Z"
  | .keySpace => "Space"
  | .keyReturn => "Return"
  | .keyArrowUp => "Up"
  | .keyArrowDown => "Down"
  | .keyArrowLeft => "Left"
  | .keyArrowRight => "Right"
  | .error | .notImplemented => "(unknown)"

/-- `bindings.at(currentMap)` throws when there is no such map. -/
def getReverseBind (input : Input) (bind : Bind) : Option (List Code) := do
  let bindings ← input.bindings input.currentMap
  some (Code.all.filter fun code => bindings code = some bind)

def getBindChar (input : Input) (bind : Bind) : Option String := do
  match ← getReverseBind input bind with
  | code :: _ => some ("[" ++ codeToFriendlyString code ++ "]")
  | [] => some "(none)"

/-! ## Windows -/

/-- What `wattron` has switched on. -/
inductive Attribute where
  | normal
  | pair (c : Colour)
  | standout
  deriving DecidableEq, Repr

structure Curses (ω : Type) extends Windows ω Char Attribute where
  hasColors : Bool

inductive WindowTypes where
  | playfield | nextShape | statistics | controls
  deriving DecidableEq, Repr

/-- The windows that are kept from one drawing to the next, null pointers among
them, and what has been refreshed since the terminal was cleared. -/
structure Screen (ω : Type) where
  windows : WindowTypes → Option ω
  terminal : List ω

variable {ω : Type}

def Screen.initial : Screen ω := { windows := fun _ => none, terminal := [] }

def Screen.clear (screen : Screen ω) : Screen ω :=
  { screen with terminal := [] }

/-- The keys of the map of windows, in its order. -/
def WindowTypes.all : List WindowTypes :=
  [.playfield, .nextShape, .statistics, .controls]

/-- The loop of `ui::deinit` over the map of windows, from a key on.  The
iterator of an element that has been erased must not be incremented. -/
def deinitWindows :
    List WindowTypes → (WindowTypes → Option ω) →
      Option (WindowTypes → Option ω)
  | [], windows => some windows
  | key :: keys, windows =>
      match windows key with
      | none => deinitWindows keys windows
      | some _ => do
          let windows := Function.update windows key none
          let _ ← windows key
          deinitWindows keys windows

def centre (parentSize size : Int) : Int := (parentSize - size).tdiv 2

/-- The border of the playfield, which is open at the top. -/
def playfieldFrame : Frame Char where
  left := none
  right := none
  top := none
  bottom := some '^'
  topLeft := none
  topRight := none
  bottomLeft := some '^'
  bottomRight := some '^'

variable (C : Curses ω)

/-- `wrefresh` fails for a null pointer. -/
def Curses.shown (win : ω) : List ω := if C.valid win then [win] else []

def Screen.refresh (screen : Screen ω) (type : WindowTypes) (win : ω) :
    Screen ω where
  windows := Function.update screen.windows type (some win)
  terminal := screen.terminal ++ C.shown win

/-- The window of a type, which is created at the first drawing. -/
def Curses.window (screen : Screen ω) (type : WindowTypes)
    (size origin : Cell) : ω :=
  (screen.windows type).getD (C.create size origin)

def Curses.colour (c : Colour) : Attribute :=
  if C.hasColors then .pair c else .normal

/-! ## The game -/

def drawBlock (win : ω) (y x : Nat) : Option BlockRef → ω
  | none => win
  | some currentBlock =>
      let win := C.write (C.colour currentBlock.block.c)
        (2 * y + 1, x * 4 + 1) "XXXX".toList win
      C.write (C.colour currentBlock.block.c)
        (2 * y + 1 + 1, x * 4 + 1) "XXXX".toList win

def drawPlayfield (p : Playfield) (screen : Screen ω) : Option (Screen ω) := do
  let origin : Cell :=
    (C.lines.tdiv 2 - (p.h + 1), C.cols.tdiv 2 - (2 * p.w + 1))
  let playfieldWin :=
    C.window screen .playfield (2 * p.h + 2, 2 * (2 * p.w) + 2) origin
  let playfieldWin := C.border playfieldFrame (C.erase (C.move origin playfieldWin))
  -- Print the playfield, block by block.
  let playfieldWin ← (List.range p.h.toNat).foldlM (fun win (y : Nat) =>
    (List.range p.w.toNat).foldlM (fun win (x : Nat) => do
      let currentBlock ← p.cell? ⟨x, y⟩
      some (drawBlock C win y x currentBlock)) win) playfieldWin
  some (screen.refresh C .playfield playfieldWin)

def drawNextShape (shape : Polyomino) (screen : Screen ω) : Screen ω :=
  let height : Int := 8
  let width : Int := 14
  let nextOrigin : Cell :=
    match screen.windows .playfield with
    | some playfieldWin =>
        ((C.origin playfieldWin).1,
          (C.size playfieldWin).2 + (C.origin playfieldWin).2)
    | none => (0, 0)
  let nextWin := C.window screen .nextShape (height, width) nextOrigin
  let nextWin := C.border .plain (C.erase (C.move nextOrigin nextWin))
  let nextWin := C.write .normal (2, centre width 4) "NEXT".toList nextWin
  let nextWin := shape.blocks.foldl (fun win block =>
    C.write (C.colour block.c)
      (height.tdiv 2 + block.pos.y,
        width.tdiv 2 - shape.w + 2 * block.pos.x) "XX".toList win) nextWin
  screen.refresh C .nextShape nextWin

/-- The binds to render; `NONE` leaves a line out. -/
def gameBinds : List Bind :=
  [.gameLeft, .gameRight, .gameDown, .none, .gameDrop, .gameRotate, .none,
   .gamePause, .gameQuit]

def drawBind (input : Input) (width : Int) (drawn : Int × ω) (bind : Bind) :
    Option (Int × ω) :=
  let (cursorLine, controlsWin) := drawn
  if bind = .none then some (cursorLine + 1, controlsWin)
  else do
    let cursorLine := cursorLine + 1
    let controlsWin := C.write .normal (cursorLine, 3)
      (bindToFriendlyString bind).toList controlsWin
    let bindChar ← getBindChar input bind
    some (cursorLine, C.write .normal
      (cursorLine, width - bindChar.length - 3) bindChar.toList controlsWin)

def drawControls (input : Input) (screen : Screen ω) : Option (Screen ω) := do
  let height : Int := 15
  let width : Int := 20
  let controlsOrigin : Cell :=
    match screen.windows .playfield with
    | some playfieldWin =>
        ((C.origin playfieldWin).1, (C.origin playfieldWin).2 - width)
    | none => (0, 0)
  let controlsWin := C.window screen .controls (height, width) controlsOrigin
  let controlsWin :=
    C.border .plain (C.erase (C.move controlsOrigin controlsWin))
  let cursorLine : Int := 2
  let controlsWin := C.write .normal (cursorLine, centre width 8)
    "CONTROLS".toList controlsWin
  let cursorLine := cursorLine + 1
  let (_, controlsWin) ←
    gameBinds.foldlM (drawBind C input width) (cursorLine, controlsWin)
  some (screen.refresh C .controls controlsWin)

def drawGame (input : Input) (p : Playfield) (shape : Polyomino)
    (screen : Screen ω) : Option (Screen ω) := do
  let screen ← drawPlayfield C p screen.clear
  drawControls C input (drawNextShape C shape screen)

/-! ## The menu -/

def drawNode {κ : Type} (main : Menu κ) (width : Int) (win : ω) (i : Nat) :
    Option ω := do
  let n ← main.nodes[i]?
  let attr := if main.selected = main.at? i then .standout else .normal
  some (C.write attr (2 * i, centre width n.text.length) n.text.toList win)

def rendererMain {κ : Type} (main : Menu κ) (screen : Screen ω) :
    Option (Screen ω) := do
  let width : Int := 16
  let height : Int := 10
  -- `1.5 * centre(LINES, HEIGHT)` is cut to an integer.
  let optionsWin := C.create (height, width)
    ((3 * centre C.lines height).tdiv 2, centre C.cols width)
  let optionsWin ←
    (List.range main.nodes.length).foldlM (drawNode C main width) optionsWin
  some { screen.clear with terminal := C.shown optionsWin }

end Grzetris
