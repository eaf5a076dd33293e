import Grzetris.Foundation.Places
import Grzetris.Foundation.Runs
import Grzetris.Ui.Input

/-!
# Menus

`linkNodes`, `initMain` and `inputDriver` of `ui/menu.cpp`.  A menu keeps its
nodes in a vector, and the links of a node are addresses in it.  A callback is
a name, to which a `Calls` gives a meaning: the signal it returns and what it
does to the menu, to the input state and to everything else.
-/

namespace Grzetris

open Foundation

inductive Signal where
  | sigCont
  | sigQuit
  | none
  deriving DecidableEq, Repr

/-- Addresses count nodes. -/
abbrev Addr := Nat

structure Node (κ : Type) where
  text : String
  next : Option Addr
  prev : Option Addr
  onSelect : κ
  onFocus : κ
  onFocusLost : κ

/-- Node `i` of the vector stands at the address `data + i`. -/
structure Menu (κ : Type) where
  selected : Option Addr
  data : Addr
  nodes : List (Node κ)

variable {κ σ : Type}

/-- `&nodes.at(i)`, which throws when there is no such node. -/
def Menu.at? (m : Menu κ) (i : Nat) : Option Addr :=
  if i < m.nodes.length then some (m.data + i) else none

/-- The node of the menu that a pointer points to. -/
def Menu.node? (m : Menu κ) : Option Addr → Option (Node κ)
  | none => none
  | some addr => if m.data ≤ addr then m.nodes[addr - m.data]? else none

/-! ## Linking -/

def intMax : Nat := 2147483647

/-- One round of the loop of `linkNodes`. -/
def linkNode (isCircular : Bool) (m : Menu κ) (i : Nat) : Option (Menu κ) := do
  let n ← m.nodes[i]?
  let prev ←
    if i ≠ 0 then (m.at? (i - 1)).map some
    else if isCircular then (m.at? (m.nodes.length - 1)).map some
    else some none
  let next ←
    if i ≠ m.nodes.length - 1 then (m.at? (i + 1)).map some
    else if isCircular then (m.at? 0).map some
    else some none
  some { m with nodes := m.nodes.set i { n with prev := prev, next := next } }

def linkNodes (m : Menu κ) (isCircular : Bool) : Option (Menu κ) :=
  (List.range m.nodes.length).foldlM
    (fun m i => do
      let m ← linkNode isCircular m i
      -- The index is an `int`, and `i++` must not overflow.
      if i < intMax then some m else none) m

/-! ## The main menu -/

inductive Callback where
  | doNothing
  | play
  | quit
  deriving DecidableEq, Repr

def initNode : Node Callback where
  text := "NONE"
  next := none
  prev := none
  onSelect := .doNothing
  onFocus := .doNothing
  onFocusLost := .doNothing

/-- The menu of `initMain` before its nodes are linked. -/
def mainMenu (data : Addr) : Menu Callback where
  selected := none
  data := data
  nodes :=
    [{ initNode with text := "Play", onSelect := .play },
     { initNode with text := "Settings" },
     { initNode with text := "Info" },
     { initNode with text := "Quit", onSelect := .quit }]

def initMain (data : Addr) : Option (Menu Callback) := do
  let main ← linkNodes (mainMenu data) true
  some { main with selected := main.at? 0 }

/-! ## Driving a menu -/

structure MenuState (κ σ : Type) where
  input : BufferedInput
  m : Menu κ
  -- Whatever else a callback can change.
  rest : σ

def MenuState.select (s : MenuState κ σ) (pointer : Option Addr) :
    MenuState κ σ :=
  { s with m := { s.m with selected := pointer } }

abbrev Calls (κ σ : Type) := κ → MenuState κ σ → Signal × MenuState κ σ

/-- The callbacks of the main menu; `game` stands for `game::run`. -/
def mainCalls (game : MenuState Callback σ → MenuState Callback σ) :
    Calls Callback σ
  | .doNothing, s => (.sigCont, s)
  | .play, s => (.sigCont, game s)
  | .quit, s => (.sigQuit, s)

/-- The cases `MENU_NEXT` and `MENU_PREV`, which differ in the link they
follow. -/
def followLink (call : Calls κ σ) (link : Node κ → Option Addr)
    (s : MenuState κ σ) : Option (Signal × MenuState κ σ) := do
  let selected ← s.m.node? s.m.selected
  if link selected ≠ none then
    let (_, s) := call selected.onFocusLost s
    -- The callback may have changed the menu, so the pointers are read again.
    let selected ← s.m.node? s.m.selected
    let s := s.select (link selected)
    let selected ← s.m.node? s.m.selected
    some (call selected.onFocus s)
  else some (.none, s)

def handleMenuBind (call : Calls κ σ) (s : MenuState κ σ) :
    Bind → Option (Signal × MenuState κ σ)
  | .menuNext => followLink call Node.next s
  | .menuPrev => followLink call Node.prev s
  | .menuSelect => do
      let selected ← s.m.node? s.m.selected
      some (call selected.onSelect s)
  | _ => some (.none, s)

def Signal.result : Signal → Int
  | .sigCont => 0
  | .sigQuit => 1
  | .none => -1

/-- `setCurrentMap(map::MENU)` and `getNext()`. -/
def nextMenuBind (input : BufferedInput) : Bind × BufferedInput :=
  getNext { input with toInput := setCurrentMap input.toInput .menu }

def inputDriver (call : Calls κ σ) (s : MenuState κ σ) :
    Option (Int × MenuState κ σ) := do
  let (bind, input) := nextMenuBind s.input
  let (sig, s) ← handleMenuBind call { s with input := input } bind
  some (sig.result, s)

/-- Calls of `inputDriver` one after the other, each of which finds the given
input state. -/
def driveInputs (call : Calls κ σ) :
    List BufferedInput → MenuState κ σ → Option (MenuState κ σ)
  | [], s => some s
  | input :: inputs, s => do
      let (_, s) ← inputDriver call { s with input := input }
      driveInputs call inputs s

end Grzetris
