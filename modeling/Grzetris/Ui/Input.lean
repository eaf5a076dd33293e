import Mathlib.Logic.Function.Basic

/-!
# Key codes, binds and the binding table

The enumerations of `ui/input.hpp` and the functions of `ui/input.cpp` that
read or write them.  The keys of the two nested maps are enumerations, so a map
is a partial function; `Code.all` lists the codes in the order in which the
inner map is traversed.
-/

namespace Grzetris

inductive Code where
  | keyA | keyB | keyC | keyD | keyE | keyF | keyG | keyH | keyI | keyJ | keyK
  | keyL | keyM | keyN | keyO | keyP | keyQ | keyR | keyS | keyT | keyU | keyV
  | keyW | keyX | keyY | keyZ | keySpace | keyReturn | keyArrowUp
  | keyArrowDown | keyArrowLeft | keyArrowRight | error | notImplemented
  deriving DecidableEq, Repr

inductive Bind where
  | gameLeft | gameRight | gameDown | gameDrop | gameRotate | gamePause
  | gameQuit | gameNoAction | menuNext | menuPrev | menuSelect | none
  deriving DecidableEq, Repr

inductive Map where
  | game | menu | none
  deriving DecidableEq, Repr

def Code.all : List Code :=
  [.keyA, .keyB, .keyC, .keyD, .keyE, .keyF, .keyG, .keyH, .keyI, .keyJ,
   .keyK, .keyL, .keyM, .keyN, .keyO, .keyP, .keyQ, .keyR, .keyS, .keyT,
   .keyU, .keyV, .keyW, .keyX, .keyY, .keyZ, .keySpace, .keyReturn,
   .keyArrowUp, .keyArrowDown, .keyArrowLeft, .keyArrowRight, .error,
   .notImplemented]

theorem Code.mem_all (code : Code) : code ∈ Code.all := by
  cases code <;> decide

structure Input where
  bindings : Map → Option (Code → Option Bind)
  currentMap : Map

def Input.empty : Input := { bindings := fun _ => none, currentMap := .none }

def setCurrentMap (input : Input) (map : Map) : Input :=
  { input with currentMap := map }

def setBind (input : Input) (bind : Bind) (code : Code) : Input :=
  if input.currentMap = .none then input
  else
    let inner := (input.bindings input.currentMap).getD fun _ => none
    { input with
      bindings := Function.update input.bindings input.currentMap
        (some (Function.update inner code (some bind))) }

def getBind (input : Input) (code : Code) : Bind :=
  if input.currentMap = .none then .none
  else
    match input.bindings input.currentMap with
    | none => .none
    | some inner =>
        match inner code with
        | none => .none
        | some bind => bind

/-- The binding table and the codes that `fetch` has queued. -/
structure BufferedInput extends Input where
  inputBuffer : List Code

def getNext (input : BufferedInput) : Bind × BufferedInput :=
  match input.inputBuffer with
  | [] => (.none, input)
  | inputCode :: inputBuffer =>
      (getBind input.toInput inputCode,
        { input with inputBuffer := inputBuffer })

/-! ## Names -/

def stringToBind (name : String) : Bind :=
  if name = "GAME_LEFT" then .gameLeft
  else if name = "GAME_RIGHT" then .gameRight
  else if name = "GAME_DOWN" then .gameDown
  else if name = "GAME_DROP" then .gameDrop
  else if name = "GAME_ROTATE" then .gameRotate
  else if name = "GAME_PAUSE" then .gamePause
  else if name = "GAME_QUIT" then .gameQuit
  else if name = "MENU_NEXT" then .menuNext
  else if name = "MENU_PREV" then .menuPrev
  else if name = "MENU_SELECT" then .menuSelect
  else .none

def bindToString : Bind → String
  | .gameLeft => "GAME_LEFT"
  | .gameRight => "GAME_RIGHT"
  | .gameDown => "GAME_DOWN"
  | .gameDrop => "GAME_DROP"
  | .gameRotate => "GAME_ROTATE"
  | .gamePause => "GAME_PAUSE"
  | .gameQuit => "GAME_QUIT"
  | .menuNext => "MENU_NEXT"
  | .menuPrev => "MENU_PREV"
  | .menuSelect => "MENU_SELECT"
  | .gameNoAction | .none => "NONE"

def stringToCode (name : String) : Code :=
  if name = "KEY_A" then .keyA
  else if name = "KEY_B" then .keyB
  else if name = "KEY_C" then .keyC
  else if name = "KEY_D" then .keyD
  else if name = "KEY_E" then .keyE
  else if name = "KEY_F" then .keyF
  else if name = "KEY_G" then .keyG
  else if name = "KEY_H" then .keyH
  else if name = "KEY_I" then .keyI
  else if name = "KEY_J" then .keyJ
  else if name = "KEY_K" then .keyK
  else if name = "KEY_L" then .keyL
  else if name = "KEY_M" then .keyM
  else if name = "KEY_N" then .keyN
  else if name = "KEY_O" then .keyO
  else if name = "KEY_P" then .keyP
  else if name = "KEY_Q" then .keyQ
  else if name = "KEY_R" then .keyR
  else if name = "KEY_S" then .keyS
  else if name = "KEY_T" then .keyT
  else if name = "KEY_U" then .keyU
  else if name = "KEY_V" then .keyV
  else if name = "KEY_W" then .keyW
  else if name = "KEY_X" then .keyX
  else if name = "KEY_Y" then .keyY
  else if name = "KEY_Z" then .keyZ
  else if name = "KEY_SPACE" then .keySpace
  else if name = "KEY_RETURN" then .keyReturn
  else if name = "KEY_ARROW_UP" then .keyArrowUp
  else if name = "KEY_ARROW_DOWN" then .keyArrowDown
  else if name = "KEY_ARROW_LEFT" then .keyArrowLeft
  else if name = "KEY_ARROW_RIGHT" then .keyArrowRight
  else if name = "ERROR" then .error
  else .notImplemented

def codeToString : Code → String
  | .keyA => "KEY_A"
  | .keyB => "KEY_B"
  | .keyC => "KEY_C"
  | .keyD => "KEY_D"
  | .keyE => "KEY_E"
  | .keyF => "KEY_F"
  | .keyG => "KEY_G"
  | .keyH => "KEY_H"
  | .keyI => "KEY_I"
  | .keyJ => "KEY_J"
  | .keyK => "KEY_K"
  | .keyL => "KEY_L"
  | .keyM => "KEY_M"
  | .keyN => "KEY_N"
  | .keyO => "KEY_O"
  | .keyP => "KEY_P"
  | .keyQ => "KEY_Q"
  | .keyR => "KEY_R"
  | .keyS => "KEY_S"
  | .keyT => "KEY_T"
  | .keyU => "KEY_U"
  | .keyV => "KEY_V"
  | .keyW => "KEY_W"
  | .keyX => "KEY_X"
  | .keyY => "KEY_Y"
  | .keyZ => "KEY_Z"
  | .keySpace => "KEY_SPACE"
  | .keyReturn => "KEY_RETURN"
  | .keyArrowUp => "KEY_ARROW_UP"
  | .keyArrowDown => "KEY_ARROW_DOWN"
  | .keyArrowLeft => "KEY_ARROW_LEFT"
  | .keyArrowRight => "KEY_ARROW_RIGHT"
  | .error => "ERROR"
  | .notImplemented => "NOT_IMPLEMENTED"

def stringToMap (name : String) : Map :=
  if name = "GAME" then .game
  else if name = "MENU" then .menu
  else .none

def mapToString : Map → String
  | .game => "GAME"
  | .menu => "MENU"
  | .none => "NONE"

theorem stringToMap_mapToString (map : Map) :
    stringToMap (mapToString map) = map := by
  cases map <;> rfl

theorem mapToString_stringToMap {name : String} :
    stringToMap name ≠ .none → mapToString (stringToMap name) = name := by
  fun_cases stringToMap name <;> intro hname
  all_goals first
    | exact absurd rfl hname
    | exact Eq.symm (by assumption)

theorem stringToCode_codeToString (code : Code) :
    stringToCode (codeToString code) = code := by
  cases code <;> rfl

theorem stringToBind_bindToString {bind : Bind} (hbind : bind ≠ .gameNoAction) :
    stringToBind (bindToString bind) = bind := by
  cases bind <;> first | rfl | exact absurd rfl hbind

theorem bindToString_stringToBind {name : String} :
    stringToBind name ≠ .none → bindToString (stringToBind name) = name := by
  fun_cases stringToBind name <;> intro hname
  all_goals first
    | exact absurd rfl hname
    | exact Eq.symm (by assumption)

theorem stringToBind_ne_gameNoAction (name : String) :
    stringToBind name ≠ .gameNoAction := by
  fun_cases stringToBind name <;> decide

end Grzetris
