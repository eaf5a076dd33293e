import Grzetris.Ui.Input
import Mathlib.Data.List.TakeWhile

/-!
# The keyboard

`ncursesToLocalCode`, `fetch` and the draining loop of `deinit` in
`ui/input.cpp`.  A key is the `int` that `getch` returns for it.
-/

namespace Grzetris

/-! ## Values of `ncurses.h` -/

def ncursesError : Int := -1
def ncursesKeyDown : Int := 258
def ncursesKeyUp : Int := 259
def ncursesKeyLeft : Int := 260
def ncursesKeyRight : Int := 261
def ncursesKeyEnter : Int := 343

/-! ## Reading keys -/

def ncursesToLocalCode (ncursesCode : Int) : Code :=
  if ncursesCode = 'a'.toNat then .keyA
  else if ncursesCode = 'b'.toNat then .keyB
  else if ncursesCode = 'c'.toNat then .keyC
  else if ncursesCode = 'd'.toNat then .keyD
  else if ncursesCode = 'e'.toNat then .keyE
  else if ncursesCode = 'f'.toNat then .keyF
  else if ncursesCode = 'g'.toNat then .keyG
  else if ncursesCode = 'h'.toNat then .keyH
  else if ncursesCode = 'i'.toNat then .keyI
  else if ncursesCode = 'j'.toNat then .keyJ
  else if ncursesCode = 'k'.toNat then .keyK
  else if ncursesCode = 'l'.toNat then .keyL
  else if ncursesCode = 'm'.toNat then .keyM
  else if ncursesCode = 'n'.toNat then .keyN
  else if ncursesCode = 'o'.toNat then .keyO
  else if ncursesCode = 'p'.toNat then .keyP
  else if ncursesCode = 'q'.toNat then .keyQ
  else if ncursesCode = 'r'.toNat then .keyR
  else if ncursesCode = 's'.toNat then .keyS
  else if ncursesCode = 't'.toNat then .keyT
  else if ncursesCode = 'u'.toNat then .keyU
  else if ncursesCode = 'v'.toNat then .keyV
  else if ncursesCode = 'w'.toNat then .keyW
  else if ncursesCode = 'x'.toNat then .keyX
  else if ncursesCode = 'y'.toNat then .keyY
  else if ncursesCode = 'z'.toNat then .keyZ
  else if ncursesCode = ' '.toNat then .keySpace
  else if ncursesCode = '\n'.toNat ∨ ncursesCode = ncursesKeyEnter then
    .keyReturn
  else if ncursesCode = ncursesKeyUp then .keyArrowUp
  else if ncursesCode = ncursesKeyDown then .keyArrowDown
  else if ncursesCode = ncursesKeyLeft then .keyArrowLeft
  else if ncursesCode = ncursesKeyRight then .keyArrowRight
  else if ncursesCode = ncursesError then .error
  else .notImplemented

def push (input : BufferedInput) (code : Code) : BufferedInput :=
  { input with inputBuffer := input.inputBuffer ++ [code] }

/-- `typed` is what the calls of `getch` return; without a further key they
return `ERR`. -/
def fetch : List Int → BufferedInput → Nat × BufferedInput
  | [], input => (0, input)
  | key :: typed, input =>
      if key = ncursesError then (0, input)
      else
        let (inputSequences, input) :=
          fetch typed (push input (ncursesToLocalCode key))
        (inputSequences + 1, input)

/-- The loop of `deinit` in `ui/input.cpp`, which pops while there is input. -/
def drain (input : BufferedInput) : BufferedInput :=
  match input with
  | ⟨table, []⟩ => ⟨table, []⟩
  | ⟨table, _ :: inputBuffer⟩ => drain ⟨table, inputBuffer⟩
  termination_by input.inputBuffer.length

/-! ## What they do to the buffer -/

/-- The codes that one `fetch` reads. -/
def received (typed : List Int) : List Code :=
  (typed.takeWhile (· ≠ ncursesError)).map ncursesToLocalCode

theorem fetch_eq (typed : List Int) (input : BufferedInput) :
    fetch typed input =
      ((received typed).length,
        { input with inputBuffer := input.inputBuffer ++ received typed }) := by
  induction typed generalizing input with
  | nil => simp [fetch, received]
  | cons key typed ih =>
      by_cases herror : key = ncursesError
      · simp [fetch, received, herror]
      · rw [fetch, if_neg herror, ih]
        simp [received, push, herror]

@[simp] theorem drain_eq (input : BufferedInput) :
    drain input = { input with inputBuffer := [] } := by
  obtain ⟨table, inputBuffer⟩ := input
  induction inputBuffer with
  | nil => rw [drain]
  | cons code inputBuffer ih => rw [drain, ih]

theorem ncursesToLocalCode_ne_error {key : Int} (hkey : key ≠ ncursesError) :
    ncursesToLocalCode key ≠ .error := by
  fun_cases ncursesToLocalCode key <;> first | decide | contradiction

/-- The code `ERROR` ends the reading and is never queued. -/
theorem error_notMem_received (typed : List Int) :
    Code.error ∉ received typed := by
  intro hmem
  obtain ⟨key, hkey, herror⟩ := List.mem_map.mp hmem
  have hread := List.mem_takeWhile_imp hkey
  exact ncursesToLocalCode_ne_error (by simpa using hread) herror

end Grzetris
