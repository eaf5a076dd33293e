import Grzetris.Engine.Tetrominoes
import Grzetris.Foundation.Runs
import Grzetris.Foundation.Well
import Mathlib.Logic.Function.Iterate

/-!
# The rules of the game

The game that the program is there to play, without playfields that hold the
falling piece, sentinels or templates: a stack of locked blocks, and a piece that
is not part of it.  The shapes come from a given sequence.
-/

namespace Grzetris

open Foundation

/-- Four distinct cells of one colour in a square box. -/
structure Tetromino where
  size : Int
  colour : Colour
  cells : List Vect2D
  inside : ∀ q ∈ cells, 0 ≤ q.x ∧ q.x < size ∧ 0 ≤ q.y ∧ q.y < size
  distinct : cells.Nodup
  four : cells.length = 4

def tetromino : TetroShapes → Tetromino
  | .i => ⟨4, .cyan, [⟨0, 1⟩, ⟨1, 1⟩, ⟨2, 1⟩, ⟨3, 1⟩], by decide, by decide, rfl⟩
  | .o => ⟨2, .yellow, [⟨0, 0⟩, ⟨1, 0⟩, ⟨0, 1⟩, ⟨1, 1⟩], by decide, by decide,
      rfl⟩
  | .t => ⟨3, .magenta, [⟨1, 0⟩, ⟨0, 1⟩, ⟨1, 1⟩, ⟨2, 1⟩], by decide, by decide,
      rfl⟩
  | .l => ⟨3, .white, [⟨2, 0⟩, ⟨0, 1⟩, ⟨1, 1⟩, ⟨2, 1⟩], by decide, by decide,
      rfl⟩
  | .j => ⟨3, .blue, [⟨0, 0⟩, ⟨0, 1⟩, ⟨1, 1⟩, ⟨2, 1⟩], by decide, by decide, rfl⟩
  | .s => ⟨3, .green, [⟨1, 0⟩, ⟨2, 0⟩, ⟨1, 1⟩, ⟨0, 1⟩], by decide, by decide,
      rfl⟩
  | .z => ⟨3, .red, [⟨0, 0⟩, ⟨1, 0⟩, ⟨1, 1⟩, ⟨2, 1⟩], by decide, by decide, rfl⟩

/-- A quarter turn clockwise within the box; rows are counted downwards. -/
def Tetromino.turned (t : Tetromino) : Tetromino where
  size := t.size
  colour := t.colour
  cells := t.cells.map fun q => ⟨t.size - 1 - q.y, q.x⟩
  inside := by
    intro turned hturned
    obtain ⟨q, hq, rfl⟩ := List.mem_map.mp hturned
    have hinside := t.inside q hq
    simp only
    omega
  distinct := by
    apply t.distinct.map
    intro first second heq
    have hx := congrArg Vect2D.x heq
    have hy := congrArg Vect2D.y heq
    simp only at hx hy
    ext <;> omega
  four := by rw [List.length_map, t.four]

structure Piece where
  tetromino : Tetromino
  pos : Vect2D

namespace Piece

/-- Row and column of each of its blocks. -/
def cells (piece : Piece) : List (Int × Int) :=
  piece.tetromino.cells.map fun q => (q.y + piece.pos.y, q.x + piece.pos.x)

theorem cells_length (piece : Piece) : piece.cells.length = 4 := by
  rw [cells, List.length_map, piece.tetromino.four]

theorem cells_nodup (piece : Piece) : piece.cells.Nodup := by
  apply piece.tetromino.distinct.map
  intro first second heq
  have hy := congrArg Prod.fst heq
  have hx := congrArg Prod.snd heq
  simp only at hx hy
  ext <;> omega

theorem exists_cell (piece : Piece) :
    ∃ q, piece.tetromino.cells.head? = some q ∧ q ∈ piece.tetromino.cells := by
  have hpos : 0 < piece.tetromino.cells.length := by
    rw [piece.tetromino.four]
    omega
  obtain ⟨q, rest, hcells⟩ := List.exists_cons_of_length_pos hpos
  exact ⟨q, by rw [hcells, List.head?_cons], by simp [hcells]⟩

def shifted (displacement : Vect2D) (piece : Piece) : Piece :=
  { piece with pos := displacement + piece.pos }

def turned (piece : Piece) : Piece :=
  { piece with tetromino := piece.tetromino.turned }

def Fits (piece : Piece) (stack : Well Colour) : Prop :=
  ∀ cell ∈ piece.cells, stack.Free cell

instance (piece : Piece) (stack : Well Colour) : Decidable (piece.Fits stack) :=
  inferInstanceAs (Decidable (∀ cell ∈ piece.cells, stack.Free cell))

end Piece

/-- A piece enters at the top left corner. -/
def launched (shape : TetroShapes) : Piece := ⟨tetromino shape, ⟨0, 0⟩⟩

structure Tetris where
  -- The locked blocks.
  stack : Well Colour
  -- There is none after a spawn that found no room.
  piece : Option Piece
  -- Pieces taken from the sequence, pieces locked, and rows cleared.
  spawned : Nat
  locked : Nat
  lines : Nat

namespace Tetris

/-- The piece changes if it fits in the stack afterwards. -/
def attempt (s : Tetris) (change : Piece → Piece) : Bool × Tetris :=
  match s.piece with
  | none => (false, s)
  | some piece =>
      if (change piece).Fits s.stack then
        (true, { s with piece := some (change piece) })
      else (false, s)

def shift (s : Tetris) (displacement : Vect2D) : Bool × Tetris :=
  s.attempt (Piece.shifted displacement)

def turn (s : Tetris) : Bool × Tetris := s.attempt Piece.turned

/-- One row down, if there is room. -/
def fallen (s : Tetris) : Tetris := (s.shift ⟨0, 1⟩).2

/-- No piece can fall further than the stack is high. -/
def drop (s : Tetris) : Tetris := fallen^[s.stack.height.toNat] s

/-- What the player sees. -/
def grid (s : Tetris) : Well Colour :=
  match s.piece with
  | none => s.stack
  | some piece => s.stack.fill piece.tetromino.colour piece.cells

/-- The piece becomes part of the stack, and the full rows are cleared. -/
def land (s : Tetris) : Tetris where
  stack := s.grid.clear
  piece := none
  spawned := s.spawned
  locked := s.locked + if s.piece.isSome then 1 else 0
  lines := s.lines + s.grid.fullRows

/-- Whether there is no room for the next piece. -/
def spawn (sequence : Nat → TetroShapes) (s : Tetris) : Bool × Tetris :=
  let piece := launched (sequence s.spawned)
  let s := { s with spawned := s.spawned + 1 }
  if piece.Fits s.stack then (false, { s with piece := some piece })
  else (true, s)

def tick (sequence : Nat → TetroShapes) (s : Tetris) : Bool × Tetris :=
  if (s.shift ⟨0, 1⟩).1 then (false, (s.shift ⟨0, 1⟩).2)
  else s.land.spawn sequence

/-- An empty stack, and the first piece. -/
def start (sequence : Nat → TetroShapes) (height width : Nat) : Tetris where
  stack := Well.empty height width
  piece := some (launched (sequence 0))
  spawned := 1
  locked := 0
  lines := 0

/-! ## What the rules keep -/

/-- The piece keeps clear of the stack, the stack has no full row, and every
block came in with a piece that was locked. -/
structure Sound (s : Tetris) : Prop where
  width : 1 ≤ s.stack.width
  fits : ∀ piece ∈ s.piece, piece.Fits s.stack
  cleared : s.stack.fullRows = 0
  counted : (s.stack.count : Int) + s.lines * s.stack.width = 4 * s.locked

variable {s : Tetris}

theorem attempt_cases (s : Tetris) (change : Piece → Piece) :
    s.attempt change = (false, s) ∨
      ∃ piece, s.piece = some piece ∧ (change piece).Fits s.stack ∧
        s.attempt change =
          (true, { s with piece := some (change piece) }) := by
  unfold attempt
  split
  · exact .inl rfl
  · rename_i piece hpiece
    split
    · rename_i hfits
      exact .inr ⟨piece, hpiece, hfits, rfl⟩
    · exact .inl rfl

theorem Sound.attempt (hs : s.Sound) (change : Piece → Piece) :
    (s.attempt change).2.Sound := by
  rcases attempt_cases s change with heq | ⟨piece, -, hfits, heq⟩
  · rw [heq]
    exact hs
  · rw [heq]
    refine ⟨hs.width, ?_, hs.cleared, hs.counted⟩
    intro other hother
    rw [← Option.some_inj.mp hother]
    exact hfits

theorem Sound.fallen (hs : s.Sound) (n : Nat) : (Tetris.fallen^[n] s).Sound :=
  Function.Iterate.rec Sound hs (fun _ hs => hs.attempt _) n

theorem Sound.drop (hs : s.Sound) : s.drop.Sound := hs.fallen _

/-- The rows from the first block of the piece to the bottom. -/
private def room (s : Tetris) : Nat :=
  match s.piece with
  | none => 0
  | some piece =>
      match piece.tetromino.cells.head? with
      | none => 0
      | some q => (s.stack.height - (q.y + piece.pos.y)).toNat

private theorem room_le (hs : s.Sound) : room s ≤ s.stack.height.toNat := by
  unfold room
  split
  · omega
  · rename_i piece hpiece
    obtain ⟨q, hhead, hq⟩ := piece.exists_cell
    have hfree := hs.fits piece hpiece _ (List.mem_map_of_mem hq)
    have hrow := (Well.free_iff.mp hfree).1.1
    simp only [hhead]
    simp only at hrow
    omega

private theorem room_fallen (hne : fallen s ≠ s) : room (fallen s) < room s := by
  rcases attempt_cases s (Piece.shifted ⟨0, 1⟩) with
    heq | ⟨piece, hpiece, hfits, heq⟩
  · exact absurd (congrArg Prod.snd heq) hne
  · have hfallen : fallen s =
        { s with piece := some (piece.shifted ⟨0, 1⟩) } :=
      congrArg Prod.snd heq
    obtain ⟨q, hhead, hq⟩ := piece.exists_cell
    have hfree := hfits _ (List.mem_map_of_mem hq)
    have hrow := (Well.free_iff.mp hfree).1.2.1
    rw [hfallen]
    simp only [room, hpiece, Piece.shifted, hhead, Vect2D.add_y] at hrow ⊢
    omega

/-- A dropped piece cannot fall any further. -/
theorem drop_rests (hs : s.Sound) : fallen s.drop = s.drop :=
  iterate_rests room (fun _ hs => hs.attempt _) (fun _ _ => room_fallen) hs
    (room_le hs)

theorem Sound.count_grid (hs : s.Sound) :
    s.grid.count = s.stack.count + 4 * if s.piece.isSome then 1 else 0 := by
  unfold grid
  split
  · rename_i hpiece
    simp [hpiece]
  · rename_i piece hpiece
    rw [Well.count_fill (hs.fits piece hpiece) piece.cells_nodup,
      piece.cells_length, hpiece]
    rfl

theorem grid_width (s : Tetris) : s.grid.width = s.stack.width := by
  unfold grid
  split <;> simp

theorem grid_height (s : Tetris) : s.grid.height = s.stack.height := by
  unfold grid
  split <;> simp

/-- Pieces that came in: the locked ones and the current one. -/
def pieces (s : Tetris) : Nat := s.locked + if s.piece.isSome then 1 else 0

theorem Sound.counted_grid (hs : s.Sound) :
    (s.grid.count : Int) + s.lines * s.stack.width = 4 * s.pieces := by
  have hcounted := hs.counted
  rw [hs.count_grid, pieces]
  generalize (if s.piece.isSome then 1 else 0) = inPlay
  omega

/-- A piece completes four rows at most. -/
theorem Sound.fullRows_grid_le (hs : s.Sound) : s.grid.fullRows ≤ 4 := by
  have hcleared := hs.cleared
  unfold grid
  split
  · omega
  · rename_i piece hpiece
    have hle := Well.fullRows_fill_le (a := piece.tetromino.colour)
      (hs.fits piece hpiece) piece.cells_nodup
    rw [piece.cells_length] at hle
    omega

theorem Sound.land (hs : s.Sound) : s.land.Sound where
  width := by
    have hwidth := hs.width
    rwa [← grid_width] at hwidth
  fits := by
    intro piece hpiece
    contradiction
  cleared := Well.fullRows_clear (by rw [grid_width]; exact hs.width)
  counted := by
    have hcount := s.grid.count_clear
    have hcounted := hs.counted
    have hwidth : s.grid.clear.width = s.stack.width := grid_width s
    rw [grid_width, hs.count_grid] at hcount
    simp only [Tetris.land, hwidth]
    generalize (if s.piece.isSome then 1 else 0) = inPlay at hcount ⊢
    push_cast at hcount ⊢
    rw [Int.add_mul]
    omega

theorem Sound.respawned (hs : s.Sound) (spawned : Nat) :
    ({ s with spawned := spawned } : Tetris).Sound :=
  ⟨hs.width, hs.fits, hs.cleared, hs.counted⟩

theorem spawn_of_fits {sequence : Nat → TetroShapes}
    (hfits : (launched (sequence s.spawned)).Fits s.stack) :
    s.spawn sequence = (false,
      { s with piece := some (launched (sequence s.spawned))
               spawned := s.spawned + 1 }) := by
  simp [spawn, hfits]

theorem spawn_of_not_fits {sequence : Nat → TetroShapes}
    (hfits : ¬ (launched (sequence s.spawned)).Fits s.stack) :
    s.spawn sequence = (true, { s with spawned := s.spawned + 1 }) := by
  simp [spawn, hfits]

theorem Sound.launched (hs : s.Sound) {shape : TetroShapes}
    (hfits : (launched shape).Fits s.stack) :
    ({ s with piece := some (Grzetris.launched shape) } : Tetris).Sound := by
  refine ⟨hs.width, ?_, hs.cleared, hs.counted⟩
  intro other hother
  rw [← Option.some_inj.mp hother]
  exact hfits

theorem Sound.spawn (hs : s.Sound) (sequence : Nat → TetroShapes) :
    (s.spawn sequence).2.Sound := by
  by_cases hfits : (Grzetris.launched (sequence s.spawned)).Fits s.stack
  · rw [spawn_of_fits hfits]
    exact (hs.launched hfits).respawned _
  · rw [spawn_of_not_fits hfits]
    exact hs.respawned _

theorem Sound.tick (hs : s.Sound) (sequence : Nat → TetroShapes) :
    (s.tick sequence).2.Sound := by
  unfold Tetris.tick
  split
  · exact hs.attempt _
  · exact hs.land.spawn sequence

/-! ## Pieces and rows counted -/

/-- Every piece taken from the sequence came in, except those that found no
room; only a landing clears rows. -/
structure Counts (refused landings : Nat) (s s' : Tetris) : Prop where
  pieces : s'.pieces + s.spawned + refused = s.pieces + s'.spawned
  lines_ge : s.lines ≤ s'.lines
  lines_le : s'.lines ≤ s.lines + 4 * landings

theorem Counts.refl (s : Tetris) : Counts 0 0 s s :=
  ⟨by omega, by omega, by omega⟩

theorem Counts.trans {s s' s'' : Tetris} {m n i j : Nat}
    (hfirst : Counts m i s s') (hsecond : Counts n j s' s'') :
    Counts (m + n) (i + j) s s'' := by
  have hpieces := hfirst.pieces
  have hpieces' := hsecond.pieces
  have hge := hfirst.lines_ge
  have hge' := hsecond.lines_ge
  have hle := hfirst.lines_le
  have hle' := hsecond.lines_le
  exact ⟨by omega, by omega, by omega⟩

theorem Counts.mono {s s' : Tetris} {n i j : Nat} (hcounts : Counts n i s s')
    (hle : i ≤ j) : Counts n j s s' :=
  ⟨hcounts.pieces, hcounts.lines_ge, by
    have hlines := hcounts.lines_le
    omega⟩

theorem attempt_counts (s : Tetris) (change : Piece → Piece) :
    Counts 0 0 s (s.attempt change).2 := by
  rcases attempt_cases s change with heq | ⟨piece, hpiece, -, heq⟩
  · rw [heq]
    exact .refl s
  · rw [heq]
    exact ⟨by simp [pieces, hpiece], by simp, by simp⟩

theorem fallen_counts (s : Tetris) (n : Nat) : Counts 0 0 s (fallen^[n] s) :=
  Function.Iterate.rec (Counts 0 0 s) (.refl s)
    (fun s' hs' => hs'.trans (attempt_counts s' _)) n

theorem Sound.land_counts (hs : s.Sound) : Counts 0 1 s s.land := by
  have hfull := hs.fullRows_grid_le
  exact ⟨by simp [pieces, Tetris.land], by simp [Tetris.land],
    by simp only [Tetris.land]; omega⟩

theorem spawn_counts (s : Tetris) (hpiece : s.piece = none)
    (sequence : Nat → TetroShapes) :
    Counts (s.spawn sequence).1.toNat 0 s (s.spawn sequence).2 := by
  by_cases hfits : (launched (sequence s.spawned)).Fits s.stack
  · rw [spawn_of_fits hfits]
    exact ⟨by simp [pieces, hpiece]; omega, by simp, by simp⟩
  · rw [spawn_of_not_fits hfits]
    exact ⟨by simp [pieces, hpiece]; omega, by simp, by simp⟩

theorem Sound.tick_counts (hs : s.Sound) (sequence : Nat → TetroShapes) :
    Counts (s.tick sequence).1.toNat 1 s (s.tick sequence).2 := by
  unfold Tetris.tick
  split
  · exact (attempt_counts s (Piece.shifted ⟨0, 1⟩)).mono (Nat.zero_le 1)
  · have hcounts := hs.land_counts.trans (spawn_counts s.land rfl sequence)
    simpa using hcounts

/-! ## Rows are cleared at a landing only -/

theorem spawn_lines (sequence : Nat → TetroShapes) (s : Tetris) :
    (s.spawn sequence).2.lines = s.lines := by
  by_cases hfits : (launched (sequence s.spawned)).Fits s.stack
  · rw [spawn_of_fits hfits]
  · rw [spawn_of_not_fits hfits]

theorem fallen_lines (n : Nat) (s : Tetris) :
    (fallen^[n] s).lines = s.lines := by
  have hcounts := fallen_counts s n
  have hge := hcounts.lines_ge
  have hle := hcounts.lines_le
  omega

theorem drop_lines (s : Tetris) : s.drop.lines = s.lines :=
  fallen_lines _ s

end Tetris

end Grzetris
