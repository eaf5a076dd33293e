import Grzetris.Engine.HardDrop
import Grzetris.Game.Steps

/-!
# Hard drop and soft drop

The DROP handler lowers the piece as far as it goes and then runs the timeout
action once; each DOWN handler runs the timeout action alone.
-/

namespace Grzetris

open Foundation Playfield

variable {env : Env} {s t : RunState} {p p' : Playfield}
  {shape shape' : Polyomino}

theorem handleDown_eq (env : Env) (s : RunState) :
    handleDown env s = (timeoutAction env.rolls s.game).map fun r =>
      ([.timeoutAction r.1], landed env s r.1 r.2) := by
  unfold handleDown
  cases timeoutAction env.rolls s.game <;> rfl

theorem inputLoop_append_of_eq {before after : List Bind}
    {log : List (Bind × List Call)}
    (hbefore : inputLoop env s before = some (log, t)) :
    inputLoop env s (before ++ after) =
      (inputLoop env t after).map fun r => (log ++ r.1, r.2) := by
  ext ⟨log', u⟩
  rw [inputLoop_append]
  simp [hbefore, eq_comm]

/-- A DOWN that lowers the piece changes nothing else in the game. -/
theorem downs_of_falls (env : Env) {j : Nat}
    (hfalls : falls j p shape = some (p', shape')) (hp : s.game.p = p)
    (hshape : s.game.shape = shape) :
    ∃ log t, inputLoop env s (List.replicate j .gameDown) = some (log, t) ∧
      t.game = { s.game with p := p', shape := shape' } := by
  induction j generalizing s p shape with
  | zero =>
      obtain ⟨rfl, rfl⟩ := falls_zero.mp hfalls
      exact ⟨[], s, rfl, by rw [← hp, ← hshape]⟩
  | succ j ih =>
      obtain ⟨p₁, shape₁, hmove, hrest⟩ := falls_succ.mp hfalls
      have hdown : handleBind env s .gameDown =
          some ([.timeoutAction 0], landed env s 0
            { s.game with p := p₁, shape := shape₁ }) := by
        rw [handleBind, handleDown_eq, timeoutAction, hp, hshape, hmove]
        rfl
      obtain ⟨log, t, hloop, hgame⟩ := ih
        (s := landed env s 0 { s.game with p := p₁, shape := shape₁ })
        hrest rfl rfl
      refine ⟨(.gameDown, [.timeoutAction 0]) :: log, t, ?_, hgame⟩
      simp [List.replicate_succ, inputLoop, hdown, hloop]

theorem handleDrop_eq (env : Env)
    (hdrop : dropPolyno p shape = some (p', shape')) (hp : s.game.p = p)
    (hshape : s.game.shape = shape) :
    handleBind env s .gameDrop =
      (timeoutAction env.rolls
        { s.game with p := p', shape := shape' }).map fun r =>
          ([.drop, .timeoutAction r.1], landed env
            { s with game := { s.game with p := p', shape := shape' } }
            r.1 r.2) := by
  rw [handleBind, hp, hshape, hdrop, Option.bind_eq_bind, Option.bind_some]
  simp only [handleDown_eq, Option.bind_eq_bind]
  cases timeoutAction env.rolls { s.game with p := p', shape := shape' } <;> rfl

theorem drop_eq_downs {k : Nat} (hdrop : dropPolyno p shape = some (p', shape'))
    (hfalls : falls k p shape = some (p', shape')) (hp : s.game.p = p)
    (hshape : s.game.shape = shape) :
    (handleBind env s .gameDrop).map (fun r => (r.2.game, r.1.getLast?)) =
      (inputLoop env s (List.replicate (k + 1) .gameDown)).map fun r =>
        (r.2.game, (r.1.flatMap Prod.snd).getLast?) := by
  obtain ⟨log, t, hloop, hgame⟩ := downs_of_falls env hfalls hp hshape
  have hlast : inputLoop env t [.gameDown] =
      (timeoutAction env.rolls t.game).map fun r =>
        ([(.gameDown, [.timeoutAction r.1])], landed env t r.1 r.2) := by
    simp only [inputLoop, handleBind, handleDown_eq, Option.bind_eq_bind]
    cases timeoutAction env.rolls t.game <;> rfl
  rw [List.replicate_succ', inputLoop_append_of_eq hloop, hlast,
    handleDrop_eq env hdrop hp hshape, hgame]
  simp only [Option.map_map]
  congr 1
  funext r
  simp [landed, resetTimeout]

/-- The next piece can be spawned whatever piece has just landed. -/
theorem handleDrop_total {k : Nat}
    (hdrop : dropPolyno p shape = some (p', shape'))
    (hfallen : Fallen p shape k p' shape') (hp : s.game.p = p)
    (hshape : s.game.shape = shape)
    (hnext : ∃ other, s.game.nextShape = template other)
    (hloaded : s.game.engine.Loaded) :
    (handleBind env s .gameDrop).isSome := by
  obtain ⟨other, hother⟩ := hnext
  have htimeout : (timeoutAction env.rolls
      { s.game with p := p', shape := shape' }).isSome := by
    rcases movePolyno_cases hfallen.board ⟨0, 1⟩ with
      ⟨-, hrefused⟩ | ⟨-, p₂, haccepted, -⟩
    · have hinv : GameInv
          { s.game with p := p', shape := template other } :=
        ⟨⟨⟨hfallen.board.rect, hfallen.board.height, hfallen.board.width,
          .inl (template_pos other)⟩, template_isTetromino other⟩,
          ⟨other, hother⟩, hloaded⟩
      obtain ⟨result, game, hspawn, -⟩ := spawn_spec env.rolls hinv
      have hland : timeoutAction env.rolls
          { s.game with p := p', shape := shape' } = some (result, game) := by
        rw [timeoutAction, hrefused]
        exact hspawn
      rw [hland, Option.isSome_some]
    · simp [timeoutAction, haccepted]
  rw [handleDrop_eq env hdrop hp hshape, Option.isSome_map]
  exact htimeout

/-- The drop ends, the piece has fallen by the greatest `k` such that nothing
is in its way up to there, and DROP does to the game what `k + 1` DOWNs do. -/
theorem hardDrop_exact (hr : p.Rect) (hplaced : Placed p shape)
    (habove : -32 < shape.pos.y) (hne : shape.blocks ≠ []) :
    ∃ (k : Nat) (p' : Playfield) (shape' : Polyomino),
      dropPolyno p shape = some (p', shape') ∧
      shape' = { shape with pos := ⟨0, (k : Int)⟩ + shape.pos } ∧
      IsGreatest {m : Nat | ∀ j ≤ m, HasRoom p shape
        (⟨0, (j : Int)⟩ + shape.pos) true} k ∧
      MovedTo p p' shape shape' ∧
      ∀ (env : Env) (s : RunState), s.game.p = p → s.game.shape = shape →
        (handleBind env s .gameDrop).map (fun r => (r.2.game, r.1.getLast?)) =
          (inputLoop env s (List.replicate (k + 1) .gameDown)).map (fun r =>
            (r.2.game, (r.1.flatMap Prod.snd).getLast?)) ∧
        ((∃ other, s.game.nextShape = template other) →
          s.game.engine.Loaded → (handleBind env s .gameDrop).isSome) := by
  obtain ⟨k, p', shape', hdrop, hfallen, -, hgreatest⟩ :=
    dropPolyno_falls hr hplaced habove hne
  exact ⟨k, p', shape', hdrop, hfallen.shape_eq, hgreatest, hfallen.moved,
    fun env s hp hshape => ⟨drop_eq_downs hdrop hfallen.falls hp hshape,
      handleDrop_total hdrop hfallen hp hshape⟩⟩

/-- A shaft of three rows with a block at its top. -/
def shaft : Playfield where
  h := 3
  w := 1
  blocks := [[some ⟨0, ⟨⟨0, 0⟩, .green⟩⟩], [none], [none]]
  heap := { next := 1, freed := [] }

def pebble : Polyomino where
  pos := ⟨0, 0⟩
  pivot := ⟨0, 0⟩
  h := 1
  w := 1
  blocks := [⟨⟨0, 0⟩, .green⟩]

theorem hardDrop_exact_shaft :
    ∃ p' shape', dropPolyno shaft pebble = some (p', shape') ∧
      shape'.pos = ⟨0, 2⟩ ∧ MovedTo shaft p' pebble shape' := by
  have hplaced : Placed shaft pebble :=
    ⟨by decide, by decide, by decide, by decide, by
      intro b hb
      simp only [pebble, List.mem_singleton] at hb
      subst hb
      exact ⟨_, rfl, rfl⟩⟩
  obtain ⟨k, p', shape', hdrop, -, -, hmoved, -⟩ :=
    hardDrop_exact (p := shaft) ⟨rfl, by decide⟩ hplaced (by decide)
      (by decide)
  have hpos : (dropPolyno shaft pebble).map (fun r => r.2.pos) =
      some ⟨0, 2⟩ := by decide
  rw [hdrop, Option.map_some, Option.some_inj] at hpos
  exact ⟨p', shape', hdrop, hpos, hmoved⟩

end Grzetris
