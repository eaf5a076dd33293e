import Grzetris.Engine.Keeps
import Grzetris.Game.Steps

/-!
# What a run keeps

What the three changes of `Engine.Keeps` keep of a playfield holds in every
state of a run of the main loop.
-/

namespace Grzetris

open Foundation Playfield

variable {P : Colour → Prop} {I : Playfield → Prop} {p p' : Playfield}
  {g g' : Game} {rolls : Rolls} {env : Env} {s s' : RunState}
  {calls : List Call} {engine : Engine}

namespace EngineKeeps

variable (h : EngineKeeps P I)
include h

/-! ## The timeout action -/

theorem clearLines (hp : I p) (hclear : clearLines p = some p') : I p' := by
  unfold Grzetris.clearLines at hclear
  split at hclear
  · simp only [Option.bind_eq_bind, Option.bind_eq_some_iff, Option.some.injEq,
      Prod.exists] at hclear
    obtain ⟨numCleared, p₁, hrows, rfl⟩ := hclear
    exact h.clearFilledRows hp hrows
  · cases hclear
    exact hp

theorem spawn {result : Int} (hp : I g.p) (hnext : g.nextShape.Coloured P)
    (hspawn : spawn rolls g = some (result, g')) :
    I g'.p ∧ g'.shape.Coloured P := by
  simp only [Grzetris.spawn, Option.bind_eq_bind, Option.bind_eq_some_iff,
    Prod.exists] at hspawn
  obtain ⟨p₁, hclear, nextShape, engine, -, fits, -, hspawn⟩ := hspawn
  have hp₁ := h.clearLines hp hclear
  cases fits with
  | false =>
      cases hspawn
      exact ⟨hp₁, hnext⟩
  | true =>
      simp only [if_true, Option.bind_eq_some_iff, Option.some.injEq,
        Prod.mk.injEq, Prod.exists] at hspawn
      obtain ⟨p₂, shape, hset, -, rfl⟩ := hspawn
      exact h.setPolynoPos hp₁ hnext hset

theorem timeoutAction {result : Int} (hp : I g.p)
    (hshape : g.shape.Coloured P) (hnext : g.nextShape.Coloured P)
    (hact : timeoutAction rolls g = some (result, g')) :
    I g'.p ∧ g'.shape.Coloured P := by
  simp only [Grzetris.timeoutAction, Option.bind_eq_bind,
    Option.bind_eq_some_iff, Prod.exists] at hact
  obtain ⟨moved, p₁, shape, hmove, hact⟩ := hact
  have hmoved := h.move hp hshape hmove
  cases moved with
  | false => exact h.spawn (g := { g with p := p₁ }) hmoved.1 hnext hact
  | true =>
      cases hact
      exact hmoved

/-! ## The loop -/

variable (htemplates : ∀ shape, (template shape).Coloured P)
include htemplates

theorem handles {bind : Bind} (hhandles : Handles env s bind calls s')
    (hinv : RunInv s.game) (hp : I s.game.p)
    (hshape : s.game.shape.Coloured P) :
    I s'.game.p ∧ s'.game.shape.Coloured P := by
  have hnext : s.game.nextShape.Coloured P := by
    obtain ⟨shape, hnext⟩ := hinv.next
    exact hnext ▸ htemplates shape
  cases hhandles with
  | ignored _ | quit | skipped _ _ => exact ⟨hp, hshape⟩
  | left _ hmove | right _ hmove => exact h.move hp hshape hmove
  | rotate _ hrotate => exact h.rotate hp hshape hrotate
  | drop hdrop hact =>
      obtain ⟨hp₁, hshape₁⟩ := h.dropLoop hp hshape hdrop
      exact h.timeoutAction (g := { s.game with p := _, shape := _ }) hp₁ hshape₁
        hnext hact
  | down hact => exact h.timeoutAction hp hshape hnext hact

theorem steps {fetched : List Bind} (hsteps : Steps env fetched s calls s')
    (hinv : RunInv s.game) (hp : I s.game.p)
    (hshape : s.game.shape.Coloured P) :
    I s'.game.p ∧ s'.game.shape.Coloured P := by
  have hnext : s.game.nextShape.Coloured P := by
    obtain ⟨shape, hnext⟩ := hinv.next
    exact hnext ▸ htemplates shape
  cases hsteps with
  | begins _ _ | exits _ _ | inputsDone _ | stays _ => exact ⟨hp, hshape⟩
  | handles _ hhandles =>
      have hkept := h.handles htemplates hhandles hinv hp hshape
      exact hkept
  | locksOut _ hlocks =>
      cases hlocks with
      | inactive _ => exact ⟨hp, hshape⟩
      | waits _ _ _ | leaves _ _ =>
          have hgame : I (graced env s).game.p ∧
              (graced env s).game.shape.Coloured P := by
            rw [graced_game]
            exact ⟨hp, hshape⟩
          exact hgame
      | locks _ _ _ _ hact => exact h.timeoutAction hp hshape hnext hact
  | timesOut _ htimes =>
      cases htimes with
      | early _ | waits _ _ _ | primes _ _ _ => exact ⟨hp, hshape⟩
      | falls _ _ hmove => exact h.move hp hshape hmove

theorem startGame (hempty : I (initPlayfield engine.init 20 10).1)
    (hstart : startGame rolls engine = some g) :
    I g.p ∧ g.shape.Coloured P := by
  simp only [Grzetris.startGame, Option.bind_eq_bind, Option.bind_eq_some_iff,
    Option.some.injEq, Prod.exists] at hstart
  obtain ⟨first, e₁, hfirst, second, e₂, -, p₁, shape, hset, rfl⟩ := hstart
  obtain ⟨piece, _, _, hdraw, -⟩ := drawTetro_spec rolls
    (e := (initPlayfield engine.init 20 10).2) (loadTetros_loaded engine)
  rw [hdraw] at hfirst
  cases hfirst
  exact h.setPolynoPos hempty (htemplates piece) hset

end EngineKeeps

/-- The rule for invariants of the playfield. -/
theorem EngineKeeps.run (h : EngineKeeps P I)
    (htemplates : ∀ shape, (template shape).Coloured P)
    (run : GameRun env engine)
    (hempty : I (initPlayfield engine.init 20 10).1) :
    ∀ k ≤ run.length, I (run.state k).game.p ∧
      (run.state k).game.shape.Coloured P := by
  refine run.invariant_index ?_ ?_
  · exact h.startGame htemplates hempty (startRun_eq run.start).1
  · intro k hk hkept
    exact h.steps htemplates (run.steps hk) (run.runInv k (Nat.le_of_lt hk))
      hkept.1 hkept.2

end Grzetris
