import Grzetris.Config.Bindings
import Grzetris.Program.Proceeds

/-!
# The way of a key

The menu and the game take codes from one buffer.  What was typed comes out in
the order in which it went in, each code once, and in the loop that is running
when its turn comes.
-/

namespace Grzetris

open Foundation

variable {env : Env} {typed : List Int} {s s' : Program} {e : Event}
  {data : Addr} {table : Input} {i : Nat}

/-- The codes that a step puts into the buffer. -/
def Event.arrived : Event → List Code
  | .fetched typed => received typed
  | _ => []

/-- The codes that a step takes out of the buffer. -/
def Event.taken : Event → List Code
  | .handled _ code _ => [code]
  | .dropped codes => codes
  | _ => []

/-- A place in the game at which the inputs have been handled. -/
def Program.Settled (s : Program) : Prop :=
  match s.control with
  | .lockout | .timeout => True
  | .game => ∃ g, s.rest.game = some g ∧ g.loop = false
  | _ => False

structure BufferInv (s : Program) : Prop where
  no_error : Code.error ∉ s.input.inputBuffer
  settled : s.Settled → s.input.inputBuffer = []

theorem Answers.buffer {t menu : MenuState Callback World} {bind : Bind}
    {ret : Int} (hanswers : Answers (launch env) data i t bind ret menu) :
    menu.input.inputBuffer = t.input.inputBuffer := by
  cases hanswers <;> rfl

theorem Proceeds.buffer (h : Proceeds env data typed s e s') :
    s.input.inputBuffer ++ e.arrived = e.taken ++ s'.input.inputBuffer := by
  cases h with
  | menuFetches _ _ =>
      rw [menuFetch, fetch_eq]
      rfl
  | gameFetches _ _ _ =>
      rw [gameFetch, fetch_eq]
      rfl
  | leaves _ _ => simp [Event.arrived, Event.taken]
  | menuHandles _ hbuffer _ _ hanswers =>
      have hkept := hanswers.buffer
      simp only [popped, hbuffer, List.tail_cons] at hkept
      simp [Event.arrived, Event.taken, answered, hkept, hbuffer]
  | gameHandles _ _ hbuffer _ =>
      simp [Event.arrived, Event.taken, popped, hbuffer]
  | returns _ _ _ hreturn =>
      obtain ⟨_, _, rfl⟩ := gameReturn_eq hreturn
      simp [Event.arrived, Event.taken]
  | menuDone _ _ | inputsDone _ _ _ | locksOut _ _ _ | timesOut _ _ _
  | stays _ => exact List.append_nil _

theorem Proceeds.no_error (h : Proceeds env data typed s e s') :
    Code.error ∉ e.arrived := by
  cases h with
  | menuFetches _ _ | gameFetches _ _ _ => exact error_notMem_received typed
  | _ => exact List.not_mem_nil

theorem loop_of_startRun {env : Env} {engine : Engine} {g : RunState}
    (hstart : startRun env engine = some g) : g.loop = true :=
  (startRun_eq hstart).2.1

/-- A new game goes on, so codes that were typed ahead wait for its inputs. -/
theorem Answers.not_settled {t menu : MenuState Callback World} {bind : Bind}
    {ret : Int} (hanswers : Answers (launch env) data i t bind ret menu)
    (hgame : t.rest.game = none) : ¬ (answered ret menu).Settled := by
  cases hanswers with
  | plays _ =>
      simp only [Program.Settled, answered, isSome_launch]
      rintro ⟨g, hlaunched, hover⟩
      rw [loop_of_startRun hlaunched] at hover
      contradiction
  | _ => simp [Program.Settled, answered, hgame]

theorem BufferInv.start (hstart : startProgram table data = some s) :
    BufferInv s := by
  obtain rfl := startProgram_eq hstart
  exact ⟨List.not_mem_nil, fun _ => rfl⟩

theorem BufferInv.step (hs : ProgramInv table data s) (hbuffer : BufferInv s)
    (h : Proceeds env data typed s e s') : BufferInv s' where
  no_error := by
    have hsplit := h.buffer
    intro hmem
    have hearlier : Code.error ∈ s.input.inputBuffer ++ e.arrived := by
      rw [hsplit]
      exact List.mem_append_right _ hmem
    rcases List.mem_append.mp hearlier with hqueued | harrived
    · exact hbuffer.no_error hqueued
    · exact h.no_error harrived
  settled := by
    intro hsettled
    cases h with
    | inputsDone _ _ hempty => exact hempty
    | locksOut hcontrol _ _ | timesOut hcontrol _ _ =>
        apply hbuffer.settled
        rw [Program.Settled, hcontrol]
        trivial
    | menuHandles hcontrol _ _ _ hanswers =>
        have hnone : s.rest.game = none := by
          rw [← Option.not_isSome_iff_eq_none, hs.playing, hcontrol]
          decide
        exact absurd hsettled (hanswers.not_settled hnone)
    | returns _ _ _ hreturn =>
        obtain ⟨_, _, rfl⟩ := gameReturn_eq hreturn
        exact hsettled.elim
    | gameHandles hcontrol _ _ _ =>
        simp [Program.Settled, Program.setGame, hcontrol] at hsettled
    | stays hcontrol => simp [Program.Settled, hcontrol] at hsettled
    | menuFetches _ _ | leaves _ _ | menuDone _ _ | gameFetches _ _ _ =>
        exact hsettled.elim

theorem ProgramRun.bufferInv (run : ProgramRun env table data) :
    ∀ k ≤ run.length, BufferInv (run.state k) :=
  run.invariant_index (.start run.start) fun _ hk hbuffer =>
    hbuffer.step (run.inv _ (Nat.le_of_lt hk)) (run.proceeds hk)

/--
In every run of the program, the codes that the keyboard has delivered are the
codes that were handled or dropped, in this order, and then those that wait in
the buffer.  The code `ERROR` never waits there, and no code waits when a game
returns: what is typed into a game never reaches the menu.
-/
theorem program_keys (run : ProgramRun env table data) :
    ∀ k ≤ run.length,
      ((List.range k).flatMap fun j => (run.event j).arrived) =
        ((List.range k).flatMap fun j => (run.event j).taken) ++
          (run.state k).input.inputBuffer ∧
      Code.error ∉ (run.state k).input.inputBuffer ∧
      (k < run.length → run.event k = .returned →
        (run.state k).input.inputBuffer = []) := by
  have hkeys : ∀ k ≤ run.length,
      ((List.range k).flatMap fun j => (run.event j).arrived) =
        ((List.range k).flatMap fun j => (run.event j).taken) ++
          (run.state k).input.inputBuffer := by
    refine run.invariant_index ?_ ?_
    · rw [startProgram_eq run.start]
      rfl
    · intro k hk ih
      have hstep := (run.proceeds hk).buffer
      simp only [List.range_succ, List.flatMap_append, List.flatMap_singleton]
      rw [ih, List.append_assoc, hstep, List.append_assoc]
  intro k hk
  have hbuffer := run.bufferInv k hk
  refine ⟨hkeys k hk, hbuffer.no_error, fun hlt hreturned => ?_⟩
  have hstep := run.proceeds hlt
  rw [hreturned] at hstep
  cases hstep with
  | returns hcontrol hgame hover _ =>
      apply hbuffer.settled
      rw [Program.Settled, hcontrol]
      exact ⟨_, hgame, hover⟩

/-- With the default bindings: RETURN starts a game that Q ends, then K and
RETURN lead to the end of the program. -/
def sessionScript : List (List Int) :=
  [['\n'.toNat, 'q'.toNat], [], [], [], [], [], [], [], [],
    ['k'.toNat, '\n'.toNat], [], [], []]

theorem exists_sessionRun :
    ∃ run : ProgramRun (steadyEnv 0) (setDefaultBinds Input.empty) 0,
      run.length = 13 ∧ (run.state 4).control = .gameInput ∧
        run.event 7 = .returned ∧ (run.state 13).control = .ended := by
  have hvisited : ((programScript (steadyEnv 0) (setDefaultBinds Input.empty) 0
      sessionScript).map fun visited =>
        (visited.length, visited[3]?.map fun v => v.2.control,
          visited[7]?.map fun v => v.1, visited[12]?.map fun v => v.2.control)) =
      some (13, some .gameInput, some .returned, some .ended) := by
    decide +kernel
  simp only [Option.map_eq_some_iff, Prod.mk.injEq, Prod.exists]
    at hvisited
  obtain ⟨visited, hscript, hlength, ⟨e₃, s₃, hget₃, hinput⟩,
    ⟨e₇, s₇, hget₇, hreturned⟩, ⟨e₁₂, s₁₂, hget₁₂, hended⟩⟩ := hvisited
  obtain ⟨run, hrun, hstates⟩ := exists_run_of_programScript hscript
  refine ⟨run, hrun.trans hlength, ?_, ?_, ?_⟩
  · rw [(hstates 3 e₃ s₃ hget₃).2, hinput]
  · rw [(hstates 7 e₇ s₇ hget₇).1, hreturned]
  · rw [(hstates 12 e₁₂ s₁₂ hget₁₂).2, hended]

theorem program_keys_session :
    ∃ run : ProgramRun (steadyEnv 0) (setDefaultBinds Input.empty) 0,
      run.event 7 = .returned ∧
        ((List.range 7).flatMap fun j => (run.event j).arrived) =
          ((List.range 7).flatMap fun j => (run.event j).taken) ++
            (run.state 7).input.inputBuffer ∧
        Code.error ∉ (run.state 7).input.inputBuffer ∧
        (7 < run.length → run.event 7 = .returned →
          (run.state 7).input.inputBuffer = []) := by
  obtain ⟨run, hlength, -, hreturned, -⟩ := exists_sessionRun
  exact ⟨run, hreturned, program_keys run 7 (by omega)⟩

end Grzetris
