import Grzetris.Game.Steps
import Mathlib.Order.Interval.Set.Basic

/-!
# No timer acts early

Two invariants about the past of a run.  One relates the lockout flag and the
post of the lockout timer to the last change of the piece; the other relates
the post of the timeout timer to the last step that reset it.
-/

namespace Grzetris

open Foundation

variable {env : Env} {engine : Engine} {s s' : RunState} {calls : List Call}
  {fetched : List Bind}

theorem elapsed_of_toMilliseconds {limit nanoseconds : Int} (hpos : 0 < limit)
    (hle : limit ≤ toMilliseconds nanoseconds) :
    limit * 1000000 ≤ nanoseconds := by
  unfold toMilliseconds at hle
  rcases Int.lt_or_le nanoseconds 0 with hneg | hnonneg
  · have hswap := Int.tdiv_nonneg (a := -nanoseconds) (b := 1000000) (by omega)
      (by decide)
    rw [Int.neg_tdiv] at hswap
    omega
  · rw [Int.tdiv_eq_ediv_of_nonneg hnonneg] at hle
    omega

theorem Steps.reads_le (h : Steps env fetched s calls s') :
    s.reads ≤ s'.reads := by
  cases h with
  | begins _ _ => exact Nat.le_succ _
  | exits _ _ | inputsDone _ | stays _ => exact Nat.le_refl _
  | handles _ hhandle =>
      cases hhandle with
      | ignored _ | quit | skipped _ _ | left _ _ | right _ _ | rotate _ _ =>
          exact Nat.le_refl _
      | drop _ _ | down _ => exact Nat.le_succ _
  | locksOut _ hblock =>
      cases hblock with
      | inactive _ => exact Nat.le_refl _
      | waits _ _ _ => exact le_graced_reads
      | leaves _ _ => exact Nat.le_succ_of_le le_graced_reads
      | locks _ _ _ _ _ => exact Nat.le_succ _
  | timesOut _ hblock =>
      cases hblock with
      | early _ => exact Nat.le_refl _
      | waits _ _ _ | falls _ _ _ => exact Nat.le_succ _
      | primes _ _ _ => exact Nat.le_succ_of_le (Nat.le_succ _)

/-! ## What a step does to the lockout timer -/

/-- Before the lockout block, with the flag that restarts the grace period. -/
def Moving (s : RunState) : Prop :=
  s.hasMoved = true ∧ (s.phase = .lockout ∨ ∃ queue, s.phase = .input queue)

theorem not_moving_of_still (hmoved : s.hasMoved = false) : ¬ Moving s := by
  rintro ⟨hmoving, -⟩
  rw [hmoved] at hmoving
  contradiction

theorem not_moving_of_phase (hlockout : s.phase ≠ .lockout)
    (hinput : ∀ queue, s.phase ≠ .input queue) : ¬ Moving s := by
  rintro ⟨-, hphase | ⟨queue, hphase⟩⟩
  · exact hlockout hphase
  · exact hinput queue hphase

/-- The four things a step can mean for a piece in lockout. -/
inductive LockoutStep (env : Env) (s s' : RunState) : Prop
  | free : s'.isLockout = false → LockoutStep env s s'
  | kept : s.isLockout = true →
      s'.timers.lockout.post = s.timers.lockout.post →
      s'.game.shape = s.game.shape →
      s'.game.engine = s.game.engine → (Moving s → Moving s') →
      LockoutStep env s s'
  | moved : s.isLockout = true →
      s'.timers.lockout.post = s.timers.lockout.post →
      s'.game.engine = s.game.engine → Moving s' → LockoutStep env s s'
  | primed : s'.timers.lockout.post = env.clock s.reads →
      s'.game.shape = s.game.shape →
      s'.game.engine = s.game.engine → LockoutStep env s s'

private theorem Handles.lockoutStep {bind : Bind} {queue : List Bind}
    (hlockout : s.isLockout = true) (h : Handles env s bind calls s') :
    LockoutStep env s { s' with phase := .input queue } := by
  cases h with
  | ignored _ | quit | skipped _ _ =>
      exact .kept hlockout rfl rfl rfl
        fun hmoving => ⟨hmoving.1, .inr ⟨queue, rfl⟩⟩
  | @left moved p shape hmoved hmove =>
      cases moved with
      | true => exact .moved hlockout rfl rfl ⟨rfl, .inr ⟨queue, rfl⟩⟩
      | false =>
          exact .kept hlockout rfl (movePolyno_eq_false hmove).2 rfl
            fun hmoving => absurd hmoving (not_moving_of_still hmoved)
  | right _ _ => exact .moved hlockout rfl rfl ⟨rfl, .inr ⟨queue, rfl⟩⟩
  | @rotate result p shape hmoved hrotate =>
      by_cases hzero : result = 0
      · exact .moved hlockout rfl rfl
          ⟨by simp [hzero], .inr ⟨queue, rfl⟩⟩
      · exact .kept hlockout rfl (rotate_ne_zero hrotate hzero) rfl
          fun hmoving => absurd hmoving (not_moving_of_still hmoved)
  | drop _ _ | down _ => exact .free rfl

private theorem LocksOut.lockoutStep (hlockout : s.isLockout = true)
    (h : LocksOut env s calls s') :
    LockoutStep env s { s' with phase := .timeout } := by
  cases h with
  | inactive hinactive =>
      rw [hlockout] at hinactive
      contradiction
  | waits _ _ _ =>
      cases hmoved : s.hasMoved with
      | true =>
          have hgraced : graced env s = resetLockout env s := if_pos hmoved
          rw [hgraced]
          exact .primed rfl rfl rfl
      | false =>
          rw [graced_of_not_moved hmoved]
          exact .kept hlockout rfl rfl rfl
            fun hmoving => absurd hmoving (not_moving_of_still hmoved)
  | leaves _ _ | locks _ _ _ _ _ => exact .free rfl

private theorem TimesOut.lockoutStep (hphase : s.phase = .timeout)
    (h : TimesOut env s calls s') :
    LockoutStep env s { s' with phase := .head } := by
  have hnot : ¬ Moving s :=
    not_moving_of_phase (by simp [hphase]) (by simp [hphase])
  cases hlockout : s.isLockout with
  | false =>
      cases h with
      | early _ | falls _ _ _ => exact .free hlockout
      | waits _ hlockout' _ =>
          rw [hlockout] at hlockout'
          contradiction
      | primes _ _ _ => exact .primed rfl rfl rfl
  | true =>
      cases h with
      | early _ | waits _ _ _ =>
          exact .kept hlockout rfl rfl rfl fun hmoving => absurd hmoving hnot
      | primes _ hlockout' _ | falls _ hlockout' _ =>
          rw [hlockout] at hlockout'
          contradiction

theorem Steps.lockoutStep (h : Steps env fetched s calls s') :
    LockoutStep env s s' := by
  cases hlockout : s.isLockout with
  | true =>
      cases h with
      | begins hphase _ | exits hphase _ | stays hphase =>
          have hnot : ¬ Moving s :=
            not_moving_of_phase (by simp [hphase]) (by simp [hphase])
          exact .kept hlockout rfl rfl rfl fun hmoving => absurd hmoving hnot
      | inputsDone _ =>
          exact .kept hlockout rfl rfl rfl
            fun hmoving => ⟨hmoving.1, .inl rfl⟩
      | handles _ hhandle => exact hhandle.lockoutStep hlockout
      | locksOut _ hblock => exact hblock.lockoutStep hlockout
      | timesOut hphase hblock => exact hblock.lockoutStep hphase
  | false =>
      cases h with
      | begins _ _ | exits _ _ | inputsDone _ | stays _ => exact .free hlockout
      | handles _ hhandle =>
          cases hhandle with
          | ignored _ | quit | skipped _ _ | left _ _ | right _ _
          | rotate _ _ => exact .free hlockout
          | drop _ _ | down _ => exact .free rfl
      | locksOut _ hblock =>
          cases hblock with
          | inactive _ => exact .free hlockout
          | waits hlockout' _ _ =>
              rw [hlockout] at hlockout'
              contradiction
          | leaves _ _ | locks _ _ _ _ _ => exact .free rfl
      | timesOut hphase hblock => exact hblock.lockoutStep hphase

/-! ## The grace period belongs to the piece -/

/-- Since some reading that the lockout timer started no earlier than, `key` has
not changed. -/
def SinceLockout {α : Type*} (run : GameRun env engine) (key : RunState → α)
    (k : Nat) : Prop :=
  ∃ j ≤ k, (∀ m, j ≤ m → m ≤ k → key (run.state m) = key (run.state k)) ∧
    env.clock (run.state j).reads ≤ (run.state k).timers.lockout.post

theorem SinceLockout.succ {α : Type*} {run : GameRun env engine}
    {key : RunState → α} {k : Nat} (hsince : SinceLockout run key k)
    (hkey : key (run.state (k + 1)) = key (run.state k))
    (hpost : (run.state (k + 1)).timers.lockout.post =
      (run.state k).timers.lockout.post) : SinceLockout run key (k + 1) := by
  rcases hsince with ⟨j, hj, hsame, hclock⟩
  refine ⟨j, by omega, ?_, by rw [hpost]; exact hclock⟩
  intro m hjm hm
  rcases Nat.lt_or_ge k m with hlt | hge
  · have heq : m = k + 1 := by omega
    rw [heq]
  · rw [hsame m hjm hge, hkey]

theorem SinceLockout.start {α : Type*} {run : GameRun env engine}
    {key : RunState → α} {k : Nat}
    (hkey : key (run.state (k + 1)) = key (run.state k))
    (hpost : (run.state (k + 1)).timers.lockout.post =
      env.clock (run.state k).reads) : SinceLockout run key (k + 1) := by
  refine ⟨k, by omega, ?_, hpost.ge⟩
  intro m hkm hm
  rcases Nat.lt_or_ge k m with hlt | hge
  · have heq : m = k + 1 := by omega
    rw [heq]
  · have heq : m = k := by omega
    rw [heq, hkey]

def RunState.piece (s : RunState) : Nat × Polyomino :=
  (s.game.engine.drawn, s.game.shape)

/-- The lockout was entered by the piece that is in it, and that piece has not
changed since the post unless the grace period is about to restart. -/
def LockoutInv (run : GameRun env engine) (k : Nat) : Prop :=
  (run.state k).isLockout = true →
    SinceLockout run (fun s => s.game.engine.drawn) k ∧
      (Moving (run.state k) ∨ SinceLockout run RunState.piece k)

theorem run_lockoutInv (run : GameRun env engine) :
    ∀ k ≤ run.length, LockoutInv run k := by
  refine run.invariant_index ?_ ?_
  · intro hlockout
    rw [(startRun_eq run.start).2.2.1] at hlockout
    contradiction
  · intro k hk hinv hlockout
    cases (run.steps hk).lockoutStep with
    | free hfree =>
        rw [hfree] at hlockout
        contradiction
    | kept hlockout' hpost hshape hengine hmoving =>
        rcases hinv hlockout' with ⟨hdrawn, hpiece⟩
        refine ⟨hdrawn.succ (by rw [hengine]) hpost, ?_⟩
        rcases hpiece with hmoved | hsince
        · exact .inl (hmoving hmoved)
        · exact .inr (hsince.succ
            (by rw [RunState.piece, hengine, hshape, RunState.piece]) hpost)
    | moved hlockout' hpost hengine hmoving =>
        exact ⟨(hinv hlockout').1.succ (by rw [hengine]) hpost, .inl hmoving⟩
    | primed hpost hshape hengine =>
        exact ⟨.start (by rw [hengine]) hpost, .inr (.start
          (by rw [RunState.piece, hengine, hshape, RunState.piece]) hpost)⟩

/-! ## The deltas -/

/-- The delta is the time from the post to a reading that was taken. -/
def Timer.Measured (env : Env) (reads : Nat) (timer : Timer) : Prop :=
  ∃ reading < reads,
    timer.delta = toMilliseconds (env.clock reading - timer.post)

theorem Timer.Measured.mono {timer : Timer} {reads reads' : Nat}
    (h : timer.Measured env reads) (hle : reads ≤ reads') :
    timer.Measured env reads' := by
  rcases h with ⟨reading, hlt, hdelta⟩
  exact ⟨reading, by omega, hdelta⟩

theorem Timer.Measured.elapsed {timer : Timer} {reads : Nat} {limit : Int}
    (h : timer.Measured env reads) (hpos : 0 < limit)
    (hle : limit ≤ timer.delta) :
    limit * 1000000 ≤ env.clock (reads - 1) - timer.post := by
  rcases h with ⟨reading, hlt, hdelta⟩
  rw [hdelta] at hle
  have helapsed := elapsed_of_toMilliseconds hpos hle
  have hclock : env.clock reading ≤ env.clock (reads - 1) :=
    env.clock_mono (by omega)
  omega

/-- The timeout timer is current, or was just set to zero. -/
def TimeoutCurrent (env : Env) (s : RunState) : Prop :=
  s.timers.timeout.delta < timeoutMax ∨
    s.timers.timeout.Measured env s.reads

def DeltasInv (env : Env) (s : RunState) : Prop :=
  match s.phase with
  | .input _ | .lockout =>
      s.timers.lockout.Measured env s.reads ∧ TimeoutCurrent env s
  | .timeout => TimeoutCurrent env s
  | .head | .exited => True

theorem TimeoutCurrent.of_same (h : TimeoutCurrent env s)
    (htimeout : s'.timers.timeout = s.timers.timeout)
    (hreads : s.reads ≤ s'.reads) : TimeoutCurrent env s' := by
  unfold TimeoutCurrent
  rw [htimeout]
  rcases h with hlt | hmeasured
  · exact .inl hlt
  · exact .inr (hmeasured.mono hreads)

theorem Steps.deltasInv (hinv : DeltasInv env s)
    (h : Steps env fetched s calls s') : DeltasInv env s' := by
  unfold DeltasInv at hinv
  cases h with
  | begins _ _ =>
      exact ⟨⟨s.reads, Nat.lt_succ_self _, rfl⟩,
        .inr ⟨s.reads, Nat.lt_succ_self _, rfl⟩⟩
  | exits _ _ => trivial
  | inputsDone hphase =>
      rw [hphase] at hinv
      exact ⟨hinv.1, hinv.2⟩
  | handles hphase hhandle =>
      rw [hphase] at hinv
      rcases hinv with ⟨hlockout, htimeout⟩
      cases hhandle with
      | ignored _ | quit | skipped _ _ | left _ _ | right _ _
      | rotate _ _ => exact ⟨hlockout, htimeout⟩
      | drop _ _ | down _ =>
          exact ⟨hlockout.mono (Nat.le_succ _), .inl timeoutMax_pos⟩
  | locksOut hphase hblock =>
      rw [hphase] at hinv
      cases hblock with
      | inactive _ => exact hinv.2
      | waits _ _ _ => exact hinv.2.of_same graced_timeout le_graced_reads
      | leaves _ _ | locks _ _ _ _ _ => exact .inl timeoutMax_pos
  | timesOut _ _ => trivial
  | stays hphase =>
      unfold DeltasInv
      rw [hphase]
      trivial

theorem run_deltasInv (run : GameRun env engine) :
    ∀ k ≤ run.length, DeltasInv env (run.state k) := by
  refine run.invariant ?_ fun _ _ _ _ hinv hstep =>
    (Steps.of_eq hstep).deltasInv hinv
  intro s hstart
  unfold DeltasInv
  rw [(startRun_eq hstart).2.2.2.2.2]
  trivial

/-! ## The timeout timer -/

/-- A DOWN or a DROP, an exit from lockout, or an expiry of the timeout timer. -/
def Rearms (s s' : RunState) : Prop :=
  (∃ queue, s.phase = .input (.gameDown :: queue) ∨
      s.phase = .input (.gameDrop :: queue)) ∨
    (s.phase = .lockout ∧ s.isLockout = true ∧ s'.isLockout = false) ∨
    (s.phase = .timeout ∧ timeoutMax ≤ s.timers.timeout.delta)

theorem Steps.timeoutPost (h : Steps env fetched s calls s') :
    (s.reads < s'.reads ∧
        s'.timers.timeout.post = env.clock (s'.reads - 1)) ∨
      (¬ Rearms s s' ∧ s'.timers.timeout.post = s.timers.timeout.post) := by
  cases h with
  | begins hphase _ | exits hphase _ | inputsDone hphase | stays hphase =>
      exact .inr ⟨by simp [Rearms, hphase], rfl⟩
  | handles hphase hhandle =>
      cases hhandle with
      | ignored hbind =>
          refine .inr ⟨?_, rfl⟩
          rcases hbind with ⟨-, -, -, -, hdrop, hdown⟩
          simp [Rearms, hphase, hdrop, hdown]
      | skipped hbind _ =>
          refine .inr ⟨?_, rfl⟩
          rcases hbind with rfl | rfl | rfl <;> simp [Rearms, hphase]
      | quit | left _ _ | right _ _ | rotate _ _ =>
          exact .inr ⟨by simp [Rearms, hphase], rfl⟩
      | drop _ _ | down _ => exact .inl ⟨Nat.lt_succ_self _, rfl⟩
  | locksOut hphase hblock =>
      cases hblock with
      | inactive hlockout =>
          exact .inr ⟨by simp [Rearms, hphase, hlockout], rfl⟩
      | waits hlockout _ _ =>
          refine .inr ⟨?_, congrArg Timer.post graced_timeout⟩
          simp [Rearms, hphase, hlockout]
      | leaves _ _ => exact .inl ⟨Nat.lt_succ_of_le le_graced_reads, rfl⟩
      | locks _ _ _ _ _ => exact .inl ⟨Nat.lt_succ_self _, rfl⟩
  | timesOut hphase hblock =>
      cases hblock with
      | early hdelta =>
          refine .inr ⟨?_, rfl⟩
          simp [Rearms, hphase, hdelta]
      | waits _ _ _ | falls _ _ _ => exact .inl ⟨Nat.lt_succ_self _, rfl⟩
      | primes _ _ _ =>
          exact .inl ⟨Nat.lt_succ_of_lt (Nat.lt_succ_self _), rfl⟩

/-- The post of the timeout timer is a reading no older than the start of the
run and than the last step that reset the timer. -/
def TimeoutInv (run : GameRun env engine) (k : Nat) : Prop :=
  ∃ reading, 1 ≤ reading ∧ reading < (run.state k).reads ∧
    (run.state k).timers.timeout.post = env.clock reading ∧
    ∀ m < k, Rearms (run.state m) (run.state (m + 1)) →
      (run.state (m + 1)).reads ≤ reading + 1

theorem run_reads_le (run : GameRun env engine) :
    ∀ j k, j ≤ k → k ≤ run.length →
      (run.state j).reads ≤ (run.state k).reads :=
  run.monotone RunState.reads fun _ _ _ _ hstep =>
    (Steps.of_eq hstep).reads_le

theorem run_timeoutInv (run : GameRun env engine) :
    ∀ k ≤ run.length, TimeoutInv run k := by
  refine run.invariant_index ?_ ?_
  · rcases startRun_eq run.start with ⟨-, -, -, htimers, hreads, -⟩
    refine ⟨1, Nat.le_refl _, by omega, by rw [htimers]; rfl, ?_⟩
    intro m hm
    omega
  · rintro k hk ⟨reading, hone, hlt, hpost, hrearms⟩
    rcases (run.steps hk).timeoutPost with ⟨hreads, hpost'⟩ | ⟨hnot, hpost'⟩
    · refine ⟨(run.state (k + 1)).reads - 1, by omega, by omega, hpost', ?_⟩
      intro m hm _
      have hle := run_reads_le run (m + 1) (k + 1) (by omega) hk
      omega
    · have hle := run_reads_le run k (k + 1) (by omega) hk
      refine ⟨reading, hone, by omega, hpost'.trans hpost, ?_⟩
      intro m hm hrearm
      rcases Nat.lt_or_ge m k with hlt' | hge
      · exact hrearms m hlt' hrearm
      · have heq : m = k := by omega
        rw [heq] at hrearm
        exact absurd hrearm hnot

/-! ## The two timed calls -/

/-- A piece is locked by the lockout block only after it stood still for the
whole grace period. -/
theorem piece_rests (run : GameRun env engine) {k : Nat} (hk : k < run.length)
    (hphase : (run.state k).phase = .lockout) {result : Int}
    (hcall : Call.timeoutAction result ∈ run.event k) :
    ∃ j ≤ k, (∀ m, j ≤ m → m ≤ k →
        (run.state m).piece = (run.state k).piece) ∧
      lockoutMax * 1000000 ≤
        env.clock ((run.state k).reads - 1) - env.clock (run.state j).reads := by
  have hinv := run_lockoutInv run k (by omega)
  have hdeltas := run_deltasInv run k (by omega)
  have hsteps := run.steps hk
  unfold DeltasInv at hdeltas
  rw [hphase] at hdeltas
  generalize run.event k = calls at *
  generalize run.state (k + 1) = s' at hsteps
  cases hsteps with
  | begins hphase' _ | exits hphase' _ | inputsDone hphase'
  | handles hphase' _ | timesOut hphase' _ | stays hphase' =>
      rw [hphase] at hphase'
      contradiction
  | locksOut _ hblock =>
      cases hblock with
      | inactive _ | waits _ _ _ | leaves _ _ => contradiction
      | locks hlockout _ hmoved hdelta _ =>
          have helapsed := hdeltas.1.elapsed (by decide) hdelta
          rcases (hinv hlockout).2 with ⟨hmoving, -⟩ | ⟨j, hj, hsame, hclock⟩
          · rw [hmoved] at hmoving
            contradiction
          · exact ⟨j, hj, hsame, by omega⟩

theorem Steps.falls (h : Steps env fetched s calls s')
    (hphase : s.phase = .timeout) {result : Int}
    (hcall : Call.timeoutAction result ∈ calls) :
    timeoutMax ≤ s.timers.timeout.delta ∧ result = 0 ∧
      ∃ p, movePolyno s.game.p s.game.shape ⟨0, 1⟩ = some (true, p,
          { s.game.shape with pos := ⟨0, 1⟩ + s.game.shape.pos }) ∧
        s'.game = { s.game with
          p := p
          shape := { s.game.shape with pos := ⟨0, 1⟩ + s.game.shape.pos } } := by
  cases h with
  | begins hphase' _ | exits hphase' _ | inputsDone hphase'
  | handles hphase' _ | locksOut hphase' _ | stays hphase' =>
      rw [hphase] at hphase'
      contradiction
  | timesOut _ hblock =>
      cases hblock with
      | early _ | waits _ _ _ | primes _ _ _ => contradiction
      | falls hdelta _ hmove =>
          simp only [List.mem_singleton, Call.timeoutAction.injEq] at hcall
          cases movePolyno_eq_true hmove
          exact ⟨hdelta, hcall, _, hmove, rfl⟩

/-- It comes a full timeout after everything that resets the timer. -/
theorem timeout_elapsed (run : GameRun env engine) {k : Nat}
    (hk : k ≤ run.length) (hphase : (run.state k).phase = .timeout)
    (hdelta : timeoutMax ≤ (run.state k).timers.timeout.delta) :
    timeoutMax * 1000000 ≤
        env.clock ((run.state k).reads - 1) - env.clock 1 ∧
      ∀ m < k, Rearms (run.state m) (run.state (m + 1)) →
        timeoutMax * 1000000 ≤ env.clock ((run.state k).reads - 1) -
          env.clock ((run.state (m + 1)).reads - 1) := by
  have hdeltas := run_deltasInv run k hk
  unfold DeltasInv at hdeltas
  rw [hphase] at hdeltas
  rcases run_timeoutInv run k hk with ⟨reading, hone, hlt, hpost, hrearms⟩
  rcases hdeltas with hshort | hmeasured
  · omega
  · have helapsed := hmeasured.elapsed timeoutMax_pos hdelta
    rw [hpost] at helapsed
    constructor
    · have hclock := env.clock_mono hone
      omega
    · intro m hm hrearm
      have hle := hrearms m hm hrearm
      have hclock : env.clock ((run.state (m + 1)).reads - 1) ≤
          env.clock reading := env.clock_mono (by omega)
      omega

/-- The step that draws a piece leaves no lockout behind. -/
theorem Steps.free_of_drawn (h : Steps env fetched s calls s')
    (hdrawn : s'.game.engine.drawn ≠ s.game.engine.drawn) :
    s'.isLockout = false := by
  cases h.lockoutStep with
  | free hfree => exact hfree
  | kept _ _ _ hengine _ | moved _ _ hengine _ | primed _ _ hengine =>
      rw [hengine] at hdrawn
      contradiction

/-- What step `k` owes to the clock.  A DOWN or DROP takes the lockout flag back
but leaves the post of the lockout timer, which nothing reads before
`primeLockout` sets it again; so a piece inherits nothing in that no lockout is
on when it is drawn, and any lockout that is on was timed from a moment at which
the same piece was falling. -/
structure TimersHonest (run : GameRun env engine) (k : Nat) : Prop where
  grace : (run.state k).phase = .lockout →
    ∀ result, Call.timeoutAction result ∈ run.event k →
      ∃ j ≤ k, (∀ m, j ≤ m → m ≤ k →
          (run.state m).piece = (run.state k).piece) ∧
        lockoutMax * 1000000 ≤
          env.clock ((run.state k).reads - 1) - env.clock (run.state j).reads
  falls : (run.state k).phase = .timeout →
    ∀ result, Call.timeoutAction result ∈ run.event k → result = 0 ∧
      ∃ p, movePolyno (run.state k).game.p (run.state k).game.shape ⟨0, 1⟩ =
          some (true, p, { (run.state k).game.shape with
            pos := ⟨0, 1⟩ + (run.state k).game.shape.pos }) ∧
        (run.state (k + 1)).game = { (run.state k).game with
          p := p
          shape := { (run.state k).game.shape with
            pos := ⟨0, 1⟩ + (run.state k).game.shape.pos } }
  timeout : (run.state k).phase = .timeout →
    ∀ result, Call.timeoutAction result ∈ run.event k →
      timeoutMax * 1000000 ≤
          env.clock ((run.state k).reads - 1) - env.clock 1 ∧
        ∀ m < k, Rearms (run.state m) (run.state (m + 1)) →
          timeoutMax * 1000000 ≤ env.clock ((run.state k).reads - 1) -
            env.clock ((run.state (m + 1)).reads - 1)
  drawn : (run.state (k + 1)).game.engine.drawn ≠
      (run.state k).game.engine.drawn → (run.state (k + 1)).isLockout = false
  lockout : (run.state k).isLockout = true →
    ∃ j ≤ k, (∀ m, j ≤ m → m ≤ k → (run.state m).game.engine.drawn =
        (run.state k).game.engine.drawn) ∧
      env.clock (run.state j).reads ≤ (run.state k).timers.lockout.post

/-- No timer of any run acts early, and no piece inherits a lockout. -/
theorem timers_not_early (run : GameRun env engine) (k : Nat)
    (hk : k < run.length) : TimersHonest run k := by
  constructor
  · intro hphase result hcall
    exact piece_rests run hk hphase hcall
  · intro hphase result hcall
    exact ((run.steps hk).falls hphase hcall).2
  · intro hphase result hcall
    exact timeout_elapsed run (by omega) hphase
      ((run.steps hk).falls hphase hcall).1
  · exact (run.steps hk).free_of_drawn
  · exact fun hlockout => (run_lockoutInv run k (by omega) hlockout).1

theorem timers_not_early_gravity :
    ∃ run : GameRun (steadyEnv 500000000) Engine.fresh,
      3 < run.length ∧ Call.timeoutAction 0 ∈ run.event 3 ∧
        TimersHonest run 3 := by
  have hevents : ((script (steadyEnv 500000000) [[], [], [], []]).bind
      fun visited => visited[3]?.map fun v => v.1) =
      some [.timeoutAction 0] := by
    decide +kernel
  simp only [Option.bind_eq_some_iff, Option.map_eq_some_iff, Prod.exists]
    at hevents
  rcases hevents with ⟨visited, hscript, calls, s, hget, rfl⟩
  rcases exists_run_of_script hscript with ⟨run, hlength, hvisited⟩
  have hlt : 3 < run.length := by
    rw [hlength]
    exact (List.getElem?_eq_some_iff.mp hget).1
  refine ⟨run, hlt, ?_, timers_not_early run 3 hlt⟩
  rw [(hvisited 3 _ _ hget).1]
  exact List.mem_singleton_self _

end Grzetris
