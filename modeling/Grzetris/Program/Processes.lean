import Grzetris.Config.RoundTrip
import Grzetris.Program.Proceeds

/-!
# One process after another

`main` loads the bindings from the configuration file and, when it ends, saves
them to it.  The content of the file is a configuration, or `none` when there is
no file or an empty one.  Of the JSON library only the two round trips of a text
are taken as parameters: `reparse`, and `reread` for the file.
-/

namespace Grzetris

open Foundation

def loadConfig (reparse : BindJson → BindJson) (file : Option Config)
    (input : Input) : Int × Input :=
  loadBindings reparse input file

/-- What the next process reads from the file that `saveConfig` writes. -/
def saveConfig (reread : Config → Config) (input : Input) : Config :=
  reread (saveBindings input ⟨none⟩).2

/-- A process that finds `file`, loads the bindings `table` from it, and leaves
`file'` behind when its program has ended. -/
def Executes (reparse : BindJson → BindJson) (reread : Config → Config)
    (file : Option Config) (table : Input) (file' : Option Config) : Prop :=
  table = (loadConfig reparse file Input.empty).2 ∧
    ∃ (env : Env) (data : Addr) (run : ProgramRun env table data),
      (run.state run.length).control = .ended ∧
        file' = some (saveConfig reread
          (run.state run.length).input.toInput)

variable {reparse : BindJson → BindJson} {reread : Config → Config}
  {file file' file'' : Option Config} {table table' : Input}

theorem savedBindings_congr {input : Input}
    (hbindings : input.bindings = table.bindings) :
    savedBindings input = savedBindings table := by
  simp only [savedBindings, Input.items, hbindings]

/-- The program does not touch the bindings, so the file holds what was
loaded. -/
theorem Executes.saved (h : Executes reparse reread file table file')
    (hreread : ∀ config, reread config = config) :
    file' = some ⟨some (savedBindings table)⟩ := by
  obtain ⟨-, env, data, run, -, hfile⟩ := h
  have hbindings := (run.inv run.length (Nat.le_refl _)).bindings
  rw [hfile, saveConfig, hreread]
  change some (Config.mk (some (savedBindings _))) = _
  rw [savedBindings_congr hbindings]

theorem Executes.persistable (h : Executes reparse reread file table file') :
    Persistable table := by
  rw [h.1]
  exact loadBindings_persistable reparse file

theorem Executes.reloaded (h : Executes reparse reread file table file')
    (h' : Executes reparse reread file' table' file'')
    (hreread : ∀ config, reread config = config) :
    (loadBindings reparse Input.empty
      (some ⟨some (savedBindings table)⟩)).2 = table' := by
  rw [h'.1, h.saved hreread]
  rfl

theorem Executes.file_kept (h : Executes reparse reread file table file')
    (h' : Executes reparse reread file' table' file'')
    (hreparse : ∀ bindJson, reparse bindJson = bindJson)
    (hreread : ∀ config, reread config = config) : file'' = file' := by
  rw [h.saved hreread, h'.saved hreread, savedBindings_reloaded h.persistable
    (hreparse _) (h.reloaded h' hreread)]

theorem Executes.bind_kept (h : Executes reparse reread file table file')
    (h' : Executes reparse reread file' table' file'')
    (hreparse : ∀ bindJson, reparse bindJson = bindJson)
    (hreread : ∀ config, reread config = config) (map : Map) {code : Code}
    (hcode : ¬ (code = .error ∨ code = .notImplemented)) :
    bindIn map table' code = bindIn map table code := by
  simp only [bindIn, getBind_eq_look]
  split
  · rfl
  · rename_i hmap
    exact look_reloaded h.persistable (hreparse _) (h.reloaded h' hreread) hmap
      hcode

/--
Any number of processes, one after the other, whatever is played in them: the
file stays as the first of them leaves it, all the later ones load one and the
same table, and every key that the file can name is bound as it was in the
first.
-/
theorem processes_keep (reparse : BindJson → BindJson)
    (reread : Config → Config)
    (hreparse : ∀ bindJson, reparse bindJson = bindJson)
    (hreread : ∀ config, reread config = config)
    (files : Nat → Option Config) (tables : Nat → Input) (count : Nat)
    (hexecutes : ∀ n < count,
      Executes reparse reread (files n) (tables n) (files (n + 1))) :
    (∀ n ≤ count, 0 < n → files n = files 1) ∧
      (∀ n < count, 0 < n →
        tables n = (loadConfig reparse (files 1) Input.empty).2) ∧
      ∀ n < count, ∀ map code, code ≠ .error → code ≠ .notImplemented →
        bindIn map (tables n) code = bindIn map (tables 0) code := by
  have hfiles : ∀ n ≤ count, 0 < n → files n = files 1 := by
    intro n
    induction n with
    | zero => exact fun _ hpos => absurd hpos (Nat.lt_irrefl 0)
    | succ n ih =>
        intro hn _
        cases n with
        | zero => rfl
        | succ n =>
            rw [← ih (by omega) (by omega)]
            exact (hexecutes n (by omega)).file_kept (hexecutes (n + 1) hn)
              hreparse hreread
  refine ⟨hfiles, ?_, ?_⟩
  · intro n hn hpos
    rw [← hfiles n (Nat.le_of_lt hn) hpos]
    exact (hexecutes n hn).1
  · intro n
    induction n with
    | zero => exact fun _ _ _ _ _ => rfl
    | succ n ih =>
        intro hn map code herror himplemented
        rw [← ih (by omega) map code herror himplemented]
        exact (hexecutes n (by omega)).bind_kept (hexecutes (n + 1) hn) hreparse
          hreread map (not_or.mpr ⟨herror, himplemented⟩)

/-- K and RETURN, which end a program that is bound as by default. -/
def quitScript : List (List Int) := [['k'.toNat, '\n'.toNat], [], [], []]

theorem executes_of_quitScript
    (htable : table = (loadConfig reparse file Input.empty).2)
    (hreread : ∀ config, reread config = config)
    (hvisited : ((programScript (steadyEnv 0) table 0 quitScript).map
      fun visited => (visited.length, visited[3]?.map fun v => v.2.control)) =
        some (4, some .ended)) :
    Executes reparse reread file table
      (some ⟨some (savedBindings table)⟩) := by
  simp only [Option.map_eq_some_iff, Prod.mk.injEq, Prod.exists] at hvisited
  obtain ⟨visited, hscript, hlength, e, s, hget, hended⟩ := hvisited
  obtain ⟨run, hrun, hstates⟩ := exists_run_of_programScript hscript
  have hexecutes : Executes reparse reread file table
      (some (saveConfig reread (run.state run.length).input.toInput)) := by
    refine ⟨htable, steadyEnv 0, 0, run, ?_, rfl⟩
    rw [hrun, hlength, (hstates 3 e s hget).2, hended]
  have hsaved := hexecutes.saved hreread
  rwa [hsaved] at hexecutes

theorem processes_keep_default :
    ∃ (files : Nat → Option Config) (tables : Nat → Input),
      files 0 = none ∧ tables 0 = setDefaultBinds Input.empty ∧
        (∀ n ≤ 2, 0 < n → files n = files 1) ∧
        (∀ n < 2, 0 < n →
          tables n = (loadConfig id (files 1) Input.empty).2) ∧
        ∀ n < 2, ∀ map code, code ≠ .error → code ≠ .notImplemented →
          bindIn map (tables n) code = bindIn map (tables 0) code := by
  let first := (loadConfig id none Input.empty).2
  let second :=
    (loadConfig id (some ⟨some (savedBindings first)⟩) Input.empty).2
  let files : Nat → Option Config
    | 0 => none
    | 1 => some ⟨some (savedBindings first)⟩
    | _ => some ⟨some (savedBindings second)⟩
  let tables : Nat → Input
    | 0 => first
    | _ => second
  refine ⟨files, tables, rfl, rfl, processes_keep id id (fun _ => rfl)
    (fun _ => rfl) files tables 2 ?_⟩
  intro n hn
  match n with
  | 0 => exact executes_of_quitScript rfl (fun _ => rfl) (by decide +kernel)
  | 1 => exact executes_of_quitScript rfl (fun _ => rfl) (by decide +kernel)

end Grzetris
