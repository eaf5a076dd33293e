import Mathlib
import Grzetris.Foundation.Transcript
import Grzetris.Ui.Input

/-!
# Loading and saving the bindings

`setDefaultBinds`, `loadBindings` and `saveBindings` of `config.cpp`.  The keys
of a JSON object are unique and visited in ascending order.  Of the JSON library
only the round trip `json::parse(… .dump())` is taken as a parameter, `reparse`.
Seen as a picture, the binding table has a bind at each map and code, and the
document has the name of a code at the name of each map and bind.
-/

namespace Grzetris

open Foundation

abbrev JsonObject (α : Type) := Std.ExtTreeMap String α

inductive BindJson where
  | null
  | object (maps : JsonObject (JsonObject String))

/-- A configuration, which may lack the key `"bindings"`. -/
structure Config where
  bindings : Option BindJson

def BindJson.maps : BindJson → JsonObject (JsonObject String)
  | .null => ∅
  | .object maps => maps

def BindJson.items (bindJson : BindJson) : List (String × JsonObject String) :=
  bindJson.maps.toList

/-- `bindJson[map][bind] = code`; `null` becomes an object when it is indexed. -/
def BindJson.put (bindJson : BindJson) (map bind code : String) : BindJson :=
  let bindings := bindJson.maps[map]?.getD ∅
  .object (bindJson.maps.insert map (bindings.insert bind code))

def setDefaultBinds (input : Input) : Input :=
  let input := setCurrentMap input .game
  let input := setBind input .gameLeft .keyH
  let input := setBind input .gameDown .keyJ
  let input := setBind input .gameRight .keyK
  let input := setBind input .gameDrop .keySpace
  let input := setBind input .gameRotate .keyR
  let input := setBind input .gameQuit .keyQ
  let input := setBind input .gameNoAction .error
  let input := setCurrentMap input .menu
  let input := setBind input .menuNext .keyJ
  let input := setBind input .menuPrev .keyK
  let input := setBind input .menuSelect .keyReturn
  setCurrentMap input .none

def loadBind (input : Input) (binding : String × String) : Input :=
  setBind input (stringToBind binding.1) (stringToCode binding.2)

def loadMap (input : Input) (entry : String × JsonObject String) : Input :=
  if stringToMap entry.1 = .none then input
  else
    entry.2.toList.foldl loadBind (setCurrentMap input (stringToMap entry.1))

def loadBindings (reparse : BindJson → BindJson) (input : Input)
    (config : Option Config) : Int × Input :=
  match config.bind Config.bindings with
  | none => (1, setDefaultBinds input)
  | some bindings =>
      let bindJson := reparse bindings
      let input := bindJson.items.foldl loadMap input
      let input := setCurrentMap input .game
      let input := setBind input .gameNoAction .error
      (0, setCurrentMap input .none)

def codeItems (bindings : Code → Option Bind) : List (Code × Bind) :=
  Code.all.filterMap fun code => (bindings code).map fun bind => (code, bind)

def Input.items (input : Input) : List (Map × (Code → Option Bind)) :=
  [Map.game, .menu, .none].filterMap fun map =>
    (input.bindings map).map fun bindings => (map, bindings)

def saveBind (map : Map) (bindJson : BindJson) (binding : Code × Bind) :
    BindJson :=
  if binding.1 = .error ∨ binding.1 = .notImplemented then bindJson
  else
    bindJson.put (mapToString map) (bindToString binding.2)
      (codeToString binding.1)

def saveMap (bindJson : BindJson) (entry : Map × (Code → Option Bind)) :
    BindJson :=
  if entry.1 = .none then bindJson
  else (codeItems entry.2).foldl (saveBind entry.1) bindJson

def saveBindings (input : Input) (config : Config) : Int × Config :=
  let bindJson := input.items.foldl saveMap .null
  (0, { config with bindings := some bindJson })

/-! ## The table as a picture -/

def Input.look (input : Input) : Picture (Map × Code) Bind :=
  fun point => (input.bindings point.1).bind fun bindings => bindings point.2

@[simp] theorem look_empty : Input.empty.look = Picture.blank := rfl

@[simp] theorem look_setCurrentMap (input : Input) (map : Map) :
    (setCurrentMap input map).look = input.look := rfl

@[simp] theorem setBind_currentMap (input : Input) (bind : Bind) (code : Code) :
    (setBind input bind code).currentMap = input.currentMap := by
  unfold setBind
  split <;> rfl

theorem look_setBind {input : Input} (hmap : input.currentMap ≠ .none)
    (bind : Bind) (code : Code) :
    (setBind input bind code).look =
      Function.update input.look (input.currentMap, code) (some bind) := by
  rw [setBind, if_neg hmap]
  funext point
  rcases point with ⟨map, other⟩
  by_cases hpoint : map = input.currentMap
  · subst hpoint
    cases hinner : input.bindings input.currentMap <;>
      simp [Input.look, hinner, Function.update_apply]
  · simp [Input.look, hpoint]

theorem getBind_eq_look (input : Input) (map : Map) (code : Code) :
    getBind (setCurrentMap input map) code =
      if map = .none then .none else (input.look (map, code)).getD .none := by
  unfold getBind setCurrentMap Input.look
  split
  · rfl
  · cases input.bindings map with
    | none => rfl
    | some bindings =>
        cases hcode : bindings code <;> simp [hcode]

/-! ## The document as a picture -/

def BindJson.look (bindJson : BindJson) : Picture (String × String) String :=
  fun point => bindJson.maps[point.1]?.bind fun bindings => bindings[point.2]?

theorem BindJson.look_null : BindJson.null.look = Picture.blank := by
  funext point
  simp [BindJson.look, BindJson.maps, Picture.blank]

@[simp] theorem BindJson.maps_put (bindJson : BindJson)
    (map bind code : String) :
    (bindJson.put map bind code).maps =
      bindJson.maps.insert map
        ((bindJson.maps[map]?.getD ∅).insert bind code) := rfl

theorem BindJson.look_put (bindJson : BindJson) (map bind code : String) :
    (bindJson.put map bind code).look =
      Function.update bindJson.look (map, bind) (some code) := by
  funext point
  rcases point with ⟨first, second⟩
  simp only [BindJson.look, maps_put, Std.ExtTreeMap.getElem?_insert,
    Std.compare_eq_iff_eq, Function.update_apply, Prod.mk.injEq]
  by_cases hmap : first = map
  · subst hmap
    cases bindJson.maps[first]? <;>
      simp [Std.ExtTreeMap.getElem?_insert, eq_comm (a := second)]
  · simp [hmap, Ne.symm hmap]

/-! ## Loading paints what is read of the lines -/

def mapLines (entry : String × JsonObject String) :
    List ((String × String) × String) :=
  if stringToMap entry.1 = .none then []
  else entry.2.toList.map fun binding => ((entry.1, binding.1), binding.2)

def BindJson.lines (bindJson : BindJson) : List ((String × String) × String) :=
  bindJson.items.flatMap mapLines

def readBind (line : (String × String) × String) : (Map × Code) × Bind :=
  ((stringToMap line.1.1, stringToCode line.2), stringToBind line.1.2)

theorem mem_lines {bindJson : BindJson} {line : (String × String) × String} :
    line ∈ bindJson.lines ↔
      stringToMap line.1.1 ≠ .none ∧ bindJson.look line.1 = some line.2 := by
  rcases line with ⟨⟨map, bind⟩, code⟩
  simp only [BindJson.lines, BindJson.items, mapLines, List.mem_flatMap,
    BindJson.look, Option.bind_eq_some_iff]
  constructor
  · rintro ⟨⟨name, bindings⟩, hentry, hline⟩
    split at hline
    · simp at hline
    · rename_i hname
      simp only [List.mem_map, Prod.mk.injEq] at hline
      rcases hline with ⟨binding, hbinding, ⟨rfl, rfl⟩, rfl⟩
      rw [Std.ExtTreeMap.mem_toList_iff_getElem?_eq_some] at hentry hbinding
      exact ⟨hname, bindings, hentry, hbinding⟩
  · rintro ⟨hname, bindings, hentry, hbinding⟩
    refine ⟨(map, bindings), ?_, ?_⟩
    · rwa [Std.ExtTreeMap.mem_toList_iff_getElem?_eq_some]
    · rw [if_neg hname, List.mem_map]
      refine ⟨(bind, code), ?_, rfl⟩
      rwa [Std.ExtTreeMap.mem_toList_iff_getElem?_eq_some]

theorem look_loadBinds (bindings : List (String × String)) {input : Input}
    {map : Map} (hmap : map ≠ .none) (hcurrent : input.currentMap = map) :
    (bindings.foldl loadBind input).look =
      input.look.paint (bindings.map fun binding =>
        ((map, stringToCode binding.2), stringToBind binding.1)) := by
  rw [List.map_eq_flatMap]
  refine Picture.look_foldl (fun input => input.currentMap = map)
    (fun input binding hinv => ⟨?_, ?_⟩) bindings hcurrent
  · rw [loadBind, setBind_currentMap, hinv]
  · rw [loadBind, look_setBind (by rwa [hinv]), hinv]
    rfl

theorem look_loadMap (input : Input) (entry : String × JsonObject String) :
    (loadMap input entry).look =
      input.look.paint ((mapLines entry).map readBind) := by
  unfold loadMap mapLines
  split
  · rfl
  · rename_i hmap
    rw [look_loadBinds _ hmap rfl, List.map_map]
    rfl

theorem look_loadMaps (bindJson : BindJson) (input : Input) :
    (bindJson.items.foldl loadMap input).look =
      input.look.paint (bindJson.lines.map readBind) := by
  rw [BindJson.lines, List.map_flatMap]
  exact Picture.look_foldl (fun _ => True)
    (fun input entry _ => ⟨trivial, look_loadMap input entry⟩) _ trivial

/-! ## Saving paints what is written of the entries -/

def bindEntries (map : Map) (binding : Code × Bind) :
    List ((Map × Code) × Bind) :=
  if binding.1 = .error ∨ binding.1 = .notImplemented then []
  else [((map, binding.1), binding.2)]

def mapEntries (entry : Map × (Code → Option Bind)) :
    List ((Map × Code) × Bind) :=
  if entry.1 = .none then []
  else (codeItems entry.2).flatMap (bindEntries entry.1)

def Input.entries (input : Input) : List ((Map × Code) × Bind) :=
  input.items.flatMap mapEntries

def writeBind (entry : (Map × Code) × Bind) : (String × String) × String :=
  ((mapToString entry.1.1, bindToString entry.2), codeToString entry.1.2)

theorem mem_codeItems {bindings : Code → Option Bind} {binding : Code × Bind} :
    binding ∈ codeItems bindings ↔ bindings binding.1 = some binding.2 := by
  rcases binding with ⟨code, bind⟩
  simp [codeItems, Code.mem_all]

theorem mem_items {input : Input} {entry : Map × (Code → Option Bind)} :
    entry ∈ input.items ↔ input.bindings entry.1 = some entry.2 := by
  rcases entry with ⟨map, bindings⟩
  cases map <;> simp [Input.items]

theorem mem_bindEntries {map : Map} {binding : Code × Bind}
    {entry : (Map × Code) × Bind} :
    entry ∈ bindEntries map binding ↔
      ¬ (binding.1 = .error ∨ binding.1 = .notImplemented) ∧
        entry = ((map, binding.1), binding.2) := by
  unfold bindEntries
  split <;> simp_all

theorem mem_mapEntries {outer : Map × (Code → Option Bind)}
    {entry : (Map × Code) × Bind} :
    entry ∈ mapEntries outer ↔
      outer.1 ≠ .none ∧ entry.1.1 = outer.1 ∧
        ¬ (entry.1.2 = .error ∨ entry.1.2 = .notImplemented) ∧
          outer.2 entry.1.2 = some entry.2 := by
  unfold mapEntries
  split
  · rename_i hmap
    simp [hmap]
  · rename_i hmap
    rw [List.mem_flatMap]
    constructor
    · rintro ⟨binding, hbinding, hentry⟩
      rcases mem_bindEntries.mp hentry with ⟨hcode, rfl⟩
      exact ⟨hmap, rfl, hcode, mem_codeItems.mp hbinding⟩
    · rcases entry with ⟨⟨map, code⟩, bind⟩
      rintro ⟨_, rfl, hcode, hbinding⟩
      exact ⟨(code, bind), mem_codeItems.mpr hbinding,
        mem_bindEntries.mpr ⟨hcode, rfl⟩⟩

theorem mem_entries {input : Input} {entry : (Map × Code) × Bind} :
    entry ∈ input.entries ↔
      entry.1.1 ≠ .none ∧
        ¬ (entry.1.2 = .error ∨ entry.1.2 = .notImplemented) ∧
          input.look entry.1 = some entry.2 := by
  simp only [Input.entries, List.mem_flatMap, mem_items, mem_mapEntries,
    Input.look, Option.bind_eq_some_iff]
  constructor
  · rintro ⟨⟨map, bindings⟩, hinner, hmap, heq, hcode, hbinding⟩
    rw [heq]
    exact ⟨hmap, hcode, bindings, hinner, hbinding⟩
  · rintro ⟨hmap, hcode, bindings, hinner, hbinding⟩
    exact ⟨(entry.1.1, bindings), hinner, hmap, rfl, hcode, hbinding⟩

theorem look_saveBind (map : Map) (bindJson : BindJson)
    (binding : Code × Bind) :
    (saveBind map bindJson binding).look =
      bindJson.look.paint ((bindEntries map binding).map writeBind) := by
  unfold saveBind bindEntries
  split
  · rfl
  · exact BindJson.look_put ..

theorem look_saveMap (bindJson : BindJson)
    (entry : Map × (Code → Option Bind)) :
    (saveMap bindJson entry).look =
      bindJson.look.paint ((mapEntries entry).map writeBind) := by
  unfold saveMap mapEntries
  split
  · rfl
  · rw [List.map_flatMap]
    exact Picture.look_foldl (fun _ => True)
      (fun bindJson binding _ =>
        ⟨trivial, look_saveBind entry.1 bindJson binding⟩) _ trivial

theorem look_saveMaps (input : Input) (bindJson : BindJson) :
    (input.items.foldl saveMap bindJson).look =
      bindJson.look.paint (input.entries.map writeBind) := by
  rw [Input.entries, List.map_flatMap]
  exact Picture.look_foldl (fun _ => True)
    (fun bindJson entry _ => ⟨trivial, look_saveMap bindJson entry⟩) _ trivial

end Grzetris
