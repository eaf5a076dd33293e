import Grzetris.Config.Bindings

/-!
# Saved bindings are loaded again

The table has a bind for each code and the document a code for each bind, so a
table survives only when no bind, but `NONE`, is given to two codes of a map.
Every table that `loadBindings` makes is of this kind.
-/

namespace Grzetris

open Foundation

theorem readBind_writeBind {entry : (Map × Code) × Bind}
    (hbind : entry.2 ≠ .gameNoAction) : readBind (writeBind entry) = entry := by
  simp only [readBind, writeBind, stringToMap_mapToString,
    stringToCode_codeToString, stringToBind_bindToString hbind]

/-- Each bind that is saved has a name, and names one code of its map. -/
structure Persistable (input : Input) : Prop where
  named : ∀ entry ∈ input.entries, entry.2 ≠ .gameNoAction
  one_code : ∀ entry ∈ input.entries, ∀ other ∈ input.entries,
    other.1.1 = entry.1.1 → other.2 = entry.2 → entry.2 ≠ .none → other = entry

/-! ## Loaded tables are persistable -/

theorem setDefaultBinds_persistable :
    Persistable (setDefaultBinds Input.empty) :=
  ⟨by decide +kernel, by decide +kernel⟩

theorem look_loadBindings (reparse : BindJson → BindJson)
    (bindings : BindJson) :
    (loadBindings reparse Input.empty (some ⟨some bindings⟩)).2.look =
      Function.update
        (Picture.blank.paint ((reparse bindings).lines.map readBind))
        (.game, .error) (some .gameNoAction) := by
  simp only [loadBindings, Option.bind_some, look_setCurrentMap]
  rw [look_setBind (by simp [setCurrentMap]), look_setCurrentMap,
    look_loadMaps, look_empty]
  rfl

theorem mem_entries_loadBindings {reparse : BindJson → BindJson}
    {bindings : BindJson} {entry : (Map × Code) × Bind} :
    entry ∈ (loadBindings reparse Input.empty (some ⟨some bindings⟩)).2.entries ↔
      entry.1.1 ≠ .none ∧
        ¬ (entry.1.2 = .error ∨ entry.1.2 = .notImplemented) ∧
          Picture.blank.paint ((reparse bindings).lines.map readBind) entry.1 =
            some entry.2 := by
  rw [mem_entries, look_loadBindings]
  apply and_congr_right
  intro _
  apply and_congr_right
  intro hcode
  rw [Function.update_of_ne]
  rintro hentry
  exact hcode (Or.inl (congrArg Prod.snd hentry))

theorem exists_line_of_mem_entries {reparse : BindJson → BindJson}
    {bindings : BindJson} {entry : (Map × Code) × Bind}
    (hmem : entry ∈
      (loadBindings reparse Input.empty (some ⟨some bindings⟩)).2.entries) :
    ∃ line ∈ (reparse bindings).lines, readBind line = entry := by
  rcases mem_entries_loadBindings.mp hmem with ⟨_, _, hpaint⟩
  have hread : entry ∈ (reparse bindings).lines.map readBind :=
    Picture.mem_of_paint_blank hpaint
  exact List.mem_map.mp hread

/-- The keys of an object are unique, so a bind has one line in a map. -/
theorem line_unique {bindJson : BindJson}
    {line other : (String × String) × String}
    (hline : line ∈ bindJson.lines) (hother : other ∈ bindJson.lines)
    (hmap : (readBind other).1.1 = (readBind line).1.1)
    (hbind : (readBind other).2 = (readBind line).2)
    (hnone : (readBind line).2 ≠ .none) : other = line := by
  rcases line with ⟨⟨map, bind⟩, code⟩
  rcases other with ⟨⟨map', bind'⟩, code'⟩
  rcases mem_lines.mp hline with ⟨hnamed, hlook⟩
  rcases mem_lines.mp hother with ⟨hnamed', hlook'⟩
  simp only [readBind] at hmap hbind hnone hnamed hnamed' hlook hlook'
  have hmaps : map' = map := by
    rw [← mapToString_stringToMap hnamed', hmap,
      mapToString_stringToMap hnamed]
  have hbinds : bind' = bind := by
    have hnone' : stringToBind bind' ≠ .none := by rwa [hbind]
    rw [← bindToString_stringToBind hnone', hbind,
      bindToString_stringToBind hnone]
  subst hmaps hbinds
  rw [hlook'] at hlook
  rw [Option.some.inj hlook]

theorem loadBindings_persistable (reparse : BindJson → BindJson)
    (config : Option Config) :
    Persistable (loadBindings reparse Input.empty config).2 := by
  rcases config with _ | ⟨_ | bindings⟩
  · exact setDefaultBinds_persistable
  · exact setDefaultBinds_persistable
  · constructor
    · intro entry hentry
      rcases exists_line_of_mem_entries hentry with ⟨line, _, rfl⟩
      exact stringToBind_ne_gameNoAction _
    · intro entry hentry other hother hmap hbind hnone
      rcases exists_line_of_mem_entries hentry with ⟨line, hline, rfl⟩
      rcases exists_line_of_mem_entries hother with ⟨line', hline', rfl⟩
      rw [line_unique hline hline' hmap hbind hnone]

/-! ## The document is a transcript of the table -/

/-- What `saveBindings` puts under `"bindings"`. -/
def savedBindings (input : Input) : BindJson := input.items.foldl saveMap .null

theorem look_savedBindings (input : Input) :
    (savedBindings input).look =
      Picture.blank.paint (input.entries.map writeBind) := by
  rw [savedBindings, look_saveMaps, BindJson.look_null]

theorem transcript_savedBindings {input : Input} (hinput : Persistable input) :
    Transcript writeBind readBind input.entries (savedBindings input).lines where
  decode_encode := fun entry hentry =>
    readBind_writeBind (hinput.named entry hentry)
  lists := by
    intro line
    rw [mem_lines, look_savedBindings]
    apply and_iff_right_of_imp
    intro hpaint
    have hmem : line ∈ input.entries.map writeBind :=
      Picture.mem_of_paint_blank hpaint
    rcases List.mem_map.mp hmem with ⟨entry, hentry, rfl⟩
    rw [writeBind, stringToMap_mapToString]
    exact (mem_entries.mp hentry).1
  entry_unique := by
    intro entry hentry other hother hpoint
    have hlook := (mem_entries.mp hentry).2.2
    rw [← hpoint, (mem_entries.mp hother).2.2] at hlook
    exact Prod.ext hpoint (Option.some.inj hlook)

theorem entry_alone {input : Input} (hinput : Persistable input)
    {entry : (Map × Code) × Bind} (hentry : entry ∈ input.entries)
    (hnone : entry.2 ≠ .none) :
    ∀ other ∈ input.entries,
      (writeBind other).1 = (writeBind entry).1 → other = entry := by
  intro other hother hwrite
  have hmap := congrArg (fun point => stringToMap point.1) hwrite
  have hbind := congrArg (fun point => stringToBind point.2) hwrite
  simp only [writeBind, stringToMap_mapToString] at hmap hbind
  rw [stringToBind_bindToString (hinput.named other hother),
    stringToBind_bindToString (hinput.named entry hentry)] at hbind
  exact hinput.one_code entry hentry other hother hmap hbind hnone

/-! ## Documents without empty objects -/

/-- Saving never leaves an object without a member. -/
structure BindJson.Tight (bindJson : BindJson) : Prop where
  outer : bindJson = .null ∨
    ∃ point code, bindJson.look point = some code
  inner : ∀ (map : String) (bindings : JsonObject String),
    bindJson.maps[map]? = some bindings →
      ∃ (bind : String) (code : String), bindings[bind]? = some code

theorem BindJson.tight_null : BindJson.null.Tight where
  outer := Or.inl rfl
  inner := by
    intro map bindings hmap
    simp [BindJson.maps] at hmap

theorem BindJson.Tight.put {bindJson : BindJson} (htight : bindJson.Tight)
    (map bind code : String) : (bindJson.put map bind code).Tight where
  outer := Or.inr ⟨(map, bind), code, by
    rw [BindJson.look_put, Function.update_self]⟩
  inner := by
    intro name bindings hname
    rw [BindJson.maps_put, Std.ExtTreeMap.getElem?_insert] at hname
    split at hname
    · rw [← Option.some.inj hname]
      exact ⟨bind, code, Std.ExtTreeMap.getElem?_insert_self⟩
    · exact htight.inner name bindings hname

theorem BindJson.Tight.savedBindings (input : Input) :
    (savedBindings input).Tight := by
  apply List.foldlRecOn _ _ BindJson.tight_null
  intro bindJson htight entry _
  unfold saveMap
  split
  · exact htight
  · apply List.foldlRecOn _ _ htight
    intro bindJson htight binding _
    unfold saveBind
    split
    · exact htight
    · exact htight.put ..

theorem BindJson.Tight.exists_look {bindJson : BindJson}
    (htight : bindJson.Tight) {map : String} {bindings : JsonObject String}
    (hmap : bindJson.maps[map]? = some bindings) :
    ∃ bind code, bindJson.look (map, bind) = some code := by
  rcases htight.inner map bindings hmap with ⟨bind, code, hbind⟩
  refine ⟨bind, code, ?_⟩
  simp [BindJson.look, hmap, hbind]

theorem BindJson.Tight.maps_eq {first second : BindJson}
    (hfirst : first.Tight) (hsecond : second.Tight)
    (hlook : first.look = second.look) : first.maps = second.maps := by
  apply Std.ExtTreeMap.ext_getElem?
  intro map
  cases hone : first.maps[map]? with
  | none =>
      cases htwo : second.maps[map]? with
      | none => rfl
      | some bindings =>
          rcases hsecond.exists_look htwo with ⟨bind, code, hcode⟩
          rw [← hlook] at hcode
          simp [BindJson.look, hone] at hcode
  | some bindings =>
      cases htwo : second.maps[map]? with
      | none =>
          rcases hfirst.exists_look hone with ⟨bind, code, hcode⟩
          rw [hlook] at hcode
          simp [BindJson.look, htwo] at hcode
      | some others =>
          apply congrArg some
          apply Std.ExtTreeMap.ext_getElem?
          intro bind
          have hbind := congrFun hlook (map, bind)
          simpa [BindJson.look, hone, htwo] using hbind

theorem BindJson.Tight.ext {first second : BindJson}
    (hfirst : first.Tight) (hsecond : second.Tight)
    (hlook : first.look = second.look) : first = second := by
  have hmaps := hfirst.maps_eq hsecond hlook
  cases first with
  | null =>
      rcases hsecond.outer with rfl | ⟨point, code, hcode⟩
      · rfl
      · rw [← hlook, BindJson.look_null] at hcode
        simp [Picture.blank] at hcode
  | object maps =>
      cases second with
      | null =>
          rcases hfirst.outer with hnull | ⟨point, code, hcode⟩
          · cases hnull
          · rw [hlook, BindJson.look_null] at hcode
            simp [Picture.blank] at hcode
      | object others => exact congrArg BindJson.object hmaps

/-! ## The round trip -/

section

variable {reparse : BindJson → BindJson} {input reloaded : Input}
variable (hinput : Persistable input)
variable (hreparse : reparse (savedBindings input) = savedBindings input)
variable (hreloaded :
  (loadBindings reparse Input.empty (some ⟨some (savedBindings input)⟩)).2 =
    reloaded)

include hinput hreparse hreloaded

theorem lists_reloaded :
    Picture.Lists
      (Picture.blank.paint ((savedBindings input).lines.map readBind))
      reloaded.entries := by
  intro entry
  rw [← hreloaded, mem_entries_loadBindings, hreparse, ← and_assoc]
  apply and_iff_right_of_imp
  intro hcopy
  have hentry :=
    ((transcript_savedBindings hinput).mem_of_copy hcopy).1
  exact ⟨(mem_entries.mp hentry).1, (mem_entries.mp hentry).2.1⟩

/-- A bind other than `NONE` keeps its code, and no code gains one. -/
theorem look_reloaded {point : Map × Code} (hmap : point.1 ≠ .none)
    (hcode : ¬ (point.2 = .error ∨ point.2 = .notImplemented)) :
    (reloaded.look point).getD .none = (input.look point).getD .none := by
  have htranscript := transcript_savedBindings hinput
  have hlists := lists_reloaded hinput hreparse hreloaded
  cases hnew : reloaded.look point with
  | some bind =>
      have hmem : (point, bind) ∈ reloaded.entries :=
        mem_entries.mpr ⟨hmap, hcode, hnew⟩
      have hentry := (htranscript.mem_of_copy ((hlists _).mp hmem)).1
      rw [(mem_entries.mp hentry).2.2]
  | none =>
      cases hold : input.look point with
      | none => rfl
      | some bind =>
          have hentry : (point, bind) ∈ input.entries :=
            mem_entries.mpr ⟨hmap, hcode, hold⟩
          by_cases hnone : bind = .none
          · rw [hnone]
            rfl
          · have hcopy := htranscript.copy_of_entry hentry
              (entry_alone hinput hentry hnone)
            have hmem := (hlists (point, bind)).mpr hcopy
            rw [(mem_entries.mp hmem).2.2] at hnew
            cases hnew

theorem savedBindings_reloaded :
    savedBindings reloaded = savedBindings input := by
  apply (BindJson.Tight.savedBindings reloaded).ext
    (BindJson.Tight.savedBindings input)
  rw [look_savedBindings, look_savedBindings]
  exact (transcript_savedBindings hinput).paint_copy
    (lists_reloaded hinput hreparse hreloaded)

end

/-- Saving a loaded table and loading it again keeps the bind of every code
that is saved, and saving once more gives the same document. -/
theorem bindings_roundTrip (reparse : BindJson → BindJson)
    (hreparse : ∀ bindJson, reparse bindJson = bindJson)
    (config : Option Config) (document : Config) :
    let table := (loadBindings reparse Input.empty config).2
    let saved := (saveBindings table document).2
    let reloaded := (loadBindings reparse Input.empty (some saved)).2
    (∀ map code, code ≠ .error → code ≠ .notImplemented →
      getBind (setCurrentMap reloaded map) code =
        getBind (setCurrentMap table map) code) ∧
      (saveBindings reloaded document).2 = saved := by
  intro table saved reloaded
  have htable : Persistable table := loadBindings_persistable reparse config
  constructor
  · intro map code herror himplemented
    rw [getBind_eq_look, getBind_eq_look]
    split
    · rfl
    · rename_i hmap
      exact look_reloaded htable (hreparse _) rfl hmap
        (not_or.mpr ⟨herror, himplemented⟩)
  · have hsaved : savedBindings reloaded = savedBindings table :=
      savedBindings_reloaded htable (hreparse _) rfl
    change Config.mk (some (savedBindings reloaded)) =
      Config.mk (some (savedBindings table))
    rw [hsaved]

/-- Two codes are given to binds that have no name, one of which is lost. -/
theorem bindings_roundTrip_unnamed :
    let bindings : JsonObject String :=
      ((∅ : JsonObject String).insert "FIRE" "KEY_A").insert "WAIT" "KEY_B"
    let config : Config :=
      ⟨some (.object ((∅ : JsonObject (JsonObject String)).insert "GAME"
        (bindings.insert "GAME_LEFT" "KEY_C")))⟩
    let table := (loadBindings id Input.empty (some config)).2
    let saved := (saveBindings table config).2
    let reloaded := (loadBindings id Input.empty (some saved)).2
    (∀ map code, code ≠ .error → code ≠ .notImplemented →
      getBind (setCurrentMap reloaded map) code =
        getBind (setCurrentMap table map) code) ∧
      (saveBindings reloaded config).2 = saved := by
  intro bindings config
  exact bindings_roundTrip id (fun _ => rfl) (some config) config

end Grzetris
