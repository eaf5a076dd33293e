import Grzetris.Config.RoundTrip

/-!
# Entries that are not recognised

Unknown names are read as the bind `NONE` and the code `NOT_IMPLEMENTED`, which
are stored like any other.  Of the entries that give a bind to one key, the last
in the order of the bind names decides.
-/

namespace Grzetris

open Foundation

variable {bindJson : BindJson} {map : Map} {bind : String} {code : Code}

/-! ## The last entry for a key -/

/-- The entry of this bind in the object of the map names this code. -/
def GivenTo (bindJson : BindJson) (map : Map) (bind : String) (code : Code) :
    Prop :=
  ∃ name, bindJson.look (mapToString map, bind) = some name ∧
    stringToCode name = code

def IsLast (bindJson : BindJson) (map : Map) (bind : String) (code : Code) :
    Prop :=
  GivenTo bindJson map bind code ∧
    ∀ other, GivenTo bindJson map other code → other ≤ bind

theorem IsLast.eq {other : String} (hlast : IsLast bindJson map bind code)
    (hother : IsLast bindJson map other code) : other = bind :=
  le_antisymm (hlast.2 other hother.1) (hother.2 bind hlast.1)

/-- Of two lines that are read to the same point, the earlier has the smaller
bind name. -/
def Earlier (line other : (String × String) × String) : Prop :=
  (readBind line).1 = (readBind other).1 → line.1.2 < other.1.2

theorem mapLines_sorted (entry : String × JsonObject String) :
    (mapLines entry).Pairwise Earlier := by
  unfold mapLines
  split
  · exact .nil
  · rw [List.pairwise_map]
    refine entry.2.ordered_keys_toList.imp ?_
    intro first second hlt _
    exact compareOfLessAndEq_eq_lt.mp hlt

theorem lines_sorted (bindJson : BindJson) :
    bindJson.lines.Pairwise Earlier := by
  rw [BindJson.lines, List.pairwise_flatMap]
  refine ⟨fun entry _ => mapLines_sorted entry, ?_⟩
  refine bindJson.maps.ordered_keys_toList.imp ?_
  intro first second hlt line hline other hother hpoint
  have hne : first.1 ≠ second.1 :=
    ne_of_lt (compareOfLessAndEq_eq_lt.mp hlt)
  unfold mapLines at hline hother
  split at hline
  · simp at hline
  · split at hother
    · simp at hother
    · rename_i hfirst hsecond
      obtain ⟨binding, -, rfl⟩ := List.mem_map.mp hline
      obtain ⟨binding', -, rfl⟩ := List.mem_map.mp hother
      have hmaps : stringToMap first.1 = stringToMap second.1 :=
        congrArg Prod.fst hpoint
      refine absurd ?_ hne
      rw [← mapToString_stringToMap hfirst, hmaps,
        mapToString_stringToMap hsecond]

theorem givenTo_iff (hmap : map ≠ .none) :
    GivenTo bindJson map bind code ↔
      ∃ line ∈ bindJson.lines, (readBind line).1 = (map, code) ∧
        line.1.2 = bind := by
  constructor
  · rintro ⟨name, hlook, hcode⟩
    refine ⟨((mapToString map, bind), name), mem_lines.mpr ⟨?_, hlook⟩, ?_, rfl⟩
    · rwa [stringToMap_mapToString]
    · rw [readBind, stringToMap_mapToString, hcode]
  · rintro ⟨⟨⟨name, bind'⟩, codeName⟩, hline, hpoint, rfl⟩
    obtain ⟨hnamed, hlook⟩ := mem_lines.mp hline
    simp only [readBind, Prod.mk.injEq] at hnamed hpoint hlook ⊢
    refine ⟨codeName, ?_, hpoint.2⟩
    rw [← hpoint.1, mapToString_stringToMap hnamed]
    exact hlook

/-- The bind that the table gets for a key is that of the last entry. -/
theorem paint_lines (bindJson : BindJson) (hmap : map ≠ .none) (code : Code) :
    (∃ bind, IsLast bindJson map bind code ∧
      Picture.blank.paint (bindJson.lines.map readBind) (map, code) =
        some (stringToBind bind)) ∨
    (∀ bind, ¬ GivenTo bindJson map bind code) ∧
      Picture.blank.paint (bindJson.lines.map readBind) (map, code) = none := by
  by_cases hmem : ∃ line ∈ bindJson.lines, (readBind line).1 = (map, code)
  · obtain ⟨line, hline, hpoint, hpaint, hgreatest⟩ :=
      Picture.paint_last Picture.blank readBind (lines_sorted bindJson) hmem
    refine .inl ⟨line.1.2, ⟨(givenTo_iff hmap).mpr ⟨line, hline, hpoint, rfl⟩,
      ?_⟩, hpaint⟩
    intro bind hgiven
    obtain ⟨other, hother, hsame, rfl⟩ := (givenTo_iff hmap).mp hgiven
    rcases hgreatest other hother hsame with rfl | hearlier
    · exact le_refl _
    · exact le_of_lt (hearlier (hsame.trans hpoint.symm))
  · refine .inr ⟨fun bind hgiven => hmem ?_, ?_⟩
    · obtain ⟨line, hline, hpoint, -⟩ := (givenTo_iff hmap).mp hgiven
      exact ⟨line, hline, hpoint⟩
    · refine Picture.paint_of_notMem _ _ ?_
      simpa [List.mem_map, and_assoc] using hmem

/-! ## Without the unrecognised entries -/

def Recognised (map bind code : String) : Prop :=
  stringToMap map ≠ .none ∧ stringToBind bind ≠ .none ∧
    stringToCode code ≠ .notImplemented

/-- The document without the entries that have an unknown name in them. -/
def BindJson.recognised : BindJson → BindJson
  | .null => .null
  | .object maps => .object (maps.filterMap fun map bindings =>
      if stringToMap map = .none then none
      else some (bindings.filter fun bind code =>
        stringToBind bind ≠ .none ∧ stringToCode code ≠ .notImplemented))

theorem look_recognised {map bind code : String} :
    bindJson.recognised.look (map, bind) = some code ↔
      bindJson.look (map, bind) = some code ∧ Recognised map bind code := by
  cases bindJson with
  | null => simp [BindJson.recognised, BindJson.look_null, Picture.blank]
  | object maps =>
      simp only [BindJson.recognised, BindJson.look, BindJson.maps,
        Std.ExtTreeMap.getElem?_filterMap', Recognised]
      cases hmaps : maps[map]? with
      | none => simp
      | some bindings =>
          by_cases hmap : stringToMap map = .none
          · simp [hmap]
          · simp [hmap, Option.filter_eq_some_iff]

theorem givenTo_recognised (hmap : map ≠ .none) :
    GivenTo bindJson.recognised map bind code ↔
      GivenTo bindJson map bind code ∧ stringToBind bind ≠ .none ∧
        code ≠ .notImplemented := by
  simp only [GivenTo, look_recognised, Recognised, stringToMap_mapToString]
  constructor
  · rintro ⟨name, ⟨hlook, -, hbind, hname⟩, rfl⟩
    exact ⟨⟨name, hlook, rfl⟩, hbind, hname⟩
  · rintro ⟨⟨name, hlook, rfl⟩, hbind, hname⟩
    exact ⟨name, ⟨hlook, hmap, hbind, hname⟩, rfl⟩

/-! ## When they are inert -/

/-- An entry of an unknown bind is the last for its key only if all entries for
the key are; the last entry of an unknown key has an unknown bind. -/
structure Inert (bindJson : BindJson) : Prop where
  masked : ∀ map bind code, map ≠ .none → code ≠ .notImplemented →
    (map, code) ≠ (.game, .error) → IsLast bindJson map bind code →
    stringToBind bind = .none →
    ∀ other, GivenTo bindJson map other code → stringToBind other = .none
  unknown : ∀ map bind, map ≠ .none →
    IsLast bindJson map bind .notImplemented → stringToBind bind = .none

/-- What the lines give to a key, before the last bind is set. -/
def bindAt (bindJson : BindJson) (map : Map) (code : Code) : Bind :=
  (Picture.blank.paint (bindJson.lines.map readBind) (map, code)).getD .none

theorem bindAt_of_last (hmap : map ≠ .none)
    (hlast : IsLast bindJson map bind code) :
    bindAt bindJson map code = stringToBind bind := by
  rcases paint_lines bindJson hmap code with
    ⟨other, hother, hpaint⟩ | ⟨hnone, -⟩
  · rw [bindAt, hpaint, Option.getD_some, hlast.eq hother]
  · exact absurd hlast.1 (hnone bind)

theorem bindAt_of_none (hmap : map ≠ .none)
    (hnone : ∀ bind, ¬ GivenTo bindJson map bind code) :
    bindAt bindJson map code = .none := by
  rcases paint_lines bindJson hmap code with
    ⟨other, hother, -⟩ | ⟨-, hpaint⟩
  · exact absurd hother.1 (hnone other)
  · rw [bindAt, hpaint, Option.getD_none]

theorem bindAt_recognised_eq_none (hmap : map ≠ .none) :
    bindAt bindJson.recognised map code = .none ↔
      ∀ bind, ¬ GivenTo bindJson.recognised map bind code := by
  refine ⟨fun hbind bind hgiven => ?_, bindAt_of_none hmap⟩
  rcases paint_lines bindJson.recognised hmap code with
    ⟨other, hother, -⟩ | ⟨hnone, -⟩
  · rw [bindAt_of_last hmap hother] at hbind
    exact ((givenTo_recognised hmap).mp hother.1).2.1 hbind
  · exact hnone bind hgiven

theorem bindAt_recognised_unknown (bindJson : BindJson) (hmap : map ≠ .none) :
    bindAt bindJson.recognised map .notImplemented = .none :=
  bindAt_of_none hmap fun _ hgiven =>
    ((givenTo_recognised hmap).mp hgiven).2.2 rfl

theorem bindAt_unknown_iff (bindJson : BindJson) (hmap : map ≠ .none) :
    bindAt bindJson map .notImplemented =
        bindAt bindJson.recognised map .notImplemented ↔
      ∀ bind, IsLast bindJson map bind .notImplemented →
        stringToBind bind = .none := by
  rw [bindAt_recognised_unknown bindJson hmap]
  rcases paint_lines bindJson hmap .notImplemented with
    ⟨last, hlast, -⟩ | ⟨hnone, -⟩
  · rw [bindAt_of_last hmap hlast]
    refine ⟨fun hbind bind hother => ?_, fun hall => hall last hlast⟩
    rw [hlast.eq hother]
    exact hbind
  · exact iff_of_true (bindAt_of_none hmap hnone) fun bind hlast =>
      absurd hlast.1 (hnone bind)

theorem bindAt_key_iff (hmap : map ≠ .none) (hcode : code ≠ .notImplemented) :
    bindAt bindJson map code = bindAt bindJson.recognised map code ↔
      ∀ bind, IsLast bindJson map bind code → stringToBind bind = .none →
        ∀ other, GivenTo bindJson map other code →
          stringToBind other = .none := by
  rcases paint_lines bindJson hmap code with
    ⟨last, hlast, -⟩ | ⟨hnone, -⟩
  · rw [bindAt_of_last hmap hlast]
    by_cases hbind : stringToBind last = .none
    · -- The last entry is unknown: there must be nothing it could mask.
      rw [hbind, eq_comm, bindAt_recognised_eq_none hmap]
      constructor
      · intro hnone bind _ _ other hother
        by_contra hother'
        exact hnone other ((givenTo_recognised hmap).mpr
          ⟨hother, hother', hcode⟩)
      · intro hall other hother
        obtain ⟨hgiven, hknown, -⟩ := (givenTo_recognised hmap).mp hother
        exact hknown (hall last hlast hbind other hgiven)
    · have hkept : IsLast bindJson.recognised map last code := by
        refine ⟨(givenTo_recognised hmap).mpr ⟨hlast.1, hbind, hcode⟩, ?_⟩
        intro other hother
        exact hlast.2 other ((givenTo_recognised hmap).mp hother).1
      rw [bindAt_of_last hmap hkept]
      refine iff_of_true rfl fun bind hother hnone => absurd ?_ hbind
      rw [← hlast.eq hother]
      exact hnone
  · refine iff_of_true ?_ fun bind hlast => absurd hlast.1 (hnone bind)
    rw [bindAt_of_none hmap hnone, eq_comm, bindAt_recognised_eq_none hmap]
    exact fun bind hgiven =>
      hnone bind ((givenTo_recognised hmap).mp hgiven).1

/-- The table that is loaded from a document into an empty one. -/
def loaded (reparse : BindJson → BindJson) (bindJson : BindJson) : Input :=
  (loadBindings reparse Input.empty (some ⟨some bindJson⟩)).2

theorem getBind_loaded (reparse : BindJson → BindJson) (bindJson : BindJson)
    (map : Map) (code : Code) :
    getBind (setCurrentMap (loaded reparse bindJson) map) code =
      if map = .none then .none
      else if (map, code) = (.game, .error) then .gameNoAction
      else bindAt (reparse bindJson) map code := by
  rw [getBind_eq_look, loaded, look_loadBindings, Function.update_apply]
  split
  · rfl
  · split <;> rfl

/-- A document is loaded like its recognised part exactly when no unknown bind
masks a known one and no known bind is left on the unknown key. -/
theorem unrecognised_inert_iff (reparse : BindJson → BindJson)
    (hreparse : ∀ bindJson, reparse bindJson = bindJson) (bindJson : BindJson) :
    ((∀ map code, getBind (setCurrentMap (loaded reparse bindJson) map) code =
        getBind (setCurrentMap (loaded reparse bindJson.recognised) map) code) ↔
      Inert bindJson) ∧
    ((∀ map, getBind (setCurrentMap (loaded reparse bindJson) map)
        .notImplemented = .none) ↔
      ∀ map bind, map ≠ .none → IsLast bindJson map bind .notImplemented →
        stringToBind bind = .none) := by
  simp only [getBind_loaded, hreparse]
  refine ⟨⟨fun hsame => ⟨?_, ?_⟩, fun hinert map code => ?_⟩, ?_⟩
  · intro map bind code hmap hcode hkey hlast
    have hat := hsame map code
    rw [if_neg hmap, if_neg hmap, if_neg hkey, if_neg hkey] at hat
    exact (bindAt_key_iff hmap hcode).mp hat bind hlast
  · intro map bind hmap
    have hat := hsame map .notImplemented
    rw [if_neg hmap, if_neg hmap, if_neg (by simp), if_neg (by simp)] at hat
    exact (bindAt_unknown_iff bindJson hmap).mp hat bind
  · split
    · rfl
    · rename_i hmap
      split
      · rfl
      · rename_i hkey
        by_cases hcode : code = .notImplemented
        · subst hcode
          exact (bindAt_unknown_iff bindJson hmap).mpr fun bind =>
            hinert.unknown map bind hmap
        · exact (bindAt_key_iff hmap hcode).mpr fun bind =>
            hinert.masked map bind code hmap hcode hkey
  · refine forall_congr' fun map => ?_
    by_cases hmap : map = .none
    · simp [hmap]
    · have hunknown := bindAt_unknown_iff bindJson hmap
      rw [bindAt_recognised_unknown bindJson hmap] at hunknown
      simpa [hmap] using hunknown

/-- A misspelt bind, and a key that the program does not know. -/
def misspelt : BindJson :=
  .object ((∅ : JsonObject (JsonObject String)).insert "GAME"
    ((((∅ : JsonObject String).insert "GAME_LEFT" "KEY_A").insert
      "GAME_LEFTT" "KEY_A").insert "GAME_QUIT" "KEY_F1"))

theorem look_misspelt (bind : String) :
    misspelt.look ("GAME", bind) =
      if bind = "GAME_QUIT" then some "KEY_F1"
      else if bind = "GAME_LEFTT" then some "KEY_A"
      else if bind = "GAME_LEFT" then some "KEY_A" else none := by
  simp [misspelt, BindJson.look, BindJson.maps, Std.ExtTreeMap.getElem?_insert,
    eq_comm (a := bind)]

theorem unrecognised_inert_iff_misspelt :
    (∀ map code, getBind (setCurrentMap (loaded id misspelt) map) code =
        getBind (setCurrentMap (loaded id misspelt.recognised) map) code) ↔
      Inert misspelt :=
  (unrecognised_inert_iff id (fun _ => rfl) misspelt).1

theorem givenTo_misspelt :
    GivenTo misspelt .game bind code ↔
      bind = "GAME_QUIT" ∧ code = .notImplemented ∨
      bind = "GAME_LEFTT" ∧ code = .keyA ∨ bind = "GAME_LEFT" ∧ code = .keyA := by
  have hquit : stringToCode "KEY_F1" = .notImplemented := by decide
  have hleft : stringToCode "KEY_A" = .keyA := by decide
  rw [GivenTo, mapToString]
  simp only [look_misspelt]
  split
  · simp_all [eq_comm]
  · split
    · simp_all [eq_comm]
    · split <;> simp_all [eq_comm]

theorem unrecognised_not_inert :
    getBind (setCurrentMap (loaded id misspelt) .game) .keyA = .none ∧
      getBind (setCurrentMap (loaded id misspelt.recognised) .game) .keyA =
        .gameLeft ∧
      getBind (setCurrentMap (loaded id misspelt) .game) .notImplemented =
        .gameQuit := by
  have hmasked : IsLast misspelt .game "GAME_LEFTT" .keyA := by
    refine ⟨by simp [givenTo_misspelt], fun other hother => ?_⟩
    simp only [givenTo_misspelt, reduceCtorEq, and_false, and_true,
      false_or] at hother
    rcases hother with rfl | rfl <;> decide
  have hkept : IsLast misspelt.recognised .game "GAME_LEFT" .keyA := by
    refine ⟨(givenTo_recognised (by decide)).mpr
      ⟨by simp [givenTo_misspelt], by decide, by decide⟩, fun other hother => ?_⟩
    obtain ⟨hgiven, hknown, -⟩ := (givenTo_recognised (by decide)).mp hother
    simp only [givenTo_misspelt, reduceCtorEq, and_false, and_true,
      false_or] at hgiven
    rcases hgiven with rfl | rfl
    · exact absurd (by decide) hknown
    · exact le_refl _
  have hunknown : IsLast misspelt .game "GAME_QUIT" .notImplemented := by
    refine ⟨by simp [givenTo_misspelt], fun other hother => ?_⟩
    simp only [givenTo_misspelt, reduceCtorEq, and_false, and_true,
      or_false] at hother
    exact le_of_eq hother
  simp only [getBind_loaded, id]
  rw [bindAt_of_last (by decide) hmasked, bindAt_of_last (by decide) hkept,
    bindAt_of_last (by decide) hunknown]
  decide

end Grzetris
