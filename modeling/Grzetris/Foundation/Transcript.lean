import Grzetris.Foundation.Canvas

/-!
# Transcripts

The entries of a picture are written to a page, each at the point and with the
value that `encode` gives it, and the lines of the page are read back with
`decode`.  The page keeps one entry a point, so entries that are written to the
same point are lost but for the last.  What is read is nevertheless among what
was written, and writing it once more gives the same page.
-/

namespace Foundation

namespace Picture

variable {κ α σ τ : Type*} [DecidableEq κ]

def blank : Picture κ α := fun _ => none

def Lists (picture : Picture κ α) (strokes : List (κ × α)) : Prop :=
  ∀ stroke, stroke ∈ strokes ↔ picture stroke.1 = some stroke.2

theorem paint_append (picture : Picture κ α) (first second : List (κ × α)) :
    picture.paint (first ++ second) = (picture.paint first).paint second := by
  induction first generalizing picture with
  | nil => rfl
  | cons stroke first ih => exact ih _

theorem mem_of_paint_blank {strokes : List (κ × α)} {point : κ} {value : α}
    (hpaint : blank.paint strokes point = some value) :
    (point, value) ∈ strokes := by
  by_cases hmem : point ∈ strokes.map Prod.fst
  · rcases paint_of_mem blank strokes hmem with ⟨other, hother, heq⟩
    rw [hpaint] at heq
    rw [Option.some.inj heq]
    exact hother
  · rw [paint_of_notMem _ _ hmem] at hpaint
    simp [blank] at hpaint

theorem paint_of_agree (picture : Picture κ α) {strokes : List (κ × α)}
    {point : κ} {value : α} (hmem : (point, value) ∈ strokes)
    (hagree : ∀ other, (point, other) ∈ strokes → other = value) :
    picture.paint strokes point = some value := by
  rcases paint_of_mem picture strokes (List.mem_map.mpr ⟨_, hmem, rfl⟩) with
    ⟨other, hother, hpaint⟩
  rw [hpaint, hagree other hother]

/-- Strokes painted in ascending order show, at a point, the greatest of those
that are made there. -/
theorem paint_last {ι : Type*} {r : ι → ι → Prop} (picture : Picture κ α)
    (read : ι → κ × α) {items : List ι} (hsorted : items.Pairwise r)
    {point : κ} (hmem : ∃ item ∈ items, (read item).1 = point) :
    ∃ item ∈ items, (read item).1 = point ∧
      picture.paint (items.map read) point = some (read item).2 ∧
      ∀ other ∈ items, (read other).1 = point → other = item ∨ r other item := by
  induction items generalizing picture with
  | nil => simp at hmem
  | cons first items ih =>
      rw [List.pairwise_cons] at hsorted
      rw [List.map_cons, paint]
      by_cases hlater : ∃ item ∈ items, (read item).1 = point
      · obtain ⟨item, hitem, hpoint, hpaint, hgreatest⟩ :=
          ih (Function.update picture (read first).1 (some (read first).2))
            hsorted.2 hlater
        refine ⟨item, List.mem_cons_of_mem _ hitem, hpoint, hpaint, ?_⟩
        intro other hother hsame
        rcases List.mem_cons.mp hother with rfl | htail
        · exact .inr (hsorted.1 item hitem)
        · exact hgreatest other htail hsame
      · have hfirst : (read first).1 = point := by
          obtain ⟨item, hitem, hpoint⟩ := hmem
          rcases List.mem_cons.mp hitem with rfl | htail
          · exact hpoint
          · exact absurd ⟨item, htail, hpoint⟩ hlater
        refine ⟨first, List.mem_cons_self, hfirst, ?_, ?_⟩
        · rw [paint_of_notMem _ _ (by simpa using hlater), hfirst,
            Function.update_self]
        · intro other hother hsame
          rcases List.mem_cons.mp hother with rfl | htail
          · exact .inl rfl
          · exact absurd ⟨other, htail, hsame⟩ hlater

/-- A loop each of whose steps paints on the picture of the state paints, as a
whole, the strokes of its steps one after the other. -/
theorem look_foldl {look : σ → Picture κ α} {step : σ → τ → σ}
    {strokes : τ → List (κ × α)} (Inv : σ → Prop)
    (hstep : ∀ state item, Inv state → Inv (step state item) ∧
      look (step state item) = (look state).paint (strokes item))
    (items : List τ) {state : σ} (hinv : Inv state) :
    look (items.foldl step state) =
      (look state).paint (items.flatMap strokes) := by
  induction items generalizing state with
  | nil => rfl
  | cons item items ih =>
      rcases hstep state item hinv with ⟨hnext, hlook⟩
      rw [List.foldl_cons, ih hnext, hlook, List.flatMap_cons, paint_append]

end Picture

open Picture

variable {κ α δ ε : Type*} [DecidableEq κ] [DecidableEq δ]

/-- `lines` lists the page to which `entries`, one a point, were written, and
`decode` undoes `encode` on them. -/
structure Transcript (encode : κ × α → δ × ε) (decode : δ × ε → κ × α)
    (entries : List (κ × α)) (lines : List (δ × ε)) : Prop where
  decode_encode : ∀ entry ∈ entries, decode (encode entry) = entry
  lists : Lists (blank.paint (entries.map encode)) lines
  entry_unique : ∀ entry ∈ entries, ∀ other ∈ entries,
    other.1 = entry.1 → other = entry

namespace Transcript

variable {encode : κ × α → δ × ε} {decode : δ × ε → κ × α}
variable {entries : List (κ × α)} {lines : List (δ × ε)}

omit [DecidableEq κ] in
theorem decode_mem (transcript : Transcript encode decode entries lines)
    {line : δ × ε} (hmem : line ∈ lines) :
    decode line ∈ entries ∧ encode (decode line) = line := by
  have hpage : line ∈ entries.map encode :=
    mem_of_paint_blank ((transcript.lists line).mp hmem)
  rcases List.mem_map.mp hpage with ⟨entry, hentry, rfl⟩
  rw [transcript.decode_encode entry hentry]
  exact ⟨hentry, rfl⟩

theorem mem_of_copy (transcript : Transcript encode decode entries lines)
    {entry : κ × α}
    (hcopy : blank.paint (lines.map decode) entry.1 = some entry.2) :
    entry ∈ entries ∧ encode entry ∈ lines := by
  have hread : entry ∈ lines.map decode := mem_of_paint_blank hcopy
  rcases List.mem_map.mp hread with ⟨line, hline, rfl⟩
  rcases transcript.decode_mem hline with ⟨hentry, hencode⟩
  rw [hencode]
  exact ⟨hentry, hline⟩

theorem copy_of_line (transcript : Transcript encode decode entries lines)
    {entry : κ × α} (hentry : entry ∈ entries) (hline : encode entry ∈ lines) :
    blank.paint (lines.map decode) entry.1 = some entry.2 := by
  apply paint_of_agree
  · exact List.mem_map.mpr
      ⟨encode entry, hline, transcript.decode_encode entry hentry⟩
  · intro other hother
    rcases List.mem_map.mp hother with ⟨line, hmem, heq⟩
    have hread := (transcript.decode_mem hmem).1
    rw [heq] at hread
    exact congrArg Prod.snd (transcript.entry_unique entry hentry _ hread rfl)

/-- An entry that shares its point of the page with no other is not lost. -/
theorem copy_of_entry (transcript : Transcript encode decode entries lines)
    {entry : κ × α} (hentry : entry ∈ entries)
    (halone : ∀ other ∈ entries,
      (encode other).1 = (encode entry).1 → other = entry) :
    blank.paint (lines.map decode) entry.1 = some entry.2 := by
  apply transcript.copy_of_line hentry
  apply (transcript.lists _).mpr
  apply paint_of_agree
  · exact List.mem_map.mpr ⟨entry, hentry, rfl⟩
  · intro value hvalue
    rcases List.mem_map.mp hvalue with ⟨other, hother, heq⟩
    have hsame : other = entry := by
      apply halone other hother
      rw [heq]
    rw [hsame] at heq
    rw [heq]

theorem paint_copy (transcript : Transcript encode decode entries lines)
    {again : List (κ × α)}
    (hagain : Lists (blank.paint (lines.map decode)) again) :
    (blank.paint (again.map encode) : Picture δ ε) =
      blank.paint (entries.map encode) := by
  -- Rewriting adds nothing: each entry written again stands on the page.
  have hforward : ∀ point value,
      (blank.paint (again.map encode) : Picture δ ε) point = some value →
      (blank.paint (entries.map encode) : Picture δ ε) point = some value := by
    intro point value hpaint
    rcases List.mem_map.mp (mem_of_paint_blank hpaint) with ⟨entry, hentry, heq⟩
    have hline := (transcript.mem_of_copy ((hagain entry).mp hentry)).2
    rw [heq] at hline
    exact (transcript.lists _).mp hline
  funext point
  apply Option.ext
  intro value
  constructor
  · exact hforward point value
  · intro hpage
    have hline : (point, value) ∈ lines := (transcript.lists _).mpr hpage
    rcases transcript.decode_mem hline with ⟨hentry, hencode⟩
    have hcopy := transcript.copy_of_line hentry (by rwa [hencode])
    have hmem : (point, value) ∈ again.map encode :=
      List.mem_map.mpr ⟨_, (hagain _).mpr hcopy, hencode⟩
    rcases paint_of_mem blank _ (List.mem_map.mpr ⟨_, hmem, rfl⟩) with
      ⟨other, _, hother⟩
    have hsame := hforward point other hother
    rw [hpage] at hsame
    rw [Option.some.inj hsame]
    exact hother

end Transcript

end Foundation
