import RestRoutes.Proofs.Json.Space
import RestRoutes.Text.Lines

namespace RestRoutes.Json

/-- The tokens of lines, one line after the other. -/
def lineTokens (lines : List (List Char)) : List (Option Lexeme) :=
  lines.foldr (fun line ts => joinTokens (soundTokens line) ts) []

theorem soundTokens_endLine (line : List Char) :
    soundTokens (Text.endLine line) = soundTokens line.reverse := by
  fun_cases Text.endLine line with
  | case1 line =>
    rw [List.reverse_cons, soundTokens_append (by decide) (by simp), soundTokens_nil, joinTokens_nil]
  | case2 => rfl

theorem soundTokens_linesFrom (line s : List Char) :
    soundTokens (line.reverse ++ s) = lineTokens (Text.linesFrom line s) := by
  induction s generalizing line with
  | nil =>
    cases line with
    | nil => simp [Text.linesFrom, lineTokens]
    | cons c line => simp [Text.linesFrom, lineTokens]
  | cons c s ih =>
    rw [Text.linesFrom]
    split
    · rename_i hc
      rw [hc, soundTokens_append (by decide) (by simp), ← soundTokens_endLine]
      exact congrArg (joinTokens _) (ih [])
    · rw [← ih (c :: line)]
      simp

theorem soundTokens_lines (s : List Char) : soundTokens s = lineTokens (Text.lines s) :=
  soundTokens_linesFrom [] s

theorem soundTokens_flatMap (lines : List (List Char)) :
    soundTokens (lines.flatMap (· ++ ['\n'])) = lineTokens lines := by
  induction lines with
  | nil => exact soundTokens_nil
  | cons line lines ih =>
    rw [List.flatMap_cons, List.append_assoc, List.singleton_append,
      soundTokens_append (by decide) (by simp), ih]
    rfl

/-- Lines with the tokens of the lines of a text are read as that text. -/
theorem read_flatMap {s : List Char} {v : Json} {lines : List (List Char)}
    (h : lines.map soundTokens = (Text.lines s).map soundTokens) :
    read (lines.flatMap (· ++ ['\n'])) = .ok v ↔ read s = .ok v := by
  apply read_eq_ok_iff_of_soundTokens
  rw [soundTokens_flatMap, soundTokens_lines s, lineTokens, lineTokens]
  simpa only [List.foldr_map] using congrArg (List.foldr joinTokens []) h

theorem notMem_of_joinTokens {ts us : List (Option Lexeme)} (h : none ∉ joinTokens ts us) :
    none ∉ ts ∧ none ∉ us := by
  induction ts with
  | nil => exact ⟨List.not_mem_nil, h⟩
  | cons t ts ih =>
    cases t with
    | none => exact absurd List.mem_cons_self h
    | some l =>
      obtain ⟨hts, hus⟩ := ih fun hmem => h (List.mem_cons_of_mem _ hmem)
      exact ⟨by simpa using hts, hus⟩

/-- No line of a text that has a value is at fault. -/
theorem sound_line_of_read {s : List Char} {v : Json} (h : read s = .ok v) :
    ∀ line ∈ Text.lines s, none ∉ soundTokens line := by
  have hsound := sound_of_read h
  rw [soundTokens_lines] at hsound
  generalize Text.lines s = lines at hsound
  induction lines with
  | nil => nofun
  | cons line lines ih =>
    obtain ⟨hline, hlines⟩ := notMem_of_joinTokens hsound
    exact List.forall_mem_cons.mpr ⟨hline, ih hlines⟩

end RestRoutes.Json
