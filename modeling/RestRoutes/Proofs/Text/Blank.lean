import Mathlib.Data.List.DropRight
import RestRoutes.Text.Blank
import RestRoutes.Text.Search

namespace RestRoutes.Text

theorem allBlank_append {s t : List Char} : allBlank (s ++ t) = (allBlank s && allBlank t) :=
  List.all_append

theorem allBlank_iff_trimStart {s : List Char} : allBlank s = true ↔ trimStart s = [] := by
  rw [allBlank, List.all_eq_true]
  exact List.dropWhile_eq_nil_iff.symm

/-- A text is the white space before it and the rest. -/
theorem exists_blank_append_trimStart (s : List Char) :
    ∃ w, allBlank w = true ∧ s = w ++ trimStart s := by
  refine ⟨s.takeWhile isBlank, ?_, List.takeWhile_append_dropWhile.symm⟩
  rw [allBlank, List.all_eq_true]
  exact fun c hc => List.mem_takeWhile_imp hc

/-- It is the rest and the white space behind it. -/
theorem exists_trimEnd_append_blank (s : List Char) :
    ∃ w, allBlank w = true ∧ s = trimEnd s ++ w := by
  obtain ⟨w, hw, hs⟩ := exists_blank_append_trimStart s.reverse
  refine ⟨w.reverse, ?_, ?_⟩
  · rwa [allBlank, List.all_reverse]
  · have := congrArg List.reverse hs
    rwa [List.reverse_reverse, List.reverse_append] at this

theorem trimEnd_begins (s : List Char) : trimEnd s <+: s := by
  obtain ⟨w, -, hs⟩ := exists_trimEnd_append_blank s
  exact ⟨w, hs.symm⟩

theorem trimStart_idem (s : List Char) : trimStart (trimStart s) = trimStart s :=
  List.dropWhile_idempotent isBlank s

theorem isEmpty_trim (s : List Char) : (trim s).isEmpty = allBlank s := by
  obtain ⟨w, hw, hs⟩ := exists_trimEnd_append_blank (trimStart s)
  rw [Bool.eq_iff_iff, List.isEmpty_iff, allBlank_iff_trimStart]
  constructor
  · intro h
    rw [show trimEnd (trimStart s) = [] from h, List.nil_append] at hs
    rw [← trimStart_idem, ← allBlank_iff_trimStart, hs]
    exact hw
  · intro h
    rw [trim, h]
    rfl

theorem trim_eq_self {c d : Char} (hc : isBlank c = false) (hd : isBlank d = false) (s : List Char) :
    trim (c :: (s ++ [d])) = c :: (s ++ [d]) := by
  simp [trim, trimEnd, trimStart, hc, hd]

theorem trimEnd_starts {p s : List Char} (hp : p.getLast?.any isBlank = false) :
    p <+: trimEnd s ↔ p <+: s := by
  refine ⟨fun h => h.trans (trimEnd_begins s), fun h => ?_⟩
  obtain ⟨w, hw, hs⟩ := exists_trimEnd_append_blank s
  generalize trimEnd s = t at hs
  subst hs
  rcases List.prefix_or_prefix_of_prefix h (List.prefix_append t w) with hshort | ⟨r, rfl⟩
  · exact hshort
  -- Otherwise `p` ends in the white space that is cut off.
  have hr : r <+: w := (List.prefix_append_right_inj t).mp h
  cases hlast : r.getLast? with
  | none =>
    simp only [List.getLast?_eq_none_iff.mp hlast, List.append_nil, List.prefix_rfl]
  | some c =>
    rw [allBlank, List.all_eq_true] at hw
    have hblank := hw c (hr.subset (List.mem_of_getLast? hlast))
    simp [List.getLast?_append, hlast, hblank] at hp

/-- How a text that does not end in white space begins another one is seen behind the white space. -/
theorem startsWith_trim_iff {p s : List Char} (hp : p.getLast?.any isBlank = false) :
    startsWith p (trim s) = true ↔ p <+: trimStart s :=
  startsWith_iff.trans (trimEnd_starts hp)

end RestRoutes.Text
