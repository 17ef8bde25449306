namespace RestRoutes.Text

/-- A line held in reverse, freed of the carriage return before its line feed. -/
def endLine : List Char → List Char
  | '\r' :: line => line.reverse
  | line => line.reverse

/-- The lines of a text behind an unfinished line, which is held in reverse. -/
def linesFrom (line : List Char) : List Char → List (List Char)
  | [] => if line.isEmpty then [] else [line.reverse]
  | c :: s => if c = '\n' then endLine line :: linesFrom [] s else linesFrom (c :: line) s

def lines (s : List Char) : List (List Char) := linesFrom [] s

/-- A text up to a line feed and the text after it have their lines apart. -/
theorem linesFrom_append (line a b : List Char) :
    linesFrom line (a ++ '\n' :: b) = linesFrom line (a ++ ['\n']) ++ lines b := by
  induction a generalizing line with
  | nil => simp [linesFrom, lines]
  | cons c a ih =>
    by_cases h : c = '\n'
    · simp [linesFrom, h, ih]
    · simp [linesFrom, h, ih]

theorem lines_append (a b : List Char) :
    lines (a ++ '\n' :: b) = lines (a ++ ['\n']) ++ lines b := linesFrom_append [] a b

theorem endLine_begins (line : List Char) : endLine line <+: line.reverse := by
  unfold endLine
  split
  · rw [List.reverse_cons]
    exact List.prefix_append _ _
  · exact List.prefix_rfl

/-- No line goes on behind a line feed. -/
theorem notMem_of_mem_linesFrom {acc s line : List Char} (hacc : '\n' ∉ acc)
    (h : line ∈ linesFrom acc s) : '\n' ∉ line := by
  induction s generalizing acc with
  | nil =>
    simp only [linesFrom] at h
    split at h
    · simp at h
    · simpa [List.mem_singleton.mp h] using hacc
  | cons c s ih =>
    rw [linesFrom] at h
    split at h
    · rcases List.mem_cons.mp h with rfl | h
      · intro hline
        exact hacc (List.mem_reverse.mp ((endLine_begins acc).subset hline))
      · exact ih (by simp) h
    · exact ih (by simpa [eq_comm, hacc] using ‹¬ c = '\n'›) h

end RestRoutes.Text
