namespace RestRoutes.Text

variable {p : Char → Bool} {s t x y : List Char}

theorem takeWhile_append_of_head (hs : ∀ c ∈ s, p c) (hx : ∀ c ∈ x.head?, p c = false) :
    (s ++ x).takeWhile p = s := by
  rw [List.takeWhile_append_of_pos hs]
  cases x with
  | nil => simp
  | cons c x => simp [hx c rfl]

/-- A run of characters of one class is followed by another kind: it ends at one place only. -/
theorem append_inj_of_head (hs : ∀ c ∈ s, p c) (ht : ∀ c ∈ t, p c) (hx : ∀ c ∈ x.head?, p c = false)
    (hy : ∀ c ∈ y.head?, p c = false) (h : s ++ x = t ++ y) : s = t ∧ x = y := by
  have hst : s = t := by
    rw [← takeWhile_append_of_head hs hx, h, takeWhile_append_of_head ht hy]
  subst hst
  exact ⟨rfl, List.append_cancel_left h⟩

end RestRoutes.Text
