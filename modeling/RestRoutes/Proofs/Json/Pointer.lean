import RestRoutes.Json.Reference
import RestRoutes.Proofs.Except

namespace RestRoutes.Json

variable {t rest : List Char}

theorem slash_not_mem_tildeEscape (c : Char) : '/' ∉ tildeEscape c := by
  unfold tildeEscape
  split
  · simp
  split
  · simp
  · rename_i hc
    rw [List.mem_singleton]
    exact Ne.symm hc

theorem unescape_append (h : '~' ∉ t) : unescape (t ++ rest) = t ++ unescape rest := by
  induction t with
  | nil => rfl
  | cons c t ih =>
    obtain ⟨hc, ht⟩ := not_or.mp (mt List.mem_cons.mpr h)
    rw [List.cons_append, unescape, ih ht, List.cons_append]
    · intro _ htilde
      exact absurd htilde.symm hc
    · intro _ htilde
      exact absurd htilde.symm hc

/-- A tilde that is not followed by the digit of an escape. -/
theorem unescape_tilde (h0 : t.head? ≠ some '0') (h1 : t.head? ≠ some '1') :
    unescape ('~' :: t) = '~' :: unescape t := by
  rw [unescape]
  · rintro s - rfl
    exact h1 rfl
  · rintro s - rfl
    exact h0 rfl

theorem unescape_tildeEscape (c : Char) (s : List Char) :
    unescape (tildeEscape c ++ s) = c :: unescape s := by
  unfold tildeEscape
  split
  · rename_i hc
    rw [hc]
    rfl
  split
  · rename_i hc
    rw [hc]
    rfl
  · rename_i hc _
    exact unescape_append (by simpa using Ne.symm hc)

theorem unescape_escaped (s : List Char) : unescape (s.flatMap tildeEscape) = s := by
  induction s with
  | nil => rfl
  | cons c s ih => rw [List.flatMap_cons, unescape_tildeEscape, ih]

theorem splitOn_segments (x : List Char) (segments : List (List Char)) (hx : '/' ∉ x)
    (h : ∀ s ∈ segments, '/' ∉ s) :
    (x ++ segments.flatMap fun s => '/' :: s).splitOn '/' = x :: segments := by
  induction segments generalizing x with
  | nil => simp [List.splitOn_eq_singleton hx]
  | cons s segments ih =>
    obtain ⟨hs, hsegments⟩ := List.forall_mem_cons.mp h
    rw [List.flatMap_cons, List.cons_append, List.splitOn_append_cons_self_of_not_mem hx, ih s hs hsegments]

/-- Reading a pointer undoes what writing it does. -/
theorem pointer?_pointerTo (v : Json) (segments : List (List Char)) :
    v.pointer? (pointerTo segments) = v.at? segments := by
  cases segments with
  | nil => rfl
  | cons x segments =>
    have hslash (s : List Char) : '/' ∉ s.flatMap tildeEscape := by
      intro h
      obtain ⟨c, -, hc⟩ := List.mem_flatMap.mp h
      exact slash_not_mem_tildeEscape c hc
    have hescaped : ∀ s ∈ segments.map (·.flatMap tildeEscape), '/' ∉ s := by
      intro s hs
      obtain ⟨s, -, rfl⟩ := List.mem_map.mp hs
      exact hslash s
    have hsplit := splitOn_segments _ _ (hslash x) hescaped
    rw [List.flatMap_map] at hsplit
    rw [pointerTo, List.flatMap_cons, List.cons_append, pointer?, hsplit, List.map_cons, List.map_map,
      unescape_escaped]
    congr 2
    exact (List.map_congr_left fun s _ => unescape_escaped s).trans (List.map_id _)

theorem target_eq_ok_iff {root v : Json} {reference : String} : target root reference = .ok v ↔
    ∃ segments, path reference = .ok segments ∧ root.at? segments = some v := by
  rw [target, bind_eq_ok_iff]
  apply exists_congr
  intro segments
  rw [pointer?_pointerTo]
  cases root.at? segments with
  | none => simp [throw, throwThe, MonadExceptOf.throw]
  | some u => simp [pure, Except.pure]

end RestRoutes.Json
