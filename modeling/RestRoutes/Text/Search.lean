namespace RestRoutes.Text

/-- What follows `p` at the start of a text. -/
def after? : (p s : List Char) → Option (List Char)
  | [], s => some s
  | _ :: _, [] => none
  | c :: p, d :: s => if c = d then after? p s else none

def startsWith (p s : List Char) : Bool := (after? p s).isSome

/-- Whether `p` stands somewhere in a text. -/
def occursIn (p : List Char) : List Char → Bool
  | [] => p.isEmpty
  | c :: s => startsWith p (c :: s) || occursIn p s

/-- Every occurrence of `old` replaced, from the left and without overlap. -/
def replaceAll (old : Char) (new : List Char) : List Char → List Char
  | [] => []
  | c :: s => (if c = old then new else [c]) ++ replaceAll old new s

theorem after?_append (p s : List Char) : after? p (p ++ s) = some s := by
  induction p with
  | nil => rfl
  | cons c p ih => simpa [after?] using ih

theorem eq_append_of_after? {p s r : List Char} (h : after? p s = some r) : s = p ++ r := by
  induction p generalizing s with
  | nil => simpa [after?] using h
  | cons c p ih =>
    cases s with
    | nil => simp [after?] at h
    | cons d s =>
      by_cases hc : c = d
      · subst hc; simp [after?] at h; simp [ih h]
      · simp [after?, hc] at h

/-- `after?` is exactly the removal of a first part. -/
theorem after?_eq_some_iff {p s r : List Char} : after? p s = some r ↔ s = p ++ r :=
  ⟨eq_append_of_after?, fun h => h ▸ after?_append p r⟩

theorem startsWith_iff {p s : List Char} : startsWith p s = true ↔ p <+: s := by
  rw [startsWith, Option.isSome_iff_exists]
  constructor
  · rintro ⟨r, h⟩
    exact ⟨r, (after?_eq_some_iff.mp h).symm⟩
  · rintro ⟨r, rfl⟩
    exact ⟨r, after?_append p r⟩

theorem occursIn_iff {p s : List Char} : occursIn p s = true ↔ p <:+: s := by
  induction s with
  | nil => simp [occursIn]
  | cons c s ih => rw [occursIn, Bool.or_eq_true, startsWith_iff, ih, List.infix_cons_iff]

theorem occursIn_mono {p s t : List Char} (h : occursIn p s = true) (hst : s <:+: t) :
    occursIn p t = true :=
  occursIn_iff.mpr ((occursIn_iff.mp h).trans hst)

end RestRoutes.Text
