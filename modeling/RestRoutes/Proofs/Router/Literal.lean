import RestRoutes.Proofs.Text.Utf8

namespace RestRoutes.Literal

open Text

/-- What a character between the quotes denotes, and how many of the characters behind it belong to it;
nothing where it cannot stand. -/
abbrev Rule := Char → List Char → Option (List UInt8 × Nat)

/-- Reads a literal behind its opening quote: the bytes that it denotes, and the text behind its closing
quote. The first `skip` characters are read already. -/
def read (rule : Rule) (skip : Nat) : List Char → Option (List UInt8 × List Char)
  | [] => none
  | c :: s =>
    match skip with
    | skip + 1 => read rule skip s
    | 0 =>
      if c = '"' then some ([], s)
      else
        match rule c s with
        | none => none
        | some (bytes, taken) => (read rule taken s).map fun r => (bytes ++ r.1, r.2)

structure Language where
  /-- What is done to a whole source before anything in it is read. -/
  prepare : List Char → List Char
  rule : Rule

def Language.read (l : Language) (s : List Char) : Option (List UInt8 × List Char) :=
  Literal.read l.rule 0 (l.prepare s)

variable {l : Language} {plain : Char → Bool} {c : Char} {s r : List Char} {bytes : List UInt8}
  {taken : Nat}

/-- A text is left as it is, or loses something. -/
def Shrinks (s' s : List Char) : Prop := s' = s ∨ Utf8.size s' < Utf8.size s

/-- What the rules of a language have in common: a quote stays where it is until it is read, plain
characters denote themselves, and whatever else a literal may hold denotes less than it takes. -/
structure Lawful (l : Language) (plain : Char → Bool) : Prop where
  prepare_append : ∀ s r, l.prepare (s ++ '"' :: r) = l.prepare s ++ '"' :: l.prepare r
  prepare_plain : ∀ s, (∀ c ∈ s, plain c = true) → l.prepare s = s
  prepare_shrinks : ∀ s, Shrinks (l.prepare s) s
  quote : plain '"' = false
  rule_plain : ∀ c s, plain c = true → l.rule c s = some (Utf8.encodeChar c, 0)
  rule_special : ∀ c s bytes taken, plain c = false → c ≠ '"' → l.rule c s = some (bytes, taken) →
    bytes.length ≤ taken ∧ taken ≤ s.length

theorem Shrinks.keep (h : Shrinks r s) : Shrinks (c :: r) (c :: s) := by
  refine h.imp (congrArg (c :: ·)) fun h => ?_
  rw [Utf8.size, Utf8.size]
  omega

theorem Shrinks.drop (h : Shrinks r s) : Shrinks r (c :: s) := by
  have hc := (Utf8.encodeChar_length c).1
  refine .inr ?_
  rw [Utf8.size]
  rcases h with rfl | h <;> omega

theorem size_quote (s : List Char) : Utf8.size ('"' :: s) = 1 + Utf8.size s := rfl

/-- One step of reading, at a character that is not read yet. -/
theorem read_cons_eq_some_iff {rule : Rule} (hc : c ≠ '"') :
    read rule 0 (c :: s) = some (bytes, r) ↔
      ∃ first taken rest, rule c s = some (first, taken) ∧ read rule taken s = some (rest, r) ∧
        bytes = first ++ rest := by
  rw [read, if_neg hc]
  cases rule c s with
  | none => simp
  | some step =>
    obtain ⟨first, taken⟩ := step
    constructor
    · intro h
      obtain ⟨⟨rest, r'⟩, hrest, he⟩ := Option.map_eq_some_iff.mp h
      cases he
      exact ⟨first, taken, rest, rfl, hrest, rfl⟩
    · rintro ⟨_, _, rest, ⟨⟩, hrest, rfl⟩
      exact Option.map_eq_some_iff.mpr ⟨(rest, r), hrest, rfl⟩

/-- A literal denotes at most as many bytes as it takes. -/
theorem read_size (h : Lawful l plain) {skip : Nat} (hr : read l.rule skip s = some (bytes, r)) :
    bytes.length + 1 + Utf8.size r ≤ Utf8.size (s.drop skip) := by
  induction s generalizing skip bytes with
  | nil => cases hr
  | cons c s ih =>
    cases skip with
    | succ skip => exact ih hr
    | zero =>
      by_cases hq : c = '"'
      · subst hq
        cases hr
        exact Nat.le_of_eq (congrArg (· + Utf8.size r) (Nat.zero_add 1))
      · obtain ⟨first, taken, rest, hrule, hrest, rfl⟩ := (read_cons_eq_some_iff hq).mp hr
        have hsize := ih hrest
        have hfirst : first.length + Utf8.size (s.drop taken) ≤ Utf8.size (c :: s) := by
          cases hc : plain c with
          | true =>
            rw [h.rule_plain c s hc] at hrule
            cases hrule
            exact Nat.le_refl _
          | false =>
            obtain ⟨hle, htaken⟩ := h.rule_special c s first taken hc hq hrule
            have := Utf8.le_size_drop htaken
            rw [Utf8.size]
            omega
        rw [List.length_append, List.drop_zero]
        omega

/-- Plain characters are read as they stand. -/
theorem read_plain (h : Lawful l plain) (hs : ∀ c ∈ s, plain c = true) :
    read l.rule 0 (s ++ '"' :: r) = some (Utf8.encode s, r) := by
  induction s with
  | nil => rfl
  | cons c s ih =>
    have hc := hs c List.mem_cons_self
    have hq : c ≠ '"' := by
      rintro rfl
      rw [h.quote] at hc
      cases hc
    exact (read_cons_eq_some_iff hq).mpr ⟨_, 0, _, h.rule_plain c _ hc,
      ih fun c' hc' => hs c' (List.mem_cons_of_mem c hc'), rfl⟩

/-- Nothing else denotes itself: it would have to denote as many bytes as it takes. -/
theorem plain_of_read (h : Lawful l plain)
    (hr : read l.rule 0 (s ++ '"' :: r) = some (Utf8.encode s, r)) : ∀ c ∈ s, plain c = true := by
  induction s with
  | nil => simp
  | cons c s ih =>
    have hpos := (Utf8.encodeChar_length c).1
    have hencode : Utf8.encode (c :: s) = Utf8.encodeChar c ++ Utf8.encode s := List.flatMap_cons
    rw [List.cons_append, hencode] at hr
    have hq : c ≠ '"' := by
      rintro rfl
      cases hr
    obtain ⟨first, taken, rest, hrule, hrest, hbytes⟩ := (read_cons_eq_some_iff hq).mp hr
    cases hc : plain c with
    | true =>
      rw [h.rule_plain c _ hc] at hrule
      cases hrule
      rw [← List.append_cancel_left hbytes] at hrest
      exact List.forall_mem_cons.mpr ⟨hc, ih hrest⟩
    | false =>
      obtain ⟨hle, htaken⟩ := h.rule_special c _ first taken hc hq hrule
      have hsize := read_size h hrest
      have hdrop := Utf8.le_size_drop htaken
      have hlength := congrArg List.length hbytes
      rw [List.length_append, List.length_append, Utf8.length_encode] at hlength
      rw [Utf8.size_append, size_quote] at hdrop
      omega

/-- A text between quotes denotes itself exactly when all of it is plain, whatever stands behind it. -/
theorem Language.read_eq_some_iff (h : Lawful l plain) (s r : List Char) :
    l.read (s ++ '"' :: r) = some (Utf8.encode s, l.prepare r) ↔ ∀ c ∈ s, plain c = true := by
  rw [Language.read, h.prepare_append]
  constructor
  · intro hr
    have hsame : l.prepare s = s := by
      refine (h.prepare_shrinks s).resolve_right fun hless => ?_
      have hsize := read_size h hr
      rw [Utf8.length_encode, List.drop_zero, Utf8.size_append, size_quote] at hsize
      omega
    rw [hsame] at hr
    exact plain_of_read h hr
  · intro hs
    rw [h.prepare_plain s hs]
    exact read_plain h hs

end RestRoutes.Literal
