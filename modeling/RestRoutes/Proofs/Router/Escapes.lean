import RestRoutes.Json.Token
import RestRoutes.Proofs.Router.Literal
import RestRoutes.Router.Kind

namespace RestRoutes.Literal

open Text

def number (base : Nat) (digits : List Char) : Option Nat :=
  (digits.mapM Json.hexValue?).map fun values => values.foldl (fun n d => n * base + d) 0

/-- A number that is a single byte. -/
def byte? (limit n : Nat) : Option (List UInt8) := if n < limit then some [.ofNat n] else none

/-- The character of a number. Surrogates are none. -/
def codePoint? (n : Nat) : Option (List UInt8) :=
  if n.isValidChar then some (Utf8.encodeChar (.ofNat n)) else none

def isHex (c : Char) : Bool := (Json.hexValue? c).isSome

def isOctal (c : Char) : Bool := '0' ≤ c && c ≤ '7'

end RestRoutes.Literal

namespace RestRoutes.Crow

open Literal Text

/-- A backslash at the end of a line joins it with the next one, also within a literal. -/
def joinLines : List Char → List Char
  | [] => []
  | '\\' :: '\r' :: '\n' :: s => joinLines s
  | '\\' :: '\r' :: s => joinLines s
  | '\\' :: '\n' :: s => joinLines s
  | c :: s => c :: joinLines s

def escapes : List (Char × UInt8) := [
  ('a', 7), ('b', 8), ('t', 9), ('n', 10), ('v', 11), ('f', 12), ('r', 13),
  ('"', 34), ('\'', 39), ('?', 63), ('\\', 92)]

/-- A character by exactly `count` digits. -/
def numbered (count : Nat) (s : List Char) : Option (List UInt8 × Nat) :=
  if s.length < count then none
  else ((number 16 (s.take count)).bind codePoint?).map (·, count + 1)

/-- What stands behind a backslash. -/
def escape (s : List Char) : Option (List UInt8 × Nat) :=
  match s with
  | [] => none
  | 'x' :: s =>
    let digits := s.takeWhile isHex
    if digits.isEmpty then none
    else ((number 16 digits).bind (byte? 0x100)).map (·, digits.length + 1)
  | 'u' :: s => numbered 4 s
  | 'U' :: s => numbered 8 s
  | c :: rest =>
    if isOctal c then
      let digits := c :: (rest.take 2).takeWhile isOctal
      ((number 8 digits).bind (byte? 0x100)).map (·, digits.length)
    else (escapes.lookup c).map ([·], 1)

def language : Language where
  prepare := joinLines
  rule c s :=
    if c = '\\' then escape s
    else if c = '\n' || c = '\r' then none
    else some (Utf8.encodeChar c, 0)

end RestRoutes.Crow

namespace RestRoutes.Actix

open Literal Text

/-- A carriage return before a line feed is no part of the source. -/
def dropReturns : List Char → List Char
  | [] => []
  | '\r' :: '\n' :: s => '\n' :: dropReturns s
  | c :: s => c :: dropReturns s

def escapes : List (Char × UInt8) := [
  ('0', 0), ('t', 9), ('n', 10), ('r', 13), ('"', 34), ('\'', 39), ('\\', 92)]

def isGap (c : Char) : Bool := c = ' ' || c = '\t' || c = '\n' || c = '\r'

/-- A character by one to six digits in braces, which underscores may follow. -/
def braced (s : List Char) : Option (List UInt8 × Nat) :=
  let inside := s.takeWhile (· ≠ '\x7d')
  let digits := inside.filter (· ≠ '_')
  if inside.length = s.length || inside.head? = some '_' || digits.isEmpty || 6 < digits.length then none
  else ((number 16 digits).bind codePoint?).map (·, inside.length + 3)

/-- What stands behind a backslash. A line end there takes with it all blanks that follow. -/
def escape (s : List Char) : Option (List UInt8 × Nat) :=
  match s with
  | [] => none
  | '\n' :: s => some ([], (s.takeWhile isGap).length + 1)
  | 'x' :: a :: b :: _ => ((number 16 [a, b]).bind (byte? 0x80)).map (·, 3)
  | 'u' :: '\x7b' :: s => braced s
  | c :: _ => (escapes.lookup c).map ([·], 1)

def language : Language where
  prepare := dropReturns
  rule c s :=
    if c = '\\' then escape s
    else if c = '\r' then none
    else some (Utf8.encodeChar c, 0)

end RestRoutes.Actix

namespace RestRoutes

namespace RouterKind

def language : RouterKind → Literal.Language
  | .crow => Crow.language
  | .actix => Actix.language

/-- Whether a character stands for itself between quotes. -/
def isLiteral : RouterKind → Char → Bool
  | .crow, c => c ≠ '"' && c ≠ '\\' && c ≠ '\n' && c ≠ '\r'
  | .actix, c => c ≠ '"' && c ≠ '\\' && c ≠ '\r'

end RouterKind

namespace Literal

open Text

variable {c : Char} {s r : List Char} {bytes : List UInt8}

/-- What stands at a quote is no part of what begins before it. -/
theorem append_quote_ne (hc : c ≠ '"') (h : ∀ u, s ≠ c :: u) (u : List Char) : s ++ '"' :: r ≠ c :: u := by
  intro he
  cases s with
  | nil =>
    cases he
    exact hc rfl
  | cons d s =>
    cases he
    exact h s rfl

theorem codePoint?_length {n : Nat} (h : codePoint? n = some bytes) : bytes.length ≤ 4 := by
  simp only [codePoint?] at h
  split at h
  · cases h
    exact (Utf8.encodeChar_length _).2
  · cases h

theorem byte?_length {limit n : Nat} (h : byte? limit n = some bytes) : bytes.length ≤ 1 := by
  simp only [byte?] at h
  split at h
  · cases h
    exact Nat.le_refl 1
  · cases h

/-- Bytes and characters by number fit the room that their digits take. -/
theorem fits_of_map {x : Option Nat} {f : Nat → Option (List UInt8)} {room taken limit : Nat}
    (hf : ∀ {n bytes}, f n = some bytes → bytes.length ≤ limit) (hlimit : limit ≤ room)
    (h : (x.bind f).map (·, room) = some (bytes, taken)) : bytes.length ≤ room ∧ taken = room := by
  obtain ⟨b, hb, he⟩ := Option.map_eq_some_iff.mp h
  cases he
  obtain ⟨n, -, hn⟩ := Option.bind_eq_some_iff.mp hb
  exact ⟨Nat.le_trans (hf hn) hlimit, rfl⟩

theorem takeWhile_length_le (p : Char → Bool) (s : List Char) : (s.takeWhile p).length ≤ s.length :=
  (List.takeWhile_sublist p).length_le

end Literal

namespace Crow

open Literal Text

variable {c : Char} {s : List Char} {bytes : List UInt8} {taken : Nat}

theorem joinLines_append (s r : List Char) :
    joinLines (s ++ '"' :: r) = joinLines s ++ '"' :: joinLines r := by
  fun_induction joinLines s with
  | case1 => simp [joinLines]
  | case2 s ih => rw [← ih]; simp [joinLines]
  | case3 s hs ih =>
    rw [← ih, List.cons_append, List.cons_append, joinLines]
    exact append_quote_ne (by decide) hs
  | case4 s ih => rw [← ih]; simp [joinLines]
  | case5 c s _ hcr hlf ih =>
    rw [List.cons_append, joinLines, ih]
    · rfl
    · exact fun u hc he => append_quote_ne (by decide) (fun v => hcr v hc) _ he
    · exact fun u hc he => append_quote_ne (by decide) (fun v => hcr v hc) u he
    · exact fun u hc he => append_quote_ne (by decide) (fun v => hlf v hc) u he

theorem joinLines_shrinks (s : List Char) : Shrinks (joinLines s) s := by
  fun_induction joinLines s with
  | case1 => exact .inl rfl
  | case2 s ih => exact ih.drop.drop.drop
  | case3 s _ ih => exact ih.drop.drop
  | case4 s ih => exact ih.drop.drop
  | case5 c s _ _ _ ih => exact ih.keep

theorem joinLines_plain (h : ∀ c ∈ s, c ≠ '\\') : joinLines s = s := by
  fun_induction joinLines s with
  | case1 => rfl
  | case2 => simp at h
  | case3 => simp at h
  | case4 => simp at h
  | case5 c s _ _ _ ih => rw [ih fun c' hc' => h c' (List.mem_cons_of_mem c hc')]

theorem numbered_fits {count : Nat} (hcount : 4 ≤ count + 1)
    (h : numbered count s = some (bytes, taken)) : bytes.length ≤ taken ∧ taken ≤ s.length + 1 := by
  simp only [numbered] at h
  split at h
  · cases h
  obtain ⟨hbytes, rfl⟩ := fits_of_map codePoint?_length hcount h
  exact ⟨hbytes, by omega⟩

/-- The shortest escape for a character of four bytes has five characters behind the backslash. -/
theorem escape_fits (h : escape s = some (bytes, taken)) : bytes.length ≤ taken ∧ taken ≤ s.length := by
  simp only [escape] at h
  split at h
  · cases h
  · rename_i s
    split at h
    · cases h
    obtain ⟨hbytes, rfl⟩ := fits_of_map byte?_length (by omega) h
    have := takeWhile_length_le isHex s
    exact ⟨hbytes, by rw [List.length_cons]; omega⟩
  · exact numbered_fits (by omega) h
  · exact numbered_fits (by omega) h
  · rename_i c rest _ _ _
    split at h
    · obtain ⟨hbytes, rfl⟩ := fits_of_map byte?_length (by simp) h
      have := takeWhile_length_le isOctal (rest.take 2)
      simp only [List.length_cons, List.length_take] at this ⊢
      exact ⟨hbytes, by omega⟩
    · obtain ⟨b, -, he⟩ := Option.map_eq_some_iff.mp h
      cases he
      simp

theorem language_lawful : Lawful language (RouterKind.isLiteral .crow) where
  prepare_append := joinLines_append
  prepare_plain s hs := joinLines_plain fun c hc => by
    have := hs c hc
    simp [RouterKind.isLiteral] at this
    exact this.1.1.2
  prepare_shrinks := joinLines_shrinks
  quote := rfl
  rule_plain c s hc := by
    simp [RouterKind.isLiteral] at hc
    simp [language, hc]
  rule_special c s bytes taken hc hq h := by
    simp only [language] at h
    split at h
    · exact escape_fits h
    rename_i hback
    split at h
    · cases h
    · simp_all [RouterKind.isLiteral]

end Crow

namespace Actix

open Literal Text

variable {c : Char} {s : List Char} {bytes : List UInt8} {taken : Nat}

theorem dropReturns_append (s r : List Char) :
    dropReturns (s ++ '"' :: r) = dropReturns s ++ '"' :: dropReturns r := by
  fun_induction dropReturns s with
  | case1 => simp [dropReturns]
  | case2 s ih =>
    rw [List.cons_append, List.cons_append, dropReturns, ih]
    rfl
  | case3 c s hlf ih =>
    rw [List.cons_append, dropReturns, ih]
    · rfl
    · exact fun u hc he => append_quote_ne (by decide) (fun v => hlf v hc) u he

theorem dropReturns_shrinks (s : List Char) : Shrinks (dropReturns s) s := by
  fun_induction dropReturns s with
  | case1 => exact .inl rfl
  | case2 s ih => exact ih.keep.drop
  | case3 c s _ ih => exact ih.keep

theorem dropReturns_plain (h : ∀ c ∈ s, c ≠ '\r') : dropReturns s = s := by
  fun_induction dropReturns s with
  | case1 => rfl
  | case2 => simp at h
  | case3 c s _ ih => rw [ih fun c' hc' => h c' (List.mem_cons_of_mem c hc')]

theorem braced_fits (h : braced s = some (bytes, taken)) :
    bytes.length ≤ taken ∧ taken ≤ s.length + 2 := by
  simp only [braced] at h
  split at h
  · cases h
  rename_i hwhole
  simp only [Bool.or_eq_true, not_or, decide_eq_true_eq] at hwhole
  have := takeWhile_length_le (· ≠ '\x7d') s
  have hinside : 0 < (s.takeWhile (· ≠ '\x7d')).length := by
    refine Nat.pos_of_ne_zero fun he => hwhole.1.2 ?_
    rw [List.length_eq_zero_iff.mp he]
    rfl
  obtain ⟨hbytes, rfl⟩ := fits_of_map codePoint?_length (by omega) h
  exact ⟨hbytes, by omega⟩

theorem escape_fits (h : escape s = some (bytes, taken)) : bytes.length ≤ taken ∧ taken ≤ s.length := by
  simp only [escape] at h
  split at h
  · cases h
  · rename_i s
    cases h
    have := takeWhile_length_le isGap s
    exact ⟨Nat.zero_le _, by rw [List.length_cons]; omega⟩
  · obtain ⟨hbytes, rfl⟩ := fits_of_map byte?_length (by omega) h
    exact ⟨hbytes, by simp⟩
  · have := braced_fits h
    simpa using this
  · obtain ⟨b, -, he⟩ := Option.map_eq_some_iff.mp h
    cases he
    simp

theorem language_lawful : Lawful language (RouterKind.isLiteral .actix) where
  prepare_append := dropReturns_append
  prepare_plain s hs := dropReturns_plain fun c hc => by
    have := hs c hc
    simp [RouterKind.isLiteral] at this
    exact this.2
  prepare_shrinks := dropReturns_shrinks
  quote := rfl
  rule_plain c s hc := by
    simp [RouterKind.isLiteral] at hc
    simp [language, hc]
  rule_special c s bytes taken hc hq h := by
    simp only [language] at h
    split at h
    · exact escape_fits h
    split at h
    · cases h
    · simp_all [RouterKind.isLiteral]

end Actix

theorem RouterKind.language_lawful (k : RouterKind) : Literal.Lawful k.language k.isLiteral := by
  cases k with
  | crow => exact Crow.language_lawful
  | actix => exact Actix.language_lawful

end RestRoutes
