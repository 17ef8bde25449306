import RestRoutes.Json.Token
import RestRoutes.Proofs.Except

namespace RestRoutes.Json

theorem countDigits_le (s : List Char) : countDigits s ≤ s.length :=
  (List.takeWhile_prefix isDigit).length_le

theorem taken_of_gatherExponent {value taken v n : Nat} {s : List Char}
    (h : gatherExponent value taken s = .ok (v, n)) : taken ≤ n ∧ n ≤ taken + s.length := by
  induction s generalizing value taken with
  | nil =>
    cases h
    simp
  | cons c s ih =>
    simp only [gatherExponent] at h
    split at h
    · split at h
      · have := ih h
        simp only [List.length_cons]
        omega
      · cases h
    · cases h
      simp

theorem taken_of_finishDecimal {negative : Bool} {significand read n : Nat} {e : Int}
    (h : finishDecimal negative significand e read = .ok (x, n)) : n = read := by
  simp only [finishDecimal] at h
  split at h
  · cases h
    rfl
  · cases h

/-- An exponent behind its sign. -/
def exponentDigits (negative : Bool) (significand : Nat) (e : Int) (down : Bool) (read : Nat) :
    List Char → NumberScan
  | [] => .error ⟨.endInValue, read⟩
  | c :: s =>
    if isDigit c then
      match gatherExponent 0 0 (c :: s) with
      | .ok (value, taken) =>
        finishDecimal negative significand (if down then e - value else e + value) (read + taken)
      | .error taken =>
        if significand ≠ 0 && !down then .error ⟨.numberOutOfRange, read + taken⟩
        else .ok (.decimal (if negative then -0.0 else 0.0), read + countDigits (c :: s))
    else .error ⟨.invalidNumber, read + 1⟩

theorem scanExponent_plus (negative : Bool) (significand : Nat) (e : Int) (read : Nat) (s : List Char) :
    scanExponent negative significand e read ('+' :: s) =
      exponentDigits negative significand e false (read + 1) s := by
  cases s <;> rfl

theorem scanExponent_minus (negative : Bool) (significand : Nat) (e : Int) (read : Nat) (s : List Char) :
    scanExponent negative significand e read ('-' :: s) =
      exponentDigits negative significand e true (read + 1) s := by
  cases s <;> rfl

theorem scanExponent_bare (negative : Bool) (significand : Nat) (e : Int) (read : Nat) {s : List Char}
    (hplus : s.head? ≠ some '+') (hminus : s.head? ≠ some '-') :
    scanExponent negative significand e read s =
      exponentDigits negative significand e false read s := by
  unfold scanExponent
  cases s with
  | nil => rfl
  | cons c s =>
    simp only [List.head?_cons, ne_eq, Option.some.injEq] at hplus hminus
    split
    next down t k heq =>
    split at heq
    case h_1 hs => exact absurd (List.cons.inj hs).1 hplus
    case h_2 hs => exact absurd (List.cons.inj hs).1 hminus
    case h_3 =>
      cases heq
      rfl

section Numbers

variable {negative : Bool} {significand read n : Nat} {e : Int} {x : JsonNumber} {s : List Char}

theorem taken_of_exponentDigits {down : Bool}
    (h : exponentDigits negative significand e down read s = .ok (x, n)) :
    read ≤ n ∧ n ≤ read + s.length := by
  cases s with
  | nil => cases h
  | cons c s =>
    rw [exponentDigits] at h
    split at h
    · split at h
      · rename_i hgather
        have := taken_of_gatherExponent hgather
        have := taken_of_finishDecimal h
        omega
      · split at h
        · cases h
        · cases h
          have := countDigits_le (c :: s)
          omega
    · cases h

theorem taken_of_scanExponent (h : scanExponent negative significand e read s = .ok (x, n)) :
    read ≤ n ∧ n ≤ read + s.length := by
  by_cases hplus : s.head? = some '+'
  · obtain ⟨s, rfl⟩ := List.head?_eq_some_iff.mp hplus
    rw [scanExponent_plus] at h
    have := taken_of_exponentDigits h
    simp only [List.length_cons]
    omega
  by_cases hminus : s.head? = some '-'
  · obtain ⟨s, rfl⟩ := List.head?_eq_some_iff.mp hminus
    rw [scanExponent_minus] at h
    have := taken_of_exponentDigits h
    simp only [List.length_cons]
    omega
  rw [scanExponent_bare _ _ _ _ hplus hminus] at h
  exact taken_of_exponentDigits h

theorem taken_of_scanTail (h : scanTail negative significand e read s = .ok (x, n)) :
    read ≤ n ∧ n ≤ read + s.length := by
  unfold scanTail at h
  split at h
  · have := taken_of_scanExponent h
    simp only [List.length_cons]
    omega
  · have := taken_of_scanExponent h
    simp only [List.length_cons]
    omega
  · have := taken_of_finishDecimal h
    omega

theorem taken_of_scanFraction (h : scanFraction negative significand e read s = .ok (x, n)) :
    read ≤ n ∧ n ≤ read + s.length := by
  simp only [scanFraction] at h
  split at h
  · split at h <;> cases h
  · have htail := taken_of_scanTail h
    have := countDigits_le s
    rw [List.length_drop] at htail
    omega

theorem taken_of_scanWhole (h : scanWhole negative read s = .ok (x, n)) :
    read + countDigits s ≤ n ∧ n ≤ read + s.length := by
  have hdigits := countDigits_le s
  have hlength : (s.drop (countDigits s)).length = s.length - countDigits s := List.length_drop
  revert h
  fun_cases scanWhole negative read s with
  | case1 significand taken _ digits extra rest hrest =>
    intro h
    have := taken_of_scanFraction h
    rw [hrest, List.length_cons] at hlength
    omega
  | case2 =>
    intro h
    have : read + countDigits s ≤ n ∧ n ≤ read + countDigits s + (s.drop (countDigits s)).length :=
      taken_of_scanTail h
    omega
  | case3 | case4 | case5 =>
    intro h
    cases h
    omega

theorem taken_of_scanUnsigned (h : scanUnsigned negative read s = .ok (x, n)) :
    read < n ∧ n ≤ read + s.length := by
  have hdigit {c : Char} (hc : isDigit c = true) (t : List Char) : 0 < countDigits (c :: t) := by
    simp [countDigits, hc]
  unfold scanUnsigned at h
  split at h
  · cases h
  · rename_i c rest
    split at h
    · cases h
    · have := taken_of_scanWhole h
      have := hdigit (c := '0') (by decide) (c :: rest)
      omega
  · split at h
    · rename_i c rest _ hc
      have := taken_of_scanWhole h
      have := hdigit hc rest
      omega
    · cases h

theorem taken_of_scanNumber (h : scanNumber s = .ok (x, n)) : 0 < n ∧ n ≤ s.length := by
  unfold scanNumber at h
  split at h
  · have := taken_of_scanUnsigned h
    simp only [List.length_cons]
    omega
  · have := taken_of_scanUnsigned h
    omega

end Numbers

theorem length_of_scanHex {read n : Nat} {s : List Char} (h : scanHex read s = .ok n) :
    4 ≤ s.length := by
  unfold scanHex at h
  split at h
  · rename_i hfour
    have := (mapM_eq_some hfour).1
    simp only [List.length_cons, List.length_nil, List.length_take] at this
    omega
  · dsimp only at h
    split at h <;> cases h

theorem length_of_scanLowSurrogate {read n : Nat} {s : List Char}
    (h : scanLowSurrogate read s = .ok n) : 6 ≤ s.length := by
  unfold scanLowSurrogate at h
  split at h
  · cases h
  · cases h
  · obtain ⟨low, hlow, -⟩ := bind_eq_ok_iff.mp h
    have := length_of_scanHex hlow
    simp only [List.length_cons]
    omega
  · cases h
  · cases h

theorem taken_of_scanEscape {read n : Nat} {c : Char} {s : List Char}
    (h : scanEscape read s = .ok (c, n)) : n ≤ s.length := by
  unfold scanEscape at h
  split at h
  case h_1 => cases h
  case h_10 s =>
    obtain ⟨unit, hunit, h⟩ := bind_eq_ok_iff.mp h
    have hfour := length_of_scanHex hunit
    split at h
    · cases h
    split at h
    · obtain ⟨low, hlow, h⟩ := bind_eq_ok_iff.mp h
      have hsix := length_of_scanLowSurrogate hlow
      obtain ⟨-, rfl⟩ := Prod.mk.inj (Except.ok.inj h)
      simp only [List.length_drop, List.length_cons] at hsix ⊢
      omega
    · cases h
      simp only [List.length_cons]
      omega
  case h_11 => cases h
  all_goals
    cases h
    simp

theorem taken_of_scanText {out text : List Char} {taken read n m : Nat} {s : List Char}
    (h : scanText out taken read s = .ok (text, n, m)) : taken < n ∧ n ≤ taken + s.length := by
  fun_induction scanText out taken read s with
  | case1 => cases h
  | case2 =>
    cases h
    simp
  | case3 => cases h
  | case4 out taken read s c k hescape ih =>
    have := ih h
    have := taken_of_scanEscape hescape
    simp only [List.length_drop, List.length_cons] at *
    omega
  | case5 => cases h
  | case6 out taken read c s _ _ _ ih =>
    have := ih h
    simp only [List.length_cons]
    omega

theorem length_of_scanWord {read : Nat} {word s : List Char} (h : scanWord read word s = .ok ()) :
    word.length ≤ s.length := by
  fun_induction scanWord read word s with
  | case1 => simp
  | case2 => cases h
  | case3 read word c s ih => simpa using ih h
  | case4 => cases h

/-- What a reader can take of a lexeme; of one at fault, nothing. -/
def Lexeme.sound? : Lexeme → Option Lexeme
  | .faultyText _ | .faultyLiteral _ | .stray => none
  | l => some l

/-- A lexeme that takes this many characters of a text that it begins with `c` before `s`. -/
def Lexeme.Extends (s : List Char) (l : Lexeme) (taken : Nat) : Prop :=
  (l.sound? = none ∧ taken = 0) ∨ (l.sound? ≠ none ∧ 0 < taken ∧ taken ≤ s.length + 1)

theorem word_extends {v : Json} {letters s : List Char} :
    (word v letters s).1.Extends s (word v letters s).2.1 := by
  unfold word
  split
  · rename_i h
    have := length_of_scanWord h
    exact .inr ⟨by simp [Lexeme.sound?], by simp, by dsimp only; omega⟩
  · exact .inl ⟨rfl, rfl⟩

theorem scanLexeme_extends (c : Char) (s : List Char) :
    (scanLexeme c s).1.Extends s (scanLexeme c s).2.1 := by
  unfold scanLexeme
  split
  case h_7 =>
    split
    · rename_i h
      have := taken_of_scanText h
      exact .inr ⟨by simp [Lexeme.sound?], by dsimp only; omega, by dsimp only; omega⟩
    · exact .inl ⟨rfl, rfl⟩
  case h_8 => exact word_extends
  case h_9 => exact word_extends
  case h_10 => exact word_extends
  case h_11 =>
    split
    · split
      · rename_i h
        have := taken_of_scanNumber h
        simp only [List.length_cons] at this
        exact .inr ⟨by simp [Lexeme.sound?], by dsimp only; omega, by dsimp only; omega⟩
      · exact .inl ⟨rfl, rfl⟩
    · exact .inl ⟨rfl, rfl⟩
  all_goals exact .inr ⟨by simp [Lexeme.sound?], by simp, by simp⟩

end RestRoutes.Json
