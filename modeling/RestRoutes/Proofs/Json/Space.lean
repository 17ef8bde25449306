import RestRoutes.Json.Reader
import RestRoutes.Proofs.Json.Extent
import RestRoutes.Text.Blank

namespace RestRoutes.Json

theorem isSpace_iff {d : Char} : isSpace d = true ↔ d = ' ' ∨ d = '\n' ∨ d = '\t' ∨ d = '\r' := by
  simp [isSpace, or_assoc]

theorem isBlank_of_isSpace {d : Char} (h : isSpace d = true) : Text.isBlank d = true := by
  rcases isSpace_iff.mp h with rfl | rfl | rfl | rfl <;> decide

theorem isDigit_of_isSpace {d : Char} (h : isSpace d = true) : isDigit d = false := by
  rcases isSpace_iff.mp h with rfl | rfl | rfl | rfl <;> decide

theorem hexValue?_of_isSpace {d : Char} (h : isSpace d = true) : hexValue? d = none := by
  rcases isSpace_iff.mp h with rfl | rfl | rfl | rfl <;> decide

section Numbers

variable {d : Char} (hd : isDigit d = false)
include hd

theorem gather_append (significand taken : Nat) (s t : List Char) :
    gather significand taken (s ++ d :: t) = gather significand taken s := by
  induction s generalizing significand taken with
  | nil => simp [gather, hd]
  | cons c s ih => simp only [List.cons_append, gather, ih]

theorem gatherExponent_append (value taken : Nat) (s t : List Char) :
    gatherExponent value taken (s ++ d :: t) = gatherExponent value taken s := by
  induction s generalizing value taken with
  | nil => simp [gatherExponent, hd]
  | cons c s ih => simp only [List.cons_append, gatherExponent, ih]

theorem countDigits_append (s t : List Char) : countDigits (s ++ d :: t) = countDigits s := by
  induction s with
  | nil => simp [countDigits, hd]
  | cons c s ih =>
    simp only [countDigits, List.cons_append, List.takeWhile_cons] at ih ⊢
    split
    · simpa using ih
    · rfl

end Numbers

theorem drop_countDigits_append (s t : List Char) :
    (s ++ t).drop (countDigits s) = s.drop (countDigits s) ++ t :=
  List.drop_append_of_le_length (countDigits_le s)

section Scanners

variable {d : Char} {t : List Char} (hd : isSpace d = true)
include hd

theorem ne_of_isSpace {c : Char} (hc : isSpace c = false) : d ≠ c := by
  rintro rfl
  rw [hd] at hc
  cases hc

/-- White space does not begin anything that `c` begins. -/
theorem head?_append_ne {c : Char} (hc : isSpace c = false) (s : List Char) :
    (s ++ d :: t).head? ≠ some c ↔ s.head? ≠ some c := by
  cases s with
  | nil => simpa using ne_of_isSpace hd hc
  | cons e s => simp

theorem exponentDigits_append (negative : Bool) (significand : Nat) (e : Int) (down : Bool)
    (read : Nat) (s : List Char) :
    (exponentDigits negative significand e down read (s ++ d :: t)).toOption =
      (exponentDigits negative significand e down read s).toOption := by
  have hdigit := isDigit_of_isSpace hd
  cases s with
  | nil => simp [exponentDigits, hdigit, Except.toOption]
  | cons c s =>
    rw [List.cons_append, exponentDigits, exponentDigits, ← List.cons_append,
      gatherExponent_append hdigit, countDigits_append hdigit]

theorem scanExponent_append (negative : Bool) (significand : Nat) (e : Int) (read : Nat)
    (s : List Char) : (scanExponent negative significand e read (s ++ d :: t)).toOption =
      (scanExponent negative significand e read s).toOption := by
  by_cases hplus : s.head? = some '+'
  · obtain ⟨s, rfl⟩ := List.head?_eq_some_iff.mp hplus
    rw [List.cons_append, scanExponent_plus, scanExponent_plus, exponentDigits_append hd]
  by_cases hminus : s.head? = some '-'
  · obtain ⟨s, rfl⟩ := List.head?_eq_some_iff.mp hminus
    rw [List.cons_append, scanExponent_minus, scanExponent_minus, exponentDigits_append hd]
  rw [scanExponent_bare _ _ _ _ hplus hminus, scanExponent_bare _ _ _ _
    ((head?_append_ne hd (by decide) s).mpr hplus) ((head?_append_ne hd (by decide) s).mpr hminus),
    exponentDigits_append hd]

theorem scanTail_append (negative : Bool) (significand : Nat) (e : Int) (read : Nat)
    (s : List Char) : (scanTail negative significand e read (s ++ d :: t)).toOption =
      (scanTail negative significand e read s).toOption := by
  fun_cases scanTail negative significand e read s with
  | case1 s => exact scanExponent_append hd ..
  | case2 s => exact scanExponent_append hd ..
  | case3 he hE =>
    have hde : d ≠ 'e' := ne_of_isSpace hd (by decide)
    have hdE : d ≠ 'E' := ne_of_isSpace hd (by decide)
    cases s with
    | nil => simp [scanTail, hde, hdE]
    | cons c s => simp_all [scanTail]

theorem scanFraction_append (negative : Bool) (significand : Nat) (e : Int) (read : Nat)
    (s : List Char) : (scanFraction negative significand e read (s ++ d :: t)).toOption =
      (scanFraction negative significand e read s).toOption := by
  have hdigit := isDigit_of_isSpace hd
  simp only [scanFraction, gather_append hdigit, countDigits_append hdigit,
    drop_countDigits_append]
  split
  · cases s <;> rfl
  · exact scanTail_append hd ..

theorem scanWhole_append (negative : Bool) (read : Nat) (s : List Char) :
    (scanWhole negative read (s ++ d :: t)).toOption = (scanWhole negative read s).toOption := by
  have hdigit := isDigit_of_isSpace hd
  have hpoint : d ≠ '.' := ne_of_isSpace hd (by decide)
  have hde : d ≠ 'e' := ne_of_isSpace hd (by decide)
  have hdE : d ≠ 'E' := ne_of_isSpace hd (by decide)
  simp only [scanWhole, gather_append hdigit, countDigits_append hdigit, drop_countDigits_append]
  have tail := scanTail_append (t := t) hd negative (gather 0 0 s).1 (countDigits s - (gather 0 0 s).2)
    (read + countDigits s) (s.drop (countDigits s))
  cases hrest : s.drop (countDigits s) with
  | nil =>
    rw [hrest] at tail
    simp [hpoint, hde, hdE] at tail ⊢
    split
    · rfl
    · exact tail
  | cons c rest =>
    rw [hrest] at tail
    by_cases hc : c = '.'
    · subst hc
      exact scanFraction_append hd ..
    by_cases he : c = 'e'
    · subst he
      simpa using tail
    by_cases hE : c = 'E'
    · subst hE
      simpa using tail
    simp [hc, he, hE] at tail ⊢
    split
    · rfl
    · exact tail

theorem scanUnsigned_append (negative : Bool) (read : Nat) (s : List Char) :
    (scanUnsigned negative read (s ++ d :: t)).toOption = (scanUnsigned negative read s).toOption := by
  have hdigit := isDigit_of_isSpace hd
  have hzero : d ≠ '0' := ne_of_isSpace hd (by decide)
  fun_cases scanUnsigned negative read s with
  | case1 => simp [scanUnsigned, hdigit, hzero, Except.toOption]
  | case2 c s h => simp [scanUnsigned, h, Except.toOption]
  | case3 c s h =>
    simp only [List.cons_append, scanUnsigned, h]
    exact scanWhole_append hd negative read ('0' :: c :: s)
  | case4 c s zero h =>
    by_cases hc : c = '0'
    · subst hc
      cases s with
      | nil => simpa [scanUnsigned, hdigit] using scanWhole_append hd negative read ['0']
      | cons c s => exact (zero c s rfl rfl).elim
    · simpa [scanUnsigned, hc, h] using scanWhole_append hd negative read (c :: s)
  | case5 c s _ h =>
    have hc : c ≠ '0' := by
      rintro rfl
      exact h (by decide)
    simp [scanUnsigned, hc, h]

theorem scanNumber_append (s : List Char) :
    (scanNumber (s ++ d :: t)).toOption = (scanNumber s).toOption := by
  have hminus : d ≠ '-' := ne_of_isSpace hd (by decide)
  fun_cases scanNumber s with
  | case1 s => exact scanUnsigned_append hd ..
  | case2 _ bare =>
    cases s with
    | nil => simpa [scanNumber, hminus] using scanUnsigned_append hd false 0 []
    | cons c s =>
      have hc : c ≠ '-' := fun hc => bare s (hc ▸ rfl)
      simpa [scanNumber, hc] using scanUnsigned_append hd false 0 (c :: s)

/-- White space is no digit, so it cannot be among the four. -/
theorem scanHex_append (read : Nat) (s : List Char) :
    (scanHex read (s ++ d :: t)).toOption = (scanHex read s).toOption := by
  by_cases h : 4 ≤ s.length
  · rw [scanHex, scanHex, List.take_append_of_le_length h]
  have fails (u : List Char) (hu : ∀ a b c e, (u.take 4).mapM hexValue? ≠ some [a, b, c, e]) :
      (scanHex read u).toOption = none := by
    unfold scanHex
    split
    · exact absurd ‹_› (hu _ _ _ _)
    · dsimp only
      split <;> rfl
  rw [fails (s ++ d :: t), fails s]
  · intro a b c e hs
    have := (mapM_eq_some hs).1
    simp only [List.length_cons, List.length_nil, List.length_take] at this
    omega
  · intro a b c e hs
    have hmem : d ∈ (s ++ d :: t).take 4 := by
      rw [List.take_append, List.take_of_length_le (by omega), List.mem_append,
        show 4 - s.length = (3 - s.length) + 1 by omega, List.take_succ_cons]
      exact .inr List.mem_cons_self
    have := (mapM_eq_some hs).2 d hmem
    simp [hexValue?_of_isSpace hd] at this

theorem scanLowSurrogate_append (read : Nat) (s : List Char) :
    (scanLowSurrogate read (s ++ d :: t)).toOption = (scanLowSurrogate read s).toOption := by
  have hu : d ≠ 'u' := ne_of_isSpace hd (by decide)
  have hslash : d ≠ '\\' := ne_of_isSpace hd (by decide)
  fun_cases scanLowSurrogate read s with
  | case1 => simp [scanLowSurrogate, hslash, Except.toOption]
  | case2 => simp [scanLowSurrogate, hu, Except.toOption]
  | case3 s =>
    simp only [List.cons_append, scanLowSurrogate, toOption_bind, scanHex_append hd]
  | case4 s =>
    cases s with
    | nil => simp_all
    | cons c s => simp_all [scanLowSurrogate, Except.toOption]
  | case5 =>
    cases s with
    | nil => simp_all
    | cons c s => simp_all [scanLowSurrogate, Except.toOption]

theorem scanEscape_append (read : Nat) (s : List Char) :
    (scanEscape read (s ++ d :: t)).toOption = (scanEscape read s).toOption := by
  fun_cases scanEscape read s with
  | case1 => rcases isSpace_iff.mp hd with rfl | rfl | rfl | rfl <;> rfl
  | case10 s =>
    rw [List.cons_append, scanEscape]
    rcases cases_of_toOption_eq (scanHex_append (t := t) hd (read + 1) s) with
      ⟨n, h', h⟩ | ⟨_, _, h', h⟩
    · rw [h', h]
      simp only [bind, Except.bind]
      split
      · rfl
      split
      · -- All four digits stand before the white space.
        rw [List.drop_append_of_le_length (length_of_scanHex h)]
        exact (toOption_bind).trans ((congrArg (Option.bind · _)
          (scanLowSurrogate_append hd (read + 5) (s.drop 4))).trans toOption_bind.symm)
      · rfl
    · rw [h', h]
      rfl
  | case11 =>
    cases s with
    | nil => simp_all
    | cons c s => simp_all [scanEscape, Except.toOption]
  | _ => rfl

/-- Of all white space only a blank may stand in a string, and a string does not end with one. -/
theorem scanText_append (ht : d = ' ' → t = []) (out : List Char) (taken read : Nat) (s : List Char) :
    (scanText out taken read (s ++ d :: t)).toOption = (scanText out taken read s).toOption := by
  fun_induction scanText out taken read s with
  | case1 out taken read =>
    rcases isSpace_iff.mp hd with rfl | rfl | rfl | rfl
    · rw [ht rfl]
      simp [scanText, Except.toOption]
    all_goals simp [scanText, Except.toOption]
  | case2 out taken read s =>
    simp [scanText]
  | case3 out taken read s e h =>
    rcases cases_of_toOption_eq (scanEscape_append (t := t) hd (read + 1) s) with
      ⟨r, -, h'⟩ | ⟨e', -, h', -⟩
    · cases h.symm.trans h'
    · rw [List.cons_append, scanText, h']
      rfl
  | case4 out taken read s c n h ih =>
    have h' := eq_ok_iff_toOption.mpr
      ((scanEscape_append (t := t) hd (read + 1) s).trans (congrArg Except.toOption h))
    rw [List.cons_append, scanText, h', ← ih,
      ← List.drop_append_of_le_length (taken_of_scanEscape h)]
  | case5 out taken read c s _ _ h => simp [scanText, h]
  | case6 out taken read c s hquote hslash h ih =>
    simpa [scanText, hquote, hslash, h] using ih

theorem scanWord_append (read : Nat) {word : List Char} (hw : ∀ c ∈ word, isSpace c = false)
    (s : List Char) : (scanWord read word (s ++ d :: t)).toOption = (scanWord read word s).toOption := by
  fun_induction scanWord read word s with
  | case1 => rfl
  | case2 read w word =>
    have : w ≠ d := (ne_of_isSpace hd (hw w (by simp))).symm
    simp [scanWord, this, Except.toOption]
  | case3 read word c s ih =>
    rw [List.cons_append, scanWord, if_pos rfl]
    exact ih fun c hc => hw c (by simp [hc])
  | case4 read w word c s h => simp [scanWord, h]

end Scanners

theorem Lexeme.sound?_after (offset : Nat) (l : Lexeme) : (l.after offset).sound? = l.sound? := by
  cases l <;> rfl

theorem Lexeme.eq_of_sound? {l l' : Lexeme} (h : l.sound? = some l') : l = l' := by
  cases l <;> first | exact Option.some.inj h | cases h

section Lexemes

variable {d : Char} {t : List Char} (hd : isSpace d = true)
include hd

theorem word_append (v : Json) {letters : List Char} (hw : ∀ c ∈ letters, isSpace c = false)
    (s : List Char) :
    (word v letters (s ++ d :: t)).map Lexeme.sound? id = (word v letters s).map Lexeme.sound? id := by
  unfold word
  rcases cases_of_toOption_eq (scanWord_append (t := t) hd 1 hw s) with ⟨_, h, h'⟩ | ⟨_, _, h, h'⟩
  · rw [h, h']
  · rw [h, h']
    rfl

/-- The same lexeme begins a text and the longer one, or one at fault begins both. -/
theorem scanLexeme_append (ht : d = ' ' → t = []) (c : Char) (s : List Char) :
    (scanLexeme c (s ++ d :: t)).map Lexeme.sound? id = (scanLexeme c s).map Lexeme.sound? id := by
  unfold scanLexeme
  split
  case h_7 =>
    rcases cases_of_toOption_eq (scanText_append hd ht [] 1 1 s) with ⟨_, h, h'⟩ | ⟨_, _, h, h'⟩
    · simp only [h, h']
    · simp only [h, h']
      rfl
  case h_8 => exact word_append hd _ (by simp [isSpace]) s
  case h_9 => exact word_append hd _ (by simp [isSpace]) s
  case h_10 => exact word_append hd _ (by simp [isSpace]) s
  case h_11 =>
    split
    · rcases cases_of_toOption_eq (scanNumber_append (t := t) hd (c :: s)) with
        ⟨_, h, h'⟩ | ⟨_, _, h, h'⟩
      · rw [List.cons_append] at h
        simp only [h, h']
      · rw [List.cons_append] at h
        simp only [h, h']
        rfl
    · rfl
  all_goals rfl

end Lexemes

/-- A reader stops at a token at fault. -/
theorem Reader.sound?_of_step {r r' : Reader} {t : Token} (h : r.step t = .ok r') :
    t.lexeme.sound? = some t.lexeme := by
  obtain ⟨n, l⟩ := t
  cases l with
  | faultyText e => cases r <;> cases h
  | faultyLiteral e => cases r <;> cases h
  | stray => cases r <;> cases h
  | _ => rfl

theorem Reader.sound_of_run {r r' : Reader} {ts : List Token} (h : r.run ts = .ok r') :
    ∀ t ∈ ts, t.lexeme.sound? ≠ none := by
  induction ts generalizing r with
  | nil => nofun
  | cons t ts ih =>
    rw [run] at h
    split at h
    · rename_i hstep
      rw [List.forall_mem_cons, sound?_of_step hstep]
      exact ⟨nofun, ih h⟩
    · cases h

/-- The place of a token matters for faults only. -/
theorem Reader.step_lexeme (r : Reader) (l : Lexeme) (n m : Nat) :
    (r.step ⟨n, l⟩).toOption = (r.step ⟨m, l⟩).toOption := by
  cases r <;> cases l <;> first | rfl | (simp only [step, begin]; split <;> rfl)

theorem Reader.step_eq_of_sound? {t u : Token} (h : t.lexeme.sound? = u.lexeme.sound?) (r : Reader) :
    (r.step t).toOption = (r.step u).toOption := by
  cases ht : r.step t with
  | ok r' =>
    have hl := Lexeme.eq_of_sound? (h.symm.trans (sound?_of_step ht))
    rw [← ht, show u = ⟨u.offset, t.lexeme⟩ from by rw [← hl]]
    exact r.step_lexeme t.lexeme t.offset u.offset
  | error e =>
    cases hu : r.step u with
    | error e' => rfl
    | ok r' =>
      have hl := Lexeme.eq_of_sound? (h.trans (sound?_of_step hu))
      rw [← ht, ← hu, show t = ⟨t.offset, u.lexeme⟩ from by rw [← hl]]
      exact r.step_lexeme u.lexeme t.offset u.offset

theorem Reader.run_eq_of_sound? {ts us : List Token}
    (h : ts.map (·.lexeme.sound?) = us.map (·.lexeme.sound?)) (r : Reader) :
    (r.run ts).toOption = (r.run us).toOption := by
  induction ts generalizing r us with
  | nil =>
    rw [List.map_nil, eq_comm, List.map_eq_nil_iff] at h
    rw [h]
  | cons t ts ih =>
    cases us with
    | nil => cases h
    | cons u us =>
      obtain ⟨hhead, htail⟩ := List.cons.inj h
      rcases cases_of_toOption_eq (step_eq_of_sound? hhead r) with ⟨r', ht, hu⟩ | ⟨e, e', ht, hu⟩
      · simpa only [run, ht, hu] using ih htail r'
      · simp only [run, ht, hu]
        rfl

/-- What a reader can take of the tokens of a text. -/
def soundTokens (s : List Char) : List (Option Lexeme) := (tokens 0 s).map (·.lexeme.sound?)

/-- It does not matter where the text stands. -/
theorem map_sound?_tokens (n m : Nat) (s : List Char) :
    (tokens n s).map (·.lexeme.sound?) = (tokens m s).map (·.lexeme.sound?) := by
  fun_induction tokens m s generalizing n with
  | case1 => simp [tokens]
  | case2 m c s hc ih => rw [tokens, if_pos hc, ih]
  | case3 m c s hc lexeme taken read h ih =>
    rw [tokens, if_neg hc, h]
    simp only [List.map_cons, Lexeme.sound?_after]
    split
    · rfl
    · rw [ih]

@[simp] theorem soundTokens_nil : soundTokens [] = [] := by simp [soundTokens, tokens]

theorem soundTokens_space {d : Char} (hd : isSpace d = true) (s : List Char) :
    soundTokens (d :: s) = soundTokens s := by
  rw [soundTokens, tokens, if_pos hd]
  exact map_sound?_tokens 1 0 s

theorem soundTokens_dropWhile (s : List Char) : soundTokens (s.dropWhile isSpace) = soundTokens s := by
  induction s with
  | nil => rfl
  | cons c s ih =>
    by_cases hc : isSpace c = true
    · rw [List.dropWhile_cons_of_pos hc, ih, soundTokens_space hc]
    · rw [List.dropWhile_cons_of_neg hc]

theorem soundTokens_lexeme {c : Char} (hc : ¬ isSpace c = true) (s : List Char) :
    soundTokens (c :: s) = (scanLexeme c s).1.sound? ::
      if (scanLexeme c s).2.1 = 0 then [] else soundTokens (s.drop ((scanLexeme c s).2.1 - 1)) := by
  rw [soundTokens, tokens, if_neg hc]
  simp only [List.map_cons, Lexeme.sound?_after]
  split
  · rfl
  · rw [soundTokens, map_sound?_tokens _ 0]

/-- The tokens of one text and of another behind it. Nothing is looked at behind a fault. -/
def joinTokens : List (Option Lexeme) → List (Option Lexeme) → List (Option Lexeme)
  | [], us => us
  | none :: ts, _ => none :: ts
  | some l :: ts, us => some l :: joinTokens ts us

@[simp] theorem joinTokens_nil (ts : List (Option Lexeme)) : joinTokens ts [] = ts := by
  induction ts with
  | nil => rfl
  | cons l ts ih =>
    cases l with
    | none => rfl
    | some l => rw [joinTokens, ih]

/-- White space parts tokens. -/
theorem soundTokens_append {d : Char} {t : List Char} (hd : isSpace d = true) (ht : d = ' ' → t = [])
    (s : List Char) : soundTokens (s ++ d :: t) = joinTokens (soundTokens s) (soundTokens t) := by
  fun_induction tokens 0 s with
  | case1 =>
    rw [List.nil_append, soundTokens_space hd, soundTokens_nil]
    rfl
  | case2 m c s hc ih => rw [List.cons_append, soundTokens_space hc, ih, soundTokens_space hc]
  | case3 m c s hc lexeme taken read hlexeme ih =>
    have h := Prod.ext_iff.mp (scanLexeme_append (t := t) hd ht c s)
    simp only [Prod.map_fst, Prod.map_snd, id] at h
    rw [List.cons_append, soundTokens_lexeme hc, soundTokens_lexeme hc, h.1, h.2]
    have hextends := scanLexeme_extends c s
    rw [hlexeme] at hextends ⊢
    rcases hextends with ⟨hfault, htaken⟩ | ⟨hsound, htaken, hlength⟩
    · rw [hfault, if_pos htaken, if_pos htaken]
      rfl
    · obtain ⟨l, hl⟩ := Option.ne_none_iff_exists'.mp hsound
      rw [hl, if_neg (by omega), if_neg (by omega), List.drop_append_of_le_length (by omega), ih]
      rfl

theorem read_eq_ok_iff {s : List Char} {v : Json} : read s = .ok v ↔
    ((Reader.needValue []).run (tokens 0 s)).toOption.bind (fun r => r.finish.toOption) = some v := by
  unfold read
  cases (Reader.needValue []).run (tokens 0 s) with
  | error e => exact ⟨nofun, nofun⟩
  | ok r =>
    cases h : r.finish with
    | error f => simp [h, Except.toOption]
    | ok v => simp [h, Except.toOption]

theorem read_eq_ok_iff_of_soundTokens {s t : List Char} {v : Json} (h : soundTokens s = soundTokens t) :
    read s = .ok v ↔ read t = .ok v := by
  rw [read_eq_ok_iff, read_eq_ok_iff, Reader.run_eq_of_sound? h]

/-- White space before a text is not part of it. -/
theorem read_dropWhile_isSpace {s : List Char} {v : Json} :
    read (s.dropWhile isSpace) = .ok v ↔ read s = .ok v :=
  read_eq_ok_iff_of_soundTokens (soundTokens_dropWhile s)

/-- White space behind a text is not part of it. -/
theorem read_append_space {d : Char} (hd : isSpace d = true) {s : List Char} {v : Json} :
    read (s ++ [d]) = .ok v ↔ read s = .ok v := by
  apply read_eq_ok_iff_of_soundTokens
  rw [soundTokens_append hd (fun _ => rfl), soundTokens_nil, joinTokens_nil]

theorem isBlank_of_isDigit {c : Char} (h : isDigit c = true) : Text.isBlank c = false := by
  have bounds : 48 ≤ c.toNat ∧ c.toNat ≤ 57 := by
    simpa [isDigit, Char.le_def, UInt32.le_iff_toNat_le] using h
  simp only [Text.isBlank, Text.blankRanges, Text.Ranges.has]
  grind

/-- White space of another kind begins no lexeme, nor does what a comment leader begins with. -/
theorem scanLexeme_stray {c : Char} (h : Text.isBlank c = true ∨ c ∈ ['/', '*', '#']) (s : List Char) :
    scanLexeme c s = (.stray, 0, 0) := by
  have hdigit : isDigit c = false := by
    rcases h with h | h
    · cases hc : isDigit c with
      | false => rfl
      | true => simp [isBlank_of_isDigit hc] at h
    · simp only [List.mem_cons, List.not_mem_nil, or_false] at h
      rcases h with rfl | rfl | rfl <;> rfl
  unfold scanLexeme
  split
  case h_11 =>
    rw [if_neg]
    intro hc
    obtain rfl : c = '-' := by simpa [hdigit] using hc
    exact absurd h (by decide)
  all_goals exact absurd h (by decide)

/-- A text without faults begins, behind its white space, neither with white space of another kind nor as
a comment leader does. -/
theorem begins_of_sound {s : List Char} (h : none ∉ soundTokens s) {c : Char} {t : List Char}
    (hs : s.dropWhile isSpace = c :: t) : Text.isBlank c = false ∧ c ∉ ['/', '*', '#'] := by
  have hc : ¬ isSpace c = true := by
    simpa [hs] using List.head?_dropWhile_not isSpace s
  by_cases hb : Text.isBlank c = true ∨ c ∈ ['/', '*', '#']
  · rw [← soundTokens_dropWhile, hs, soundTokens_lexeme hc, scanLexeme_stray hb] at h
    exact absurd List.mem_cons_self h
  · rwa [not_or, Bool.not_eq_true] at hb

/-- A reader passes no token at fault. -/
theorem sound_of_read {s : List Char} {v : Json} (h : read s = .ok v) : none ∉ soundTokens s := by
  obtain ⟨r, hr, -⟩ := Option.bind_eq_some_iff.mp (read_eq_ok_iff.mp h)
  intro hnone
  obtain ⟨t, ht, hfault⟩ := List.mem_map.mp hnone
  exact Reader.sound_of_run (eq_ok_iff_toOption.mpr hr) t ht hfault

end RestRoutes.Json
