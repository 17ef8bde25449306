import RestRoutes.Block.Scan
import RestRoutes.Proofs.Except

namespace RestRoutes

abbrev Line := List Char

namespace Scanner

/-- A line with neither marker. -/
def isPlain (s : Scanner) (line : Line) : Bool := !s.isOpening line && !s.isClosing line

/-- A line that may stand between a block and the definition that it documents. -/
def isGap (s : Scanner) (line : Line) : Bool := s.isPlain line && Markers.isComment s.leaders line

/-- A line of code with a definition on it. -/
def isDefinition (s : Scanner) (line : Line) : Bool :=
  s.isPlain line && !Markers.isComment s.leaders line && (Definition.find? line).isSome

/-- How line number `n` may be taken: the state before it and behind it, and the block it completes. -/
inductive Takes (s : Scanner) (n : Nat) : ScanState → Line → ScanState → Option Block → Prop where
  | plain (h : s.isPlain line = true) : Takes s n .outside line .outside none
  | opening (h : s.isOpening line = true) : Takes s n .outside line (.inside n []) none
  | body (h : s.isPlain line = true) :
      Takes s n (.inside first body) line (.inside first (Markers.strip s.leaders line :: body)) none
  | closing (h : s.isClosing line = true) (read : s.close first n body = .ok b) :
      Takes s n (.inside first body) line (.closed b) none
  | gap (h : s.isGap line = true) : Takes s n (.closed b) line (.closed b) none
  | definition (h : s.isDefinition line = true) (found : Definition.find? line = some d) :
      Takes s n (.closed b) line .outside (some (s.complete b d))

variable {s : Scanner}

theorem isPlain_iff : s.isPlain line = true ↔ s.isOpening line = false ∧ s.isClosing line = false := by
  simp [isPlain]

/-- The closing marker does not count on a line with the opening one. -/
theorem isOpening_of_isClosing (h : s.isClosing line = true) : s.isOpening line = false := by
  simp only [isClosing, Bool.and_eq_true, Bool.not_eq_true'] at h
  exact h.1

theorem isClosing_of_isOpening (h : s.isOpening line = true) : s.isClosing line = false := by
  simp [isClosing, h]

theorem Takes.step (h : Takes s n state line state' found) :
    s.step state n line = .ok (state', found) := by
  cases h with
  | plain h | body h =>
    obtain ⟨ho, hc⟩ := isPlain_iff.mp h
    simp [Scanner.step, ho, hc]
  | opening h => simp [Scanner.step, h]
  | closing h read =>
    simp only [Scanner.step, isOpening_of_isClosing h, h, read]
    rfl
  | gap h =>
    simp only [isGap, Bool.and_eq_true] at h
    obtain ⟨ho, hc⟩ := isPlain_iff.mp h.1
    simp [Scanner.step, ho, hc, h.2]
  | definition h found =>
    simp only [isDefinition, Bool.and_eq_true, Bool.not_eq_true'] at h
    obtain ⟨ho, hc⟩ := isPlain_iff.mp h.1.1
    simp [Scanner.step, ho, hc, h.1.2, found]

theorem takes_of_step (h : s.step state n line = .ok (state', found)) :
    Takes s n state line state' found := by
  by_cases ho : s.isOpening line = true
  · cases state with
    | outside =>
      obtain ⟨rfl, rfl⟩ : _ ∧ _ := by simpa [step, ho, eq_comm] using h
      exact .opening ho
    | inside => simp [step, ho] at h
    | closed => simp [step, ho] at h
  by_cases hc : s.isClosing line = true
  · cases state with
    | outside => simp [step, ho, hc] at h
    | inside first body =>
      simp only [step, ho, hc, if_true] at h
      obtain ⟨b, read, he⟩ := bind_eq_ok_iff.mp h
      obtain ⟨rfl, rfl⟩ : _ ∧ _ := by simpa [pure, Except.pure, eq_comm] using he
      exact .closing hc read
    | closed => simp [step, hc] at h
  have hp : s.isPlain line = true := isPlain_iff.mpr ⟨by simpa using ho, by simpa using hc⟩
  cases state with
  | outside =>
    obtain ⟨rfl, rfl⟩ : _ ∧ _ := by simpa [step, ho, hc, eq_comm] using h
    exact .plain hp
  | inside first body =>
    obtain ⟨rfl, rfl⟩ : _ ∧ _ := by simpa [step, ho, hc, eq_comm] using h
    exact .body hp
  | closed b =>
    by_cases hm : Markers.isComment s.leaders line = true
    · obtain ⟨rfl, rfl⟩ : _ ∧ _ := by simpa [step, ho, hc, hm, eq_comm] using h
      exact .gap (by simp [isGap, hp, hm])
    · cases hd : Definition.find? line with
      | none => simp [step, ho, hc, hm, hd] at h
      | some d =>
        obtain ⟨rfl, rfl⟩ : _ ∧ _ := by simpa [step, ho, hc, hm, hd, eq_comm] using h
        exact .definition (by simp [isDefinition, hp, hm, hd]) hd

theorem scanFrom_cons (h : Takes s n state line state' found) (rest : List Line) :
    s.scanFrom state n (line :: rest) = (found.toList ++ ·) <$> s.scanFrom state' (n + 1) rest := by
  simp only [scanFrom, h.step]
  rfl

/-- Lines that leave the state as it is are passed over. -/
theorem scanFrom_idle (hi : ∀ line ∈ lines, ∀ n, Takes s n state line state none) (n : Nat)
    (rest : List Line) :
    s.scanFrom state n (lines ++ rest) = s.scanFrom state (n + lines.length) rest := by
  induction lines generalizing n with
  | nil => rfl
  | cons line lines ih =>
    rw [List.cons_append, scanFrom_cons (hi line (by simp) n), ih (fun l hl => hi l (by simp [hl])),
      List.length_cons, Nat.add_right_comm, Nat.add_assoc]
    simp

theorem scanFrom_body (hp : ∀ line ∈ lines, s.isPlain line = true) (n : Nat) (body rest : List Line) :
    s.scanFrom (.inside first body) n (lines ++ rest) =
      s.scanFrom (.inside first ((lines.map (Markers.strip s.leaders)).reverse ++ body))
        (n + lines.length) rest := by
  induction lines generalizing n body with
  | nil => rfl
  | cons line lines ih =>
    rw [List.cons_append, scanFrom_cons (.body (hp line (by simp))),
      ih (fun l hl => hp l (by simp [hl])), List.length_cons, Nat.add_right_comm, Nat.add_assoc]
    simp

/-- The block is read on its closing line, whether it can be read or not. -/
theorem scanFrom_closing (h : s.isClosing line = true) (n : Nat) (body rest : List Line) :
    s.scanFrom (.inside first body) n (line :: rest) =
      s.close first n body >>= fun b => s.scanFrom (.closed b) (n + 1) rest := by
  cases hb : s.close first n body with
  | ok b =>
    rw [scanFrom_cons (.closing h hb)]
    change _ = s.scanFrom (.closed b) (n + 1) rest
    simp
  | error e =>
    simp only [scanFrom, step, isOpening_of_isClosing h, h, hb]
    rfl

end Scanner

end RestRoutes
