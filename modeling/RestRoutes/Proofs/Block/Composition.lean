import RestRoutes.Proofs.Block.Run

namespace RestRoutes

def Block.shift (k : Nat) (b : Block) : Block :=
  { b with location := ⟨b.location.file, b.location.first + k, b.location.last + k⟩ }

def ClosedBlock.shift (k : Nat) (b : ClosedBlock) : ClosedBlock :=
  { b with first := b.first + k, last := b.last + k }

def ScanState.shift (k : Nat) : ScanState → ScanState
  | .outside => .outside
  | .inside first body => .inside (first + k) body
  | .closed b => .closed (b.shift k)

/-- The block that documents an operation already may stand in another file, so its line stays. -/
def PlacementFault.shift (k : Nat) : PlacementFault → PlacementFault
  | .closingAlone opening closing => .closingAlone opening closing
  | .openingInside opening first => .openingInside opening (first + k)
  | .markerBeforeDefinition last line => .markerBeforeDefinition (last + k) (line + k)
  | .noDefinition last found => .noDefinition (last + k) found
  | .unclosed opening closing => .unclosed opening closing
  | .noDefinitionLeft last => .noDefinitionLeft (last + k)
  | .alreadyDocumented operation file first => .alreadyDocumented operation file first

/-- Positions in the contents of a block count from its first line, so they stay. -/
def BlockError.shift (k : Nat) : BlockError → BlockError
  | .contents file first last fault => .contents file (first + k) (last + k) fault
  | .placement file line fault => .placement file (line + k) (fault.shift k)

/-- Whether the end of the file came too early. -/
def BlockError.atEnd : BlockError → Bool
  | .placement _ _ (.unclosed ..) => true
  | .placement _ _ (.noDefinitionLeft _) => true
  | _ => false

namespace Scanner

variable {s : Scanner}

theorem close_shift (k first last : Nat) (body : List Line) :
    s.close (first + k) (last + k) body =
      ((s.close first last body).mapError (·.shift k)).map (·.shift k) := by
  simp only [close]
  cases Json.read (bodyText body) with
  | error e => rfl
  | ok raw =>
    cases hp : Payload.ofJson raw with
    | error e => simp only [hp]; rfl
    | ok payload => simp only [hp]; rfl

/-- A step does not depend on where in the file it is taken. -/
theorem step_shift (k n : Nat) (state : ScanState) (line : Line) :
    s.step (state.shift k) (n + k) line =
      ((s.step state n line).mapError (·.shift k)).map
        fun r => (r.1.shift k, r.2.map (·.shift k)) := by
  cases state with
  | outside =>
    simp only [ScanState.shift, step]
    split
    · rfl
    · split
      · rfl
      · rfl
  | inside first body =>
    simp only [ScanState.shift, step]
    split
    · rfl
    · split
      · rw [close_shift]
        cases s.close first n body with
        | error e => rfl
        | ok b => rfl
      · rfl
  | closed b =>
    simp only [ScanState.shift, step]
    split
    · rfl
    · split
      · rfl
      · cases Definition.find? line with
        | none => rfl
        | some d => rfl

theorem finish_shift (k : Nat) (state : ScanState) :
    s.finish (state.shift k) = (s.finish state).mapError (·.shift k) := by
  cases state with
  | outside => rfl
  | inside first body => rfl
  | closed b => rfl

theorem scanFrom_shift (k n : Nat) (state : ScanState) (lines : List Line) :
    s.scanFrom (state.shift k) (n + k) lines =
      ((s.scanFrom state n lines).mapError (·.shift k)).map (·.map (·.shift k)) := by
  induction lines generalizing state n with
  | nil =>
    simp only [scanFrom, finish_shift]
    cases s.finish state with
    | error e => rfl
    | ok u => rfl
  | cons line lines ih =>
    simp only [scanFrom, step_shift]
    cases hs : s.step state n line with
    | error e => rfl
    | ok r =>
      obtain ⟨state', found⟩ := r
      have hnext : n + k + 1 = n + 1 + k := Nat.add_right_comm n k 1
      change ((s.scanFrom (state'.shift k) (n + k + 1) lines) >>= fun more => _) = _
      rw [hnext, ih]
      simp only [bind, Except.bind]
      cases s.scanFrom state' (n + 1) lines with
      | error e => rfl
      | ok more =>
        cases found with
        | none => rfl
        | some b => rfl

/-- What lines do that are not the last ones: the state behind them and the blocks they complete. -/
def feed (s : Scanner) (state : ScanState) (n : Nat) :
    List Line → Except BlockError (ScanState × List Block)
  | [] => .ok (state, [])
  | line :: rest => do
    let (state, found) ← s.step state n line
    let (state, more) ← s.feed state (n + 1) rest
    return (state, found.toList ++ more)

theorem scanFrom_append (state : ScanState) (n : Nat) (xs ys : List Line) :
    s.scanFrom state n (xs ++ ys) =
      s.feed state n xs >>= fun r => (r.2 ++ ·) <$> s.scanFrom r.1 (n + xs.length) ys := by
  induction xs generalizing state n with
  | nil =>
    simp only [feed, List.nil_append]
    exact (id_map (s.scanFrom state n ys)).symm
  | cons x xs ih =>
    simp only [List.cons_append, scanFrom, feed]
    cases hs : s.step state n x with
    | error e => rfl
    | ok r =>
      obtain ⟨state', found⟩ := r
      have hnext : n + (x :: xs).length = n + 1 + xs.length := by
        rw [List.length_cons]
        omega
      simp only [bind, Except.bind, ih, hnext]
      cases s.feed state' (n + 1) xs with
      | error e => rfl
      | ok r =>
        simp only [pure, Except.pure]
        cases s.scanFrom r.1 (n + 1 + xs.length) ys with
        | error e => rfl
        | ok more => simp [Functor.map, Except.map]

theorem scanFrom_eq_feed (state : ScanState) (n : Nat) (xs : List Line) :
    s.scanFrom state n xs = s.feed state n xs >>= fun r => s.finish r.1 >>= fun _ => .ok r.2 := by
  have h := scanFrom_append (s := s) state n xs []
  rw [List.append_nil] at h
  rw [h]
  congr 1
  funext r
  simp only [scanFrom]
  cases s.finish r.1 with
  | error e => rfl
  | ok u => simp [bind, Except.bind, pure, Except.pure, Functor.map, Except.map]

theorem finish_eq_ok (h : s.finish state = .ok ()) : state = .outside := by
  cases state with
  | outside => rfl
  | inside => cases h
  | closed => cases h

theorem atEnd_of_finish (h : s.finish state = .error e) : e.atEnd = true := by
  cases state with
  | outside => cases h
  | inside =>
    cases h
    rfl
  | closed =>
    cases h
    rfl

end Scanner

/-- A text without an unfinished line at its end. -/
def Text.Complete (s : List Char) : Prop := ∀ c ∈ s.getLast?, c = '\n'

theorem Text.Complete.lines_append {a : List Char} (h : Text.Complete a) (b : List Char) :
    Text.lines (a ++ b) = Text.lines a ++ Text.lines b := by
  cases hlast : a.getLast? with
  | none =>
    rw [List.getLast?_eq_none_iff.mp hlast]
    rfl
  | some c =>
    obtain rfl : c = '\n' := h c hlast
    obtain ⟨a, rfl⟩ := List.getLast?_eq_some_iff.mp hlast
    rw [List.append_assoc]
    exact Text.lines_append a b

/-- No state of the scanner survives a text that it accepts, and no later text mends an earlier line. -/
theorem scan_append (s : Scanner) (a b : String) (ha : Text.Complete a.toList) :
    (∀ blocks, s.scan a = .ok blocks → s.scan (a ++ b) =
      match s.scan b with
      | .ok more => .ok (blocks ++ more.map (·.shift (Text.lines a.toList).length))
      | .error e => .error (e.shift (Text.lines a.toList).length)) ∧
    ∀ e, s.scan a = .error e → e.atEnd = false → s.scan (a ++ b) = .error e := by
  have hrun : s.scan (a ++ b) = s.feed .outside 1 (Text.lines a.toList) >>= fun r =>
      (r.2 ++ ·) <$> s.scanFrom r.1 (1 + (Text.lines a.toList).length) (Text.lines b.toList) := by
    rw [Scanner.scan, String.toList_append, ha.lines_append, Scanner.scanFrom_append]
  constructor
  · intro blocks h
    rw [Scanner.scan, Scanner.scanFrom_eq_feed] at h
    obtain ⟨⟨state, found⟩, hfeed, h⟩ := bind_eq_ok_iff.mp h
    obtain ⟨u, hfinish, h⟩ := bind_eq_ok_iff.mp h
    cases h
    -- Only from the outside the file may end, so the second text is begun as if it stood alone.
    obtain rfl := Scanner.finish_eq_ok hfinish
    have hshift := Scanner.scanFrom_shift (s := s) (Text.lines a.toList).length 1 .outside
      (Text.lines b.toList)
    rw [hrun, hfeed]
    change (found ++ ·) <$> s.scanFrom (ScanState.outside.shift (Text.lines a.toList).length) _ _ = _
    rw [hshift, Scanner.scan]
    cases s.scanFrom .outside 1 (Text.lines b.toList) with
    | error e => rfl
    | ok more => rfl
  · intro e h hline
    rw [Scanner.scan, Scanner.scanFrom_eq_feed] at h
    rcases bind_eq_error_iff.mp h with hfeed | ⟨r, -, h⟩
    · rw [hrun, hfeed]
      rfl
    · rcases bind_eq_error_iff.mp h with hfinish | ⟨u, -, h⟩
      · rw [Scanner.atEnd_of_finish hfinish] at hline
        cases hline
      · cases h

def letters : Scanner := ⟨"a.cpp", "B", "E", []⟩

def letterText : String := "B\n\x7b\x7d\nE\nA::b(\n"

theorem complete_letterText : Text.Complete letterText.toList := by
  simp [Text.Complete, letterText]

/-- The second block and the second fault are found where they are, and a fault before the block stays. -/
theorem scan_append_letters :
    (∃ bs, letters.scan (letterText ++ letterText) = .ok bs ∧
      bs.map (·.location) = [⟨"a.cpp", 1, 3⟩, ⟨"a.cpp", 5, 7⟩]) ∧
    letters.scan (letterText ++ "B\nB") = .error (.placement "a.cpp" 6 (.openingInside "B" 5)) ∧
    letters.scan ("x\nE\n" ++ letterText) = .error (.placement "a.cpp" 2 (.closingAlone "B" "E")) := by
  have hlocations : (letters.scan letterText).toOption.map (·.map (·.location)) =
      some [⟨"a.cpp", 1, 3⟩] := by decide +kernel
  have hlength : (Text.lines letterText.toList).length = 4 := by decide
  have hinside : letters.scan "B\nB" = .error (.placement "a.cpp" 2 (.openingInside "B" 1)) := by cbv
  have halone : letters.scan "x\nE\n" = .error (.placement "a.cpp" 2 (.closingAlone "B" "E")) := by cbv
  obtain ⟨bs, hscan, hlocations⟩ := eq_ok_of_map_toOption hlocations
  have hblocks := (scan_append letters letterText letterText complete_letterText).1 bs hscan
  have hfault := (scan_append letters letterText "B\nB" complete_letterText).1 bs hscan
  rw [hscan, hlength] at hblocks
  rw [hinside, hlength] at hfault
  refine ⟨⟨_, hblocks, ?_⟩, hfault, ?_⟩
  · have hbelow : (bs.map (·.shift 4)).map (·.location) =
        (bs.map (·.location)).map fun l => ⟨l.file, l.first + 4, l.last + 4⟩ := by
      rw [List.map_map, List.map_map]
      rfl
    rw [List.map_append, hbelow, hlocations]
    rfl
  · have hcomplete : Text.Complete "x\nE\n".toList := by simp [Text.Complete]
    exact (scan_append letters "x\nE\n" letterText hcomplete).2 _ halone rfl

end RestRoutes
