import RestRoutes.Proofs.Block.Closing

namespace RestRoutes

/-- A line feed ends a line, alone or behind a carriage return. -/
inductive LineEnd where
  | feed
  | returnFeed

def LineEnd.text : LineEnd → List Char
  | .feed => ['\n']
  | .returnFeed => ['\r', '\n']

/-- What is left of a line before this end: a carriage return before a line feed belongs to the end. -/
def LineEnd.leaves : LineEnd → Line → Line
  | .feed, line => Text.endLine line.reverse
  | .returnFeed, line => line

theorem LineEnd.leaves_begins (e : LineEnd) (line : Line) : e.leaves line <+: line := by
  cases e with
  | feed => simpa [leaves] using Text.endLine_begins line.reverse
  | returnFeed => exact List.prefix_rfl

/-- A carriage return is taken from the last part of a line only. -/
theorem LineEnd.leaves_append (e : LineEnd) {lead : List Char} (h : lead.getLast? ≠ some '\r')
    (line : Line) : e.leaves (lead ++ line) = lead ++ e.leaves line := by
  cases e with
  | returnFeed => rfl
  | feed =>
    rw [leaves, leaves, List.reverse_append]
    cases hline : line.reverse with
    | nil => simpa [Text.endLine] using endLine_reverse h
    | cons c cs =>
      by_cases hc : c = '\r'
      · simp [hc, Text.endLine]
      · simp [Text.endLine, hc]

structure WrittenLine where
  line : Line
  ending : LineEnd
  whole : '\n' ∉ line

namespace WrittenLine

/-- The line as it is read again. -/
def content (w : WrittenLine) : Line := w.ending.leaves w.line

def text (w : WrittenLine) : List Char := w.line ++ w.ending.text

end WrittenLine

def writtenText (ws : List WrittenLine) : String := String.ofList (ws.flatMap WrittenLine.text)

theorem linesFrom_written (w : WrittenLine) (rest : List Char) :
    Text.linesFrom [] (w.text ++ rest) = w.content :: Text.linesFrom [] rest := by
  obtain ⟨line, ending, whole⟩ := w
  cases ending with
  | feed =>
    simp [WrittenLine.text, WrittenLine.content, LineEnd.text, LineEnd.leaves, linesFrom_line line whole]
  | returnFeed =>
    have hreturn := linesFrom_line (line ++ ['\r']) (by simpa using whole) [] rest
    simpa [WrittenLine.text, WrittenLine.content, LineEnd.text, LineEnd.leaves, Text.endLine] using hreturn

theorem lines_writtenText (ws : List WrittenLine) :
    Text.lines (writtenText ws).toList = ws.map WrittenLine.content := by
  rw [writtenText, String.toList_ofList, Text.lines]
  induction ws with
  | nil => rfl
  | cons w ws ih => rw [List.flatMap_cons, linesFrom_written, ih, List.map_cons]

/-- What may stand before a line of a payload: nothing, or white space and a default comment leader. -/
inductive IsLead : List Char → Prop where
  | bare : IsLead []
  | led (hblank : Text.allBlank blank = true) (hnewline : '\n' ∉ blank)
      (hleader : leader ∈ ({} : Markers).leaders) : IsLead (blank ++ leader.toList)

/-- A line of a payload and how it is written. -/
structure CommentedLine where
  line : Line
  lead : List Char
  ending : LineEnd
  whole : '\n' ∉ line
  isLead : IsLead lead

theorem leader_cases {leader : String} (h : leader ∈ ({} : Markers).leaders) :
    leader.toList ∈ [['/', '/', '/'], ['/', '/'], ['/', '*'], ['*'], ['#']] := by
  simp only [List.mem_cons, List.not_mem_nil, or_false] at h
  rcases h with rfl | rfl | rfl | rfl | rfl <;> decide

theorem IsLead.mem {lead : List Char} (h : IsLead lead) {c : Char} (hc : c ∈ lead) :
    (Text.isBlank c = true ∧ c ≠ '\n') ∨ c ∈ ['/', '*', '#'] := by
  cases h with
  | bare => cases hc
  | led hblank hnewline hleader =>
    rcases List.mem_append.mp hc with hc | hc
    · rw [Text.allBlank, List.all_eq_true] at hblank
      refine .inl ⟨hblank c hc, ?_⟩
      rintro rfl
      exact hnewline hc
    · have := leader_cases hleader
      grind

theorem IsLead.newline_notMem {lead : List Char} (h : IsLead lead) : '\n' ∉ lead := by
  intro hc
  rcases h.mem hc with hc | hc
  · exact hc.2 rfl
  · exact absurd hc (by decide)

theorem IsLead.getLast?_ne {lead : List Char} (h : IsLead lead) : lead.getLast? ≠ some '\r' := by
  cases h with
  | bare => nofun
  | led _ _ hleader =>
    have := leader_cases hleader
    simp only [List.mem_cons, List.not_mem_nil, or_false] at this
    rcases this with h | h | h | h | h <;> simp [h, List.getLast?_append]

/-- What is JSON does not go on as a leader does, so no longer leader than the written one fits. -/
theorem strip_leader {leader : String} (h : leader ∈ ({} : Markers).leaders) {blank line : List Char}
    (hblank : Text.allBlank blank = true) (hline : none ∉ Json.soundTokens line) :
    Markers.strip ({} : Markers).leadersLongestFirst (blank ++ leader.toList ++ line) = line := by
  have hhead : line.head? ≠ some '/' := by
    intro hslash
    obtain ⟨rest, rfl⟩ := List.head?_eq_some_iff.mp hslash
    exact absurd (Json.begins_of_sound hline (List.dropWhile_cons_of_neg (by decide))).2 (by decide)
  have htrim : Text.trimStart (blank ++ leader.toList ++ line) = leader.toList ++ line := by
    rw [Text.allBlank, List.all_eq_true] at hblank
    rw [Text.trimStart, List.append_assoc, List.dropWhile_append_of_pos hblank]
    have := leader_cases h
    simp only [List.mem_cons, List.not_mem_nil, or_false] at this
    rcases this with h | h | h | h | h <;> rw [h] <;> rfl
  rw [Markers.strip, htrim, leadersLongestFirst_default rfl]
  have := leader_cases h
  simp only [List.mem_cons, List.not_mem_nil, or_false] at this
  rcases this with h | h | h | h | h <;> rw [h]
  case inr.inl =>
    cases line with
    | nil => rfl
    | cons c line => simp [Text.after?, eq_comm, show c ≠ '/' by simpa using hhead]
  all_goals simp [Text.after?]

theorem IsLead.strip {lead line : List Char} (h : IsLead lead) (hline : none ∉ Json.soundTokens line) :
    Markers.strip ({} : Markers).leadersLongestFirst (lead ++ line) = line ∨
    Markers.strip ({} : Markers).leadersLongestFirst (lead ++ line) = line.dropWhile Json.isSpace := by
  cases h with
  | bare => exact .inr (strip_of_sound rfl hline)
  | led hblank _ hleader => exact .inl (strip_leader hleader hblank hline)

namespace CommentedLine

def written (c : CommentedLine) : WrittenLine where
  line := c.lead ++ c.line
  ending := c.ending
  whole := by simp [c.isLead.newline_notMem, c.whole]

/-- The line of the payload as it is read again. -/
def content (c : CommentedLine) : Line := c.ending.leaves c.line

theorem content_written (c : CommentedLine) : c.written.content = c.lead ++ c.content :=
  c.ending.leaves_append c.isLead.getLast?_ne c.line

theorem soundTokens_content (c : CommentedLine) : Json.soundTokens c.content = Json.soundTokens c.line := by
  rw [content]
  cases c.ending with
  | feed => simpa [LineEnd.leaves] using Json.soundTokens_endLine c.line.reverse
  | returnFeed => rfl

/-- What a block's reader is handed of a line: the line but for white space at its start. -/
def HandsOver (c : CommentedLine) (line : Line) : Prop :=
  ∃ space : List Char, (∀ d ∈ space, Json.isSpace d = true) ∧ c.content = space ++ line

def handed (c : CommentedLine) : Line :=
  Markers.strip ({} : Markers).leadersLongestFirst c.written.content

theorem handsOver_handed {c : CommentedLine} (h : none ∉ Json.soundTokens c.line) :
    c.HandsOver c.handed ∧ Json.soundTokens c.handed = Json.soundTokens c.line := by
  rw [← c.soundTokens_content] at h ⊢
  rw [handed, content_written]
  rcases c.isLead.strip h with hstrip | hstrip
  · rw [hstrip]
    exact ⟨⟨[], nofun, rfl⟩, rfl⟩
  · rw [hstrip, Json.soundTokens_dropWhile]
    exact ⟨⟨_, fun d hd => List.mem_takeWhile_imp hd, List.takeWhile_append_dropWhile.symm⟩, rfl⟩

end CommentedLine

theorem occursIn_append_of_apart {p lead : List Char} (h : ∀ c ∈ lead, c ∉ p) (s : List Char) :
    Text.occursIn p (lead ++ s) = Text.occursIn p s := by
  induction lead with
  | nil => rfl
  | cons c lead ih =>
    obtain ⟨hc, hlead⟩ := List.forall_mem_cons.mp h
    rw [List.cons_append, Text.occursIn, ih hlead]
    cases p with
    | nil =>
      have hempty : Text.occursIn [] s = true := Text.occursIn_iff.mpr List.nil_infix
      simp [hempty]
    | cons d p =>
      have hd : d ≠ c := fun hd => hc (hd ▸ List.mem_cons_self)
      simp [Text.startsWith, Text.after?, hd]

/-- The default markers hold nothing that stands before a line of a payload. -/
theorem IsLead.apart {lead : List Char} (h : IsLead lead) : ∀ c ∈ lead,
    c ∉ ({} : Markers).opening.toList ∧ c ∉ ({} : Markers).closing.toList := by
  have hmarkers : (({} : Markers).opening.toList ++ ({} : Markers).closing.toList).all
      (fun c => !Text.isBlank c && !(['/', '*', '#'].contains c)) = true := by decide +kernel
  intro c hc
  rw [← not_or, ← List.mem_append]
  intro hmarker
  have hfree := List.all_eq_true.mp hmarkers c hmarker
  simp only [Bool.and_eq_true, Bool.not_eq_true', ← Bool.not_eq_true, List.contains_iff_mem] at hfree
  rcases h.mem hc with hc | hc
  · exact hfree.1 hc.1
  · exact hfree.2 hc

theorem Scanner.isPlain_iff_free {s : Scanner} : s.isPlain line = true ↔
    Text.occursIn s.markers.opening.toList line = false ∧
    Text.occursIn s.markers.closing.toList line = false := by
  rw [isPlain_iff, isOpening, isClosing, isOpening]
  cases Text.occursIn s.markers.opening.toList line <;> simp

/-- A comment adds no marker to a line. -/
theorem CommentedLine.isPlain_written {file : String} (c : CommentedLine)
    (h : (Scanner.mk file {}).isPlain c.line = true) :
    (Scanner.mk file {}).isPlain c.written.content = true := by
  rw [Scanner.isPlain_iff_free] at h ⊢
  have mono {p : List Char} (hp : Text.occursIn p c.line = false) :
      Text.occursIn p c.content = false := by
    by_contra ho
    rw [Bool.not_eq_false] at ho
    rw [Text.occursIn_mono ho (c.ending.leaves_begins c.line).isInfix] at hp
    cases hp
  rw [c.content_written, occursIn_append_of_apart fun d hd => (c.isLead.apart d hd).1,
    occursIn_append_of_apart fun d hd => (c.isLead.apart d hd).2]
  exact ⟨mono h.1, mono h.2⟩

/-- The lines before and behind a payload. -/
structure Surroundings (s : Scanner) where
  opening : WrittenLine
  closing : WrittenLine
  definition : WrittenLine
  method : Definition
  isOpening : s.isOpening opening.content = true
  isClosing : s.isClosing closing.content = true
  isDefinition : s.isDefinition definition.content = true
  found : Definition.find? definition.content = some method

/-- The source with a commented payload between these lines. -/
def Surroundings.source (around : Surroundings s) (body : List CommentedLine) : String :=
  writtenText (around.opening :: (body.map CommentedLine.written ++ [around.closing, around.definition]))

theorem Surroundings.scan_source {s : Scanner} (around : Surroundings s) {body : List CommentedLine}
    (hplain : ∀ c ∈ body, s.isPlain c.written.content = true) :
    s.scan (around.source body) =
      s.close 1 (body.length + 2)
        (body.map fun c => Markers.strip s.leaders c.written.content).reverse >>= fun b =>
          .ok [s.complete b around.method] := by
  rw [Scanner.scan, source, lines_writtenText, List.map_cons, List.map_append, List.map_map,
    Scanner.scanFrom_cons (.opening around.isOpening), Scanner.scanFrom_body, List.map_cons,
    Scanner.scanFrom_closing around.isClosing]
  · simp only [List.map_map, List.append_nil, List.length_map, List.map_cons, List.map_nil,
      Option.toList_none, List.nil_append, id_map']
    rw [show 1 + 1 + body.length = body.length + 2 by omega]
    congr 1
    funext b
    rw [Scanner.scanFrom_cons (.definition around.isDefinition around.found)]
    rfl
  · intro line hline
    obtain ⟨c, hc, rfl⟩ := List.mem_map.mp hline
    exact hplain c hc

/-- However the lines of a payload are commented, the reader is handed the payload up to white space at
the start of its lines, and the block, or what is wrong with its fields, is the same. -/
theorem scan_commented {file : String} {payload : List Char} {raw : Json} {body : List CommentedLine}
    (hraw : Json.read payload = .ok raw)
    (hfree : ∀ line ∈ Text.lines payload, (Scanner.mk file {}).isPlain line = true)
    (hbody : body.map (·.line) = Text.lines payload) (around : Surroundings ⟨file, {}⟩) :
    (∃ handed : List Line, List.Forall₂ CommentedLine.HandsOver body handed ∧
      Json.read (Scanner.bodyText handed.reverse) = .ok raw ∧
      (Scanner.mk file {}).scan (around.source body) =
        (Scanner.mk file {}).close 1 (body.length + 2) handed.reverse >>= fun b =>
          .ok [(Scanner.mk file {}).complete b around.method]) ∧
    (Scanner.mk file {}).scan (around.source body) =
      match Payload.ofJson raw with
      | .ok contents =>
        .ok [(Scanner.mk file {}).complete ⟨1, body.length + 2, contents, raw⟩ around.method]
      | .error e => .error (.contents file 1 (body.length + 2) (.payload e)) := by
  have hsound : ∀ c ∈ body, none ∉ Json.soundTokens c.line := by
    intro c hc
    apply Json.sound_line_of_read hraw
    rw [← hbody]
    exact List.mem_map_of_mem hc
  have hplain : ∀ c ∈ body, (Scanner.mk file {}).isPlain c.written.content = true := by
    intro c hc
    apply c.isPlain_written
    apply hfree
    rw [← hbody]
    exact List.mem_map_of_mem hc
  have hscan := around.scan_source hplain
  have hread : Json.read (Scanner.bodyText (body.map CommentedLine.handed).reverse) = .ok raw := by
    rw [Scanner.bodyText, List.reverse_reverse, Json.read_flatMap, hraw]
    rw [← hbody, List.map_map, List.map_map]
    exact List.map_congr_left fun c hc => (CommentedLine.handsOver_handed (hsound c hc)).2
  refine ⟨⟨body.map CommentedLine.handed, ?_, hread, hscan⟩, ?_⟩
  · rw [List.forall₂_map_right_iff, List.forall₂_same]
    exact fun c hc => (CommentedLine.handsOver_handed (hsound c hc)).1
  · rw [hscan]
    change Scanner.close _ _ _ (body.map CommentedLine.handed).reverse >>= _ = _
    simp only [Scanner.close, hread]
    cases Payload.ofJson raw with
    | ok contents => rfl
    | error e => rfl

/-- An object over two lines, the second of them behind a tab and a comment leader. -/
def purposeLines : List CommentedLine := [
  { line := ['\x7b', ' ']
    lead := []
    ending := .returnFeed
    whole := by decide
    isLead := .bare },
  { line := " \"purpose\": \"p\" \x7d".toList
    lead := ['\t'] ++ "///".toList
    ending := .feed
    whole := by decide
    isLead := .led (by decide) (by decide) (by decide) }]

theorem bare_fits_nil : (bare []).Fits ⟨"a.cpp", {}⟩ fun _ => true := bare_fits nofun

def bareSurroundings : Surroundings ⟨"a.cpp", {}⟩ where
  opening := ⟨(bare []).opening, .returnFeed, by decide⟩
  closing := ⟨(bare []).closing, .returnFeed, by decide⟩
  definition := ⟨(bare []).definition, .returnFeed, by decide⟩
  method := ⟨['A'], ['b']⟩
  isOpening := bare_fits_nil.opening
  isClosing := bare_fits_nil.closing
  isDefinition := bare_fits_nil.definition
  found := by decide +kernel

theorem scan_commented_purpose :
    (Scanner.mk "a.cpp" {}).scan (bareSurroundings.source purposeLines) = .ok [{
      qualifiedName := "A::b"
      method := "b"
      payload := ⟨none, some "p", none, envelope⟩
      raw := .object [("purpose", .string "p")]
      location := ⟨"a.cpp", 1, 4⟩ }] := by
  have hraw : Json.read "\x7b \n \"purpose\": \"p\" \x7d".toList =
      .ok (.object [("purpose", .string "p")]) := by cbv
  have hcontents : Payload.ofJson (.object [("purpose", .string "p")]) =
      .ok ⟨none, some "p", none, envelope⟩ := rfl
  have hscan := (scan_commented hraw (by decide) (by decide : purposeLines.map (·.line) = _) bareSurroundings).2
  rw [hcontents] at hscan
  exact hscan

end RestRoutes
