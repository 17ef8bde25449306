import RestRoutes.Config.Load
import RestRoutes.Proofs.Block.Definition
import RestRoutes.Proofs.Json.Lines

namespace RestRoutes

/-- The line on which the definition of a method without parameters begins. -/
def definitionLine (type method : List Char) : Line :=
  ['v', 'o', 'i', 'd', ' '] ++ (type ++ ':' :: ':' :: (method ++ ['(', ')', ' ', '\x7b']))

namespace Definition

/-- Nothing is defined where no colon follows a word. -/
theorem here?_eq_none {s name rest : List Char} (h : identifier? s = some (name, rest))
    (hrest : rest.head? ≠ some ':') : here? s = none := by
  rw [here?]
  split
  · rename_i h'
    rw [h] at h'
    cases h'
    simp at hrest
  · rename_i h'
    rw [h] at h'
    cases h'
    simp at hrest
  · rfl

theorem find?_definitionLine {type method : List Char} (htype : IsIdentifier type)
    (hmethod : IsIdentifier method) :
    find? (definitionLine type method) = some ⟨type, method⟩ := by
  have hv : Text.isWord 'v' = true := by decide
  have ho : Text.isWord 'o' = true := by decide
  have hi : Text.isWord 'i' = true := by decide
  have hd : Text.isWord 'd' = true := by decide
  have hspace : Text.isWord ' ' = false := by decide
  have hvoid : identifier? (definitionLine type method) = some (['v', 'o', 'i', 'd'],
      ' ' :: (type ++ ':' :: ':' :: (method ++ ['(', ')', ' ', '\x7b']))) :=
    identifier?_append ⟨'v', ['o', 'i', 'd'], rfl, by decide, by simp [ho, hi, hd]⟩ (by simp [hspace])
  have hword := here?_eq_none hvoid (by simp)
  have hmethod : here? (type ++ ':' :: ':' :: (method ++ ['(', ')', ' ', '\x7b'])) = some ⟨type, method⟩ :=
    here?_of_method htype (.inl hmethod) (by decide)
  obtain ⟨c, s, rfl, -, -⟩ := htype
  simp only [definitionLine, List.cons_append, List.nil_append] at hword hmethod
  simp only [find?, definitionLine, List.cons_append, List.nil_append]
  simp [findFrom?, hv, ho, hi, hd, hspace, hword, hmethod]

end Definition

/-- The leaders that the markers have when nothing else is set. -/
theorem leadersLongestFirst_default {m : Markers} (h : m.leaders = ({} : Markers).leaders) :
    m.leadersLongestFirst = [['/', '/', '/'], ['/', '/'], ['/', '*'], ['*'], ['#']] := by
  rw [← leaders_default, Scanner.leaders, Markers.leadersLongestFirst, h]
  rfl

theorem isComment_definitionLine {m : Markers} (h : m.leaders = ({} : Markers).leaders)
    (type method : List Char) :
    Markers.isComment m.leadersLongestFirst (definitionLine type method) = false := by
  have htrim : Text.trim (definitionLine type method) = definitionLine type method := by
    have := Text.trim_eq_self (c := 'v') (d := '\x7b') (by decide) (by decide)
      (['o', 'i', 'd', ' '] ++ type ++ [':', ':'] ++ method ++ ['(', ')', ' '])
    simpa [definitionLine] using this
  rw [Markers.isComment, htrim, leadersLongestFirst_default h, definitionLine]
  rfl

/-- Of white space, only that of JSON stands before what is JSON. -/
theorem trimStart_of_sound {line : Line} (hline : none ∉ Json.soundTokens line) :
    Text.trimStart line = line.dropWhile Json.isSpace := by
  have hspace : ∀ d ∈ line.takeWhile Json.isSpace, Text.isBlank d = true :=
    fun d hd => Json.isBlank_of_isSpace (List.mem_takeWhile_imp hd)
  calc Text.trimStart line
      = (line.takeWhile Json.isSpace ++ line.dropWhile Json.isSpace).dropWhile Text.isBlank := by
        rw [List.takeWhile_append_dropWhile, Text.trimStart]
    _ = (line.dropWhile Json.isSpace).dropWhile Text.isBlank := List.dropWhile_append_of_pos hspace
    _ = line.dropWhile Json.isSpace := by
        cases hs : line.dropWhile Json.isSpace with
        | nil => rfl
        | cons c s => rw [List.dropWhile_cons_of_neg (by simp [(Json.begins_of_sound hline hs).1])]

/-- Default leaders begin nothing that is JSON, so only white space is taken off. -/
theorem strip_of_sound {m : Markers} (h : m.leaders = ({} : Markers).leaders) {line : Line}
    (hline : none ∉ Json.soundTokens line) :
    Markers.strip m.leadersLongestFirst line = line.dropWhile Json.isSpace := by
  rw [Markers.strip, trimStart_of_sound hline, leadersLongestFirst_default h]
  cases hs : line.dropWhile Json.isSpace with
  | nil => rfl
  | cons c s =>
    have hc := (Json.begins_of_sound hline hs).2
    simp only [List.mem_cons, List.not_mem_nil, or_false, not_or] at hc
    simp [Text.after?, eq_comm, hc]

theorem read_endLine {line : Line} {v : Json} (h : Json.read line = .ok v) :
    Json.read (Text.endLine line.reverse) = .ok v := by
  have htokens := Json.soundTokens_endLine line.reverse
  rw [List.reverse_reverse] at htokens
  exact (Json.read_eq_ok_iff_of_soundTokens htokens).mpr h

/-- The body of the block is read as the line that it was written on. -/
theorem read_body {m : Markers} (h : m.leaders = ({} : Markers).leaders) {line : Line} {v : Json}
    (hline : Json.read line = .ok v) :
    Json.read (Scanner.bodyText [Markers.strip m.leadersLongestFirst (Text.endLine line.reverse)]) =
      .ok v := by
  have hread := read_endLine hline
  rw [strip_of_sound h (Json.sound_of_read hread)]
  simpa [Scanner.bodyText] using
    (Json.read_append_space (by decide)).mpr (Json.read_dropWhile_isSpace.mpr hread)

/-- A text that can stand on a line: none ends inside it, nor is its last character taken for a part of
the line end. -/
def IsLine (s : List Char) : Prop := '\n' ∉ s ∧ s.getLast? ≠ some '\r'

/-- The opening marker counts where both are, so a closing marker that holds it closes nothing. -/
def Markers.Separate (m : Markers) : Prop :=
  IsLine m.opening.toList ∧ IsLine m.closing.toList ∧
    Text.occursIn m.opening.toList m.closing.toList = false

/-- The smallest source with a block: the markers, a payload between them, and a definition, each on a
line of its own. -/
def smallest (m : Markers) (payload : Line) (type method : List Char) : String :=
  fileText [m.opening.toList, payload, m.closing.toList, definitionLine type method]

/-- A marker that counts on its own line is all of it. -/
theorem isLine_of_occursIn {p : List Char} (hp : '\n' ∉ p)
    (h : Text.occursIn p (Text.endLine p.reverse) = true) : IsLine p := by
  refine ⟨hp, ?_⟩
  intro hr
  obtain ⟨s, rfl⟩ := List.getLast?_eq_some_iff.mp hr
  have hlength : s.length + 1 ≤ s.length := by simpa [Text.endLine] using (Text.occursIn_iff.mp h).length_le
  exact absurd hlength (Nat.not_succ_le_self _)

theorem endLine_of_isLine {p : List Char} (h : IsLine p) : Text.endLine p.reverse = p :=
  endLine_reverse h.2

theorem newline_notMem_definitionLine {type method : List Char} (htype : IsIdentifier type)
    (hmethod : IsIdentifier method) : '\n' ∉ definitionLine type method := by
  have hword : Text.isWord '\n' = false := by decide
  have hname {name : List Char} (h : IsIdentifier name) : '\n' ∉ name := by
    obtain ⟨c, s, rfl, hc, hs⟩ := h
    rw [List.mem_cons, not_or]
    refine ⟨?_, fun hn => ?_⟩
    · rintro rfl
      exact absurd hc (by decide)
    · rw [hs _ hn] at hword
      cases hword
  simp [definitionLine, hname htype, hname hmethod]

/-- When the closing marker holds the opening one, no line closes a block. -/
theorem isClosing_eq_false {s : Scanner}
    (h : Text.occursIn s.markers.opening.toList s.markers.closing.toList = true) (line : Line) :
    s.isClosing line = false := by
  by_contra hc
  rw [Bool.not_eq_false] at hc
  have ho := Scanner.isOpening_of_isClosing hc
  simp only [Scanner.isClosing, Bool.and_eq_true] at hc
  rw [Scanner.isOpening, Text.occursIn_mono h (Text.occursIn_iff.mp hc.2)] at ho
  cases ho

/-- Then no text whatever has a block. -/
theorem scan_eq_nil {s : Scanner}
    (h : Text.occursIn s.markers.opening.toList s.markers.closing.toList = true) {text : String}
    {bs : List Block} (hscan : s.scan text = .ok bs) : bs = [] := by
  obtain ⟨ps, hs⟩ := ahead_of_scanFrom hscan
  obtain ⟨-, -, hlast⟩ := documents_of_scan hs hscan
  rw [List.findIdxs_eq_nil_iff.mpr fun line _ => isClosing_eq_false h line] at hlast
  exact List.map_eq_nil_iff.mp hlast

/-- The lines that a block on the first three lines of a text stands on. -/
theorem lines_of_scan {s : Scanner} {text : String} {b : Block} (h : s.scan text = .ok [b])
    (hfirst : b.location.first = 1) (hlast : b.location.last = 3) :
    ∃ opening body closing rest, Text.lines text.toList = opening :: body :: closing :: rest ∧
      s.isOpening opening = true ∧ s.isClosing closing = true := by
  obtain ⟨ps, hs⟩ := ahead_of_scanFrom h
  have hd := (scanFrom_eq_ok_iff hs 1).mp h
  obtain ⟨rest, hlines, hfits, -⟩ := hs
  cases hd with
  | cons head tail =>
    cases tail
    rename_i p
    have hp := hfits p (by simp)
    have hbefore : p.before = [] := List.length_eq_zero_iff.mp (by have := head.first; omega)
    have hbody : p.body.length = 1 := by
      have := head.last
      rw [hbefore, List.length_nil] at this
      omega
    obtain ⟨x, hx⟩ := List.length_eq_one_iff.mp hbody
    refine ⟨p.opening, x, p.closing, p.gap ++ [p.definition] ++ rest, ?_, hp.opening, hp.closing⟩
    rw [hlines]
    simp [Passage.lines, hbefore, hx]

variable {file : String} {m : Markers} {payload : Line} {raw : Json} {contents : Payload}
  {type method : List Char}

theorem scan_smallest (hl : m.leaders = ({} : Markers).leaders) (hm : m.Separate)
    (hline : '\n' ∉ payload) (hraw : Json.read payload = .ok raw)
    (hcontents : Payload.ofJson raw = .ok contents) (htype : IsIdentifier type)
    (hmethod : IsIdentifier method)
    (hfree : ∀ line ∈ [payload, definitionLine type method],
      Text.occursIn m.opening.toList line = false ∧ Text.occursIn m.closing.toList line = false) :
    (Scanner.mk file m).scan (smallest m payload type method) = .ok [{
      qualifiedName := String.ofList (type ++ [':', ':'] ++ method)
      method := String.ofList method
      payload := contents
      raw
      location := ⟨file, 1, 3⟩ }] := by
  obtain ⟨hopening, hclosing, hseparate⟩ := hm
  have hdefinition : IsLine (definitionLine type method) :=
    ⟨newline_notMem_definitionLine htype hmethod, by
      simp [definitionLine, List.getLast?_cons, List.getLast?_append]⟩
  have hplain {line : Line} (h : line ∈ [payload, definitionLine type method]) :
      (Scanner.mk file m).isPlain (Text.endLine line.reverse) = true := by
    have mono {p : List Char} (hp : Text.occursIn p line = false) :
        Text.occursIn p (Text.endLine line.reverse) = false := by
      by_contra ho
      rw [Bool.not_eq_false] at ho
      have hbegins := Text.endLine_begins line.reverse
      rw [List.reverse_reverse] at hbegins
      rw [Text.occursIn_mono ho hbegins.isInfix] at hp
      cases hp
    simp [Scanner.isPlain_iff, Scanner.isOpening, Scanner.isClosing, mono (hfree line h).1,
      mono (hfree line h).2]
  have ho : (Scanner.mk file m).isOpening m.opening.toList = true :=
    Text.occursIn_iff.mpr List.infix_rfl
  have hc : (Scanner.mk file m).isClosing m.closing.toList = true := by
    simp [Scanner.isClosing, Scanner.isOpening, hseparate, Text.occursIn_iff.mpr List.infix_rfl]
  have hd : (Scanner.mk file m).isDefinition (definitionLine type method) = true := by
    have hplain := hplain (List.mem_cons_of_mem payload (List.mem_singleton_self (definitionLine type method)))
    rw [endLine_of_isLine hdefinition] at hplain
    simp [Scanner.isDefinition, hplain, Scanner.leaders, isComment_definitionLine hl,
      Definition.find?_definitionLine htype hmethod]
  have hclose : (Scanner.mk file m).close 1 3
      [Markers.strip (Scanner.mk file m).leaders (Text.endLine payload.reverse)] =
        .ok ⟨1, 3, contents, raw⟩ :=
    Scanner.close_eq_ok_iff.mpr ⟨rfl, rfl, read_body hl hraw, hcontents⟩
  rw [Scanner.scan, smallest, lines_fileText_eq_map (by
    simp [hopening.1, hline, hclosing.1, hdefinition.1])]
  simp only [List.map_cons, List.map_nil, endLine_of_isLine hopening, endLine_of_isLine hclosing,
    endLine_of_isLine hdefinition]
  rw [Scanner.scanFrom_cons (.opening ho), Scanner.scanFrom_cons (.body (hplain (by simp))),
    Scanner.scanFrom_cons (.closing hc hclose),
    Scanner.scanFrom_cons (.definition hd (Definition.find?_definitionLine htype hmethod))]
  rfl

theorem separate_of_scan_smallest {b : Block} (hline : '\n' ∉ payload)
    (htype : IsIdentifier type) (hmethod : IsIdentifier method)
    (h : (Scanner.mk file m).scan (smallest m payload type method) = .ok [b])
    (hfirst : b.location.first = 1) (hlast : b.location.last = 3) : m.Separate := by
  obtain ⟨opening, body, closing, rest, hlines, ho, hc⟩ := lines_of_scan h hfirst hlast
  have newline {p line : List Char} (hp : Text.occursIn p line = true)
      (hline : line ∈ opening :: body :: closing :: rest) : '\n' ∉ p := by
    rw [← hlines] at hline
    exact fun hn => Text.notMem_of_mem_linesFrom (by simp) hline ((Text.occursIn_iff.mp hp).subset hn)
  have hc' : Text.occursIn m.closing.toList closing = true := by
    simp only [Scanner.isClosing, Bool.and_eq_true] at hc
    exact hc.2
  have hopening := newline ho (by simp)
  have hclosing := newline hc' (by simp)
  rw [smallest, lines_fileText_eq_map (by
    simp [hopening, hline, hclosing, newline_notMem_definitionLine htype hmethod])] at hlines
  simp only [List.map_cons, List.map_nil, List.cons.injEq] at hlines
  obtain ⟨rfl, -, rfl, -⟩ := hlines
  have hlineOf := isLine_of_occursIn hclosing hc'
  refine ⟨isLine_of_occursIn hopening ho, hlineOf, ?_⟩
  have := Scanner.isOpening_of_isClosing hc
  rwa [endLine_of_isLine hlineOf] at this

/-- What the loader asks of markers. -/
theorem Config.markers_of_ofText {yaml : String} {c : Config} (h : Config.ofText yaml = .ok c) :
    Text.allBlank c.scan.markers.opening.toList = false ∧
    Text.allBlank c.scan.markers.closing.toList = false ∧
    c.scan.markers.opening ≠ c.scan.markers.closing := by
  obtain ⟨c', hvalid⟩ : ∃ c' : Config, c'.validate = .ok c := by
    simp only [Config.ofText] at h
    split at h
    all_goals
      obtain ⟨c', -, h⟩ := bind_eq_ok_iff.mp h
      split at h
      · exact ⟨c', h⟩
      · cases h
  -- One test after the other is passed.
  simp only [Config.validate, Text.isEmpty_trim] at hvalid
  split at hvalid
  · cases hvalid
  rename_i hopening
  split at hvalid
  · cases hvalid
  rename_i hclosing
  split at hvalid
  · cases hvalid
  rename_i hne
  cases hvalid
  exact ⟨Bool.eq_false_iff.mpr hopening, Bool.eq_false_iff.mpr hclosing, hne⟩

/-- The loader takes markers that hold something and differ. With the default leaders they close a block
of the smallest source exactly when they are separate, whatever its payload and its method; and when the
closing one holds the opening one, they close no block of any source. -/
theorem Config.closes_smallest_iff {yaml : String} {c : Config} (hc : Config.ofText yaml = .ok c)
    (hl : c.scan.markers.leaders = ({} : Markers).leaders)
    (hline : '\n' ∉ payload) (hraw : Json.read payload = .ok raw)
    (hcontents : Payload.ofJson raw = .ok contents) (htype : IsIdentifier type)
    (hmethod : IsIdentifier method)
    (hfree : ∀ line ∈ [payload, definitionLine type method],
      Text.occursIn c.scan.markers.opening.toList line = false ∧
      Text.occursIn c.scan.markers.closing.toList line = false) :
    (Text.allBlank c.scan.markers.opening.toList = false ∧
      Text.allBlank c.scan.markers.closing.toList = false ∧
      c.scan.markers.opening ≠ c.scan.markers.closing) ∧
    ((Scanner.mk file c.scan.markers).scan (smallest c.scan.markers payload type method) = .ok [{
        qualifiedName := String.ofList (type ++ [':', ':'] ++ method)
        method := String.ofList method
        payload := contents
        raw
        location := ⟨file, 1, 3⟩ }] ↔ c.scan.markers.Separate) ∧
    (Text.occursIn c.scan.markers.opening.toList c.scan.markers.closing.toList = true →
      ∀ text bs, (Scanner.mk file c.scan.markers).scan text = .ok bs → bs = []) := by
  refine ⟨Config.markers_of_ofText hc, ⟨fun h => ?_, fun h => ?_⟩, fun h text bs hscan => ?_⟩
  · exact separate_of_scan_smallest hline htype hmethod h rfl rfl
  · exact scan_smallest hl h hline hraw hcontents htype hmethod hfree
  · exact scan_eq_nil h hscan

/-- A configuration that only sets the markers. -/
def markersText (opening closing : String) : String :=
  "annotations:\n  begin_marker: " ++ opening ++ "\n  end_marker: " ++ closing ++ "\n"

theorem read_empty_object : Json.read "{}\r".toList = .ok (.object []) := by cbv

theorem isIdentifier_single {c : Char} (h : Text.isIdentifierStart c = true) : IsIdentifier [c] :=
  ⟨c, [], rfl, h, by simp⟩

/-- A payload whose line ends in a carriage return. -/
theorem Config.closes_smallest_apart :
    ∃ c, Config.ofText (markersText "DOC" "END") = .ok c ∧
      (Scanner.mk "a.cpp" c.scan.markers).scan
        (smallest c.scan.markers "{}\r".toList ['A'] ['b']) = .ok [{
          qualifiedName := "A::b"
          method := "b"
          payload := ⟨none, none, none, envelope⟩
          raw := .object []
          location := ⟨"a.cpp", 1, 3⟩ }] := by
  have hc : (Config.ofText (markersText "DOC" "END")).toOption =
      some { scan := { markers := { opening := "DOC", closing := "END" } } } := by decide +kernel
  refine ⟨_, eq_ok_iff_toOption.mpr hc, ?_⟩
  apply (Config.closes_smallest_iff (eq_ok_iff_toOption.mpr hc) rfl (by decide) read_empty_object rfl
    (isIdentifier_single (by decide)) (isIdentifier_single (by decide)) (by decide)).2.1.mpr
  exact ⟨⟨by decide, by decide⟩, ⟨by decide, by decide⟩, by decide⟩

/-- The loader takes markers that close no block: they differ, but the closing one holds the opening
one. -/
theorem Config.takes_nested_markers :
    ¬ ∀ yaml c, Config.ofText yaml = .ok c → c.scan.markers.leaders = ({} : Markers).leaders →
      ∀ payload raw contents type method, '\n' ∉ payload → Json.read payload = .ok raw →
        Payload.ofJson raw = .ok contents → IsIdentifier type → IsIdentifier method →
        (∀ line ∈ [payload, definitionLine type method],
          Text.occursIn c.scan.markers.opening.toList line = false ∧
          Text.occursIn c.scan.markers.closing.toList line = false) →
        ∃ b, (Scanner.mk "a.cpp" c.scan.markers).scan
            (smallest c.scan.markers payload type method) = .ok [b] ∧
          b.qualifiedName = String.ofList (type ++ [':', ':'] ++ method) ∧
          b.location.first = 1 ∧ b.location.last = 3 := by
  intro h
  have hc : (Config.ofText (markersText "DOC" "END_DOC")).toOption =
      some { scan := { markers := { opening := "DOC", closing := "END_DOC" } } } := by decide +kernel
  obtain ⟨b, hb, -⟩ := h _ _ (eq_ok_iff_toOption.mpr hc) rfl _ _ _ _ _ (by decide) read_empty_object rfl
    (isIdentifier_single (c := 'A') (by decide)) (isIdentifier_single (c := 'b') (by decide)) (by decide)
  have hnone := scan_eq_nil (by decide) hb
  cases hnone

end RestRoutes
