import RestRoutes.Proofs.Reference.Sections
import RestRoutes.Proofs.Text.Division

namespace RestRoutes.Page

/-- The characters that tags and their attributes begin and end with. -/
def isMark (c : Char) : Bool := c = '<' || c = '>' || c = '"'

theorem escapedChar_unmarked (c : Char) : ∀ d ∈ escapedChar c, isMark d = false := by
  unfold escapedChar
  split <;> simp_all [isMark]

theorem escape_unmarked (s : List Char) : ∀ c ∈ escape s, isMark c = false := by
  intro c hc
  obtain ⟨d, -, hd⟩ := List.mem_flatMap.mp hc
  exact escapedChar_unmarked d c hd

/-- Which parts an entry has, and how many rows. -/
structure Shape where
  purpose : Bool
  input : Nat
  output : Nat
  documented : Bool
  deriving DecidableEq, Repr

namespace Shape

def ofEntry (e : ReferenceEntry) : Shape :=
  ⟨e.purpose.isSome, e.input.length, e.output.length, e.block.isSome⟩

def ofSection (s : Section) : Shape :=
  ⟨s.purpose.isSome, s.input.length, s.output.length, s.source.isSome⟩

theorem ofSection_ofEntry (e : ReferenceEntry) : ofSection (Section.ofEntry e) = ofEntry e := by
  simp [ofSection, Section.ofEntry, ofEntry, rows]

/-- A section of this shape in which every text is empty. -/
def blank (s : Shape) : Section where
  anchor := ""
  method := ""
  path := ""
  purpose := if s.purpose then some "" else none
  input := List.replicate s.input ⟨"", "", ""⟩
  output := List.replicate s.output ⟨"", "", ""⟩
  source := if s.documented then some "" else none

end Shape

/-- A piece without its text. -/
def Piece.outline : Piece → Option String
  | .markup s => some s
  | .text _ => none

def Piece.text? : Piece → Option String
  | .markup _ => none
  | .text s => some s

/-- The markup of a page with entries of these shapes, and its holes. -/
def outline (shapes : List Shape) : List (Option String) :=
  (pieces "" (shapes.map Shape.blank)).map Piece.outline

/-- The texts of a page in their order. -/
def texts (title : String) (sections : List Section) : List String :=
  (pieces title sections).filterMap Piece.text?

/-- Puts texts into the holes of an outline. -/
def fill : List (Option String) → List (List Char) → List Char
  | [], _ => []
  | some s :: rest, ts => s.toList ++ fill rest ts
  | none :: rest, [] => fill rest []
  | none :: rest, t :: ts => t ++ fill rest ts

theorem fill_outline (ps : List Piece) :
    fill (ps.map Piece.outline) ((ps.filterMap Piece.text?).map fun s => escape s.toList) = render ps := by
  induction ps with
  | nil => rfl
  | cons p ps ih =>
    rw [render, List.flatMap_cons, ← render]
    cases p with
    | markup s => simp [List.filterMap_cons, Piece.outline, Piece.text?, fill, Piece.render, ih]
    | text s => simp [Piece.outline, Piece.text?, fill, Piece.render, ih]

theorem length_texts_eq_count (ps : List Piece) :
    (ps.filterMap Piece.text?).length = (ps.map Piece.outline).count none := by
  induction ps with
  | nil => rfl
  | cons p ps ih => cases p <;> simp [List.filterMap_cons, Piece.outline, Piece.text?, ih]

theorem filter_isMark_fill (o : List (Option String)) {ts : List (List Char)}
    (h : ∀ t ∈ ts, ∀ c ∈ t, isMark c = false) :
    (fill o ts).filter isMark = o.flatMap fun s => (s.getD "").toList.filter isMark := by
  fun_induction fill o ts with
  | case1 => rfl
  | case2 s rest ts ih => simp [List.filter_append, ih h]
  | case3 rest ih => simp [ih h]
  | case4 rest t ts ih =>
    obtain ⟨ht, hts⟩ := List.forall_mem_cons.mp h
    have hnone : t.filter isMark = [] := List.filter_eq_nil_iff.mpr (by simpa using ht)
    simp [List.filter_append, hnone, ih hts]

theorem outline_rows (rs : List Row) : (rs.flatMap rowPieces).map Piece.outline =
    ((List.replicate rs.length ⟨"", "", ""⟩).flatMap rowPieces).map Piece.outline := by
  induction rs with
  | nil => rfl
  | cons r rs ih =>
    rw [List.length_cons, List.replicate_succ, List.flatMap_cons, List.flatMap_cons, List.map_append,
      List.map_append, ih]
    rfl

theorem outline_table (rs : List Row) : (tablePieces rs).map Piece.outline =
    (tablePieces (List.replicate rs.length ⟨"", "", ""⟩)).map Piece.outline := by
  cases rs with
  | nil => rfl
  | cons r rs =>
    have hrows := outline_rows (r :: rs)
    simp only [tablePieces, List.isEmpty_cons, List.length_cons, List.replicate_succ] at hrows ⊢
    simp only [Bool.false_eq_true, if_false, List.map_append, List.map_cons, hrows]

theorem outline_paragraph (opening : String) (s : Option String) :
    (paragraph opening s).map Piece.outline =
      (paragraph opening (if s.isSome then some "" else none)).map Piece.outline := by
  cases s with
  | none => rfl
  | some s => rfl

theorem outline_section (s : Section) : (sectionPieces s).map Piece.outline =
    (sectionPieces (Shape.ofSection s).blank).map Piece.outline := by
  simp only [sectionPieces, List.map_append, List.map_cons, outline_table s.input,
    outline_table s.output, outline_paragraph _ s.purpose, outline_paragraph _ s.source]
  rfl

/-- The texts of a page have no part in its outline. -/
theorem outline_pieces (title : String) (sections : List Section) :
    (pieces title sections).map Piece.outline = outline (sections.map Shape.ofSection) := by
  have hsections : (sections.flatMap sectionPieces).map Piece.outline =
      (((sections.map Shape.ofSection).map Shape.blank).flatMap sectionPieces).map Piece.outline := by
    induction sections with
    | nil => rfl
    | cons s sections ih =>
      simp only [List.map_cons, List.flatMap_cons, List.map_append, ih, outline_section s]
  simp only [outline, pieces, List.map_append, hsections]
  rfl

variable {x y : List Char} {ps qs : List Piece}

/-- Whether a text goes on with a mark. -/
def Marked (x : List Char) : Prop := ∃ c, x.head? = some c ∧ isMark c = true

theorem marked_markup {c : Char} {cs : List Char} (h : isMark c = true) :
    Marked (render (.markup (String.ofList (c :: cs)) :: ps) ++ x) :=
  ⟨c, by rw [render_markup_cons]; rfl, h⟩

theorem marked_markup_append {c : Char} {cs : List Char} {m m' : String} (h : isMark c = true) :
    Marked (render (.markup (String.ofList (c :: cs) ++ m ++ m') :: ps) ++ x) :=
  ⟨c, by simp [render, Piece.render], h⟩

/-- A hole ends at the first mark. -/
theorem escape_append_inj {s t : String} (hx : Marked x) (hy : Marked y)
    (h : escape s.toList ++ x = escape t.toList ++ y) : s = t ∧ x = y := by
  have hplain (u : String) : ∀ c ∈ escape u.toList, (!isMark c) = true := by
    simpa using escape_unmarked u.toList
  have hend {z : List Char} (hz : Marked z) : ∀ c ∈ z.head?, (!isMark c) = false := by
    obtain ⟨c, hc, hmark⟩ := hz
    simp [hc, hmark]
  obtain ⟨hst, hxy⟩ := Text.append_inj_of_head (hplain s) (hplain t) (hend hx) (hend hy) h
  exact ⟨String.toList_inj.mp (escape_injective hst), hxy⟩

theorem render_markup_inj {m : String}
    (h : render (.markup m :: ps) ++ x = render (.markup m :: qs) ++ y) :
    render ps ++ x = render qs ++ y := by
  simp only [render, List.flatMap_cons, List.append_assoc] at h ⊢
  exact List.append_cancel_left h

theorem render_text_inj {s t : String} (hx : Marked (render ps ++ x)) (hy : Marked (render qs ++ y))
    (h : render (.text s :: ps) ++ x = render (.text t :: qs) ++ y) :
    s = t ∧ render ps ++ x = render qs ++ y := by
  simp only [render, List.flatMap_cons, List.append_assoc, Piece.render] at h hx hy ⊢
  exact escape_append_inj hx hy h

/-- Two markups that differ within their first characters begin no common text. -/
theorem render_markup_ne {a b : String} (n : Nat)
    (hab : n ≤ a.toList.length ∧ n ≤ b.toList.length ∧ a.toList.take n ≠ b.toList.take n) :
    render (.markup a :: ps) ++ x ≠ render (.markup b :: qs) ++ y := by
  intro h
  simp only [render, List.flatMap_cons, List.append_assoc, Piece.render] at h
  have htake := congrArg (List.take n) h
  rw [List.take_append_of_le_length hab.1, List.take_append_of_le_length hab.2.1] at htake
  exact hab.2.2 htake

theorem render_row_inj {r r' : Row}
    (h : render (rowPieces r ++ ps) ++ x = render (rowPieces r' ++ qs) ++ y) :
    r = r' ∧ render ps ++ x = render qs ++ y := by
  obtain ⟨name, type, description⟩ := r
  obtain ⟨name', type', description'⟩ := r'
  obtain ⟨hname, h⟩ := render_text_inj (marked_markup (by decide)) (marked_markup (by decide))
    (render_markup_inj h)
  obtain ⟨htype, h⟩ := render_text_inj (marked_markup (by decide)) (marked_markup (by decide))
    (render_markup_inj h)
  obtain ⟨hdescription, h⟩ := render_text_inj (marked_markup (by decide)) (marked_markup (by decide))
    (render_markup_inj h)
  rw [Row.mk.injEq]
  exact ⟨⟨hname, htype, hdescription⟩, render_markup_inj h⟩

def tableClosing : Piece := .markup "\n  </table>\n  "

theorem render_rows_inj {rs rs' : List Row}
    (h : render (rs.flatMap rowPieces ++ tableClosing :: ps) ++ x =
      render (rs'.flatMap rowPieces ++ tableClosing :: qs) ++ y) :
    rs = rs' ∧ render ps ++ x = render qs ++ y := by
  induction rs generalizing rs' with
  | nil =>
    cases rs' with
    | nil => exact ⟨rfl, render_markup_inj h⟩
    | cons r' rs' => exact absurd h (render_markup_ne 4 (by decide))
  | cons r rs ih =>
    cases rs' with
    | nil => exact absurd h (render_markup_ne 4 (by decide))
    | cons r' rs' =>
      rw [List.flatMap_cons, List.flatMap_cons, List.append_assoc, List.append_assoc] at h
      obtain ⟨hr, h⟩ := render_row_inj h
      obtain ⟨hrs, h⟩ := ih h
      exact ⟨List.cons_eq_cons.mpr ⟨hr, hrs⟩, h⟩

theorem render_table_inj {rs rs' : List Row}
    (h : render (tablePieces rs ++ ps) ++ x = render (tablePieces rs' ++ qs) ++ y) :
    rs = rs' ∧ render ps ++ x = render qs ++ y := by
  cases rs with
  | nil =>
    cases rs' with
    | nil => exact ⟨rfl, render_markup_inj h⟩
    | cons r' rs' => exact absurd h (render_markup_ne 5 (by decide))
  | cons r rs =>
    cases rs' with
    | nil => exact absurd h (render_markup_ne 5 (by decide))
    | cons r' rs' =>
      simp only [tablePieces, List.isEmpty_cons, Bool.false_eq_true, if_false, List.cons_append,
        List.append_assoc] at h
      exact render_rows_inj (render_markup_inj h)

/-- A paragraph that is left out is told from one that is empty by the mark it would begin with. -/
theorem render_paragraph_inj {cs : List Char} {s s' : Option String}
    (hx : ¬ Marked (render ps ++ x)) (hy : ¬ Marked (render qs ++ y))
    (h : render (paragraph (String.ofList ('<' :: cs)) s ++ ps) ++ x =
      render (paragraph (String.ofList ('<' :: cs)) s' ++ qs) ++ y) :
    s = s' ∧ render ps ++ x = render qs ++ y := by
  cases s with
  | none =>
    cases s' with
    | none => exact ⟨rfl, h⟩
    | some s' => exact absurd (h ▸ marked_markup (by decide)) hx
  | some s =>
    cases s' with
    | none => exact absurd (h ▸ marked_markup (by decide)) hy
    | some s' =>
      obtain ⟨hs, h⟩ := render_text_inj (marked_markup (by decide)) (marked_markup (by decide))
        (render_markup_inj h)
      exact ⟨congrArg some hs, render_markup_inj h⟩

theorem not_marked_markup {c : Char} {cs : List Char} (h : isMark c = false) :
    ¬ Marked (render (.markup (String.ofList (c :: cs)) :: ps) ++ x) := by
  rintro ⟨d, hd, hmark⟩
  rw [render_markup_cons] at hd
  obtain rfl := Option.some.inj hd
  simp [h] at hmark

theorem render_section_inj {s s' : Section}
    (h : render (sectionPieces s ++ ps) ++ x = render (sectionPieces s' ++ qs) ++ y) :
    s = s' ∧ render ps ++ x = render qs ++ y := by
  obtain ⟨anchor, method, path, purpose, input, output, source⟩ := s
  obtain ⟨anchor', method', path', purpose', input', output', source'⟩ := s'
  simp only [sectionPieces, List.append_assoc, List.cons_append, List.nil_append] at h
  obtain ⟨hanchor, h⟩ := render_text_inj (marked_markup (by decide)) (marked_markup (by decide))
    (render_markup_inj h)
  obtain ⟨hmethod, h⟩ := render_text_inj (marked_markup (by decide)) (marked_markup (by decide))
    (render_markup_inj h)
  obtain ⟨hpath, h⟩ := render_text_inj (marked_markup (by decide)) (marked_markup (by decide))
    (render_markup_inj h)
  obtain ⟨hpurpose, h⟩ := render_paragraph_inj (not_marked_markup (by decide))
    (not_marked_markup (by decide)) (render_markup_inj h)
  obtain ⟨hinput, h⟩ := render_table_inj (render_markup_inj h)
  obtain ⟨houtput, h⟩ := render_table_inj (render_markup_inj h)
  obtain ⟨hsource, h⟩ := render_paragraph_inj (not_marked_markup (by decide))
    (not_marked_markup (by decide)) (render_markup_inj h)
  rw [Section.mk.injEq]
  exact ⟨⟨hanchor, hmethod, hpath, hpurpose, hinput, houtput, hsource⟩, render_markup_inj h⟩

def pageClosing : Piece := .markup "\n</body>\n</html>"

theorem render_sections_inj {ss ss' : List Section}
    (h : render (ss.flatMap sectionPieces ++ [pageClosing]) ++ x =
      render (ss'.flatMap sectionPieces ++ [pageClosing]) ++ y) : ss = ss' := by
  induction ss generalizing ss' with
  | nil =>
    cases ss' with
    | nil => rfl
    | cons s' ss' => exact absurd h (render_markup_ne 3 (by decide))
  | cons s ss ih =>
    cases ss' with
    | nil => exact absurd h (render_markup_ne 3 (by decide))
    | cons s' ss' =>
      rw [List.flatMap_cons, List.flatMap_cons, List.append_assoc, List.append_assoc] at h
      obtain ⟨hs, h⟩ := render_section_inj h
      exact List.cons_eq_cons.mpr ⟨hs, ih h⟩

theorem render_pieces_inj {title title' : String} {ss ss' : List Section}
    (h : render (pieces title ss) = render (pieces title' ss')) : title = title' ∧ ss = ss' := by
  have h : render (pieces title ss) ++ [] = render (pieces title' ss') ++ [] := by rw [h]
  simp only [pieces, List.cons_append, List.nil_append] at h
  obtain ⟨htitle, h⟩ := render_text_inj (marked_markup_append (by decide))
    (marked_markup_append (by decide)) (render_markup_inj h)
  obtain ⟨-, h⟩ := render_text_inj (marked_markup (by decide)) (marked_markup (by decide))
    (render_markup_inj h)
  exact ⟨htitle, render_sections_inj (render_markup_inj h)⟩

/-- The texts of a page are kept in their holes, and all of them can be read there. -/
structure Confined (title : String) (entries : List ReferenceEntry) : Prop where
  filled : (ofEntries title entries).toList = fill (outline (entries.map Shape.ofEntry))
    ((texts title (entries.map Section.ofEntry)).map fun s => escape s.toList)
  holes : (texts title (entries.map Section.ofEntry)).length =
    (outline (entries.map Shape.ofEntry)).count none
  unmarked : ∀ s ∈ texts title (entries.map Section.ofEntry), ∀ c ∈ escape s.toList, isMark c = false
  marks : (ofEntries title entries).toList.filter isMark =
    (outline (entries.map Shape.ofEntry)).flatMap fun s => (s.getD "").toList.filter isMark
  faithful : ∀ title' entries', ofEntries title entries = ofEntries title' entries' →
    title = title' ∧ entries.map Section.ofEntry = entries'.map Section.ofEntry

theorem ofEntries_confined (title : String) (entries : List ReferenceEntry) :
    Confined title entries := by
  have houtline : (pieces title (entries.map Section.ofEntry)).map Piece.outline =
      outline (entries.map Shape.ofEntry) := by
    rw [outline_pieces, List.map_map]
    exact congrArg outline (List.map_congr_left fun e _ => Shape.ofSection_ofEntry e)
  have hfilled : (ofEntries title entries).toList = fill (outline (entries.map Shape.ofEntry))
      ((texts title (entries.map Section.ofEntry)).map fun s => escape s.toList) := by
    rw [ofEntries, String.toList_ofList, ← houtline]
    exact (fill_outline _).symm
  refine ⟨hfilled, ?_, fun s _ => escape_unmarked s.toList, ?_, fun title' entries' h => ?_⟩
  · rw [← houtline]
    exact length_texts_eq_count _
  · rw [hfilled]
    apply filter_isMark_fill
    intro t ht
    obtain ⟨s, -, rfl⟩ := List.mem_map.mp ht
    exact escape_unmarked s.toList
  · rw [ofEntries, ofEntries, String.ofList_inj] at h
    exact render_pieces_inj h

/-- Its texts would be markup themselves. -/
def hostile (purpose : String) : ReferenceEntry where
  path := "\"><script>"
  method := .get
  operation := "x"
  key := "a\" id=\"b"
  purpose := some purpose
  block := none

/-- A purpose that is markup, and one that is its escaped form, give pages with the same marks. -/
theorem ofEntries_confined_hostile :
    ofEntries "</title>" [hostile "<"] ≠ ofEntries "</title>" [hostile "&#60;"] ∧
    (ofEntries "</title>" [hostile "<"]).toList.filter isMark =
      (ofEntries "</title>" [hostile "&#60;"]).toList.filter isMark := by
  have hmarkup := ofEntries_confined "</title>" [hostile "<"]
  have hescaped := ofEntries_confined "</title>" [hostile "&#60;"]
  refine ⟨?_, hmarkup.marks.trans hescaped.marks.symm⟩
  intro h
  have hsections := (hmarkup.faithful _ _ h).2
  have hpurposes : some "<" = some "&#60;" :=
    congrArg (fun sections => (sections.head?.bind (·.purpose))) hsections
  exact absurd hpurposes (by decide)

end RestRoutes.Page
