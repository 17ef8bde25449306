import RestRoutes.Proofs.Block.Closing

namespace RestRoutes

namespace Comment

/-- What a text holds outside comments; `inside` says that it begins in one. -/
def code : (inside : Bool) → List Char → List Char
  | _, [] => []
  | true, '*' :: '/' :: s => code false s
  | true, _ :: s => code true s
  | false, '/' :: '/' :: _ => []
  | false, '/' :: '*' :: s => code true s
  | false, c :: s => c :: code false s

/-- Whether a comment is open at the end of a text. -/
def leaves : (inside : Bool) → List Char → Bool
  | inside, [] => inside
  | true, '*' :: '/' :: s => leaves false s
  | true, _ :: s => leaves true s
  | false, '/' :: '/' :: _ => false
  | false, '/' :: '*' :: s => leaves true s
  | false, _ :: s => leaves false s

/-- What stands behind the first comment that ends in a text. -/
def behind : (inside : Bool) → List Char → List Char
  | _, [] => []
  | true, '*' :: '/' :: s => s
  | true, _ :: s => behind true s
  | false, '/' :: '/' :: _ => []
  | false, '/' :: '*' :: s => behind true s
  | false, _ :: s => behind false s

/-- A comment that has begun holds no code, so there is only what stands behind its end. -/
theorem code_inside (s : List Char) : code true s = code false (behind true s) := by
  induction s with
  | nil => rfl
  | cons c s ih =>
    by_cases h : ∃ t, c = '*' ∧ s = '/' :: t
    · obtain ⟨t, rfl, rfl⟩ := h
      rfl
    · have stays : ∀ t, c = '*' → s = '/' :: t → False := fun t hc hs => h ⟨t, hc, hs⟩
      rw [code, behind, ih]
      · exact stays
      · exact stays

theorem ne_slash_of_isBlank {c : Char} (h : Text.isBlank c = true) : c ≠ '/' := by
  rintro rfl
  exact absurd h (by decide)

/-- White space is outside comments. -/
theorem code_blank {w : List Char} (hw : Text.allBlank w = true) (s : List Char) :
    code false (w ++ s) = w ++ code false s := by
  induction w with
  | nil => rfl
  | cons c w ih =>
    rw [Text.allBlank, List.all_cons, Bool.and_eq_true] at hw
    have hc := ne_slash_of_isBlank hw.1
    rw [List.cons_append, code, ih hw.2]
    · rfl
    · exact fun _ h _ => hc h
    · exact fun _ h _ => hc h

theorem behind_blank {w : List Char} (hw : Text.allBlank w = true) (s : List Char) :
    behind false (w ++ s) = behind false s := by
  induction w with
  | nil => rfl
  | cons c w ih =>
    rw [Text.allBlank, List.all_cons, Bool.and_eq_true] at hw
    have hc := ne_slash_of_isBlank hw.1
    rw [List.cons_append, behind, ih hw.2]
    · exact fun _ h _ => hc h
    · exact fun _ h _ => hc h

end Comment

/-- What begins a comment, or a line of one. -/
def commentMarks : List (List Char) := [['/', '/'], ['/', '*'], ['*'], ['#']]

/-- A line that is blank, or that one of the marks begins behind white space. -/
def Marked (line : Line) : Prop :=
  Text.allBlank line = true ∨ ∃ mark ∈ commentMarks, mark <+: Text.trimStart line

/-- A line as far as it can hold code: outside a comment, a number sign makes a comment of all of it. -/
def Line.readable (inside : Bool) (line : Line) : Line :=
  if !inside && Text.startsWith ['#'] (Text.trimStart line) then [] else line

/-- A line with no code on it. -/
def CommentOnly (inside : Bool) (line : Line) : Prop :=
  Text.allBlank (Comment.code inside (line.readable inside)) = true

/-- A line that a star begins is in a comment, and no code stands behind the end of one. -/
def Closed (inside : Bool) (line : Line) : Prop :=
  (['*'] <+: Text.trimStart line → inside = true) ∧
    Text.allBlank (Comment.code false (Comment.behind inside (line.readable inside))) = true

/-- What holds of each line in turn, where a comment may be open between two of them. -/
def Along (P : Bool → Line → Prop) : (inside : Bool) → List Line → Prop
  | _, [] => True
  | inside, line :: rest =>
    P inside line ∧ Along P (Comment.leaves inside (line.readable inside)) rest

theorem Along.congr {P Q : Bool → Line → Prop} {lines : List Line}
    (h : ∀ line ∈ lines, ∀ inside, P inside line ↔ Q inside line) (inside : Bool) :
    Along P inside lines ↔ Along Q inside lines := by
  induction lines generalizing inside with
  | nil => rfl
  | cons line rest ih =>
    rw [List.forall_mem_cons] at h
    rw [Along, Along, h.1 inside, ih h.2]

theorem readable_numberSign {line : Line} (h : ['#'] <+: Text.trimStart line) :
    line.readable false = [] := by
  rw [Line.readable, Text.startsWith_iff.mpr h]
  rfl

theorem readable_other {line : Line} (h : ¬ ['#'] <+: Text.trimStart line) :
    line.readable false = line := by
  rw [Line.readable, Bool.eq_false_iff.mpr fun hs => h (Text.startsWith_iff.mp hs)]
  rfl

/-- Of what may begin a line outside comments, a star is code, and the rest leaves room for code only
behind the end of a comment. -/
theorem Comment.code_marked {t : List Char}
    (h : t = [] ∨ ∃ mark ∈ commentMarks, mark <+: t) (hn : ¬ ['#'] <+: t) :
    Text.allBlank (code false t) = true ↔
      ¬ ['*'] <+: t ∧ Text.allBlank (code false (behind false t)) = true := by
  rcases h with rfl | ⟨mark, hmark, rest, rfl⟩
  · exact iff_of_true rfl ⟨by simp, rfl⟩
  · simp only [commentMarks, List.mem_cons, List.not_mem_nil, or_false] at hmark
    rcases hmark with rfl | rfl | rfl | rfl
    · exact iff_of_true rfl ⟨by simp, rfl⟩
    · change Text.allBlank (code true rest) = true ↔
        _ ∧ Text.allBlank (code false (behind true rest)) = true
      rw [code_inside]
      simp
    · have hstar : Text.isBlank '*' = false := by decide
      exact iff_of_false (by simp [code, Text.allBlank, hstar]) (by simp)
    · exact absurd (List.prefix_append _ _) hn

theorem commentOnly_iff_closed {line : Line} (h : Marked line) (inside : Bool) :
    CommentOnly inside line ↔ Closed inside line := by
  cases inside with
  | true => simp [CommentOnly, Closed, Comment.code_inside]
  | false =>
    by_cases hn : ['#'] <+: Text.trimStart line
    · rw [CommentOnly, Closed, readable_numberSign hn]
      refine iff_of_true rfl ⟨fun hstar => ?_, rfl⟩
      obtain ⟨r, hr⟩ := hn
      rw [← hr] at hstar
      simp at hstar
    · obtain ⟨w, hw, hline⟩ := Text.exists_blank_append_trimStart line
      have hcode : Comment.code false line = w ++ Comment.code false (Text.trimStart line) := by
        rw [← Comment.code_blank hw, ← hline]
      have hbehind : Comment.behind false line = Comment.behind false (Text.trimStart line) := by
        conv_lhs => rw [hline, Comment.behind_blank hw]
      rw [Marked, Text.allBlank_iff_trimStart] at h
      rw [CommentOnly, Closed, readable_other hn, hcode, hbehind, Text.allBlank_append, hw,
        Bool.true_and, Comment.code_marked h hn]
      simp

theorem isComment_iff_marked {m : Markers} (h : m.leaders = ({} : Markers).leaders) (line : Line) :
    Markers.isComment m.leadersLongestFirst line = true ↔ Marked line := by
  -- The end of a comment is a star, and three slashes are two.
  have hend : ['*', '/'] <+: Text.trimStart line → ['*'] <+: Text.trimStart line :=
    (List.prefix_append ['*'] ['/']).trans
  have hslashes : ['/', '/', '/'] <+: Text.trimStart line → ['/', '/'] <+: Text.trimStart line :=
    (List.prefix_append ['/', '/'] ['/']).trans
  simp only [Markers.isComment, leadersLongestFirst_default h, List.any_cons, List.any_nil,
    Text.isEmpty_trim, Bool.or_eq_true, Bool.or_false, Marked, commentMarks, List.mem_cons,
    List.not_mem_nil, or_false, exists_eq_or_imp, exists_eq_left]
  repeat rw [Text.startsWith_trim_iff rfl]
  tauto

/-- The lines that stand between a block and the line of its definition. -/
structure Between (lines : List Line) (b : Block) (gap : List Line) (definition : Line) : Prop where
  place : ∃ before after, lines = before ++ gap ++ definition :: after ∧ before.length = b.location.last
  names : ∃ d, Definition.find? definition = some d ∧
    b.qualifiedName = String.ofList d.qualifiedName ∧ b.method = String.ofList d.method

/-- The scanner passes over the lines that a mark begins and binds the block to the first line that none
does. Whether a comment is open behind the block or not: the lines passed over are comment only exactly
when they are closed, for nothing is looked at behind the mark. -/
theorem scan_passes_marked {file : String} {text : String} {bs : List Block} {b : Block}
    (h : (Scanner.mk file {}).scan text = .ok bs) (hb : b ∈ bs) :
    ∃ gap definition, Between (Text.lines text.toList) b gap definition ∧
      (∀ line ∈ gap, Marked line) ∧ ¬ Marked definition ∧
      ∀ inside, Along CommentOnly inside gap ↔ Along Closed inside gap := by
  obtain ⟨ps, hs⟩ := ahead_of_scanFrom h
  have hd := (documents_of_scan hs h).1
  obtain ⟨rest, hlines, hfits, -⟩ := hs
  obtain ⟨before, p, after, rfl, hp⟩ := hd.exists_passage hb
  have hfit := hfits p (by simp)
  have hgap : ∀ line ∈ p.gap, Marked line := by
    intro line hl
    have hg := hfit.gap line hl
    simp only [Scanner.isGap, Bool.and_eq_true] at hg
    exact (isComment_iff_marked rfl line).mp hg.2
  have hdefinition : ¬ Marked p.definition := by
    have hc := hfit.definition
    simp only [Scanner.isDefinition, Bool.and_eq_true, Bool.not_eq_true'] at hc
    rw [← isComment_iff_marked (m := {}) rfl, Bool.not_eq_true]
    exact hc.1.2
  refine ⟨p.gap, p.definition, ⟨⟨before.flatMap Passage.lines ++
    (p.before ++ p.opening :: (p.body ++ [p.closing])), after.flatMap Passage.lines ++ rest, ?_, ?_⟩,
    hp.definition⟩, hgap, hdefinition, fun inside => ?_⟩
  · rw [hlines]
    simp [Passage.lines]
  · rw [hp.last]
    simp
    omega
  · exact Along.congr (fun line hl inside => commentOnly_iff_closed (hgap line hl) inside) inside

/-- A blank line and a comment between the block and its definition. -/
theorem scan_passes_marked_bare :
    ∃ b, (Scanner.mk "a.cpp" {}).scan (fileText (bare [[], "/* one */".toList]).lines) = .ok [b] ∧
      ∃ gap definition, Between (Text.lines (fileText (bare [[], "/* one */".toList]).lines).toList) b
          gap definition ∧
        (∀ line ∈ gap, Marked line) ∧ ¬ Marked definition ∧
        ∀ inside, Along CommentOnly inside gap ↔ Along Closed inside gap := by
  have hgap : ∀ line ∈ [[], "/* one */".toList], (Scanner.mk "a.cpp" {}).isGap line = true := by
    simp only [Scanner.isGap, leaders_default]
    decide
  obtain ⟨b, h, -⟩ := exists_scan_passage (by decide) (bare_fits hgap) (bare_readable _)
  exact ⟨b, h, scan_passes_marked h (by simp)⟩

/-- A comment that ends on the line of a definition. -/
def overlooking : Passage where
  before := ["/**".toList]
  opening := " * BEGIN_REST_API_DOCUMENTATION".toList
  body := [" * {}".toList]
  closing := " * END_REST_API_DOCUMENTATION".toList
  gap := [" */ void C::d() {}".toList]
  definition := "void A::b() {}".toList

theorem overlooking_fits : overlooking.Fits ⟨"a.cpp", {}⟩ (Scanner.mk "a.cpp" {}).isGap where
  before := by decide
  opening := by decide
  body := by decide
  closing := by decide
  gap := by
    simp only [Scanner.isGap, leaders_default, overlooking]
    decide
  definition := by
    simp only [Scanner.isDefinition, leaders_default, overlooking]
    decide +kernel

theorem overlooking_readable : overlooking.Readable ⟨"a.cpp", {}⟩ := by
  have hc : overlooking.contents ⟨"a.cpp", {}⟩ = [' ', '\x7b', '\x7d', '\n'] := by
    simp only [Passage.contents, leaders_default, overlooking]
    decide
  exact ⟨.object [], ⟨none, none, none, envelope⟩, by rw [hc]; cbv, rfl⟩

theorem find?_overlooked :
    Definition.find? " */ void C::d() {}".toList = some ⟨['C'], ['d']⟩ := by decide +kernel

theorem find?_bound : Definition.find? "void A::b() {}".toList = some ⟨['A'], ['b']⟩ := by
  decide +kernel

theorem not_commentOnly_overlooked (inside : Bool) :
    ¬ CommentOnly inside " */ void C::d() {}".toList := by
  unfold CommentOnly
  cases inside <;> decide +kernel

/-- What the scanner passes over may hold a definition: the block is then that of the next one. -/
theorem scan_passes_definition :
    ∃ b, (Scanner.mk "a.cpp" {}).scan (fileText overlooking.lines) = .ok [b] ∧
      (¬ ∃ gap definition inside,
        Between (Text.lines (fileText overlooking.lines).toList) b gap definition ∧
          Along CommentOnly inside gap) ∧
      ∃ gap definition, Between (Text.lines (fileText overlooking.lines).toList) b gap definition ∧
        ∃ line ∈ gap, ∃ before after, line = before ++ ['*', '/'] ++ after ∧
          Text.occursIn ['/', '/'] after = false ∧ Text.occursIn ['/', '*'] after = false ∧
          (Definition.find? after).isSome := by
  obtain ⟨b, hscan, hb⟩ := exists_scan_passage (by decide) overlooking_fits overlooking_readable
  have hlines : Text.lines (fileText overlooking.lines).toList = overlooking.lines :=
    lines_fileText (by decide)
  have hlast : b.location.last = 4 := hb.last
  have hname : b.qualifiedName = "A::b" := by
    obtain ⟨d, hd, hname, -⟩ := hb.definition
    obtain rfl : Definition.mk ['A'] ['b'] = d := Option.some.inj (find?_bound.symm.trans hd)
    exact hname
  rw [hlines]
  refine ⟨b, hscan, ?_, overlooking.gap, overlooking.definition,
    ⟨⟨overlooking.lines.take 4, [], rfl, hlast.symm⟩, hb.definition⟩, _, List.mem_singleton.mpr rfl, [' '],
    " void C::d() {}".toList, rfl, by decide, by decide, by decide +kernel⟩
  rintro ⟨gap, definition, inside, ⟨⟨before, after, hsplit, hlength⟩, d, hd, hbname, -⟩, hgap⟩
  rw [hlast] at hlength
  rw [List.append_assoc] at hsplit
  -- Two lines are left behind the block, and the first of them is neither comment nor bound.
  have hcut : overlooking.lines.take 4 ++ [" */ void C::d() {}".toList, "void A::b() {}".toList] =
    before ++ (gap ++ definition :: after) := hsplit
  obtain ⟨-, hsplit⟩ := List.append_inj hcut hlength.symm
  cases gap with
  | nil =>
    obtain ⟨rfl, -⟩ := List.cons.inj hsplit
    obtain rfl := Option.some.inj (find?_overlooked.symm.trans hd)
    rw [hname] at hbname
    exact absurd hbname (by decide)
  | cons line gap =>
    obtain ⟨rfl, -⟩ := List.cons.inj hsplit
    exact not_commentOnly_overlooked inside hgap.1

end RestRoutes
