import Mathlib.Data.List.Infix
import RestRoutes.Reference.Page

namespace RestRoutes.Page

def sectionOpening : List Char := "<section class=\"route\" id=\"".toList

/-- The ids of the route sections that a text opens, in order. -/
def sectionIds : List Char → List (List Char)
  | [] => []
  | c :: s =>
    match Text.after? sectionOpening (c :: s) with
    | some rest => rest.takeWhile (· ≠ '"') :: sectionIds s
    | none => sectionIds s

/-- No section is opened in a text, nor begun at its end. -/
def Quiet (s : List Char) : Prop :=
  ∀ r ∈ s.tails, r ≠ [] → ¬ r <+: sectionOpening ∧ ¬ sectionOpening <+: r

instance (s : List Char) : Decidable (Quiet s) :=
  inferInstanceAs (Decidable (∀ r ∈ s.tails, r ≠ [] → ¬ r <+: sectionOpening ∧ ¬ sectionOpening <+: r))

theorem quiet_cons {c : Char} {s : List Char} : Quiet (c :: s) ↔
    (¬ c :: s <+: sectionOpening ∧ ¬ sectionOpening <+: c :: s) ∧ Quiet s := by
  simp [Quiet, List.tails]

theorem quiet_append {s t : List Char} (hs : Quiet s) (ht : Quiet t) : Quiet (s ++ t) := by
  induction s with
  | nil => exact ht
  | cons c s ih =>
    obtain ⟨⟨hbegun, hopen⟩, hs⟩ := quiet_cons.mp hs
    refine quiet_cons.mpr ⟨⟨fun h => ?_, fun h => ?_⟩, ih hs⟩
    · exact hbegun ((List.prefix_append (c :: s) t).trans h)
    · rcases List.prefix_or_prefix_of_prefix h (List.prefix_append (c :: s) t) with hp | hp
      · exact hopen hp
      · exact hbegun hp

theorem escapedChar_plain (c : Char) : ∀ d ∈ escapedChar c, d ≠ '<' ∧ d ≠ '"' := by
  unfold escapedChar
  split <;> simp_all

theorem escape_plain (s : List Char) : ∀ d ∈ escape s, d ≠ '<' ∧ d ≠ '"' := by
  intro d hd
  obtain ⟨c, -, hc⟩ := List.mem_flatMap.mp hd
  exact escapedChar_plain c d hc

theorem escapedChar_append_inj {c d : Char} {s t : List Char}
    (h : escapedChar c ++ s = escapedChar d ++ t) : c = d ∧ s = t := by
  unfold escapedChar at h
  split at h <;> split at h <;> simp_all <;> grind

theorem escapedChar_ne_nil (c : Char) : escapedChar c ≠ [] := by
  unfold escapedChar
  split <;> simp

theorem escape_injective : Function.Injective escape := by
  intro s
  induction s with
  | nil =>
    intro t h
    cases t with
    | nil => rfl
    | cons d t => exact absurd (List.append_eq_nil_iff.mp h.symm).1 (escapedChar_ne_nil d)
  | cons c s ih =>
    intro t h
    cases t with
    | nil => exact absurd (List.append_eq_nil_iff.mp h).1 (escapedChar_ne_nil c)
    | cons d t =>
      obtain ⟨rfl, hrest⟩ := escapedChar_append_inj h
      rw [ih hrest]

theorem quiet_of_plain {s : List Char} (h : ∀ c ∈ s, c ≠ '<') : Quiet s := by
  intro r hr hne
  obtain ⟨c, r, rfl⟩ := List.exists_cons_of_ne_nil hne
  have hc : c ≠ '<' := h c (((List.mem_tails _ _).mp hr).subset List.mem_cons_self)
  constructor
  · rintro ⟨t, ht⟩
    exact hc (List.cons.inj ht).1
  · rintro ⟨t, ht⟩
    exact hc (List.cons.inj ht).1.symm

theorem sectionIds_append_quiet {s : List Char} (h : Quiet s) (t : List Char) :
    sectionIds (s ++ t) = sectionIds t := by
  induction s with
  | nil => rfl
  | cons c s ih =>
    obtain ⟨⟨hbegun, hopen⟩, hs⟩ := quiet_cons.mp h
    rw [List.cons_append, sectionIds]
    cases hafter : Text.after? sectionOpening (c :: (s ++ t)) with
    | none => exact ih hs
    | some rest =>
      have hp : sectionOpening <+: (c :: s) ++ t := ⟨rest, (Text.eq_append_of_after? hafter).symm⟩
      rcases List.prefix_or_prefix_of_prefix hp (List.prefix_append (c :: s) t) with hp | hp
      · exact absurd hp hopen
      · exact absurd hp hbegun

/-- A section that is opened has its id up to the next quotation mark. -/
theorem sectionIds_opening {id : List Char} (hid : ∀ c ∈ id, c ≠ '<' ∧ c ≠ '"') (t : List Char) :
    sectionIds (sectionOpening ++ (id ++ '"' :: t)) = id :: sectionIds ('"' :: t) := by
  have hafter := Text.after?_append sectionOpening (id ++ '"' :: t)
  have htake : (id ++ '"' :: t).takeWhile (· ≠ '"') = id := by
    rw [List.takeWhile_append_of_pos (by simpa using fun c hc => (hid c hc).2)]
    simp
  have hopening : '<' ∉ sectionOpening.tail := by decide
  have hquiet : Quiet (sectionOpening.tail ++ id) := by
    apply quiet_of_plain
    intro c hc
    rcases List.mem_append.mp hc with hc | hc
    · exact fun he => hopening (he ▸ hc)
    · exact (hid c hc).1
  have hcons : sectionOpening ++ (id ++ '"' :: t) =
      '<' :: (sectionOpening.tail ++ (id ++ '"' :: t)) := rfl
  rw [hcons] at hafter ⊢
  rw [sectionIds, hafter]
  simp only [htake]
  rw [← List.append_assoc, sectionIds_append_quiet hquiet]

theorem quiet_escape (s : List Char) : Quiet (escape s) :=
  quiet_of_plain fun c hc => (escape_plain s c hc).1

theorem sectionIds_render_quiet {ps : List Piece} (h : ∀ p ∈ ps, Quiet p.render) (t : List Char) :
    sectionIds (render ps ++ t) = sectionIds t := by
  induction ps with
  | nil => rfl
  | cons p ps ih =>
    obtain ⟨hp, hps⟩ := List.forall_mem_cons.mp h
    rw [render, List.flatMap_cons, List.append_assoc, sectionIds_append_quiet hp]
    exact ih hps

/-- A literal is compared by its characters, which it need not be decoded for. -/
theorem quiet_markup {cs : List Char} (h : Quiet cs) :
    Quiet (Piece.markup (String.ofList cs)).render := by
  rwa [Piece.render, String.toList_ofList]

theorem render_markup_cons {c : Char} {cs : List Char} (ps : List Piece) :
    render (Piece.markup (String.ofList (c :: cs)) :: ps) = c :: (cs ++ render ps) := by
  rw [render, List.flatMap_cons, Piece.render, String.toList_ofList]
  rfl

theorem quiet_markup_append {a b : String} (ha : Quiet (Piece.markup a).render)
    (hb : Quiet (Piece.markup b).render) : Quiet (Piece.markup (a ++ b)).render := by
  rw [Piece.render, String.toList_append]
  exact quiet_append ha hb

theorem quiet_row (r : Row) : ∀ p ∈ rowPieces r, Quiet p.render := by
  simp only [rowPieces, List.forall_mem_cons]
  exact ⟨quiet_markup (by decide), quiet_escape _, quiet_markup (by decide), quiet_escape _,
    quiet_markup (by decide), quiet_escape _, quiet_markup (by decide), by simp⟩

theorem quiet_table (rows : List Row) : ∀ p ∈ tablePieces rows, Quiet p.render := by
  unfold tablePieces
  split
  · simp only [List.forall_mem_cons]
    exact ⟨quiet_markup (by decide), by simp⟩
  · intro p hp
    rcases List.mem_cons.mp hp with rfl | hp
    · exact quiet_markup (by decide)
    rcases List.mem_append.mp hp with hp | hp
    · obtain ⟨r, -, hp⟩ := List.mem_flatMap.mp hp
      exact quiet_row r p hp
    · rw [List.mem_singleton.mp hp]
      exact quiet_markup (by decide)

theorem quiet_paragraph {opening : String} (h : Quiet (Piece.markup opening).render) (s : Option String) :
    ∀ p ∈ paragraph opening s, Quiet p.render := by
  cases s with
  | none => simp [paragraph]
  | some s =>
    simp only [paragraph, List.forall_mem_cons]
    exact ⟨h, quiet_escape _, quiet_markup (by decide), by simp⟩

/-- Behind its id a section opens no other. -/
theorem quiet_section (s : Section) : ∀ p ∈ (sectionPieces s).drop 2, Quiet p.render := by
  simp only [sectionPieces, List.cons_append, List.nil_append, List.append_assoc, List.drop_succ_cons,
    List.drop_zero, List.forall_mem_append, List.forall_mem_cons]
  exact ⟨quiet_markup (by decide), quiet_escape _, quiet_markup (by decide), quiet_escape _,
    quiet_markup (by decide), quiet_paragraph (quiet_markup (by decide)) _, quiet_markup (by decide),
    quiet_table _, quiet_markup (by decide), quiet_table _, quiet_markup (by decide),
    quiet_paragraph (quiet_markup (by decide)) _, quiet_markup (by decide), by simp⟩

theorem sectionIds_section (s : Section) (t : List Char) :
    sectionIds (render (sectionPieces s) ++ t) = escape s.anchor.toList :: sectionIds t := by
  have hquiet := sectionIds_render_quiet (quiet_section s) t
  have hopening : (Piece.markup "\n<section class=\"route\" id=\"").render = '\n' :: sectionOpening := by
    decide
  have hpieces : sectionPieces s = .markup "\n<section class=\"route\" id=\"" :: .text s.anchor ::
      (sectionPieces s).drop 2 := rfl
  have hbody : (sectionPieces s).drop 2 = .markup "\">\n  <h2><span class=\"method\">" ::
      (sectionPieces s).drop 3 := rfl
  obtain ⟨rest, hrest⟩ : ∃ rest, render ((sectionPieces s).drop 2) = '"' :: rest := by
    rw [hbody]
    exact ⟨_, render_markup_cons _⟩
  have hid := sectionIds_opening (escape_plain s.anchor.toList) (rest ++ t)
  rw [hrest, List.cons_append] at hquiet
  rw [hquiet] at hid
  rw [← hid, hpieces]
  simp only [render, List.flatMap_cons, hopening] at hrest ⊢
  rw [hrest]
  simp only [List.cons_append, List.append_assoc, Piece.render]
  exact sectionIds_append_quiet (s := ['\n']) (by decide) _

theorem quiet_style : Quiet (Piece.markup style).render := by
  unfold style
  iterate 6 apply quiet_markup_append ?_ (quiet_markup (by decide))
  exact quiet_markup (by decide)

theorem render_append (ps qs : List Piece) : render (ps ++ qs) = render ps ++ render qs :=
  List.flatMap_append

theorem sectionIds_sections (sections : List Section) (t : List Char) :
    sectionIds (render (sections.flatMap sectionPieces) ++ t) =
      sections.map (fun s => escape s.anchor.toList) ++ sectionIds t := by
  induction sections with
  | nil => rfl
  | cons s sections ih =>
    rw [List.flatMap_cons, render_append, List.append_assoc, sectionIds_section, ih]
    rfl

/-- A page has one section for each entry, in order, and no other section. -/
theorem sectionIds_pieces (title : String) (sections : List Section) :
    sectionIds (render (pieces title sections)) = sections.map fun s => escape s.anchor.toList := by
  have hhead : ∀ p ∈ (pieces title []).take 5, Quiet p.render := by
    simp only [pieces, List.flatMap_nil, List.cons_append, List.nil_append, List.take_succ_cons,
      List.take_zero, List.forall_mem_cons]
    refine ⟨quiet_markup (by decide), quiet_escape _, ?_, quiet_escape _, quiet_markup (by decide),
      by simp⟩
    apply quiet_markup_append (quiet_markup_append (quiet_markup (by decide)) quiet_style)
    exact quiet_markup (by decide)
  have hend : ∀ p ∈ [Piece.markup "\n</body>\n</html>"], Quiet p.render := by
    simp only [List.forall_mem_cons]
    exact ⟨quiet_markup (by decide), by simp⟩
  have hpieces : pieces title sections = (pieces title []).take 5 ++
      (sections.flatMap sectionPieces ++ [.markup "\n</body>\n</html>"]) := rfl
  have hempty := sectionIds_render_quiet hend []
  rw [List.append_nil] at hempty
  rw [hpieces, render_append, render_append, sectionIds_render_quiet hhead, sectionIds_sections, hempty]
  exact List.append_nil _

theorem sectionIds_ofEntries (title : String) (entries : List ReferenceEntry) :
    sectionIds (ofEntries title entries).toList = entries.map fun e => escape e.key.toList := by
  rw [ofEntries, String.toList_ofList, sectionIds_pieces, List.map_map]
  rfl

end RestRoutes.Page
