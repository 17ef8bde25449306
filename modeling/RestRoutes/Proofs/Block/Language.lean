import Mathlib
import RestRoutes.Proofs.Block.Run

namespace RestRoutes

/-- The lines around one block: from behind the definition before it up to its own definition. -/
structure Passage where
  before : List Line
  opening : Line
  body : List Line
  closing : Line
  gap : List Line
  definition : Line

namespace Passage

def lines (p : Passage) : List Line :=
  p.before ++ p.opening :: (p.body ++ p.closing :: (p.gap ++ [p.definition]))

/-- The lines are of the classes that their places ask for; `gap` is the class of those between a block
and its definition. -/
structure Fits (s : Scanner) (gap : Line → Bool) (p : Passage) : Prop where
  before : ∀ line ∈ p.before, s.isPlain line = true
  opening : s.isOpening p.opening = true
  body : ∀ line ∈ p.body, s.isPlain line = true
  closing : s.isClosing p.closing = true
  gap : ∀ line ∈ p.gap, gap line = true
  definition : s.isDefinition p.definition = true

/-- What stands between the markers, freed of comment leaders. -/
def contents (s : Scanner) (p : Passage) : List Char :=
  (p.body.map (Markers.strip s.leaders)).flatMap (· ++ ['\n'])

/-- What stands between the markers is JSON and a payload. -/
def Readable (s : Scanner) (p : Passage) : Prop :=
  ∃ raw payload, Json.read (p.contents s) = .ok raw ∧ Payload.ofJson raw = .ok payload

/-- The block of a passage whose first line has number `n`. -/
structure Describes (s : Scanner) (n : Nat) (p : Passage) (b : Block) : Prop where
  file : b.location.file = s.file
  first : b.location.first = n + p.before.length
  last : b.location.last = n + p.before.length + 1 + p.body.length
  raw : Json.read (p.contents s) = .ok b.raw
  payload : Payload.ofJson b.raw = .ok b.payload
  definition : ∃ d, Definition.find? p.definition = some d ∧
    b.qualifiedName = String.ofList d.qualifiedName ∧ b.method = String.ofList d.method

end Passage

/-- The lines of a file, up to its end, as passages. -/
def Split (s : Scanner) (gap : Line → Bool) (lines : List Line) (ps : List Passage) : Prop :=
  ∃ rest, lines = ps.flatMap Passage.lines ++ rest ∧ (∀ p ∈ ps, p.Fits s gap) ∧
    ∀ line ∈ rest, s.isPlain line = true

/-- The blocks of passages that begin at line `n`, in their order. -/
inductive Documents (s : Scanner) : Nat → List Passage → List Block → Prop where
  | nil : Documents s n [] []
  | cons (head : p.Describes s n b) (tail : Documents s (n + p.lines.length) ps bs) :
      Documents s n (p :: ps) (b :: bs)

variable {s : Scanner}

theorem Scanner.close_eq_ok_iff : s.close first last body = .ok c ↔ c.first = first ∧ c.last = last ∧
    Json.read (bodyText body) = .ok c.raw ∧ Payload.ofJson c.raw = .ok c.payload := by
  constructor
  · intro h
    simp only [close] at h
    split at h
    · cases h
    · rename_i raw hraw
      split at h
      · cases h
      · rename_i payload hpayload
        cases h
        exact ⟨rfl, rfl, hraw, hpayload⟩
  · rintro ⟨rfl, rfl, hraw, hpayload⟩
    simp [close, hraw, hpayload]

theorem Passage.lines_length (p : Passage) :
    p.lines.length = p.before.length + p.body.length + p.gap.length + 3 := by
  simp only [lines, List.length_append, List.length_cons, List.length_nil]
  omega

theorem scanFrom_passage {p : Passage} (h : p.Fits s s.isGap) (n : Nat) (rest : List Line) :
    s.scanFrom .outside n (p.lines ++ rest) = .ok blocks ↔
      ∃ b bs, p.Describes s n b ∧ s.scanFrom .outside (n + p.lines.length) rest = .ok bs ∧
        blocks = b :: bs := by
  obtain ⟨d, hd⟩ : ∃ d, Definition.find? p.definition = some d := by
    have := h.definition
    simp only [Scanner.isDefinition, Bool.and_eq_true] at this
    exact Option.isSome_iff_exists.mp this.2
  have hn : n + p.before.length + 1 + p.body.length + 1 + p.gap.length + 1 = n + p.lines.length := by
    rw [p.lines_length]
    omega
  have run : s.scanFrom .outside n (p.lines ++ rest) =
      s.close (n + p.before.length) (n + p.before.length + 1 + p.body.length)
        (p.body.map (Markers.strip s.leaders)).reverse >>= fun c =>
          (s.complete c d :: ·) <$> s.scanFrom .outside (n + p.lines.length) rest := by
    simp only [Passage.lines, List.append_assoc, List.cons_append, List.nil_append]
    rw [Scanner.scanFrom_idle (fun l hl n => .plain (h.before l hl)),
      Scanner.scanFrom_cons (.opening h.opening), Scanner.scanFrom_body h.body,
      Scanner.scanFrom_closing h.closing]
    simp only [Option.toList_none, List.nil_append, id_map', List.append_nil]
    congr 1
    funext c
    rw [Scanner.scanFrom_idle (fun l hl n => .gap (h.gap l hl)),
      Scanner.scanFrom_cons (.definition h.definition hd), hn]
    rfl
  have hbody : Scanner.bodyText (p.body.map (Markers.strip s.leaders)).reverse = p.contents s := by
    simp [Scanner.bodyText, Passage.contents]
  rw [run]
  simp only [bind_eq_ok_iff, map_eq_ok_iff]
  constructor
  · rintro ⟨c, hc, bs, hbs, rfl⟩
    obtain ⟨hfirst, hlast, hraw, hpayload⟩ := Scanner.close_eq_ok_iff.mp hc
    rw [hbody] at hraw
    exact ⟨_, bs, ⟨rfl, hfirst, hlast, hraw, hpayload, d, hd, rfl, rfl⟩, hbs, rfl⟩
  · rintro ⟨b, bs, hb, hbs, rfl⟩
    obtain ⟨e, he, hname, hmethod⟩ := hb.definition
    obtain rfl : d = e := by simpa [hd] using he
    refine ⟨⟨b.location.first, b.location.last, b.payload, b.raw⟩, ?_, bs, hbs, ?_⟩
    · exact Scanner.close_eq_ok_iff.mpr ⟨hb.first, hb.last, hbody ▸ hb.raw, hb.payload⟩
    · obtain ⟨name, method, payload, raw, file, first, last⟩ := b
      simp only [Scanner.complete, List.cons.injEq, and_true]
      congr
      · exact hname.symm
      · exact hmethod.symm
      · exact hb.file.symm

theorem scanFrom_rest (h : ∀ line ∈ rest, s.isPlain line = true) (n : Nat) :
    s.scanFrom .outside n rest = .ok [] := by
  have := Scanner.scanFrom_idle (s := s) (fun l hl n => .plain (h l hl)) n []
  rw [List.append_nil] at this
  rw [this]
  rfl

/-- Once the lines are split into passages, the blocks are settled. -/
theorem scanFrom_eq_ok_iff (h : Split s s.isGap lines ps) (n : Nat) :
    s.scanFrom .outside n lines = .ok blocks ↔ Documents s n ps blocks := by
  obtain ⟨rest, rfl, hps, hrest⟩ := h
  induction ps generalizing n blocks with
  | nil =>
    rw [List.flatMap_nil, List.nil_append, scanFrom_rest hrest]
    constructor
    · intro h
      cases h
      exact .nil
    · intro h
      cases h
      rfl
  | cons p ps ih =>
    rw [List.flatMap_cons, List.append_assoc, scanFrom_passage (hps p (by simp))]
    have hps' : ∀ q ∈ ps, q.Fits s s.isGap := fun q hq => hps q (by simp [hq])
    constructor
    · rintro ⟨b, bs, hb, hbs, rfl⟩
      exact .cons hb ((ih _ hps').mp hbs)
    · intro h
      cases h with
      | cons head tail =>
        exact ⟨_, _, head, (ih _ hps').mpr tail, rfl⟩

/-- What lies ahead of a scanner in this state, when it gets to the end of the file: the rest of the
passage that it is in, and whole passages after that. -/
def Ahead (s : Scanner) : ScanState → List Line → Prop
  | .outside, lines => ∃ ps, Split s s.isGap lines ps
  | .inside _ _, lines => ∃ body closing gap definition after, ∃ ps,
      lines = body ++ closing :: (gap ++ definition :: after) ∧
      (∀ line ∈ body, s.isPlain line = true) ∧ s.isClosing closing = true ∧
      (∀ line ∈ gap, s.isGap line = true) ∧ s.isDefinition definition = true ∧
      Split s s.isGap after ps
  | .closed _, lines => ∃ gap definition after, ∃ ps, lines = gap ++ definition :: after ∧
      (∀ line ∈ gap, s.isGap line = true) ∧ s.isDefinition definition = true ∧
      Split s s.isGap after ps

theorem Split.plain_cons (h : Split s gap lines ps) (hl : s.isPlain line = true) :
    ∃ ps', Split s gap (line :: lines) ps' := by
  obtain ⟨rest, rfl, hps, hrest⟩ := h
  cases ps with
  | nil => exact ⟨[], line :: rest, rfl, by simp, List.forall_mem_cons.mpr ⟨hl, hrest⟩⟩
  | cons p ps =>
    have hp := hps p (by simp)
    refine ⟨{ p with before := line :: p.before } :: ps, rest, by simp [Passage.lines], ?_, hrest⟩
    rw [List.forall_mem_cons]
    refine ⟨?_, fun q hq => hps q (by simp [hq])⟩
    exact { hp with before := List.forall_mem_cons.mpr ⟨hl, hp.before⟩ }

theorem Scanner.Takes.ahead (h : Takes s n state line state' found) (ha : Ahead s state' lines) :
    Ahead s state (line :: lines) := by
  cases h with
  | plain h =>
    obtain ⟨ps, hs⟩ := ha
    exact hs.plain_cons h
  | opening h =>
    obtain ⟨body, closing, gap, definition, after, ps, rfl, hb, hc, hg, hd, rest, rfl, hps, hrest⟩ := ha
    refine ⟨⟨[], line, body, closing, gap, definition⟩ :: ps, rest, by simp [Passage.lines], ?_, hrest⟩
    exact List.forall_mem_cons.mpr ⟨⟨by simp, h, hb, hc, hg, hd⟩, hps⟩
  | body h =>
    obtain ⟨body, closing, gap, definition, after, ps, rfl, hb, hrest⟩ := ha
    exact ⟨line :: body, closing, gap, definition, after, ps, rfl,
      List.forall_mem_cons.mpr ⟨h, hb⟩, hrest⟩
  | closing h =>
    obtain ⟨gap, definition, after, ps, rfl, hrest⟩ := ha
    exact ⟨[], line, gap, definition, after, ps, rfl, by simp, h, hrest⟩
  | gap h =>
    obtain ⟨gap, definition, after, ps, rfl, hg, hrest⟩ := ha
    exact ⟨line :: gap, definition, after, ps, rfl, List.forall_mem_cons.mpr ⟨h, hg⟩, hrest⟩
  | definition h =>
    obtain ⟨ps, hs⟩ := ha
    exact ⟨[], line, lines, ps, rfl, by simp, h, hs⟩

theorem ahead_of_scanFrom (h : s.scanFrom state n lines = .ok blocks) : Ahead s state lines := by
  induction lines generalizing state n blocks with
  | nil =>
    simp only [Scanner.scanFrom] at h
    obtain ⟨_, hf, -⟩ := bind_eq_ok_iff.mp h
    cases state with
    | outside => exact ⟨[], [], rfl, by simp, by simp⟩
    | inside => simp [Scanner.finish] at hf
    | closed => simp [Scanner.finish] at hf
  | cons line lines ih =>
    simp only [Scanner.scanFrom] at h
    obtain ⟨⟨state', found⟩, hstep, h⟩ := bind_eq_ok_iff.mp h
    obtain ⟨more, hmore, -⟩ := bind_eq_ok_iff.mp h
    exact (Scanner.takes_of_step hstep).ahead (ih hmore)

theorem findIdxs_plain {lines : List Line} (h : ∀ line ∈ lines, s.isPlain line = true) (n : Nat) :
    lines.findIdxs s.isOpening n = [] ∧ lines.findIdxs s.isClosing n = [] :=
  ⟨List.findIdxs_eq_nil_iff.mpr fun line hl => (Scanner.isPlain_iff.mp (h line hl)).1,
    List.findIdxs_eq_nil_iff.mpr fun line hl => (Scanner.isPlain_iff.mp (h line hl)).2⟩

theorem isPlain_of_isGap (h : s.isGap line = true) : s.isPlain line = true := by
  simp only [Scanner.isGap, Bool.and_eq_true] at h
  exact h.1

theorem isPlain_of_isDefinition (h : s.isDefinition line = true) : s.isPlain line = true := by
  simp only [Scanner.isDefinition, Bool.and_eq_true] at h
  exact h.1.1

theorem Passage.Fits.markers {p : Passage} (h : p.Fits s s.isGap) (n : Nat) :
    p.lines.findIdxs s.isOpening n = [n + p.before.length] ∧
    p.lines.findIdxs s.isClosing n = [n + p.before.length + 1 + p.body.length] := by
  have hafter : ∀ line ∈ p.gap ++ [p.definition], s.isPlain line = true := by
    intro line hl
    rcases List.mem_append.mp hl with hl | hl
    · exact isPlain_of_isGap (h.gap line hl)
    · rw [List.mem_singleton.mp hl]
      exact isPlain_of_isDefinition h.definition
  constructor
  · simp [Passage.lines, -List.append_assoc, List.findIdxs_append, (findIdxs_plain h.before _).1,
      h.opening, (findIdxs_plain h.body _).1, Scanner.isOpening_of_isClosing h.closing,
      (findIdxs_plain hafter _).1]
  · simp [Passage.lines, List.findIdxs_append, (findIdxs_plain h.before _).2,
      Scanner.isClosing_of_isOpening h.opening, (findIdxs_plain h.body _).2, h.closing,
      (findIdxs_plain hafter _).2]

theorem Documents.markers (hd : Documents s n ps bs) (hps : ∀ p ∈ ps, p.Fits s s.isGap) :
    bs.map (·.location.first) = (ps.flatMap Passage.lines).findIdxs s.isOpening n ∧
    bs.map (·.location.last) = (ps.flatMap Passage.lines).findIdxs s.isClosing n := by
  induction hd with
  | nil => simp
  | @cons n ps bs p b head _ ih =>
    obtain ⟨hp, hps⟩ := List.forall_mem_cons.mp hps
    obtain ⟨ho, hc⟩ := hp.markers n
    obtain ⟨hfirst, hlast⟩ := ih hps
    simp only [List.map_cons, List.flatMap_cons, List.findIdxs_append, ho, hc, head.first, head.last,
      hfirst, hlast, List.singleton_append, and_self]

theorem Documents.readable (hd : Documents s n ps bs) : ∀ p ∈ ps, p.Readable s := by
  induction hd with
  | nil => simp
  | cons head _ ih => exact List.forall_mem_cons.mpr ⟨⟨_, _, head.raw, head.payload⟩, ih⟩

/-- Every block is that of a passage, which stands behind the passages before it. -/
theorem Documents.exists_passage {s : Scanner} {n : Nat} {ps : List Passage} {bs : List Block}
    (hd : Documents s n ps bs) {b : Block} (hb : b ∈ bs) :
    ∃ before p after, ps = before ++ p :: after ∧
      p.Describes s (n + (before.flatMap Passage.lines).length) b := by
  induction hd with
  | nil => simp at hb
  | @cons n ps bs p c head _ ih =>
    rcases List.mem_cons.mp hb with rfl | hb
    · exact ⟨[], p, ps, rfl, head⟩
    · obtain ⟨before, q, after, rfl, hq⟩ := ih hb
      refine ⟨p :: before, q, after, rfl, ?_⟩
      rw [List.flatMap_cons, List.length_append, ← Nat.add_assoc]
      exact hq

/-- Passages that fit and can be read have blocks. -/
theorem exists_documents (hps : ∀ p ∈ ps, p.Fits s s.isGap) (hr : ∀ p ∈ ps, p.Readable s) (n : Nat) :
    ∃ bs, Documents s n ps bs := by
  induction ps generalizing n with
  | nil => exact ⟨[], .nil⟩
  | cons p ps ih =>
    obtain ⟨hp, hps⟩ := List.forall_mem_cons.mp hps
    obtain ⟨⟨raw, payload, hraw, hpayload⟩, hr⟩ := List.forall_mem_cons.mp hr
    obtain ⟨bs, hbs⟩ := ih hps hr (n + p.lines.length)
    have hd := hp.definition
    simp only [Scanner.isDefinition, Bool.and_eq_true] at hd
    obtain ⟨d, hd⟩ := Option.isSome_iff_exists.mp hd.2
    let c : ClosedBlock :=
      ⟨n + p.before.length, n + p.before.length + 1 + p.body.length, payload, raw⟩
    exact ⟨s.complete c d :: bs, .cons ⟨rfl, rfl, rfl, hraw, hpayload, d, hd, rfl, rfl⟩ hbs⟩

theorem documents_of_scan (hs : Split s s.isGap (Text.lines text.toList) ps)
    (h : s.scan text = .ok bs) :
    Documents s 1 ps bs ∧
      bs.map (·.location.first) = (Text.lines text.toList).findIdxs s.isOpening 1 ∧
      bs.map (·.location.last) = (Text.lines text.toList).findIdxs s.isClosing 1 := by
  have hd := (scanFrom_eq_ok_iff hs 1).mp h
  obtain ⟨rest, he, hps, hrest⟩ := hs
  obtain ⟨hfirst, hlast⟩ := hd.markers hps
  refine ⟨hd, ?_, ?_⟩
  · rw [he, List.findIdxs_append, (findIdxs_plain hrest _).1, List.append_nil, hfirst]
  · rw [he, List.findIdxs_append, (findIdxs_plain hrest _).2, List.append_nil, hlast]

/-- Exactly the texts that fall into passages with a readable block each are scanned, and no block is
lost: the blocks are those of the passages in their order, and they name every line with a marker. -/
theorem scan_accepts_passages (s : Scanner) (text : String) :
    ((∃ bs, s.scan text = .ok bs) ↔
      ∃ ps, Split s s.isGap (Text.lines text.toList) ps ∧ ∀ p ∈ ps, p.Readable s) ∧
    ∀ ps bs, Split s s.isGap (Text.lines text.toList) ps → s.scan text = .ok bs →
      Documents s 1 ps bs ∧
      bs.map (·.location.first) = (Text.lines text.toList).findIdxs s.isOpening 1 ∧
      bs.map (·.location.last) = (Text.lines text.toList).findIdxs s.isClosing 1 ∧
      bs.length = (Text.lines text.toList).countP s.isOpening ∧
      bs.length = (Text.lines text.toList).countP s.isClosing := by
  constructor
  · constructor
    · rintro ⟨bs, h⟩
      obtain ⟨ps, hs⟩ := ahead_of_scanFrom h
      exact ⟨ps, hs, ((scanFrom_eq_ok_iff hs 1).mp h).readable⟩
    · rintro ⟨ps, hs, hr⟩
      obtain ⟨_, _, hps, _⟩ := id hs
      obtain ⟨bs, hd⟩ := exists_documents hps hr 1
      exact ⟨bs, (scanFrom_eq_ok_iff hs 1).mpr hd⟩
  · intro ps bs hs h
    obtain ⟨hd, hfirst, hlast⟩ := documents_of_scan hs h
    refine ⟨hd, hfirst, hlast, ?_, ?_⟩
    · rw [← List.length_findIdxs (s := 1), ← hfirst, List.length_map]
    · rw [← List.length_findIdxs (s := 1), ← hlast, List.length_map]

/-- A passage with nothing in it but an empty object, and these lines before its definition. -/
def bare (gap : List Line) : Passage where
  before := []
  opening := "// BEGIN_REST_API_DOCUMENTATION".toList
  body := ["// {}".toList]
  closing := "// END_REST_API_DOCUMENTATION".toList
  gap
  definition := "void A::b() {}".toList

/-- A text with these lines. -/
def fileText (lines : List Line) : String := String.ofList (lines.flatMap (· ++ ['\n']))

theorem linesFrom_line (line : Line) (hn : '\n' ∉ line) (acc rest : List Char) :
    Text.linesFrom acc (line ++ '\n' :: rest) =
      Text.endLine (line.reverse ++ acc) :: Text.linesFrom [] rest := by
  induction line generalizing acc with
  | nil => simp [Text.linesFrom]
  | cons c line ih =>
    simp only [List.mem_cons, not_or] at hn
    have hc : c ≠ '\n' := fun h => hn.1 h.symm
    rw [List.cons_append, Text.linesFrom, if_neg hc, ih hn.2]
    simp

theorem endLine_reverse (hr : line.getLast? ≠ some '\r') : Text.endLine line.reverse = line := by
  cases h : line.reverse with
  | nil => simpa [Text.endLine] using h.symm
  | cons c cs =>
    have hc : c ≠ '\r' := by
      rintro rfl
      rw [List.getLast?_eq_head?_reverse, h] at hr
      exact hr rfl
    rw [Text.endLine.eq_2 _ (by simpa using hc), ← h, List.reverse_reverse]

theorem lines_fileText_eq_map {lines : List Line} (h : ∀ line ∈ lines, '\n' ∉ line) :
    Text.lines (fileText lines).toList = lines.map fun line => Text.endLine line.reverse := by
  simp only [fileText, String.toList_ofList, Text.lines]
  induction lines with
  | nil => rfl
  | cons line lines ih =>
    obtain ⟨hn, h⟩ := List.forall_mem_cons.mp h
    rw [List.flatMap_cons, List.append_assoc, List.singleton_append, linesFrom_line line hn,
      List.append_nil, ih h, List.map_cons]

theorem lines_fileText {lines : List Line}
    (h : ∀ line ∈ lines, '\n' ∉ line ∧ line.getLast? ≠ some '\r') :
    Text.lines (fileText lines).toList = lines := by
  rw [lines_fileText_eq_map fun line hl => (h line hl).1]
  calc lines.map (fun line => Text.endLine line.reverse) = lines.map id :=
        List.map_congr_left fun line hl => endLine_reverse (h line hl).2
    _ = lines := List.map_id lines

/-- A text that is one readable passage has one block. -/
theorem exists_scan_passage {s : Scanner} {p : Passage}
    (hlines : ∀ line ∈ p.lines, '\n' ∉ line ∧ line.getLast? ≠ some '\r')
    (hfits : p.Fits s s.isGap) (hread : p.Readable s) :
    ∃ b, s.scan (fileText p.lines) = .ok [b] ∧ p.Describes s 1 b := by
  have hs : Split s s.isGap (Text.lines (fileText p.lines).toList) [p] :=
    ⟨[], by rw [lines_fileText hlines]; simp, List.forall_mem_singleton.mpr hfits, by simp⟩
  obtain ⟨bs, hd⟩ := exists_documents (List.forall_mem_singleton.mpr hfits)
    (List.forall_mem_singleton.mpr hread) 1
  have h := (scanFrom_eq_ok_iff hs 1).mpr hd
  cases hd with
  | cons head tail =>
    cases tail
    exact ⟨_, h, head⟩

theorem leaders_default : (Scanner.mk "a.cpp" {}).leaders =
    [['/', '/', '/'], ['/', '/'], ['/', '*'], ['*'], ['#']] := by cbv

theorem bare_fits {gap : List Line} {f : Line → Bool} (h : ∀ line ∈ gap, f line = true) :
    (bare gap).Fits ⟨"a.cpp", {}⟩ f where
  before := by simp [bare]
  opening := by simp only [bare]; decide
  body := by simp only [bare]; decide
  closing := by simp only [bare]; decide
  gap := h
  definition := by
    simp only [Scanner.isDefinition, leaders_default, bare]
    decide +kernel

theorem bare_readable (gap : List Line) : (bare gap).Readable ⟨"a.cpp", {}⟩ := by
  have hc : (bare gap).contents ⟨"a.cpp", {}⟩ = [' ', '\x7b', '\x7d', '\n'] := by
    simp only [Passage.contents, leaders_default, bare]
    decide
  exact ⟨.object [], ⟨none, none, none, envelope⟩, by rw [hc]; cbv, rfl⟩

/-- Two blocks, one of them with a blank line between it and its definition. -/
theorem scan_bare_passages :
    ∃ bs, (Scanner.mk "a.cpp" {}).scan (fileText ([bare [[]], bare []].flatMap Passage.lines)) = .ok bs ∧
      bs.map (·.location.first) = [1, 6] ∧ bs.map (·.location.last) = [3, 8] := by
  have hlines : Text.lines (fileText ([bare [[]], bare []].flatMap Passage.lines)).toList =
      [bare [[]], bare []].flatMap Passage.lines := lines_fileText (by decide)
  have hgap : ∀ line ∈ [([] : Line)], (Scanner.mk "a.cpp" {}).isGap line = true := by
    simp only [Scanner.isGap, leaders_default]
    decide
  have hs : Split ⟨"a.cpp", {}⟩ (Scanner.mk "a.cpp" {}).isGap
      ([bare [[]], bare []].flatMap Passage.lines) [bare [[]], bare []] := by
    refine ⟨[], by rw [List.append_nil], ?_, by simp⟩
    exact List.forall_mem_cons.mpr ⟨bare_fits hgap, List.forall_mem_singleton.mpr (bare_fits (by simp))⟩
  obtain ⟨haccepts, hblocks⟩ := scan_accepts_passages ⟨"a.cpp", {}⟩
    (fileText ([bare [[]], bare []].flatMap Passage.lines))
  rw [hlines] at haccepts hblocks
  obtain ⟨bs, h⟩ := haccepts.mpr ⟨_, hs, List.forall_mem_cons.mpr
    ⟨bare_readable _, List.forall_mem_singleton.mpr (bare_readable _)⟩⟩
  obtain ⟨-, hfirst, hlast, -⟩ := hblocks _ bs hs h
  refine ⟨bs, h, ?_, ?_⟩
  · rw [hfirst]
    decide
  · rw [hlast]
    decide

/-- A marker counts on a comment line too, so a comment line with one may not stand between a block and
its definition, though it is a comment. -/
theorem scan_refuses_marker_in_gap :
    ¬ ∀ (s : Scanner) (text : String), (∃ bs, s.scan text = .ok bs) ↔
      ∃ ps, Split s (Markers.isComment s.leaders) (Text.lines text.toList) ps ∧
        ∀ p ∈ ps, p.Readable s := by
  have hlines : Text.lines
      (fileText (bare ["// BEGIN_REST_API_DOCUMENTATION".toList]).lines).toList =
      (bare ["// BEGIN_REST_API_DOCUMENTATION".toList]).lines := lines_fileText (by decide)
  have hgap : ∀ line ∈ ["// BEGIN_REST_API_DOCUMENTATION".toList],
      Markers.isComment (Scanner.mk "a.cpp" {}).leaders line = true := by
    rw [leaders_default]
    decide
  intro h
  have h := h ⟨"a.cpp", {}⟩ (fileText (bare ["// BEGIN_REST_API_DOCUMENTATION".toList]).lines)
  obtain ⟨bs, hbs⟩ := h.mpr ⟨[bare ["// BEGIN_REST_API_DOCUMENTATION".toList]],
    ⟨[], by rw [hlines, List.flatMap_singleton, List.append_nil],
      List.forall_mem_singleton.mpr (bare_fits hgap), by simp⟩,
    List.forall_mem_singleton.mpr (bare_readable _)⟩
  obtain ⟨ps, hs⟩ := ahead_of_scanFrom hbs
  obtain ⟨-, hfirst, hlast⟩ := documents_of_scan hs hbs
  -- Two lines open a block and one closes one, so no list of blocks names them all.
  have hfirst := congrArg List.length hfirst
  have hlast := congrArg List.length hlast
  rw [List.length_map, hlines] at hfirst hlast
  rw [hfirst] at hlast
  revert hlast
  decide

end RestRoutes
