import Mathlib.Data.List.Forall2
import Mathlib.Data.Nat.Basic
import Mathlib.Tactic.Tauto
import RestRoutes.Proofs.Block.Language
import RestRoutes.Proofs.Text.Utf8

namespace RestRoutes

/-- Two texts that begin a third one are as long in characters as in bytes, one beside the other. -/
theorem length_le_of_size_le {p q t : List Char} (hp : p <+: t) (hq : q <+: t)
    (h : Text.Utf8.size p ≤ Text.Utf8.size q) : p.length ≤ q.length := by
  rcases List.prefix_or_prefix_of_prefix hp hq with hshort | ⟨r, rfl⟩
  · exact hshort.length_le
  · cases r with
    | nil => simp
    | cons c r =>
      have hc := (Text.Utf8.encodeChar_length c).1
      rw [Text.Utf8.size_append, Text.Utf8.size] at h
      omega

/-- What is left of a line behind its white space and the longest leader that stands there, if one does. -/
inductive Freed (leaders : List String) (line : Line) : Line → Prop where
  | led (mem : leader ∈ leaders) (begins : Text.trimStart line = leader.toList ++ rest)
    (longest : ∀ other ∈ leaders, other.toList <+: Text.trimStart line →
      other.toList.length ≤ leader.toList.length) : Freed leaders line rest
  | bare (none : ∀ leader ∈ leaders, ¬ leader.toList <+: Text.trimStart line) :
    Freed leaders line (Text.trimStart line)

variable {m m' : Markers} {line rest : Line}

theorem Freed.unique {other : Line} (h : Freed leaders line rest) (h' : Freed leaders line other) :
    rest = other := by
  cases h with
  | led mem begins longest =>
    cases h' with
    | led mem' begins' longest' =>
      have hlength := Nat.le_antisymm (longest' _ mem ⟨_, begins.symm⟩) (longest _ mem' ⟨_, begins'.symm⟩)
      exact (List.append_inj (begins.symm.trans begins') hlength).2
    | bare none => exact absurd ⟨_, begins.symm⟩ (none _ mem)
  | bare none =>
    cases h' with
    | led mem' begins' _ => exact absurd ⟨_, begins'.symm⟩ (none _ mem')
    | bare => rfl

namespace Markers

theorem mem_leadersLongestFirst {leader : List Char} :
    leader ∈ m.leadersLongestFirst ↔ ∃ l ∈ m.leaders, l.toList = leader := by
  rw [leadersLongestFirst, List.mem_mergeSort, List.mem_map]

theorem sorted_leadersLongestFirst (m : Markers) :
    m.leadersLongestFirst.Pairwise fun a b => Text.Utf8.size b ≤ Text.Utf8.size a := by
  have hsorted : m.leadersLongestFirst.Pairwise fun a b =>
      decide (Text.Utf8.size b ≤ Text.Utf8.size a) = true :=
    List.pairwise_mergeSort (fun a b c => by simpa using fun hab hbc => le_trans hbc hab)
      (fun a b => by simpa using le_total _ _) _
  exact hsorted.imp of_decide_eq_true

/-- The first leader that fits is the longest: those behind it have no more bytes, and those before it do
not fit. -/
theorem freed_strip (m : Markers) (line : Line) : Freed m.leaders line (strip m.leadersLongestFirst line) := by
  rw [strip]
  cases hfind : m.leadersLongestFirst.findSome? (Text.after? · (Text.trimStart line)) with
  | none =>
    refine .bare fun leader hmem hbegins => ?_
    have hnone := List.findSome?_eq_none_iff.mp hfind _ (mem_leadersLongestFirst.mpr ⟨leader, hmem, rfl⟩)
    rw [← Text.startsWith_iff, Text.startsWith, hnone] at hbegins
    cases hbegins
  | some rest =>
    obtain ⟨before, first, after, hsplit, hrest, hbefore⟩ := List.findSome?_eq_some_iff.mp hfind
    have hbegins := Text.after?_eq_some_iff.mp hrest
    have hsorted := m.sorted_leadersLongestFirst
    rw [hsplit] at hsorted
    have hfirst : first ∈ m.leadersLongestFirst := hsplit ▸ List.mem_append_right before List.mem_cons_self
    obtain ⟨leader, hmem, rfl⟩ := mem_leadersLongestFirst.mp hfirst
    refine .led hmem hbegins fun other hother hprefix => ?_
    refine length_le_of_size_le hprefix ⟨rest, hbegins.symm⟩ ?_
    have hlisted : other.toList ∈ before ++ leader.toList :: after :=
      hsplit ▸ mem_leadersLongestFirst.mpr ⟨other, hother, rfl⟩
    rcases List.mem_append.mp hlisted with hearlier | hlater
    · have hnone := hbefore _ hearlier
      rw [← Text.startsWith_iff, Text.startsWith, hnone] at hprefix
      cases hprefix
    · rcases List.mem_cons.mp hlater with hsame | hlater
      · rw [hsame]
      · exact (List.pairwise_cons.mp (List.pairwise_append.mp hsorted).2.1).1 _ hlater

theorem freed_iff : Freed m.leaders line rest ↔ rest = strip m.leadersLongestFirst line := by
  constructor
  · intro h
    exact h.unique (m.freed_strip line)
  · rintro rfl
    exact m.freed_strip line

/-- The same markers and, in any order and with any repetitions, the same leaders. -/
structure SameLeaders (m m' : Markers) : Prop where
  opening : m'.opening = m.opening
  closing : m'.closing = m.closing
  leaders : ∀ leader, leader ∈ m'.leaders ↔ leader ∈ m.leaders

theorem SameLeaders.freed (h : SameLeaders m m') (hfreed : Freed m'.leaders line rest) :
    Freed m.leaders line rest := by
  cases hfreed with
  | led mem begins longest =>
    exact .led ((h.leaders _).mp mem) begins fun other hother => longest other ((h.leaders _).mpr hother)
  | bare none => exact .bare fun leader hleader => none leader ((h.leaders _).mpr hleader)

theorem SameLeaders.strip_eq (h : SameLeaders m m') (line : Line) :
    strip m'.leadersLongestFirst line = strip m.leadersLongestFirst line :=
  freed_iff.mp (h.freed (m'.freed_strip line))

theorem SameLeaders.isComment_eq (h : SameLeaders m m') (line : Line) :
    isComment m'.leadersLongestFirst line = isComment m.leadersLongestFirst line := by
  have hany : m'.leadersLongestFirst.any (Text.startsWith · (Text.trim line)) =
      m.leadersLongestFirst.any (Text.startsWith · (Text.trim line)) := by
    rw [Bool.eq_iff_iff, List.any_eq_true, List.any_eq_true]
    simp only [mem_leadersLongestFirst, h.leaders]
  rw [isComment, isComment, hany]

end Markers

namespace Scanner

variable {file : String}

theorem step_sameLeaders (h : m.SameLeaders m') (state : ScanState) (n : Nat) (line : Line) :
    (Scanner.mk file m').step state n line = (Scanner.mk file m).step state n line := by
  have hopening : (Scanner.mk file m').isOpening line = (Scanner.mk file m).isOpening line := by
    rw [isOpening, isOpening, h.opening]
  have hclosing : (Scanner.mk file m').isClosing line = (Scanner.mk file m).isClosing line := by
    rw [isClosing, isClosing, hopening, h.closing]
  have hstrip := h.strip_eq line
  have hcomment := h.isComment_eq line
  cases state with
  | outside => simp only [step, hopening, hclosing, h.opening, h.closing]
  | inside first body =>
    simp only [step, hopening, hclosing, h.opening, leaders, hstrip]
    rfl
  | closed b =>
    simp only [step, hopening, hclosing, leaders, hcomment]
    rfl

theorem scanFrom_sameLeaders (h : m.SameLeaders m') (state : ScanState) (n : Nat) (lines : List Line) :
    (Scanner.mk file m').scanFrom state n lines = (Scanner.mk file m).scanFrom state n lines := by
  induction lines generalizing state n with
  | nil =>
    cases state with
    | outside => rfl
    | inside first body => simp only [scanFrom, finish, h.opening, h.closing]
    | closed b => rfl
  | cons line lines ih => simp only [scanFrom, step_sameLeaders h, ih]

end Scanner

/-- The lines of a source that stand between the markers of a block. -/
def Encloses (b : Block) (lines body : List Line) : Prop :=
  ∃ (before : List Line) (opening closing : Line) (after : List Line),
    lines = before ++ opening :: (body ++ closing :: after) ∧
    b.location.first = before.length + 1 ∧ b.location.last = before.length + body.length + 2

theorem Passage.Describes.encloses {s : Scanner} {p : Passage} {b : Block} {before : List Line}
    (h : p.Describes s (1 + before.length) b) (after : List Line) :
    Encloses b (before ++ (p.lines ++ after)) p.body := by
  refine ⟨before ++ p.before, p.opening, p.closing, p.gap ++ p.definition :: after, ?_, ?_, ?_⟩
  · simp [Passage.lines]
  · rw [h.first, List.length_append]
    omega
  · rw [h.last, List.length_append]
    omega

theorem freed_lines (m : Markers) (body : List Line) :
    List.Forall₂ (Freed m.leaders) body (body.map (Markers.strip m.leadersLongestFirst)) :=
  List.forall₂_map_right_iff.mpr (List.forall₂_same.mpr fun line _ => m.freed_strip line)

/-- What is read of a block are its lines, each without the longest leader that stands at its start. Of any
line inside a block that much is kept and nothing else, so the leaders matter only as a set. -/
theorem scan_by_leaders (m : Markers) (file : String) :
    (∀ m', m.SameLeaders m' → ∀ text, (Scanner.mk file m').scan text = (Scanner.mk file m).scan text) ∧
    (∀ first body n line, (Scanner.mk file m).isPlain line = true → ∃ rest,
      (Scanner.mk file m).step (.inside first body) n line = .ok (.inside first (rest :: body), none) ∧
      ∀ other, Freed m.leaders line other ↔ other = rest) ∧
    ∀ text bs, (Scanner.mk file m).scan text = .ok bs → ∀ b ∈ bs, ∃ body freed,
      Encloses b (Text.lines text.toList) body ∧ List.Forall₂ (Freed m.leaders) body freed ∧
      Json.read (freed.flatMap (· ++ ['\n'])) = .ok b.raw := by
  refine ⟨fun m' h text => Scanner.scanFrom_sameLeaders h _ _ _, fun first body n line hplain => ?_,
    fun text bs hscan b hb => ?_⟩
  · exact ⟨_, (Scanner.Takes.body hplain).step, fun other => Markers.freed_iff⟩
  · obtain ⟨ps, hs⟩ := ahead_of_scanFrom hscan
    have hd := (documents_of_scan hs hscan).1
    obtain ⟨rest, hlines, -, -⟩ := hs
    obtain ⟨before, p, after, rfl, hp⟩ := hd.exists_passage hb
    refine ⟨p.body, _, ?_, freed_lines m p.body, hp.raw⟩
    have henclosed := hp.encloses (after.flatMap Passage.lines ++ rest)
    rwa [hlines, List.flatMap_append, List.flatMap_cons, List.append_assoc, List.append_assoc]

def slashes : Markers := ⟨"<", ">", ["/", "//", "///"]⟩

def slashesRepeated : Markers := ⟨"<", ">", ["//", "/", "///", "/"]⟩

/-- With any leader but the longest the block of this passage cannot be read. -/
def slashed : Passage where
  before := []
  opening := "<".toList
  body := [" ///\x7b\x7d".toList]
  closing := ">".toList
  gap := ["/ one".toList]
  definition := "A::b(".toList

theorem leaders_slashes : (Scanner.mk "a" slashes).leaders = [['/', '/', '/'], ['/', '/'], ['/']] := by cbv

theorem slashed_fits : slashed.Fits ⟨"a", slashes⟩ (Scanner.mk "a" slashes).isGap where
  before := by decide
  opening := by decide
  body := by decide
  closing := by decide
  gap := by
    simp only [Scanner.isGap, leaders_slashes, slashed]
    decide
  definition := by
    simp only [Scanner.isDefinition, leaders_slashes, slashed]
    decide +kernel

theorem slashed_readable : slashed.Readable ⟨"a", slashes⟩ := by
  have hc : slashed.contents ⟨"a", slashes⟩ = ['\x7b', '\x7d', '\n'] := by
    simp only [Passage.contents, leaders_slashes, slashed]
    decide
  exact ⟨.object [], ⟨none, none, none, envelope⟩, by rw [hc]; cbv, rfl⟩

theorem scan_by_leaders_slashes :
    (∃ b, (Scanner.mk "a" slashes).scan (fileText slashed.lines) = .ok [b] ∧
      (Scanner.mk "a" slashesRepeated).scan (fileText slashed.lines) = .ok [b] ∧
      ∃ body freed, Encloses b (Text.lines (fileText slashed.lines).toList) body ∧
        List.Forall₂ (Freed slashes.leaders) body freed ∧
        Json.read (freed.flatMap (· ++ ['\n'])) = .ok b.raw) ∧
    ∀ other, Freed slashes.leaders " ///// x".toList other ↔ other = "// x".toList := by
  have hsame : slashes.SameLeaders slashesRepeated := by
    refine ⟨rfl, rfl, fun leader => ?_⟩
    simp only [slashes, slashesRepeated, List.mem_cons, List.not_mem_nil, or_false]
    tauto
  have hplain : (Scanner.mk "a" slashes).isPlain " ///// x".toList = true := by decide
  have hkept : (Scanner.mk "a" slashes).step (.inside 1 []) 2 " ///// x".toList =
      .ok (.inside 1 ["// x".toList], none) := by
    rw [(Scanner.Takes.body hplain).step, leaders_slashes]
    rfl
  obtain ⟨hset, hstep, hblocks⟩ := scan_by_leaders slashes "a"
  obtain ⟨b, hscan, -⟩ := exists_scan_passage (by decide) slashed_fits slashed_readable
  obtain ⟨rest, hrest, hfreed⟩ := hstep 1 [] 2 _ hplain
  cases hkept.symm.trans hrest
  exact ⟨⟨b, hscan, (hset _ hsame _).trans hscan, hblocks _ _ hscan b List.mem_cons_self⟩, hfreed⟩

end RestRoutes
