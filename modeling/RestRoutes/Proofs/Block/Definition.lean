import Mathlib.Data.List.TakeWhile
import Mathlib.Tactic.Push
import RestRoutes.Proofs.Block.Composition
import RestRoutes.Proofs.Block.Language
import RestRoutes.Proofs.Text.Blank
import RestRoutes.Proofs.Text.Division

namespace RestRoutes

/-- A name as a definition has it. -/
def IsIdentifier (name : List Char) : Prop :=
  ∃ c s, name = c :: s ∧ Text.isIdentifierStart c = true ∧ ∀ d ∈ s, Text.isWord d = true

namespace Text

theorem Ranges.exists_of_has {rs : Ranges} {n : Nat} (h : rs.has n = true) :
    ∃ r ∈ rs, r.1 ≤ n ∧ n ≤ r.2 := by
  induction rs with
  | nil => cases h
  | cons r rs ih =>
    obtain ⟨lo, hi⟩ := r
    rw [Ranges.has] at h
    split at h
    · cases h
    · rcases Bool.or_eq_true_iff.mp h with hhi | hrest
      · exact ⟨_, List.mem_cons_self, by omega, of_decide_eq_true hhi⟩
      · obtain ⟨r, hr, hn⟩ := ih hrest
        exact ⟨r, List.mem_cons_of_mem _ hr, hn⟩

/-- White space is no part of a word. -/
theorem isWord_of_isBlank {c : Char} (h : isBlank c = true) : isWord c = false := by
  have hall : ∀ r ∈ blankRanges, ∀ n ∈ List.range' r.1 (r.2 + 1 - r.1), wordRanges.has n = false := by
    decide +kernel
  obtain ⟨r, hr, hlo, hhi⟩ := Ranges.exists_of_has h
  exact hall r hr c.toNat (List.mem_range'_1.mpr ⟨hlo, by omega⟩)

end Text

namespace Definition

variable {s name rest type method : List Char} {scopes : List (List Char)} {d d' : Definition}

theorem identifier?_append {name rest : List Char} (h : IsIdentifier name)
    (hrest : ∀ c ∈ rest.head?, Text.isWord c = false) :
    identifier? (name ++ rest) = some (name, rest) := by
  obtain ⟨c, s, rfl, hc, hs⟩ := h
  have htake := Text.takeWhile_append_of_head hs hrest
  have hdrop : (s ++ rest).dropWhile Text.isWord = rest := by
    have := List.takeWhile_append_dropWhile (p := Text.isWord) (l := s ++ rest)
    rw [htake] at this
    exact List.append_cancel_left this
  simp only [List.cons_append, identifier?, hc, if_true, htake, hdrop]

theorem of_identifier? (h : identifier? s = some (name, rest)) : s = name ++ rest ∧ IsIdentifier name := by
  cases s with
  | nil => cases h
  | cons c s =>
    rw [identifier?] at h
    split at h
    · rename_i hc
      cases h
      exact ⟨by rw [List.cons_append, List.takeWhile_append_dropWhile], c, _, rfl, hc,
        fun d hd => List.mem_takeWhile_imp hd⟩
    · cases h

theorem head_ne_tilde {name : List Char} (h : IsIdentifier name) (rest : List Char) :
    ∀ s, name ++ rest ≠ '~' :: s := by
  obtain ⟨c, s, rfl, hc, -⟩ := h
  intro t ht
  obtain ⟨rfl, -⟩ := List.cons.inj ht
  exact absurd hc (by decide)

theorem opens_iff : opens s = true ↔
    ∃ blank rest, Text.allBlank blank = true ∧ s = blank ++ '(' :: rest := by
  rw [opens, decide_eq_true_eq, List.head?_eq_some_iff]
  constructor
  · rintro ⟨rest, hrest⟩
    obtain ⟨blank, hblank, hs⟩ := Text.exists_blank_append_trimStart s
    exact ⟨blank, rest, hblank, hrest ▸ hs⟩
  · rintro ⟨blank, rest, hblank, rfl⟩
    rw [Text.allBlank, List.all_eq_true] at hblank
    refine ⟨rest, ?_⟩
    rw [Text.trimStart, List.dropWhile_append_of_pos hblank, List.dropWhile_cons_of_neg (by decide)]

/-- Where a bracket opens, a name has ended and none is joined to it. -/
theorem head?_of_opens (h : opens s = true) :
    (∀ c ∈ s.head?, Text.isWord c = false) ∧ ∀ more, s ≠ ':' :: ':' :: more := by
  obtain ⟨blank, rest, hblank, rfl⟩ := opens_iff.mp h
  cases blank with
  | nil =>
    refine ⟨fun c hc => ?_, nofun⟩
    cases hc
    decide
  | cons c blank =>
    rw [Text.allBlank, List.all_cons, Bool.and_eq_true] at hblank
    refine ⟨fun d hd => ?_, fun more hmore => ?_⟩
    · cases hd
      exact Text.isWord_of_isBlank hblank.1
    · obtain ⟨rfl, -⟩ := List.cons.inj hmore
      exact absurd hblank.1 (by decide)

/-- What a method may be called: a destructor has a tilde before its name. -/
def IsMethodName (name : List Char) : Prop :=
  IsIdentifier name ∨ ∃ id, name = '~' :: id ∧ IsIdentifier id

/-- A text begins with a definition, scopes before its type and a bracket behind its method. -/
structure Begins (scopes : List (List Char)) (d : Definition) (s : List Char) : Prop where
  outer : ∀ scope ∈ scopes, IsIdentifier scope
  typed : IsIdentifier d.type
  named : IsMethodName d.method
  text : ∃ blank rest, Text.allBlank blank = true ∧
    s = scopes.flatMap (· ++ [':', ':']) ++ d.qualifiedName ++ blank ++ '(' :: rest

theorem Begins.cons {scope : List Char} (hscope : IsIdentifier scope) (h : Begins scopes d s) :
    Begins (scope :: scopes) d (scope ++ ':' :: ':' :: s) := by
  obtain ⟨blank, rest, hblank, rfl⟩ := h.text
  exact ⟨List.forall_mem_cons.mpr ⟨hscope, h.outer⟩, h.typed, h.named, blank, rest, hblank, by simp⟩

theorem begins_of_opens (htype : IsIdentifier type) (hmethod : IsMethodName method)
    (hrest : opens rest = true) : Begins [] ⟨type, method⟩ (type ++ ':' :: ':' :: (method ++ rest)) := by
  obtain ⟨blank, rest, hblank, rfl⟩ := opens_iff.mp hrest
  exact ⟨nofun, htype, hmethod, blank, rest, hblank, by simp [qualifiedName]⟩

theorem begins_of_here? (h : here? s = some d) : ∃ scopes, Begins scopes d s := by
  fun_induction here? s with
  | case1 s type rest hs name after hrest hopens =>
    cases h
    obtain ⟨rfl, htype⟩ := of_identifier? hs
    obtain ⟨rfl, hname⟩ := of_identifier? hrest
    exact ⟨[], begins_of_opens htype (.inr ⟨name, rfl, hname⟩) hopens⟩
  | case2 => cases h
  | case3 => cases h
  | case4 s scope rest _ hs _ _ _ ih =>
    obtain ⟨rfl, hscope⟩ := of_identifier? hs
    obtain ⟨scopes, hbegins⟩ := ih h
    exact ⟨scope :: scopes, hbegins.cons hscope⟩
  | case5 s type rest _ hs name after _ hrest hopens =>
    cases h
    obtain ⟨rfl, htype⟩ := of_identifier? hs
    obtain ⟨rfl, hname⟩ := of_identifier? hrest
    exact ⟨[], begins_of_opens htype (.inl hname) hopens⟩
  | case6 => cases h
  | case7 => cases h
  | case8 => cases h

theorem Begins.tail {scope : List Char} (h : Begins (scope :: scopes) d s) :
    IsIdentifier scope ∧ ∃ t, s = scope ++ ':' :: ':' :: t ∧ Begins scopes d t := by
  obtain ⟨blank, rest, hblank, rfl⟩ := h.text
  obtain ⟨hscope, houter⟩ := List.forall_mem_cons.mp h.outer
  exact ⟨hscope, scopes.flatMap (· ++ [':', ':']) ++ d.qualifiedName ++ blank ++ '(' :: rest, by simp,
    houter, h.typed, h.named, blank, rest, hblank, rfl⟩

/-- The first name is joined to another one. -/
theorem Begins.identifier? (h : Begins scopes d s) :
    ∃ name more, identifier? s = some (name, ':' :: ':' :: more) := by
  have hcolon : Text.isWord ':' = false := by decide
  cases scopes with
  | nil =>
    obtain ⟨blank, rest, -, rfl⟩ := h.text
    have hs : [].flatMap (· ++ [':', ':']) ++ d.qualifiedName ++ blank ++ '(' :: rest =
        d.type ++ ':' :: ':' :: (d.method ++ blank ++ '(' :: rest) := by simp [qualifiedName]
    exact ⟨d.type, _, hs ▸ identifier?_append h.typed (by simp [hcolon])⟩
  | cons scope scopes =>
    obtain ⟨hscope, t, rfl, -⟩ := h.tail
    exact ⟨scope, t, identifier?_append hscope (by simp [hcolon])⟩

/-- A name is joined to another one, which is read next: there are more scopes, or it is the method. -/
theorem here?_of_name (h : identifier? s = some (type, ':' :: ':' :: rest))
    (hrest : ∀ more, rest ≠ '~' :: more) : here? s =
      match identifier? rest with
      | some (_, ':' :: ':' :: _) => here? rest
      | some (name, after) => if opens after then some ⟨type, name⟩ else none
      | none => none := by
  rw [here?]
  split
  · rename_i h'
    cases h.symm.trans h'
    exact absurd rfl (hrest _)
  · rename_i h'
    cases h.symm.trans h'
    rfl
  · rename_i h'
    exact absurd h (h' _ _)

theorem here?_of_tilde {after : List Char} (h : identifier? s = some (type, ':' :: ':' :: '~' :: rest))
    (hrest : identifier? rest = some (name, after)) (hopens : opens after = true) :
    here? s = some ⟨type, '~' :: name⟩ := by
  rw [here?]
  split
  · rename_i h'
    cases h.symm.trans h'
    rw [hrest]
    exact if_pos hopens
  · rename_i htilde h'
    cases h.symm.trans h'
    exact absurd rfl (htilde _)
  · rename_i h'
    exact absurd h (h' _ _)

theorem here?_of_method (htype : IsIdentifier type) (hmethod : IsMethodName method)
    (hrest : opens rest = true) :
    here? (type ++ ':' :: ':' :: (method ++ rest)) = some ⟨type, method⟩ := by
  have hcolon : Text.isWord ':' = false := by decide
  -- The type ends at the colons and the method where the bracket opens: neither goes on as a name.
  have hfirst : identifier? (type ++ ':' :: ':' :: (method ++ rest)) =
      some (type, ':' :: ':' :: (method ++ rest)) := identifier?_append htype (by simp [hcolon])
  obtain ⟨hend, hjoined⟩ := head?_of_opens hrest
  rcases hmethod with hname | ⟨id, rfl, hname⟩
  · rw [here?_of_name hfirst (head_ne_tilde hname rest), identifier?_append hname hend]
    split
    · rename_i h
      cases h
      exact absurd rfl (hjoined _)
    · rename_i h
      cases h
      exact if_pos hrest
    · rename_i h
      cases h
  · exact here?_of_tilde hfirst (identifier?_append hname hend) hrest

theorem here?_of_begins (h : Begins scopes d s) : here? s = some d := by
  induction scopes generalizing s with
  | nil =>
    obtain ⟨blank, rest, hblank, rfl⟩ := h.text
    have hopens : opens (blank ++ '(' :: rest) = true := opens_iff.mpr ⟨blank, rest, hblank, rfl⟩
    simpa [qualifiedName] using here?_of_method h.typed h.named hopens
  | cons scope scopes ih =>
    have hcolon : Text.isWord ':' = false := by decide
    obtain ⟨hscope, t, rfl, ht⟩ := h.tail
    obtain ⟨name, more, hname⟩ := ht.identifier?
    obtain ⟨rfl, hname'⟩ := of_identifier? hname
    rw [here?_of_name (identifier?_append hscope (by simp [hcolon])) (head_ne_tilde hname' _), hname]
    exact ih ht

/-- At one place no two definitions are read, however many scopes each would have. -/
theorem here?_eq_some_iff : here? s = some d ↔ ∃ scopes, Begins scopes d s :=
  ⟨begins_of_here?, fun ⟨_, h⟩ => here?_of_begins h⟩

/-- Behind `before` the line goes on with a definition, and not in the middle of a word. -/
structure StandsBehind (before : List Char) (d : Definition) (line : Line) : Prop where
  edge : ∀ c ∈ before.getLast?, Text.isWord c = false
  reads : ∃ scopes after, line = before ++ after ∧ Begins scopes d after

/-- No definition stands further to the left. -/
def Leftmost (before : List Char) (d : Definition) (line : Line) : Prop :=
  StandsBehind before d line ∧
    ∀ earlier d', earlier.length < before.length → ¬ StandsBehind earlier d' line

variable {before : List Char} {line : Line}

theorem standsBehind_append_iff : StandsBehind before d (before ++ s) ↔
    (if before.getLast?.any Text.isWord then none else here? s) = some d := by
  have hedge : (∀ c ∈ before.getLast?, Text.isWord c = false) ↔
      ¬ before.getLast?.any Text.isWord = true := by
    cases before.getLast? <;> simp
  constructor
  · rintro ⟨h, scopes, after, hsplit, hbegins⟩
    obtain rfl := List.append_cancel_left hsplit
    rw [if_neg (hedge.mp h)]
    exact here?_eq_some_iff.mpr ⟨scopes, hbegins⟩
  · intro h
    split at h
    · cases h
    · rename_i hword
      obtain ⟨scopes, hbegins⟩ := here?_eq_some_iff.mp h
      exact ⟨hedge.mpr hword, scopes, s, rfl, hbegins⟩

theorem StandsBehind.exists_append (h : StandsBehind before d line) : ∃ s, s ≠ [] ∧ line = before ++ s := by
  obtain ⟨scopes, after, rfl, hbegins⟩ := h.reads
  obtain ⟨blank, rest, -, rfl⟩ := hbegins.text
  exact ⟨_, by simp, rfl⟩

theorem StandsBehind.head_eq {c e : Char} {passed more : List Char}
    (h : StandsBehind (passed ++ e :: more) d (passed ++ c :: s)) : e = c := by
  obtain ⟨t, -, hsplit⟩ := h.exists_append
  rw [List.append_assoc] at hsplit
  exact (List.cons.inj (List.append_cancel_left hsplit)).1.symm

/-- The search goes on from the left, and what is behind it has been found to begin no definition. -/
theorem findFrom?_eq_some_iff (passed s : List Char) :
    findFrom? (passed.getLast?.any Text.isWord) s = some d ↔
      ∃ more, StandsBehind (passed ++ more) d (passed ++ s) ∧ ∀ earlier d',
        earlier.length < more.length → ¬ StandsBehind (passed ++ earlier) d' (passed ++ s) := by
  induction s generalizing passed with
  | nil =>
    rw [findFrom?]
    refine iff_of_false nofun ?_
    rintro ⟨more, hstands, -⟩
    obtain ⟨s, hs, hsplit⟩ := hstands.exists_append
    simp [hs] at hsplit
  | cons c s ih =>
    have hhere (d' : Definition) : StandsBehind passed d' (passed ++ c :: s) ↔
        (if passed.getLast?.any Text.isWord then none else here? (c :: s)) = some d' :=
      standsBehind_append_iff
    rw [findFrom?]
    split
    · rename_i found hfound
      have hfirst := (hhere found).mpr hfound
      constructor
      · rintro ⟨⟩
        exact ⟨[], by rwa [List.append_nil], nofun⟩
      · rintro ⟨more, hstands, hleft⟩
        cases more with
        | nil =>
          rw [List.append_nil, hhere] at hstands
          exact hfound.symm.trans hstands
        | cons e more => exact absurd (by rwa [List.append_nil]) (hleft [] found (by simp))
    · rename_i hfound
      have hnone (d' : Definition) : ¬ StandsBehind passed d' (passed ++ c :: s) := by
        rw [hhere, hfound]
        nofun
      have hword : Text.isWord c = ((passed ++ [c]).getLast?.any Text.isWord) := by simp
      rw [hword, ih]
      simp only [List.append_assoc, List.singleton_append]
      constructor
      · rintro ⟨more, hstands, hleft⟩
        refine ⟨c :: more, hstands, fun earlier d' hlength hearlier => ?_⟩
        cases earlier with
        | nil => exact hnone d' (by rwa [List.append_nil] at hearlier)
        | cons e earlier =>
          obtain rfl := hearlier.head_eq
          exact hleft earlier d' (by simpa using hlength) hearlier
      · rintro ⟨more, hstands, hleft⟩
        cases more with
        | nil => exact absurd (by rwa [List.append_nil] at hstands) (hnone d)
        | cons e more =>
          obtain rfl := hstands.head_eq
          exact ⟨more, hstands, fun earlier d' hlength =>
            hleft (e :: earlier) d' (by simpa using hlength)⟩

/-- The line is searched for the leftmost place. -/
theorem find?_eq_some_iff : find? line = some d ↔ ∃ before, Leftmost before d line :=
  findFrom?_eq_some_iff [] line

theorem Leftmost.unique {other : List Char} (h : Leftmost before d line) (h' : Leftmost other d' line) :
    other = before ∧ d' = d := by
  have hlength : other.length = before.length :=
    Nat.le_antisymm (Nat.le_of_not_lt fun hlt => h'.2 _ _ hlt h.1) (Nat.le_of_not_lt fun hlt => h.2 _ _ hlt h'.1)
  obtain ⟨s, -, rfl⟩ := h.1.exists_append
  obtain ⟨t, -, ht⟩ := h'.1.exists_append
  refine ⟨(List.append_inj ht.symm hlength).1, Option.some.inj ?_⟩
  exact (find?_eq_some_iff.mpr ⟨_, h'⟩).symm.trans (find?_eq_some_iff.mpr ⟨_, h⟩)

theorem find?_isSome_iff : (find? line).isSome = true ↔ ∃ before d, StandsBehind before d line := by
  constructor
  · intro h
    obtain ⟨d, hd⟩ := Option.isSome_iff_exists.mp h
    obtain ⟨before, hleft⟩ := find?_eq_some_iff.mp hd
    exact ⟨before, d, hleft.1⟩
  · rintro ⟨before, d, h⟩
    -- Of all places where a definition stands, that with the least before it is the leftmost.
    induction hn : before.length using Nat.strongRecOn generalizing before d with
    | ind n ih =>
      by_cases hleft : ∀ earlier d', earlier.length < before.length → ¬ StandsBehind earlier d' line
      · rw [find?_eq_some_iff.mpr ⟨before, h, hleft⟩]
        rfl
      · push Not at hleft
        obtain ⟨earlier, d', hlength, hearlier⟩ := hleft
        exact ih _ (hn ▸ hlength) earlier d' hearlier rfl

end Definition

open Definition

variable {s : Scanner} {text : String} {before after : List Line} {line : Line} {b : ClosedBlock}
  {bs : List Block}

theorem Scanner.feed_cons {state state' : ScanState} {n : Nat} {found : Option Block}
    (h : s.step state n line = .ok (state', found)) (rest : List Line) :
    s.feed state n (line :: rest) =
      (fun r => (r.1, found.toList ++ r.2)) <$> s.feed state' (n + 1) rest := by
  simp only [feed, h]
  rfl

theorem scan_of_reached (hlines : Text.lines text.toList = before ++ line :: after)
    (hreached : s.feed .outside 1 before = .ok (.closed b, bs)) :
    s.scan text = (bs ++ ·) <$> s.scanFrom (.closed b) (before.length + 1) (line :: after) := by
  rw [Scanner.scan, hlines, Scanner.scanFrom_append, hreached, Nat.add_comm]
  rfl

theorem step_closed_eq (hplain : s.isPlain line = true) (hcode : Markers.isComment s.leaders line = false)
    (n : Nat) : s.step (.closed b) n line =
      match Definition.find? line with
      | some d => .ok (.outside, some (s.complete b d))
      | none => .error (.placement s.file n (.noDefinition b.last (Text.trim line))) := by
  obtain ⟨ho, hc⟩ := Scanner.isPlain_iff.mp hplain
  cases hfound : Definition.find? line with
  | none => simp only [Scanner.step, ho, hc, hcode, hfound, Bool.or_self, Bool.false_eq_true, if_false]
  | some d => simp only [Scanner.step, ho, hc, hcode, hfound, Bool.or_self, Bool.false_eq_true, if_false]

/-- The block is called what stands on the line behind `start` and some scopes, which are left out. -/
def NamedOn (line : Line) (start : List Char) (c : Block) : Prop :=
  ∃ (scopes : List (List Char)) (blank rest : List Char), (∀ scope ∈ scopes, IsIdentifier scope) ∧
    Text.allBlank blank = true ∧
    line = start ++ scopes.flatMap (· ++ [':', ':']) ++ c.qualifiedName.toList ++ blank ++ '(' :: rest

theorem Definition.StandsBehind.namedOn {start : List Char} {d : Definition} (h : StandsBehind start d line)
    (s : Scanner) (b : ClosedBlock) : NamedOn line start (s.complete b d) := by
  obtain ⟨scopes, after, rfl, hbegins⟩ := h.reads
  obtain ⟨blank, rest, hblank, rfl⟩ := hbegins.text
  exact ⟨scopes, blank, rest, hbegins.outer, hblank, by simp [Scanner.complete]⟩

/-- A line of code behind a block binds it exactly when a definition stands on it, and then to the leftmost
one, which there is one of; otherwise the line is reported. -/
theorem scan_binds_leftmost (hlines : Text.lines text.toList = before ++ line :: after)
    (hreached : s.feed .outside 1 before = .ok (.closed b, bs)) (hplain : s.isPlain line = true)
    (hcode : Markers.isComment s.leaders line = false) :
    ((∃ c, s.step (.closed b) (before.length + 1) line = .ok (.outside, some c)) ↔
      ∃ start d, StandsBehind start d line) ∧
    ((∃ start d, StandsBehind start d line) → ∃ start d, Leftmost start d line ∧
      ∀ other d', Leftmost other d' line → other = start ∧ d' = d) ∧
    (∀ start d, Leftmost start d line →
      s.scan text = (bs ++ s.complete b d :: ·) <$> s.scanFrom .outside (before.length + 2) after ∧
      (s.complete b d).qualifiedName.toList = d.type ++ ':' :: ':' :: d.method ∧
      (s.complete b d).method.toList = d.method ∧ NamedOn line start (s.complete b d)) ∧
    ((¬ ∃ start d, StandsBehind start d line) → s.scan text =
      .error (.placement s.file (before.length + 1) (.noDefinition b.last (Text.trim line)))) := by
  have hstep := step_closed_eq (b := b) hplain hcode (before.length + 1)
  refine ⟨?_, fun h => ?_, fun start d hleft => ⟨?_, by simp [Scanner.complete, qualifiedName],
    by simp [Scanner.complete], hleft.1.namedOn s b⟩, fun h => ?_⟩
  · rw [← find?_isSome_iff, hstep]
    cases Definition.find? line with
    | none => simp
    | some d => simp
  · obtain ⟨d, hd⟩ := Option.isSome_iff_exists.mp (find?_isSome_iff.mpr h)
    obtain ⟨start, hleft⟩ := find?_eq_some_iff.mp hd
    exact ⟨start, d, hleft, fun other d' => hleft.unique⟩
  · have hfound := find?_eq_some_iff.mpr ⟨start, hleft⟩
    rw [hfound] at hstep
    rw [scan_of_reached hlines hreached, Scanner.scanFrom_cons (Scanner.takes_of_step hstep)]
    cases s.scanFrom .outside (before.length + 2) after with
    | error e => rfl
    | ok more => rfl
  · rw [← find?_isSome_iff, Option.not_isSome_iff_eq_none] at h
    rw [h] at hstep
    rw [scan_of_reached hlines hreached]
    simp only [Scanner.scanFrom, hstep]
    rfl

def boxed : Scanner := ⟨"a.h", ⟨"[[", "]]", ["//"]⟩⟩

def emptyBlock : ClosedBlock := ⟨1, 3, ⟨none, none, none, envelope⟩, .object []⟩

/-- A template argument, a name that begins inside a word, a destructor in two scopes and a call. -/
def crowded : Line := "x<Y::Z> 1a::b(ns::A::B::~C\t(D::e()))".toList

/-- A template argument, and a name that begins inside a word. -/
def emptied : Line := "x<Y::Z> f(1a::b())".toList

def boxedLines : List Line := ["[[".toList, "\x7b\x7d".toList, "]]".toList, "// f::g(".toList]

theorem leaders_boxed : boxed.leaders = [['/', '/']] := by cbv

open Scanner in
theorem reached_boxed : boxed.feed .outside 1 boxedLines = .ok (.closed emptyBlock, []) := by
  have hread : boxed.close 1 3 ["\x7b\x7d".toList] = .ok emptyBlock := by cbv
  have hbody : boxed.step (.inside 1 []) 2 "\x7b\x7d".toList = .ok (.inside 1 ["\x7b\x7d".toList], none) := by
    rw [(Takes.body (by decide)).step, leaders_boxed]
    rfl
  have hgap : boxed.isGap "// f::g(".toList = true := by
    rw [isGap, leaders_boxed]
    decide
  rw [boxedLines, feed_cons (Takes.opening (by decide)).step, feed_cons hbody,
    feed_cons (Takes.closing (by decide) hread).step, feed_cons (Takes.gap hgap).step]
  rfl

set_option maxRecDepth 8000 in
theorem find?_crowded : Definition.find? crowded = some ⟨['B'], ['~', 'C']⟩ := by
  cbv

set_option maxRecDepth 8000 in
theorem find?_emptied : Definition.find? emptied = none := by
  cbv

/-- Behind the same block the one line binds it and the other is reported. -/
theorem scan_binds_leftmost_crowded :
    (∃ start c, boxed.scan (fileText (boxedLines ++ [crowded])) = .ok [c] ∧
      c.qualifiedName.toList = "B::~C".toList ∧ NamedOn crowded start c) ∧
    boxed.scan (fileText (boxedLines ++ [emptied])) =
      .error (.placement "a.h" 5 (.noDefinition 3 emptied)) := by
  have hlines (line : Line) (h : '\n' ∉ line ∧ line.getLast? ≠ some '\r') :
      Text.lines (fileText (boxedLines ++ [line])).toList = boxedLines ++ line :: [] :=
    lines_fileText (List.forall_mem_append.mpr ⟨by decide, List.forall_mem_singleton.mpr h⟩)
  have hcode (line : Line) (h : Markers.isComment [['/', '/']] line = false) :
      Markers.isComment boxed.leaders line = false := leaders_boxed ▸ h
  obtain ⟨-, -, hbound, -⟩ := scan_binds_leftmost (hlines crowded (by decide)) reached_boxed
    (by decide) (hcode crowded (by decide))
  obtain ⟨-, -, -, hnone⟩ := scan_binds_leftmost (hlines emptied (by decide)) reached_boxed
    (by decide) (hcode emptied (by decide))
  obtain ⟨start, hleft⟩ := Definition.find?_eq_some_iff.mp find?_crowded
  obtain ⟨hscan, hname, -, hnamed⟩ := hbound start _ hleft
  refine ⟨⟨start, _, hscan, hname, hnamed⟩, hnone ?_⟩
  rw [← Definition.find?_isSome_iff, find?_emptied]
  nofun

end RestRoutes
