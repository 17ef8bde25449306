import RestRoutes.Proofs.Route.Grammar

namespace RestRoutes

variable {s t text segment slashes : List Char} {path : String}

/-- A segment that is not empty, and behind it nothing but slashes. -/
structure LastSegment (text segment : List Char) : Prop where
  nonempty : segment ≠ []
  slashless : '/' ∉ segment
  placed : ∃ before slashes, text = before ++ (segment ++ slashes) ∧
    (∀ c ∈ before.getLast?, c = '/') ∧ ∀ c ∈ slashes, c = '/'

def lastSegment? (text : List Char) : Option (List Char) :=
  (text.splitOn '/').reverse.find? (!·.isEmpty)

/-- What a key has of a segment. -/
def unbraced (segment : List Char) : List Char := segment.filter fun c => c ≠ '\x7b' && c ≠ '\x7d'

theorem dispatchSegment_eq (path : String) : dispatchSegment path =
    ((lastSegment? path.toList).map fun segment => String.ofList (unbraced segment)).getD "root" := by
  unfold dispatchSegment lastSegment? unbraced
  split
  · rename_i segment hsegment
    rw [hsegment]
    rfl
  · rename_i hnone
    rw [hnone]
    rfl

theorem lastSegment?_append (s t : List Char) :
    lastSegment? (s ++ '/' :: t) = (lastSegment? t).or (lastSegment? s) := by
  simp only [lastSegment?, List.splitOn_append_cons_self, List.reverse_append, List.find?_append]

theorem lastSegment?_slashes (h : ∀ c ∈ slashes, c = '/') : lastSegment? slashes = none := by
  induction slashes with
  | nil => rfl
  | cons c slashes ih =>
    obtain ⟨rfl, hslashes⟩ := List.forall_mem_cons.mp h
    have happend := lastSegment?_append [] slashes
    rwa [ih hslashes] at happend

theorem lastSegment?_append_slashes (s : List Char) (h : ∀ c ∈ slashes, c = '/') :
    lastSegment? (s ++ slashes) = lastSegment? s := by
  cases slashes with
  | nil => rw [List.append_nil]
  | cons c slashes =>
    obtain ⟨rfl, hslashes⟩ := List.forall_mem_cons.mp h
    rw [lastSegment?_append, lastSegment?_slashes hslashes, Option.none_or]

theorem LastSegment.eq_some (h : LastSegment text segment) : lastSegment? text = some segment := by
  obtain ⟨before, slashes, rfl, hbefore, hslashes⟩ := h.placed
  have halone : lastSegment? segment = some segment := by
    simp [lastSegment?, List.splitOn_eq_singleton h.slashless, h.nonempty]
  rw [← List.append_assoc, lastSegment?_append_slashes _ hslashes]
  rcases before.eq_nil_or_concat' with rfl | ⟨before, c, rfl⟩
  · exact halone
  · obtain rfl : c = '/' := hbefore c (by simp)
    rw [List.append_assoc, List.singleton_append, lastSegment?_append, halone]
    rfl

theorem slashes_or_exists_lastSegment (text : List Char) :
    (∀ c ∈ text, c = '/') ∨ ∃ segment, LastSegment text segment := by
  induction text with
  | nil => simp
  | cons c text ih =>
    rcases ih with hslashes | ⟨segment, hnonempty, hslashless, before, slashes, rfl, hbefore, hslashes⟩
    · by_cases hc : c = '/'
      · exact .inl (List.forall_mem_cons.mpr ⟨hc, hslashes⟩)
      · exact .inr ⟨[c], by simp, by simpa using Ne.symm hc, [], text, rfl, by simp, hslashes⟩
    · cases before with
      | cons d before =>
        refine .inr ⟨segment, hnonempty, hslashless, c :: d :: before, slashes, rfl, ?_, hslashes⟩
        rwa [List.getLast?_cons_cons]
      | nil =>
        by_cases hc : c = '/'
        · exact .inr ⟨segment, hnonempty, hslashless, [c], slashes, rfl, by simpa using hc, hslashes⟩
        · refine .inr ⟨c :: segment, by simp, ?_, [], slashes, rfl, by simp, hslashes⟩
          simpa using ⟨Ne.symm hc, hslashless⟩

theorem LastSegment.toList_dispatchSegment (h : LastSegment path.toList segment) :
    (dispatchSegment path).toList = unbraced segment := by
  simp [dispatchSegment_eq, h.eq_some]

theorem dispatchSegment_slashes (h : ∀ c ∈ path.toList, c = '/') : dispatchSegment path = "root" := by
  simp [dispatchSegment_eq, lastSegment?_slashes h]

namespace Template

variable {first : List Char} {parts : List (String × List Char)} {name : String} {names : List String}

theorem Plain.append_iff : Plain (s ++ t) ↔ Plain s ∧ Plain t := List.forall_mem_append

theorem Divides.plain (h : Divides text first []) : Plain text := by
  rw [h.woven]
  exact h.first_plain

theorem Divides.closes (h : Divides text first parts) (hclose : '\x7d' ∉ text) : parts = [] := by
  cases parts with
  | nil => rfl
  | cons x parts => exact absurd (by simp [h.woven, weave]) hclose

/-- Where a template with the placeholders `names` is cut. -/
inductive Cut (names : List String) (s t : List Char) : Prop where
  | between {first first' : List Char} {parts parts' : List (String × List Char)} :
      Divides s first parts → Divides t first' parts' →
      names = parts.map Prod.fst ++ parts'.map Prod.fst → Cut names s t
  | inside {before opened closed rest first first' : List Char} {parts parts' : List (String × List Char)}
      {name : String} :
      s = before ++ '\x7b' :: opened → t = closed ++ '\x7d' :: rest → name.toList = opened ++ closed →
      Plain name.toList → Divides before first parts → Divides rest first' parts' →
      names = parts.map Prod.fst ++ name :: parts'.map Prod.fst → Cut names s t

/-- The first placeholder in front of a cut. -/
theorem Cut.cons (h : Cut names s t) (hfirst : Plain first) (hname : name ≠ "") (hplain : Plain name.toList)
    (hnew : name ∉ names) : Cut (name :: names) (first ++ '\x7b' :: (name.toList ++ '\x7d' :: s)) t := by
  have hcons {s literal : List Char} {parts : List (String × List Char)} (hs : Divides s literal parts)
      (hnew : name ∉ parts.map Prod.fst) :
      Divides (first ++ '\x7b' :: (name.toList ++ '\x7d' :: s)) first ((name, literal) :: parts) :=
    Divides.cons_iff.mpr ⟨s, rfl, hfirst, hname, hplain, hnew, hs⟩
  cases h with
  | between hs ht hnames =>
    subst hnames
    exact .between (hcons hs fun hmem => hnew (List.mem_append_left _ hmem)) ht rfl
  | inside hs ht hinside hplain' hbefore hrest hnames =>
    subst hnames
    refine .inside ?_ ht hinside hplain' (hcons hbefore fun hmem => hnew (List.mem_append_left _ hmem)) hrest rfl
    simp [hs]

/-- There is no third place where a template can be cut. -/
theorem Divides.cut (h : Divides (s ++ t) first parts) : Cut (parts.map Prod.fst) s t := by
  induction parts generalizing s first with
  | nil =>
    obtain ⟨hs, ht⟩ := Plain.append_iff.mp h.plain
    exact .between (.last hs) (.last ht) rfl
  | cons x parts ih =>
    obtain ⟨name, literal⟩ := x
    obtain ⟨rest, hsplit, hfirst, hname, hplain, hnew, hrest⟩ := Divides.cons_iff.mp h
    have hwhole {first : List Char} (hfirst : Plain first) :
        Divides (first ++ '\x7b' :: (name.toList ++ '\x7d' :: rest)) first ((name, literal) :: parts) :=
      Divides.cons_iff.mpr ⟨rest, rfl, hfirst, hname, hplain, hnew, hrest⟩
    rcases List.append_eq_append_iff.mp hsplit with ⟨front, rfl, rfl⟩ | ⟨back, rfl, hback⟩
    · obtain ⟨hs, hfront⟩ := Plain.append_iff.mp hfirst
      exact .between (.last hs) (hwhole hfront) rfl
    rcases List.append_eq_cons_iff.mp hback.symm with ⟨rfl, rfl⟩ | ⟨opened, rfl, hopened⟩
    · rw [List.append_nil]
      exact .between (.last hfirst) (hwhole .nil) rfl
    rcases List.append_eq_append_iff.mp hopened with ⟨front, rfl, hclosed⟩ | ⟨closed, hletters, rfl⟩
    · rcases List.append_eq_cons_iff.mp hclosed.symm with ⟨rfl, rfl⟩ | ⟨front, rfl, rfl⟩
      · rw [List.append_nil]
        exact .inside rfl rfl (List.append_nil _).symm hplain (.last hfirst) hrest rfl
      · exact (ih hrest).cons hfirst hname hplain hnew
    · exact .inside rfl rfl hletters hplain (.last hfirst) hrest rfl

theorem mem_weave {left right c : Char} {x : String × List Char} (hx : x ∈ parts) (hc : c ∈ x.1.toList)
    (first : List Char) : c ∈ weave left right first parts := by
  induction parts generalizing first with
  | nil => cases hx
  | cons y parts ih =>
    rcases List.mem_cons.mp hx with rfl | hx
    · simp [weave, hc]
    · simp [weave, ih hx]

/-- A brace that opens a placeholder is not left open. -/
theorem Divides.closed (h : Divides (s ++ '\x7b' :: t) first parts) : '\x7d' ∈ t := by
  by_contra hclose
  cases h.cut with
  | between _ ht _ =>
    have hnone := ht.closes (by simpa using hclose)
    rw [hnone] at ht
    exact (ht.plain _ List.mem_cons_self).1 rfl
  | inside _ ht _ _ _ _ _ =>
    have hmem : '\x7d' ∈ '\x7b' :: t := by simp [ht]
    exact hclose (by simpa using hmem)

theorem Divides.tail {c : Char} (h : Divides (c :: t) first parts) (hopen : c ≠ '\x7b') (hclose : c ≠ '\x7d') :
    ∃ first' parts', Divides t first' parts' ∧ parts.map Prod.fst = parts'.map Prod.fst := by
  cases Divides.cut (s := [c]) h with
  | between hs ht hnames =>
    rw [hs.closes (by simpa using Ne.symm hclose)] at hnames
    exact ⟨_, _, ht, hnames⟩
  | inside hs _ _ _ _ _ _ =>
    have hmem : '\x7b' ∈ [c] := by simp [hs]
    exact absurd (List.mem_singleton.mp hmem).symm hopen

/-- Each segment is a template. -/
def Nested (text : List Char) : Prop := ∀ segment ∈ text.splitOn '/', ∃ first parts, Divides segment first parts

theorem nested_append_iff (hs : '/' ∉ s) :
    Nested (s ++ '/' :: t) ↔ (∃ first parts, Divides s first parts) ∧ Nested t := by
  rw [Nested, List.splitOn_append_cons_self_of_not_mem hs, List.forall_mem_cons]
  rfl

/-- Segments are cut off one by one. -/
theorem Divides.nested_iff (h : Divides text first parts) :
    Nested text ↔ ∀ name ∈ parts.map Prod.fst, '/' ∉ name.toList := by
  have hnames {s first : List Char} {parts : List (String × List Char)} (hs : '/' ∉ s)
      (h : Divides s first parts) : ∀ name ∈ parts.map Prod.fst, '/' ∉ name.toList := by
    intro name hname hslash
    obtain ⟨x, hx, rfl⟩ := List.mem_map.mp hname
    exact hs (h.woven ▸ mem_weave hx hslash first)
  induction hlength : text.length using Nat.strongRecOn generalizing text first parts with
  | _ n ih =>
  by_cases hslash : '/' ∈ text
  · obtain ⟨s, t, rfl, hs⟩ := List.eq_append_cons_of_mem hslash
    rw [nested_append_iff hs]
    cases h.cut with
    | between hfront hback hsplit =>
      obtain ⟨first', parts', ht, hsame⟩ := hback.tail (by decide) (by decide)
      have hshorter : t.length < n := by
        simp only [← hlength, List.length_append, List.length_cons]
        omega
      have hrest : Nested t ↔ ∀ name ∈ parts'.map Prod.fst, '/' ∉ name.toList :=
        ih t.length hshorter ht rfl
      rw [hsplit, hsame, List.forall_mem_append, ← hrest]
      exact ⟨fun h => ⟨hnames hs hfront, h.2⟩, fun h => ⟨⟨_, _, hfront⟩, h.2⟩⟩
    | @inside before opened closed rest _ _ _ _ name hfront hback hname hplain _ _ hsplit =>
      constructor
      · rintro ⟨⟨first', parts', hdangling⟩, -⟩
        rw [hfront] at hdangling
        have hclose := hdangling.closed
        exact absurd rfl (hplain '\x7d' (by simp [hname, hclose])).2
      · intro hslashless
        have hname' := hslashless name (by simp [hsplit])
        cases closed with
        | nil => simp at hback
        | cons c closed =>
          obtain ⟨rfl, -⟩ := List.cons.inj hback
          simp [hname] at hname'
  · rw [Nested, List.splitOn_eq_singleton hslash]
    exact ⟨fun _ => hnames hslash h, fun _ => by simpa using ⟨_, _, h⟩⟩

/-- A template with its placeholders replaced by their names. -/
def bare (first : List Char) : List (String × List Char) → List Char
  | [] => first
  | (name, literal) :: parts => first ++ (name.toList ++ bare literal parts)

theorem unbraced_append (s t : List Char) : unbraced (s ++ t) = unbraced s ++ unbraced t :=
  List.filter_append ..

theorem unbraced_open (s : List Char) : unbraced ('\x7b' :: s) = unbraced s := rfl

theorem unbraced_close (s : List Char) : unbraced ('\x7d' :: s) = unbraced s := rfl

theorem unbraced_of_plain (hs : Plain s) : unbraced s = s :=
  List.filter_eq_self.mpr fun c hc => by simpa using hs c hc

theorem plain_unbraced (s : List Char) : Plain (unbraced s) :=
  fun c hc => by simpa using (List.mem_filter.mp hc).2

theorem unbraced_of_divides (h : Divides text first parts) : unbraced text = bare first parts := by
  induction parts generalizing text first with
  | nil => rw [h.woven, weave, unbraced_of_plain h.first_plain, bare]
  | cons x parts ih =>
    obtain ⟨name, literal⟩ := x
    obtain ⟨rest, rfl, hfirst, -, hplain, -, hrest⟩ := Divides.cons_iff.mp h
    rw [unbraced_append, unbraced_open, unbraced_append, unbraced_close, unbraced_of_plain hfirst,
      unbraced_of_plain hplain, ih hrest, bare]

theorem bare_eq_nil_iff (h : Divides text first parts) : bare first parts = [] ↔ text = [] := by
  cases parts with
  | nil => rw [bare, h.woven, weave]
  | cons x parts =>
    have hname := (h.names_plain x List.mem_cons_self).1
    simp [bare, h.woven, weave, hname]

/-- The stem that the last segment gives of a template with the placeholders `names`. -/
inductive Stem (names : List String) : (segment stem : List Char) → Prop where
  /-- The segment is a template with the last of the placeholders. -/
  | whole {segment first : List Char} {parts : List (String × List Char)} {earlier : List String} :
      Divides segment first parts → names = earlier ++ parts.map Prod.fst →
      Stem names segment (bare first parts)
  /-- The segment begins in a placeholder, of whose name it holds what is behind the last slash. -/
  | cut {opened closed rest first : List Char} {parts : List (String × List Char)} {earlier : List String}
      {name : String} : name.toList = opened ++ '/' :: closed → Divides rest first parts →
      names = earlier ++ name :: parts.map Prod.fst →
      Stem names (closed ++ '\x7d' :: rest) (closed ++ bare first parts)

theorem Divides.stem (h : Divides text first parts) (hs : LastSegment text segment) :
    Stem (parts.map Prod.fst) segment (unbraced segment) := by
  obtain ⟨before, slashes, rfl, hbefore, hslashes⟩ := hs.placed
  have hclose : '\x7d' ∉ slashes := fun hc => by simpa using hslashes _ hc
  rw [← List.append_assoc] at h
  cases h.cut with
  | inside _ hback _ _ _ _ _ => exact absurd (by simp [hback]) hclose
  | between hfront hback hnames =>
    rw [hback.closes hclose, List.map_nil, List.append_nil] at hnames
    rw [hnames]
    cases hfront.cut with
    | between _ hsegment hnames =>
      rw [unbraced_of_divides hsegment]
      exact .whole hsegment hnames
    | @inside _ opened closed rest _ _ _ _ _ hopened hclosed hname hplain _ hrest hnames =>
      -- The segment begins behind a slash, so the slash belongs to the name.
      rcases opened.eq_nil_or_concat' with rfl | ⟨opened, c, rfl⟩
      · have hlast := hbefore '\x7b' (by simp [hopened])
        cases hlast
      · rw [← List.cons_append, ← List.append_assoc] at hopened
        obtain rfl : c = '/' := hbefore c (hopened ▸ List.getLast?_concat)
        rw [hname] at hplain
        rw [List.append_assoc, List.singleton_append] at hname
        rw [hclosed, unbraced_append, unbraced_close, unbraced_of_plain (Plain.append_iff.mp hplain).2,
          unbraced_of_divides hrest]
        exact .cut hname hrest hnames

theorem Stem.eq_of_nil {names : List String} {stem : List Char} (h : Stem names segment stem)
    (hs : segment ≠ []) (hnil : stem = []) : segment = ['\x7d'] := by
  cases h with
  | whole hsegment _ => exact absurd ((bare_eq_nil_iff hsegment).mp hnil) hs
  | cut _ hrest _ =>
    obtain ⟨rfl, hbare⟩ := List.append_eq_nil_iff.mp hnil
    rw [(bare_eq_nil_iff hrest).mp hbare, List.nil_append]

theorem Stem.whole_of_slashless {names : List String} {stem : List Char} (h : Stem names segment stem)
    (hnames : ∀ name ∈ names, '/' ∉ name.toList) : ∃ earlier first parts,
      names = earlier ++ parts.map Prod.fst ∧ Divides segment first parts ∧ stem = bare first parts := by
  cases h with
  | whole hsegment hsplit => exact ⟨_, _, _, hsplit, hsegment, rfl⟩
  | @cut opened closed _ _ _ _ name hname _ hsplit =>
    have hslash := hnames name (by simp [hsplit])
    simp [hname] at hslash

end Template

open Template in
/-- The stem of a key, first for every template, then for those of which each segment is a template. -/
theorem stem_of_template {names : List String} (h : placeholders path = .ok names) :
    ((∀ c ∈ path.toList, c = '/') ∧ dispatchSegment path = "root" ∨ ∃ segment,
      LastSegment path.toList segment ∧ Stem names segment (dispatchSegment path).toList) ∧
    Plain (dispatchSegment path).toList ∧
    (dispatchSegment path = "" ↔ LastSegment path.toList ['\x7d']) ∧
    (Nested path.toList ↔ ∀ name ∈ names, '/' ∉ name.toList) ∧
    (Nested path.toList → dispatchSegment path ≠ "" ∧ ∀ segment, LastSegment path.toList segment →
      ∃ earlier first parts, names = earlier ++ parts.map Prod.fst ∧ Divides segment first parts ∧
        (dispatchSegment path).toList = bare first parts) := by
  obtain ⟨first, parts, hdivides, rfl⟩ := placeholders_eq_ok_iff.mp h
  have hstem {segment : List Char} (hs : LastSegment path.toList segment) :
      Stem (parts.map Prod.fst) segment (dispatchSegment path).toList := by
    rw [hs.toList_dispatchSegment]
    exact hdivides.stem hs
  have hempty : dispatchSegment path = "" ↔ LastSegment path.toList ['\x7d'] := by
    constructor
    · intro hempty
      rcases slashes_or_exists_lastSegment path.toList with hslashes | ⟨segment, hs⟩
      · simp [dispatchSegment_slashes hslashes] at hempty
      · rwa [← (hstem hs).eq_of_nil hs.nonempty (String.toList_eq_nil_iff.mpr hempty)]
    · intro hs
      exact String.toList_eq_nil_iff.mp hs.toList_dispatchSegment
  have hwhole (hnested : Nested path.toList) (segment : List Char) (hs : LastSegment path.toList segment) :=
    (hstem hs).whole_of_slashless (hdivides.nested_iff.mp hnested)
  refine ⟨?_, ?_, hempty, hdivides.nested_iff, fun hnested => ⟨fun hnil => ?_, hwhole hnested⟩⟩
  · rcases slashes_or_exists_lastSegment path.toList with hslashes | ⟨segment, hs⟩
    · exact .inl ⟨hslashes, dispatchSegment_slashes hslashes⟩
    · exact .inr ⟨segment, hs, hstem hs⟩
  · rcases slashes_or_exists_lastSegment path.toList with hslashes | ⟨segment, hs⟩
    · simp [dispatchSegment_slashes hslashes, Plain]
    · rw [hs.toList_dispatchSegment]
      exact plain_unbraced segment
  · obtain ⟨_, _, _, -, hsegment, hbare⟩ := hwhole hnested _ (hempty.mp hnil)
    rw [hnil, String.toList_empty] at hbare
    cases (bare_eq_nil_iff hsegment).mp hbare.symm

def nestedTemplate : String := "/rows/{row}/{seat}-{n}/"

def cutTemplate : String := "/rows/{row/seat}-{n}//"

theorem lastSegment_nestedTemplate : LastSegment nestedTemplate.toList "{seat}-{n}".toList :=
  ⟨by simp, by simp, "/rows/{row}/".toList, ['/'], rfl, by simp, by simp⟩

theorem lastSegment_cutTemplate : LastSegment cutTemplate.toList "seat\x7d-{n}".toList :=
  ⟨by simp, by simp, "/rows/\x7brow/".toList, ['/', '/'], rfl, by simp, by simp⟩

open Template in
theorem stem_of_template_cut :
    (Nested nestedTemplate.toList ∧ LastSegment nestedTemplate.toList "{seat}-{n}".toList ∧
      ∃ earlier first parts, ["row", "seat", "n"] = earlier ++ parts.map Prod.fst ∧
        Divides "{seat}-{n}".toList first parts ∧ "seat-n".toList = bare first parts) ∧
    ¬ Nested cutTemplate.toList ∧ LastSegment cutTemplate.toList "seat\x7d-{n}".toList ∧
      Stem ["row/seat", "n"] "seat\x7d-{n}".toList "seat-n".toList := by
  obtain ⟨-, -, -, hnested, hwhole⟩ :=
    stem_of_template (show placeholders nestedTemplate = .ok ["row", "seat", "n"] from rfl)
  obtain ⟨hstem, -, -, hcut, -⟩ :=
    stem_of_template (show placeholders cutTemplate = .ok ["row/seat", "n"] from rfl)
  refine ⟨?_, ?_, lastSegment_cutTemplate, ?_⟩
  · have hnest := hnested.mpr (by decide)
    exact ⟨hnest, lastSegment_nestedTemplate, (hwhole hnest).2 _ lastSegment_nestedTemplate⟩
  · intro hnest
    have hslashless := hcut.mp hnest "row/seat" (by simp)
    exact hslashless (by decide)
  · rcases hstem with ⟨hslashes, -⟩ | ⟨segment, hsegment, hstem⟩
    · have hslash := hslashes 'r' (by decide)
      cases hslash
    · have hsame := hsegment.eq_some.symm.trans lastSegment_cutTemplate.eq_some
      cases hsame
      exact hstem

/-- A placeholder of which only the brace stands in the last segment. -/
theorem template_with_empty_stem :
    Template.placeholders "/{a/}" = .ok ["a/"] ∧ '/' ∈ "a/".toList ∧ dispatchSegment "/{a/}" = "" :=
  ⟨by rfl, by decide, by rfl⟩

end RestRoutes
