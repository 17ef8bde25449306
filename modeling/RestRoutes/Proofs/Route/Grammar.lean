import Mathlib.Data.List.Nodup
import RestRoutes.Proofs.Route.Template
import RestRoutes.Proofs.Text.Division

namespace RestRoutes.Template

/-- A text without braces. -/
def Plain (s : List Char) : Prop := ∀ c ∈ s, c ≠ '\x7b' ∧ c ≠ '\x7d'

/-- A text, then each of `parts`: a name between `left` and `right`, and the text behind it. -/
def weave (left right : Char) (first : List Char) : List (String × List Char) → List Char
  | [] => first
  | (name, literal) :: parts => first ++ left :: (name.toList ++ right :: weave left right literal parts)

/-- A text is divided at its placeholders, the names of which are all different. -/
structure Divides (text first : List Char) (parts : List (String × List Char)) : Prop where
  woven : text = weave '\x7b' '\x7d' first parts
  first_plain : Plain first
  literals_plain : ∀ x ∈ parts, Plain x.2
  names_plain : ∀ x ∈ parts, x.1 ≠ "" ∧ Plain x.1.toList
  distinct : (parts.map Prod.fst).Nodup

variable {c : Char} {offset : Nat} {done names slots : List String} {inside : Option (List Char)}
  {s text first literal : List Char} {name : String} {parts : List (String × List Char)}

theorem Plain.nil : Plain [] := nofun

theorem Plain.cons (hopen : c ≠ '\x7b') (hclose : c ≠ '\x7d') (hs : Plain s) : Plain (c :: s) :=
  List.forall_mem_cons.mpr ⟨⟨hopen, hclose⟩, hs⟩

theorem Plain.reverse (hs : Plain s) : Plain s.reverse := fun c hc => hs c (List.mem_reverse.mp hc)

/-- What is woven behind the first text. -/
theorem weave_append (left right : Char) (s first : List Char) (parts : List (String × List Char)) :
    weave left right (s ++ first) parts = s ++ weave left right first parts := by
  cases parts with
  | nil => rfl
  | cons x parts => simp only [weave, List.append_assoc]

namespace Divides

theorem last (hfirst : Plain first) : Divides first first [] := ⟨rfl, hfirst, nofun, nofun, .nil⟩

/-- The first placeholder, and the division of what is behind it. -/
theorem cons_iff : Divides text first ((name, literal) :: parts) ↔
    ∃ rest, text = first ++ '\x7b' :: (name.toList ++ '\x7d' :: rest) ∧ Plain first ∧ name ≠ "" ∧
      Plain name.toList ∧ name ∉ parts.map Prod.fst ∧ Divides rest literal parts := by
  constructor
  · intro h
    obtain ⟨hliteral, hliterals⟩ := List.forall_mem_cons.mp h.literals_plain
    obtain ⟨⟨hname, hplain⟩, hnames⟩ := List.forall_mem_cons.mp h.names_plain
    obtain ⟨hnew, hdistinct⟩ := List.nodup_cons.mp h.distinct
    exact ⟨_, h.woven, h.first_plain, hname, hplain, hnew, rfl, hliteral, hliterals, hnames, hdistinct⟩
  · rintro ⟨rest, rfl, hfirst, hname, hplain, hnew, h⟩
    exact ⟨by rw [weave, h.woven], hfirst, List.forall_mem_cons.mpr ⟨h.first_plain, h.literals_plain⟩,
      List.forall_mem_cons.mpr ⟨⟨hname, hplain⟩, h.names_plain⟩, List.nodup_cons.mpr ⟨hnew, h.distinct⟩⟩

/-- A character in front of a divided text. -/
theorem cons (hopen : c ≠ '\x7b') (hclose : c ≠ '\x7d') (h : Divides text first parts) :
    Divides (c :: text) (c :: first) parts where
  woven := by rw [h.woven, ← List.singleton_append, ← weave_append, List.singleton_append]
  first_plain := h.first_plain.cons hopen hclose
  literals_plain := h.literals_plain
  names_plain := h.names_plain
  distinct := h.distinct

end Divides

/-- What is still to be divided: what is read of an open placeholder, and the rest. -/
def unread (inside : Option (List Char)) (s : List Char) : List Char :=
  match inside with
  | none => s
  | some letters => '\x7b' :: (letters.reverse ++ s)

/-- An open placeholder stays in front of the rest until it is closed. -/
theorem divides_of_placeholdersFrom (h : placeholdersFrom offset done inside s = .ok names)
    (hdone : done.Nodup) (hinside : Plain (inside.getD [])) : names.Nodup ∧ ∃ first parts,
      Divides (unread inside s) first parts ∧ names = done ++ parts.map Prod.fst := by
  induction s generalizing offset done inside with
  | nil =>
    simp only [placeholdersFrom] at h
    split at h
    · cases h
    · rename_i hnone
      cases h
      rw [Option.not_isSome_iff_eq_none.mp hnone]
      exact ⟨hdone, [], [], .last .nil, (List.append_nil _).symm⟩
  | cons c s ih =>
    rcases placeholdersFrom_cons h with
      ⟨rfl, rfl, hrest⟩ | ⟨rfl, letters, rfl, hletters, hnew, hrest⟩ | ⟨hopen, hclose, offset, hrest⟩
    · exact ih hrest hdone .nil
    · have hname : unread (some letters) ('\x7d' :: s) =
          '\x7b' :: ((String.ofList letters.reverse).toList ++ '\x7d' :: s) := by
        rw [String.toList_ofList]
        rfl
      have hplain : Plain (String.ofList letters.reverse).toList := by
        rw [String.toList_ofList]
        exact hinside.reverse
      have hempty : String.ofList letters.reverse ≠ "" := by
        simpa [String.ofList_eq_empty_iff] using hletters
      rw [hname]
      generalize String.ofList letters.reverse = name at *
      have hdone' := hdone.append (List.nodup_singleton name) (List.disjoint_singleton.mpr hnew)
      obtain ⟨hnames, first, parts, hdivides, rfl⟩ := ih hrest hdone' .nil
      rw [List.append_assoc, List.singleton_append] at hnames ⊢
      have hfresh := (List.nodup_cons.mp (List.nodup_append.mp hnames).2.1).1
      exact ⟨hnames, [], (name, first) :: parts,
        Divides.cons_iff.mpr ⟨s, rfl, .nil, hempty, hplain, hfresh, hdivides⟩, rfl⟩
    · cases inside with
      | none =>
        obtain ⟨hnames, first, parts, hdivides, hnew⟩ := ih hrest hdone .nil
        exact ⟨hnames, c :: first, parts, hdivides.cons hopen hclose, hnew⟩
      | some letters =>
        have hread := ih hrest hdone (hinside.cons hopen hclose)
        simpa only [unread, Option.map_some, List.reverse_cons, List.append_assoc, List.singleton_append]
          using hread

/-- A text without braces is passed over, or added to the name of the open placeholder. -/
theorem placeholdersFrom_append (hs : Plain s) (offset : Nat) (done : List String)
    (inside : Option (List Char)) (text : List Char) : ∃ offset',
      placeholdersFrom offset done inside (s ++ text) =
        placeholdersFrom offset' done (inside.map (s.reverse ++ ·)) text := by
  induction s generalizing offset inside with
  | nil => exact ⟨offset, by cases inside <;> rfl⟩
  | cons c s ih =>
    obtain ⟨⟨hopen, hclose⟩, hs⟩ := List.forall_mem_cons.mp hs
    obtain ⟨offset', h⟩ := ih hs (offset + (Text.Utf8.encodeChar c).length) (inside.map (c :: ·))
    refine ⟨offset', ?_⟩
    simp only [List.cons_append, placeholdersFrom, if_neg hopen, if_neg hclose, h, Option.map_map]
    cases inside with
    | none => rfl
    | some letters => simp

/-- A placeholder is read as its name. -/
theorem placeholdersFrom_placeholder (hname : name ≠ "") (hplain : Plain name.toList) (hnew : name ∉ done)
    (offset : Nat) (text : List Char) : ∃ offset',
      placeholdersFrom offset done none ('\x7b' :: (name.toList ++ '\x7d' :: text)) =
        placeholdersFrom offset' (done ++ [name]) none text := by
  obtain ⟨offset', h⟩ := placeholdersFrom_append hplain (offset + 1) done (some []) ('\x7d' :: text)
  obtain ⟨c, letters, hletters⟩ := List.exists_cons_of_ne_nil
    (mt List.reverse_eq_nil_iff.mp (mt String.toList_eq_nil_iff.mp hname))
  have hread : String.ofList (c :: letters).reverse = name := by
    rw [← hletters, List.reverse_reverse, String.ofList_toList]
  refine ⟨offset' + 1, ?_⟩
  rw [Option.map_some, List.append_nil, hletters] at h
  rw [placeholdersFrom, if_pos rfl, h, placeholdersFrom, if_neg (by decide), if_pos rfl]
  simp only [hread, if_neg hnew]

theorem placeholdersFrom_of_divides (h : Divides text first parts) (offset : Nat)
    (hnames : (done ++ parts.map Prod.fst).Nodup) :
    placeholdersFrom offset done none text = .ok (done ++ parts.map Prod.fst) := by
  induction parts generalizing text first offset done with
  | nil =>
    obtain ⟨offset', hread⟩ := placeholdersFrom_append h.first_plain offset done none []
    rw [h.woven, weave, ← List.append_nil first, hread]
    simp [placeholdersFrom]
  | cons x parts ih =>
    obtain ⟨name, literal⟩ := x
    obtain ⟨rest, rfl, hfirst, hname, hplain, -, hrest⟩ := Divides.cons_iff.mp h
    have hnew : name ∉ done := fun hmem =>
      (List.nodup_append.mp hnames).2.2 name hmem name List.mem_cons_self rfl
    obtain ⟨offset₁, hbefore⟩ := placeholdersFrom_append hfirst offset done none _
    obtain ⟨offset₂, hplaceholder⟩ := placeholdersFrom_placeholder hname hplain hnew offset₁ rest
    rw [List.map_cons, List.append_cons] at hnames
    rw [hbefore, Option.map_none, hplaceholder, ih hrest offset₂ hnames, ← List.append_cons]
    rfl

theorem placeholders_eq_ok_iff {path : String} : placeholders path = .ok names ↔
    ∃ first parts, Divides path.toList first parts ∧ parts.map Prod.fst = names := by
  constructor
  · intro h
    obtain ⟨-, first, parts, hdivides, rfl⟩ := divides_of_placeholdersFrom h .nil .nil
    exact ⟨first, parts, hdivides, rfl⟩
  · rintro ⟨first, parts, hdivides, rfl⟩
    exact placeholdersFrom_of_divides hdivides 0 hdivides.distinct

/-- A text without braces ends where the first brace is, or with the whole text. -/
theorem plain_append_inj {t x y : List Char} (hs : Plain s) (ht : Plain t)
    (hx : ∀ c ∈ x.head?, c = '\x7b' ∨ c = '\x7d') (hy : ∀ c ∈ y.head?, c = '\x7b' ∨ c = '\x7d')
    (h : s ++ x = t ++ y) : s = t ∧ x = y := by
  apply Text.append_inj_of_head (p := fun c => c ≠ '\x7b' && c ≠ '\x7d') ?_ ?_ ?_ ?_ h
  · exact fun c hc => by simpa using hs c hc
  · exact fun c hc => by simpa using ht c hc
  · exact fun c hc => by rcases hx c hc with rfl | rfl <;> rfl
  · exact fun c hc => by rcases hy c hc with rfl | rfl <;> rfl

/-- Behind the first text is a brace or nothing. -/
theorem Divides.behind (h : Divides text first parts) :
    ∃ behind, text = first ++ behind ∧ ∀ c ∈ behind.head?, c = '\x7b' ∨ c = '\x7d' := by
  cases parts with
  | nil => exact ⟨[], by rw [h.woven, weave, List.append_nil], nofun⟩
  | cons x parts => exact ⟨_, h.woven, fun c hc => .inl (Option.some.inj hc).symm⟩

theorem Divides.first_unique {first' : List Char} {parts' : List (String × List Char)}
    (h : Divides text first parts) (h' : Divides text first' parts') : first = first' := by
  obtain ⟨x, rfl, hx⟩ := h.behind
  obtain ⟨y, hy, hy'⟩ := h'.behind
  exact (plain_append_inj h.first_plain h'.first_plain hx hy' hy).1

theorem Divides.unique {first' : List Char} {parts' : List (String × List Char)}
    (h : Divides text first parts) (h' : Divides text first' parts') : first = first' ∧ parts = parts' := by
  refine ⟨h.first_unique h', ?_⟩
  induction parts generalizing text first first' parts' with
  | nil =>
    obtain rfl := h.first_unique h'
    cases parts' with
    | nil => rfl
    | cons x' parts' =>
      have hsame := h.woven.symm.trans h'.woven
      simp [weave] at hsame
  | cons x parts ih =>
    obtain rfl := h.first_unique h'
    obtain ⟨name, literal⟩ := x
    obtain ⟨rest, rfl, -, -, hplain, -, hrest⟩ := Divides.cons_iff.mp h
    cases parts' with
    | nil => simpa [weave] using h'.woven
    | cons x' parts' =>
      obtain ⟨name', literal'⟩ := x'
      obtain ⟨rest', hsame, -, -, hplain', -, hrest'⟩ := Divides.cons_iff.mp h'
      obtain ⟨-, hsame⟩ := List.cons.inj (List.append_cancel_left hsame)
      obtain ⟨hname, hsame⟩ := plain_append_inj hplain hplain' (by simp) (by simp) hsame
      obtain rfl := (List.cons.inj hsame).2
      rw [String.toList_inj.mp hname, hrest.first_unique hrest', ih hrest hrest']

/-- A text without braces is kept, but not in a placeholder. -/
theorem substituteFrom_append {inside : Bool} {slots : List (List Char)} (hs : Plain s) (text : List Char) :
    substituteFrom inside slots (s ++ text) =
      (if inside then [] else s) ++ substituteFrom inside slots text := by
  induction s with
  | nil => cases inside <;> rfl
  | cons c s ih =>
    obtain ⟨⟨hopen, hclose⟩, hs⟩ := List.forall_mem_cons.mp hs
    rw [List.cons_append, substituteFrom, if_neg hopen, if_neg hclose]
    cases inside with
    | true => exact ih hs
    | false => exact congrArg (c :: ·) (ih hs)

theorem substituteFrom_of_divides (h : Divides text first parts) (hslots : slots.length = parts.length) :
    substituteFrom false (slots.map String.toList) text =
      weave '<' '>' first (slots.zip (parts.map Prod.snd)) := by
  induction parts generalizing text first slots with
  | nil =>
    rw [List.map_nil, List.zip_nil_right, h.woven, weave, ← List.append_nil first,
      substituteFrom_append h.first_plain]
    rfl
  | cons x parts ih =>
    obtain ⟨name, literal⟩ := x
    obtain ⟨rest, rfl, hfirst, -, hplain, -, hrest⟩ := Divides.cons_iff.mp h
    cases slots with
    | nil => cases hslots
    | cons slot slots =>
      have hafter := ih hrest (Nat.succ.inj hslots)
      rw [substituteFrom_append hfirst, List.map_cons, substituteFrom, if_pos rfl,
        substituteFrom_append hplain, List.map_cons, List.zip_cons_cons, weave, ← hafter]
      rfl

theorem toList_substitute {path : String} (h : Divides path.toList first parts)
    (hslots : slots.length = parts.length) : (substitute path slots).toList =
      weave '<' '>' first (slots.zip (parts.map Prod.snd)) := by
  rw [substitute, String.toList_ofList, substituteFrom_of_divides h hslots]

end RestRoutes.Template
