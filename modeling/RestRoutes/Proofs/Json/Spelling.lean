import RestRoutes.Json.Printer
import RestRoutes.Proofs.Json.Pointer
import RestRoutes.Proofs.Text.Utf8

namespace RestRoutes.Json

open Text

/-- How a segment is written. -/
structure Spelling where
  /-- The characters written as bytes besides the percent sign, which always is. -/
  chosen : Char → Bool := fun _ => false
  /-- Whether the digits of bytes are capitals. -/
  capitals : Bool := true

namespace Spelling

def digit (e : Spelling) (n : Nat) : Char := if e.capitals then (hexDigit n).toUpper else hexDigit n

def byte (e : Spelling) (b : UInt8) : List Char := ['%', e.digit (b.toNat / 16), e.digit b.toNat]

def char (e : Spelling) (c : Char) : List Char :=
  if c = '%' || e.chosen c then (Utf8.encodeChar c).flatMap e.byte else [c]

def written (e : Spelling) (c : Char) : List Char := (tildeEscape c).flatMap e.char

/-- The segment for a name. -/
def segment (e : Spelling) (name : List Char) : List Char := name.flatMap e.written

/-- No part of the escape of this character is written as bytes. -/
def Keeps (e : Spelling) (c : Char) : Prop := tildeEscape c = [c] ∨ ∀ d ∈ tildeEscape c, e.chosen d = false

instance (e : Spelling) (c : Char) : Decidable (e.Keeps c) := inferInstanceAs (Decidable (_ ∨ _))

end Spelling

/-- One step down into a value. Positions are machine words. -/
inductive Step where
  | name (s : String)
  | item (i : UInt64)

def Step.text : Step → List Char
  | .name s => s.toList
  | .item i => Nat.toDigits 10 i.toNat

/-- What stands one step down. -/
def below? (v : Json) : Step → Option Json
  | .name s => v.get? s
  | .item i =>
    match v with
    | .array items => items[i.toNat]?
    | _ => none

def along? (v : Json) : List Step → Option Json
  | [] => some v
  | s :: steps => (v.below? s).bind (along? · steps)

/-- The reference to a place, each of its segments spelled in its own way. -/
def reference (place : List (Step × Spelling)) : String :=
  String.ofList ('#' :: place.flatMap fun x => '/' :: x.2.segment x.1.text)

namespace Spelling

/-- What is read back for a character of a name. -/
def read (e : Spelling) (c : Char) : List Char := if e.Keeps c then [c] else tildeEscape c

end Spelling

variable {e : Spelling} {c d : Char} {s t rest : List Char} {b : UInt8} {bytes : List UInt8}

theorem hexValue?_digit (e : Spelling) (n : Nat) : hexValue? (e.digit n) = some (n % 16) := by
  have hdigits : ∀ n < 16, hexValue? (hexDigit n) = some n ∧ hexValue? (hexDigit n).toUpper = some n := by
    decide
  have hn := hdigits (n % 16) (Nat.mod_lt n (by decide))
  have hsame : hexDigit (n % 16) = hexDigit n := by rw [hexDigit, hexDigit, Nat.mod_mod]
  rw [hsame] at hn
  unfold Spelling.digit
  split
  · exact hn.2
  · exact hn.1

theorem digit_ne (hd : hexValue? d = none) (n : Nat) : e.digit n ≠ d := by
  intro h
  have hsome := hexValue?_digit e n
  rw [h, hd] at hsome
  cases hsome

theorem not_mem_byte (hd : hexValue? d = none) (hpercent : d ≠ '%') : d ∉ e.byte b := by
  intro h
  simp only [Spelling.byte, List.mem_cons, List.not_mem_nil, or_false] at h
  rcases h with h | h | h
  · exact hpercent h
  · exact digit_ne hd _ h.symm
  · exact digit_ne hd _ h.symm

/-- A character is written as bytes or as itself. -/
theorem char_cases (e : Spelling) (c : Char) :
    e.char c = (Utf8.encodeChar c).flatMap e.byte ∨ e.char c = [c] ∧ c ≠ '%' ∧ e.chosen c = false := by
  unfold Spelling.char
  split
  · exact .inl rfl
  · rename_i h
    simp only [Bool.or_eq_true, decide_eq_true_eq, not_or, Bool.not_eq_true] at h
    exact .inr ⟨rfl, h⟩

theorem not_mem_bytes (hd : hexValue? d = none) (hpercent : d ≠ '%') :
    d ∉ (Utf8.encodeChar c).flatMap e.byte := by
  intro h
  obtain ⟨b, -, hb⟩ := List.mem_flatMap.mp h
  exact not_mem_byte hd hpercent hb

theorem char_of_chosen (h : e.chosen c = true) : e.char c = (Utf8.encodeChar c).flatMap e.byte := by
  simp [Spelling.char, h]

theorem char_of_not_chosen (hc : c ≠ '%') (h : e.chosen c = false) : e.char c = [c] := by
  simp [Spelling.char, hc, h]

theorem not_mem_char (hd : hexValue? d = none) (hpercent : d ≠ '%') (hc : d ≠ c) : d ∉ e.char c := by
  rcases char_cases e c with hbytes | ⟨hself, -, -⟩
  · rw [hbytes]
    exact not_mem_bytes hd hpercent
  · rw [hself, List.mem_singleton]
    exact hc

theorem head?_bytes_ne (hd : d ≠ '%') :
    ((Utf8.encodeChar c).flatMap e.byte ++ rest).head? ≠ some d := by
  have hsome : Utf8.encodeChar c ≠ [] := List.ne_nil_of_length_pos (Utf8.encodeChar_length c).1
  obtain ⟨b, bs, hbytes⟩ := List.exists_cons_of_ne_nil hsome
  rw [hbytes]
  simpa [Spelling.byte] using hd.symm

theorem slash_not_mem_segment (e : Spelling) (name : List Char) : '/' ∉ e.segment name := by
  intro h
  obtain ⟨c, -, hc⟩ := List.mem_flatMap.mp h
  obtain ⟨d, hd, hslash⟩ := List.mem_flatMap.mp hc
  have hne : '/' ≠ d := by
    rintro rfl
    exact slash_not_mem_tildeEscape c hd
  exact not_mem_char (by decide) (by decide) hne hslash

theorem encodeChar_of_hexValue? {x : Nat} (h : hexValue? d = some x) :
    Utf8.encodeChar d = [.ofNat d.toNat] ∧ Char.ofNat (UInt8.ofNat d.toNat).toNat = d := by
  have hsmall : d.toNat < 0x80 := by
    simp only [hexValue?, Bool.and_eq_true, decide_eq_true_eq, Char.le_def, UInt32.le_iff_toNat_le] at h
    have hval : d.val.toNat = d.toNat := rfl
    split at h
    · rename_i hd
      have h9 : d.val.toNat ≤ 0x39 := hd.2
      omega
    split at h
    · rename_i hd
      have hf : d.val.toNat ≤ 0x66 := hd.2
      omega
    split at h
    · rename_i hd
      have hF : d.val.toNat ≤ 0x46 := hd.2
      omega
    · cases h
  constructor
  · simp [Utf8.encodeChar, hsmall]
  · rw [Utf8.toNat_ofNat (by omega), Char.ofNat_toNat]

theorem percentDecode_byte (e : Spelling) (b : UInt8) (bytes : List UInt8) :
    percentDecode (Utf8.encode (e.byte b) ++ bytes) = b :: percentDecode bytes := by
  have hhigh := hexValue?_digit e (b.toNat / 16)
  have hlow := hexValue?_digit e b.toNat
  obtain ⟨hhigh', hchar⟩ := encodeChar_of_hexValue? hhigh
  obtain ⟨hlow', hchar'⟩ := encodeChar_of_hexValue? hlow
  have hpercent : Utf8.encodeChar '%' = [0x25] := by decide
  have hb : b.toNat / 16 % 16 * 16 + b.toNat % 16 = b.toNat := by
    have := b.toNat_lt
    omega
  simp only [Spelling.byte, Utf8.encode, List.flatMap_cons, List.flatMap_nil, hpercent, hhigh', hlow',
    List.cons_append, List.nil_append, percentDecode, hchar, hchar', hhigh, hlow, hb, UInt8.ofNat_toNat]

theorem percentDecode_append {bs : List UInt8} (h : 0x25 ∉ bs) :
    percentDecode (bs ++ bytes) = bs ++ percentDecode bytes := by
  induction bs with
  | nil => rfl
  | cons b bs ih =>
    obtain ⟨hb, hbs⟩ := not_or.mp (mt List.mem_cons.mpr h)
    rw [List.cons_append, percentDecode, ih hbs, List.cons_append]
    intro _ _ _ hpercent
    exact absurd hpercent.symm hb

theorem percent_not_mem_encodeChar (hc : c ≠ '%') : 0x25 ∉ Utf8.encodeChar c := by
  have hne : c.toNat ≠ 0x25 := by
    intro h
    exact hc (Char.toNat_inj.mp h)
  have hvalid := Utf8.toNat_valid c
  simp only [Utf8.encodeChar]
  split
  · simp [← UInt8.toNat_inj]
    omega
  split
  · simp [← UInt8.toNat_inj]
    omega
  split
  · simp [← UInt8.toNat_inj]
    omega
  · simp [← UInt8.toNat_inj]
    omega

theorem percentDecode_plain (hc : c ≠ '%') :
    percentDecode (Utf8.encodeChar c ++ bytes) = Utf8.encodeChar c ++ percentDecode bytes :=
  percentDecode_append (percent_not_mem_encodeChar hc)

theorem percentDecode_bytes (e : Spelling) (bs bytes : List UInt8) :
    percentDecode (Utf8.encode (bs.flatMap e.byte) ++ bytes) = bs ++ percentDecode bytes := by
  induction bs with
  | nil => rfl
  | cons b bs ih =>
    rw [Utf8.encode] at ih ⊢
    rw [List.flatMap_cons, List.flatMap_append, List.append_assoc]
    exact (percentDecode_byte e b _).trans (congrArg (b :: ·) ih)

theorem percentDecode_char (e : Spelling) (c : Char) (bytes : List UInt8) :
    percentDecode (Utf8.encode (e.char c) ++ bytes) = Utf8.encodeChar c ++ percentDecode bytes := by
  rcases char_cases e c with hbytes | ⟨hself, hc, -⟩
  · rw [hbytes, percentDecode_bytes]
  · rw [hself, Utf8.encode, List.flatMap_singleton, percentDecode_plain hc]

theorem percentDecode_chars (e : Spelling) (s : List Char) (bytes : List UInt8) :
    percentDecode (Utf8.encode (s.flatMap e.char) ++ bytes) = Utf8.encode s ++ percentDecode bytes := by
  induction s with
  | nil => rfl
  | cons c s ih =>
    rw [Utf8.encode] at ih ⊢
    rw [List.flatMap_cons, List.flatMap_append, List.append_assoc]
    refine (percentDecode_char e c _).trans ?_
    rw [ih, Utf8.encode, Utf8.encode, List.flatMap_cons, List.append_assoc]

theorem keeps_pair {k : Char} (h : tildeEscape c = ['~', k]) :
    e.Keeps c ↔ e.chosen '~' = false ∧ e.chosen k = false := by
  simp [Spelling.Keeps, h]

/-- Where the characters of escapes stay as they are, all names do. -/
theorem keeps_of_not_chosen (h : e.chosen '~' = false) (h0 : e.chosen '0' = false)
    (h1 : e.chosen '1' = false) (c : Char) : e.Keeps c := by
  unfold Spelling.Keeps tildeEscape
  split
  · simp [h, h0]
  · split
    · simp [h, h1]
    · exact .inl rfl

/-- An escape is read when neither of its characters is written as bytes, and else both stay. -/
theorem unescape_pair (e : Spelling) {k : Char} (hk : k = '0' ∨ k = '1')
    (h : tildeEscape c = ['~', k]) (hescape : ∀ s, unescape ('~' :: k :: s) = c :: unescape s)
    (rest : List Char) :
    unescape (e.written c ++ rest) = (if e.Keeps c then [c] else e.written c) ++ unescape rest := by
  have hdigit : k ≠ '%' ∧ k ≠ '~' := by
    rcases hk with rfl | rfl
    · decide
    · decide
  have hwritten : e.written c = e.char '~' ++ e.char k := by simp [Spelling.written, h]
  rw [hwritten]
  cases htilde : e.chosen '~' with
  | true =>
    have hgone : '~' ∉ e.char '~' ++ e.char k := by
      rw [char_of_chosen htilde, List.mem_append, not_or]
      exact ⟨not_mem_bytes (by decide) (by decide), not_mem_char (by decide) (by decide) hdigit.2.symm⟩
    rw [if_neg (by simp [keeps_pair h, htilde]), unescape_append hgone]
  | false =>
    rw [char_of_not_chosen (by decide) htilde]
    cases hchosen : e.chosen k with
    | true =>
      -- The tilde stays and is followed by a percent sign.
      have hbytes : '~' ∉ (Utf8.encodeChar k).flatMap e.byte := not_mem_bytes (by decide) (by decide)
      rw [if_neg (by simp [keeps_pair h, hchosen]), char_of_chosen hchosen, List.append_assoc,
        List.singleton_append, unescape_tilde (head?_bytes_ne (by decide)) (head?_bytes_ne (by decide)),
        unescape_append hbytes, List.append_assoc, List.singleton_append]
    | false =>
      rw [if_pos ((keeps_pair h).mpr ⟨htilde, hchosen⟩), char_of_not_chosen hdigit.1 hchosen]
      exact hescape rest

/-- Any other character has no part in escapes. -/
theorem unescape_written_other (e : Spelling) (h : tildeEscape c = [c]) (hc : c ≠ '~')
    (rest : List Char) : unescape (e.written c ++ rest) = e.written c ++ unescape rest := by
  apply unescape_append
  have hwritten : e.written c = e.char c := by simp [Spelling.written, h]
  rw [hwritten]
  exact not_mem_char (by decide) (by decide) hc.symm

theorem encode_append (s t : List Char) : Utf8.encode (s ++ t) = Utf8.encode s ++ Utf8.encode t :=
  List.flatMap_append

/-- What is left of the escape is what was escaped, so the bytes behind it are the same in both cases. -/
theorem percentDecode_pair (e : Spelling) {k : Char} (hk : k = '0' ∨ k = '1')
    (h : tildeEscape c = ['~', k]) (hc : c ≠ '%')
    (hescape : ∀ s, unescape ('~' :: k :: s) = c :: unescape s) (rest : List Char) :
    percentDecode (Utf8.encode (unescape (e.written c ++ rest))) =
      Utf8.encode (e.read c) ++ percentDecode (Utf8.encode (unescape rest)) := by
  rw [unescape_pair e hk h hescape, Spelling.read, encode_append]
  split
  · rw [Utf8.encode, List.flatMap_singleton, percentDecode_plain hc]
  · exact percentDecode_chars e (tildeEscape c) _

theorem percentDecode_written (e : Spelling) (c : Char) (rest : List Char) :
    percentDecode (Utf8.encode (unescape (e.written c ++ rest))) =
      Utf8.encode (e.read c) ++ percentDecode (Utf8.encode (unescape rest)) := by
  by_cases htilde : c = '~'
  · subst htilde
    exact percentDecode_pair e (.inl rfl) rfl (by decide) unescape.eq_2 rest
  by_cases hslash : c = '/'
  · subst hslash
    exact percentDecode_pair e (.inr rfl) rfl (by decide) unescape.eq_1 rest
  · have h : tildeEscape c = [c] := by simp [tildeEscape, htilde, hslash]
    rw [unescape_written_other e h htilde, encode_append]
    refine (percentDecode_chars e (tildeEscape c) _).trans ?_
    rw [Spelling.read, h, ite_self]

theorem decodeSegment_segment (e : Spelling) (name : List Char) :
    decodeSegment (e.segment name) = name.flatMap e.read := by
  have hbytes : percentDecode (Utf8.encode (unescape (e.segment name))) =
      Utf8.encode (name.flatMap e.read) := by
    induction name with
    | nil => rfl
    | cons c name ih =>
      rw [Spelling.segment] at ih ⊢
      rw [List.flatMap_cons, percentDecode_written, ih, List.flatMap_cons, Utf8.encode, Utf8.encode,
        Utf8.encode, List.flatMap_append]
  rw [decodeSegment, hbytes, Utf8.decodeLossy, Utf8.parts_of_decode? (Utf8.decode?_encode _),
    List.map_map]
  exact List.map_id _

theorem length_read (e : Spelling) (c : Char) : (e.read c).length = if e.Keeps c then 1 else 2 := by
  unfold Spelling.read
  split
  · rfl
  · rename_i h
    have hlong : tildeEscape c ≠ [c] := fun hc => h (.inl hc)
    unfold tildeEscape at hlong ⊢
    split
    · rfl
    split
    · rfl
    · simp_all

theorem length_flatMap_read (e : Spelling) (name : List Char) :
    name.length ≤ (name.flatMap e.read).length := by
  induction name with
  | nil => simp
  | cons c name ih =>
    have hc := length_read e c
    rw [List.flatMap_cons, List.length_append, List.length_cons]
    split at hc
    · omega
    · omega

/-- A name is read back exactly when it loses no escape. -/
theorem flatMap_read_eq_iff {name : List Char} :
    name.flatMap e.read = name ↔ ∀ c ∈ name, e.Keeps c := by
  induction name with
  | nil => simp
  | cons c name ih =>
    have hc := length_read e c
    have hname := length_flatMap_read e name
    rw [List.forall_mem_cons, ← ih, List.flatMap_cons]
    constructor
    · intro h
      have hlength := congrArg List.length h
      rw [List.length_append, List.length_cons] at hlength
      have hkeeps : e.Keeps c := by
        apply Decidable.byContradiction
        intro hlost
        rw [if_neg hlost] at hc
        omega
      rw [Spelling.read, if_pos hkeeps, List.singleton_append] at h
      exact ⟨hkeeps, (List.cons.inj h).2⟩
    · intro h
      rw [h.2, Spelling.read, if_pos h.1, List.singleton_append]

theorem head?_toDigits {n : Nat} (h : 0 < n) : (Nat.toDigits 10 n).head? ≠ some '0' := by
  induction n using Nat.strongRecOn with
  | ind n ih =>
    by_cases hsmall : n < 10
    · have hdigits : ∀ k < 10, 0 < k → [Nat.digitChar k].head? ≠ some '0' := by decide
      rw [Nat.toDigits_of_lt_base hsmall]
      exact hdigits n hsmall h
    · have hfront := ih (n / 10) (by omega) (by omega)
      obtain ⟨c, s, hcs⟩ := List.exists_cons_of_ne_nil (Nat.toDigits_ne_nil (b := 10) (n := n / 10))
      rw [Nat.toDigits_of_base_le (by decide) (by omega), hcs]
      rwa [hcs] at hfront

theorem isDigit_of_mem_toDigits {n : Nat} (h : c ∈ Nat.toDigits 10 n) : isDigit c = true := by
  have hc := Nat.isDigit_of_mem_toDigits (by decide) (by decide) h
  simpa [Char.isDigit, isDigit, Char.le_def] using hc

theorem index?_toDigits (i : UInt64) : index? (Nat.toDigits 10 i.toNat) = some i.toNat := by
  have hall : (Nat.toDigits 10 i.toNat).all isDigit = true :=
    List.all_eq_true.mpr fun _ hc => isDigit_of_mem_toDigits hc
  have hvalue : (Nat.toDigits 10 i.toNat).foldl (fun n c => n * 10 + digitValue c) 0 = i.toNat := by
    have hread := Nat.ofDigitChars_ten_toDigits (n := i.toNat)
    rw [Nat.ofDigitChars_eq_foldl] at hread
    simpa only [Nat.mul_comm, digitValue] using hread
  unfold index?
  split
  · rename_i hnil
    exact absurd hnil Nat.toDigits_ne_nil
  · rename_i hzero
    have hpositive : 0 < i.toNat := by
      apply Nat.pos_of_ne_zero
      intro h0
      rw [h0] at hzero
      cases hzero
    refine absurd ?_ (head?_toDigits hpositive)
    rw [hzero]
    rfl
  · have hword : i.toNat ≤ wordLimit := by
      have := i.toNat_lt
      unfold wordLimit
      omega
    rw [if_pos hall, hvalue, if_pos hword]

theorem keeps_of_isDigit (h : isDigit c = true) : e.Keeps c := by
  have hother : c ≠ '~' ∧ c ≠ '/' := by
    constructor
    · rintro rfl
      cases h
    · rintro rfl
      cases h
  exact .inl (by simp [tildeEscape, hother])

theorem child?_of_below? {v u : Json} {p : Step} (h : v.below? p = some u) :
    child? v p.text = some u := by
  cases p with
  | name s =>
    cases v with
    | object members => simpa [Step.text, child?, below?, get?] using h
    | _ => cases h
  | item i =>
    cases v with
    | array items => simpa [Step.text, child?, index?_toDigits, below?] using h
    | _ => cases h

theorem at?_of_along? {v u : Json} {steps : List Step} (h : v.along? steps = some u) :
    v.at? (steps.map Step.text) = some u := by
  induction steps generalizing v with
  | nil => exact h
  | cons p steps ih =>
    obtain ⟨w, hw, hu⟩ := Option.bind_eq_some_iff.mp h
    rw [List.map_cons, at?, child?_of_below? hw]
    exact ih hu

/-- What a reference to a place is read as. -/
def readPlace (place : List (Step × Spelling)) : List (List Char) :=
  place.map fun x => x.1.text.flatMap x.2.read

theorem path_reference (place : List (Step × Spelling)) :
    path (reference place) = .ok (readPlace place) := by
  cases place with
  | nil => rfl
  | cons x place =>
    have hslash : ∀ s ∈ place.map fun x => x.2.segment x.1.text, '/' ∉ s := by
      intro s hs
      obtain ⟨y, -, rfl⟩ := List.mem_map.mp hs
      exact slash_not_mem_segment _ _
    have hsplit := splitOn_segments _ _ (slash_not_mem_segment x.2 x.1.text) hslash
    rw [List.flatMap_map] at hsplit
    simp only [path, reference, String.toList_ofList, List.flatMap_cons, List.cons_append, hsplit,
      List.map_cons, List.map_map, readPlace, decodeSegment_segment, Function.comp_def]

theorem readPlace_eq_iff {place : List (Step × Spelling)} :
    readPlace place = (place.map Prod.fst).map Step.text ↔
      ∀ x ∈ place, ∀ c ∈ x.1.text, x.2.Keeps c := by
  simp only [readPlace, List.map_map, List.map_inj_left, Function.comp_apply, flatMap_read_eq_iff]

/-- A document in which only the place of `v` can be reached by as many steps. -/
def nest (v : Json) : List Step → Json
  | [] => v
  | .name s :: steps => .object [(s, nest v steps)]
  | .item i :: steps => .array (List.replicate i.toNat .null ++ [nest v steps])

theorem along?_nest (v : Json) (steps : List Step) : (nest v steps).along? steps = some v := by
  induction steps with
  | nil => rfl
  | cons p steps ih =>
    cases p with
    | name s => simpa [nest, along?, below?, get?, Table.get?] using ih
    | item i => simpa [nest, along?, below?] using ih

theorem text_of_at?_nest {v u : Json} {place : List (Step × Spelling)}
    (h : (nest v (place.map Prod.fst)).at? (readPlace place) = some u) :
    readPlace place = (place.map Prod.fst).map Step.text := by
  induction place with
  | nil => rfl
  | cons x place ih =>
    obtain ⟨p, e⟩ := x
    obtain ⟨w, hw, hu⟩ := Option.bind_eq_some_iff.mp h
    have hstep : p.text.flatMap e.read = p.text ∧ w = nest v (place.map Prod.fst) := by
      cases p with
      | name s =>
        simp only [List.map_cons, nest, child?, Table.get?, Option.ite_none_right_eq_some,
          Option.some.injEq] at hw
        have hs := congrArg String.toList hw.1
        rw [String.toList_ofList] at hs
        exact ⟨hs.symm, hw.2.symm⟩
      | item i =>
        -- No escape stands in a position, so its digits are read back in every spelling.
        have hdigits : (Nat.toDigits 10 i.toNat).flatMap e.read = Nat.toDigits 10 i.toNat :=
          flatMap_read_eq_iff.mpr fun c hc => keeps_of_isDigit (isDigit_of_mem_toDigits hc)
        simp only [List.map_cons, nest, child?, Step.text, hdigits, index?_toDigits] at hw
        exact ⟨hdigits, by simpa using hw.symm⟩
    rw [hstep.2] at hu
    have hplace := ih hu
    simp only [readPlace, List.map_cons] at hplace ⊢
    rw [hstep.1, hplace]

theorem target_reference_eq_ok_iff {root v : Json} {place : List (Step × Spelling)} :
    target root (reference place) = .ok v ↔ root.at? (readPlace place) = some v := by
  rw [target_eq_ok_iff, path_reference]
  simp

/-- A reference to a place finds what stands there, whatever the document, exactly when no part of an
escape is written as bytes. -/
theorem reference_resolves_iff (place : List (Step × Spelling)) :
    (∀ root v : Json, root.along? (place.map Prod.fst) = some v → target root (reference place) = .ok v) ↔
      ∀ x ∈ place, ∀ c ∈ x.1.text, x.2.Keeps c := by
  rw [← readPlace_eq_iff]
  constructor
  · intro h
    have hfound := h _ _ (along?_nest .null (place.map Prod.fst))
    exact text_of_at?_nest (target_reference_eq_ok_iff.mp hfound)
  · intro h root v hv
    rw [target_reference_eq_ok_iff, h]
    exact at?_of_along? hv

/-- All characters of the path but its letters written as bytes, and a plain position behind it. -/
theorem reference_resolves_bytes :
    let e : Spelling := { chosen := fun c => !c.isAlpha && c != '~' && c != '1' && c != '0', capitals := false }
    let place : List (Step × Spelling) := [(.name "paths", {}), (.name "/ä~/{a}%", e), (.item 1, {})]
    let root : Json := .object [("paths", .object [("/ä~/{a}%", .array [.null, .bool true])])]
    reference place = "#/paths/~1%c3%a4~0~1%7ba%7d%25/1" ∧ (∀ x ∈ place, ∀ c ∈ x.1.text, x.2.Keeps c) ∧
      target root (reference place) = .ok (.bool true) := by
  intro e place root
  have hkeeps : ∀ x ∈ place, ∀ c ∈ x.1.text, x.2.Keeps c := by
    intro x hx c _
    simp only [place, List.mem_cons, List.not_mem_nil, or_false] at hx
    rcases hx with rfl | rfl | rfl
    · exact keeps_of_not_chosen rfl rfl rfl c
    · exact keeps_of_not_chosen rfl rfl rfl c
    · exact keeps_of_not_chosen rfl rfl rfl c
  have hfound : root.along? (place.map Prod.fst) = some (.bool true) := rfl
  exact ⟨by decide, hkeeps, (reference_resolves_iff place).mpr hkeeps root _ hfound⟩

/-- With its tilde as bytes, the escape of a slash is not undone. -/
theorem reference_loses_escape :
    let place : List (Step × Spelling) := [(.name "a/b", { chosen := (· == '~') })]
    let root : Json := .object [("a/b", .bool true)]
    reference place = "#/a%7E1b" ∧ root.along? (place.map Prod.fst) = some (.bool true) ∧
      target root "#/a%7E1b" = .error (.unresolved "#/a%7E1b") := by
  exact ⟨by decide, rfl, rfl⟩

end RestRoutes.Json
