import RestRoutes.Text.Utf8

namespace RestRoutes.Text.Utf8

theorem encodeChar_length (c : Char) :
    0 < (encodeChar c).length ∧ (encodeChar c).length ≤ 4 := by
  simp only [encodeChar]
  repeat' split
  all_goals simp

theorem size_append (s r : List Char) : size (s ++ r) = size s + size r := by
  induction s with
  | nil => simp [size]
  | cons c s ih =>
    rw [List.cons_append, size, size, ih]
    omega

theorem length_encode (s : List Char) : (encode s).length = size s := by
  induction s with
  | nil => rfl
  | cons c s ih =>
    rw [encode] at ih ⊢
    rw [List.flatMap_cons, List.length_append, ih, size]

theorem le_size_drop {s : List Char} {n : Nat} (h : n ≤ s.length) : n + size (s.drop n) ≤ size s := by
  induction s generalizing n with
  | nil => simp_all [size]
  | cons c s ih =>
    have hc := (encodeChar_length c).1
    cases n with
    | zero => simp
    | succ n =>
      have := ih (by simpa using h)
      rw [List.drop_succ_cons, size]
      omega

variable {u : Unfinished} {b : UInt8} {bytes : List UInt8} {k bits : Nat}

theorem partsFrom_opens (h : lead b = .opens u) :
    partsFrom none (b :: bytes) = partsFrom (some u) bytes := by
  simp [partsFrom, step, start, h]

theorem toNat_ofNat {n : Nat} (h : n < 0x100) : (UInt8.ofNat n).toNat = n := by
  simp; omega

/-- A byte behind the first, by the bits that it adds. -/
theorem partsFrom_more {rest : List UInt8} (ho : u.owed = k + 2) (hbits : bits < 0x40)
    (hlow : u.low.toNat ≤ 0x80 + bits) (hhigh : 0x80 + bits ≤ u.high.toNat) :
    partsFrom (some u) (.ofNat (0x80 + bits) :: rest) =
      partsFrom (some ⟨k + 1, 0x80, 0xbf, u.bits * 0x40 + bits⟩) rest := by
  have hb := toNat_ofNat (n := 0x80 + bits) (by omega)
  generalize UInt8.ofNat (0x80 + bits) = b at hb
  simp [partsFrom, step, UInt8.le_iff_toNat_le, hb, hlow, hhigh, ho]

theorem partsFrom_last {rest : List UInt8} (ho : u.owed = 1) (hbits : bits < 0x40)
    (hlow : u.low.toNat ≤ 0x80 + bits) (hhigh : 0x80 + bits ≤ u.high.toNat) :
    partsFrom (some u) (.ofNat (0x80 + bits) :: rest) =
      some (.ofNat (u.bits * 0x40 + bits)) :: partsFrom none rest := by
  have hb := toNat_ofNat (n := 0x80 + bits) (by omega)
  generalize UInt8.ofNat (0x80 + bits) = b at hb
  simp [partsFrom, step, UInt8.le_iff_toNat_le, hb, hlow, hhigh, ho]

theorem toNat_valid (c : Char) : c.toNat < 0xd800 ∨ 0xdfff < c.toNat ∧ c.toNat < 0x110000 := c.valid

theorem lead_ofNat {n : Nat} (h : n < 0x100) : lead (.ofNat n) =
    if n < 0x80 then .whole (.ofNat n)
    else if n < 0xc2 then .illFormed
    else if n < 0xe0 then .opens ⟨1, 0x80, 0xbf, n - 0xc0⟩
    else if n < 0xf0 then
      .opens ⟨2, if n = 0xe0 then 0xa0 else 0x80, if n = 0xed then 0x9f else 0xbf, n - 0xe0⟩
    else if n < 0xf5 then
      .opens ⟨3, if n = 0xf0 then 0x90 else 0x80, if n = 0xf4 then 0x8f else 0xbf, n - 0xf0⟩
    else .illFormed := by
  simp only [lead, UInt8.lt_iff_toNat_lt, ← UInt8.toNat_inj, toNat_ofNat h]
  rfl

/-- The bytes of a character are read as that character. -/
theorem partsFrom_encodeChar (c : Char) (bytes : List UInt8) :
    partsFrom none (encodeChar c ++ bytes) = some c :: partsFrom none bytes := by
  have hvalid := toNat_valid c
  generalize hn : c.toNat = n at hvalid
  have hc : c = .ofNat n := by rw [← hn, Char.ofNat_toNat]
  subst hc
  simp only [encodeChar, hn]
  split
  · rename_i h
    have hlead := lead_ofNat (n := n) (by omega)
    rw [if_pos h] at hlead
    simp [partsFrom, step, start, hlead]
  split
  · have hlead := lead_ofNat (n := 0xc0 + n / 0x40) (by omega)
    rw [if_neg (by omega), if_neg (by omega), if_pos (by omega)] at hlead
    have hbits : (0xc0 + n / 0x40 - 0xc0) * 0x40 + n % 0x40 = n := by omega
    rw [List.cons_append, partsFrom_opens hlead, List.cons_append, List.nil_append,
      partsFrom_last rfl (by omega) (Nat.le_add_right _ _) (by show _ ≤ 0xbf; omega), hbits]
  split
  · have hlead := lead_ofNat (n := 0xe0 + n / 0x1000) (by omega)
    rw [if_neg (by omega), if_neg (by omega), if_neg (by omega), if_pos (by omega)] at hlead
    have hbits : ((0xe0 + n / 0x1000 - 0xe0) * 0x40 + n / 0x40 % 0x40) * 0x40 + n % 0x40 = n := by omega
    rw [List.cons_append, partsFrom_opens hlead, List.cons_append,
      partsFrom_more rfl (by omega) ?_ ?_, List.cons_append, List.nil_append,
      partsFrom_last rfl (by omega) (Nat.le_add_right _ _) (by show _ ≤ 0xbf; omega), hbits]
    · dsimp only
      split
      · show 0xa0 ≤ _
        omega
      · exact Nat.le_add_right _ _
    · dsimp only
      split
      · show _ ≤ 0x9f
        omega
      · show _ ≤ 0xbf
        omega
  · have hlead := lead_ofNat (n := 0xf0 + n / 0x40000) (by omega)
    rw [if_neg (by omega), if_neg (by omega), if_neg (by omega), if_neg (by omega),
      if_pos (by omega)] at hlead
    have hbits : (((0xf0 + n / 0x40000 - 0xf0) * 0x40 + n / 0x1000 % 0x40) * 0x40 + n / 0x40 % 0x40) *
        0x40 + n % 0x40 = n := by omega
    rw [List.cons_append, partsFrom_opens hlead, List.cons_append,
      partsFrom_more rfl (by omega) ?_ ?_, List.cons_append,
      partsFrom_more rfl (by omega) (Nat.le_add_right _ _) (by show _ ≤ 0xbf; omega), List.cons_append,
      List.nil_append,
      partsFrom_last rfl (by omega) (Nat.le_add_right _ _) (by show _ ≤ 0xbf; omega), hbits]
    · dsimp only
      split
      · show 0x90 ≤ _
        omega
      · exact Nat.le_add_right _ _
    · dsimp only
      split
      · show _ ≤ 0x8f
        omega
      · show _ ≤ 0xbf
        omega

theorem decode?_encode (s : List Char) : decode? (encode s) = some s := by
  have hparts : parts (encode s) = s.map some := by
    induction s with
    | nil => rfl
    | cons c s ih =>
      rw [parts, encode, List.flatMap_cons, partsFrom_encodeChar, List.map_cons]
      exact congrArg _ ih
  rw [decode?, hparts, List.mapM_map]
  exact List.mapM_pure.trans (congrArg some (List.map_id s))

variable {s : List Char}

theorem parts_of_decode? (h : decode? bytes = some s) : parts bytes = s.map some := by
  rw [decode?] at h
  generalize parts bytes = cs at h ⊢
  induction cs generalizing s with
  | nil =>
    cases h
    rfl
  | cons c cs ih =>
    rw [List.mapM_cons] at h
    cases c with
    | none => cases h
    | some c =>
      obtain ⟨c', hc, h⟩ := Option.bind_eq_some_iff.mp h
      obtain ⟨rest, hrest, h⟩ := Option.bind_eq_some_iff.mp h
      cases hc
      cases h
      rw [List.map_cons, ih hrest]

theorem toNat_charOfNat {n : Nat} (h : n < 0xd800 ∨ 0xdfff < n ∧ n < 0x110000) :
    (Char.ofNat n).toNat = n := by
  rw [Char.ofNat, dif_pos h]
  rfl

/-- Where a byte is owed, a text has one, and within the bounds. -/
theorem last_of_partsFrom {low high : UInt8}
    (h : partsFrom (some ⟨1, low, high, bits⟩) bytes = s.map some) :
    ∃ b rest s', bytes = b :: rest ∧ low.toNat ≤ b.toNat ∧ b.toNat ≤ high.toNat ∧
      s = .ofNat (bits * 0x40 + (b.toNat - 0x80)) :: s' ∧ partsFrom none rest = s'.map some := by
  cases bytes with
  | nil => cases s <;> simp [partsFrom] at h
  | cons b rest =>
    rw [partsFrom, step] at h
    split at h
    · rename_i hb
      simp only [Bool.and_eq_true, decide_eq_true_eq, UInt8.le_iff_toNat_le] at hb
      cases s with
      | nil => cases h
      | cons c s' =>
        obtain ⟨hc, hrest⟩ := List.cons.inj h
        exact ⟨b, rest, s', rfl, hb.1, hb.2, by rw [Option.some.inj hc], hrest⟩
    · cases s <;> simp at h

theorem more_of_partsFrom {low high : UInt8}
    (h : partsFrom (some ⟨k + 2, low, high, bits⟩) bytes = s.map some) :
    ∃ b rest, bytes = b :: rest ∧ low.toNat ≤ b.toNat ∧ b.toNat ≤ high.toNat ∧
      partsFrom (some ⟨k + 1, 0x80, 0xbf, bits * 0x40 + (b.toNat - 0x80)⟩) rest = s.map some := by
  cases bytes with
  | nil => cases s <;> simp [partsFrom] at h
  | cons b rest =>
    rw [partsFrom, step] at h
    split at h
    · rename_i hb
      simp only [Bool.and_eq_true, decide_eq_true_eq, UInt8.le_iff_toNat_le] at hb
      rw [if_neg (by simp)] at h
      exact ⟨b, rest, rfl, hb.1, hb.2, h⟩
    · cases s <;> simp at h

theorem ofNat_eq {k : Nat} (h : b.toNat = k) : UInt8.ofNat k = b := by
  rw [← h, UInt8.ofNat_toNat]

theorem lead_eq (b : UInt8) : lead b =
    if b.toNat < 0x80 then .whole (.ofNat b.toNat)
    else if b.toNat < 0xc2 then .illFormed
    else if b.toNat < 0xe0 then .opens ⟨1, 0x80, 0xbf, b.toNat - 0xc0⟩
    else if b.toNat < 0xf0 then
      .opens ⟨2, if b.toNat = 0xe0 then 0xa0 else 0x80, if b.toNat = 0xed then 0x9f else 0xbf,
        b.toNat - 0xe0⟩
    else if b.toNat < 0xf5 then
      .opens ⟨3, if b.toNat = 0xf0 then 0x90 else 0x80, if b.toNat = 0xf4 then 0x8f else 0xbf,
        b.toNat - 0xf0⟩
    else .illFormed := by
  have h := lead_ofNat (n := b.toNat) b.toNat_lt
  rwa [UInt8.ofNat_toNat] at h

theorem encodeChar_ofNat {n : Nat} (h : n < 0xd800 ∨ 0xdfff < n ∧ n < 0x110000) :
    encodeChar (.ofNat n) =
      if n < 0x80 then [.ofNat n]
      else if n < 0x800 then [.ofNat (0xc0 + n / 0x40), .ofNat (0x80 + n % 0x40)]
      else if n < 0x10000 then
        [.ofNat (0xe0 + n / 0x1000), .ofNat (0x80 + n / 0x40 % 0x40), .ofNat (0x80 + n % 0x40)]
      else [.ofNat (0xf0 + n / 0x40000), .ofNat (0x80 + n / 0x1000 % 0x40),
        .ofNat (0x80 + n / 0x40 % 0x40), .ofNat (0x80 + n % 0x40)] := by
  rw [encodeChar, toNat_charOfNat h]

/-- A text begins with a character, and its bytes with those of that character. -/
def Begins (bytes : List UInt8) (s : List Char) : Prop :=
  ∃ c rest s', s = c :: s' ∧ bytes = encodeChar c ++ rest ∧ partsFrom none rest = s'.map some

theorem begins_two (hlow : 0xc2 ≤ b.toNat) (hhigh : b.toNat < 0xe0)
    (h : partsFrom (some ⟨1, 0x80, 0xbf, b.toNat - 0xc0⟩) bytes = s.map some) : Begins (b :: bytes) s := by
  obtain ⟨c, rest, s', rfl, hc, hc', rfl, hrest⟩ := last_of_partsFrom h
  replace hc : 0x80 ≤ c.toNat := hc
  replace hc' : c.toNat ≤ 0xbf := hc'
  refine ⟨_, rest, s', rfl, ?_, hrest⟩
  rw [encodeChar_ofNat (by omega), if_neg (by omega), if_pos (by omega),
    ofNat_eq (b := b) (by omega), ofNat_eq (b := c) (by omega)]
  rfl

theorem begins_three {low high : UInt8} (hb : 0xe0 ≤ b.toNat) (hb' : b.toNat < 0xf0)
    (hlow : 0x80 ≤ low.toNat ∧ (b.toNat = 0xe0 → 0xa0 ≤ low.toNat))
    (hhigh : high.toNat ≤ 0xbf ∧ (b.toNat = 0xed → high.toNat ≤ 0x9f))
    (h : partsFrom (some ⟨2, low, high, b.toNat - 0xe0⟩) bytes = s.map some) :
    Begins (b :: bytes) s := by
  obtain ⟨c, rest, rfl, hc, hc', hmore⟩ := more_of_partsFrom h
  obtain ⟨d, rest, s', rfl, hd, hd', rfl, hrest⟩ := last_of_partsFrom hmore
  replace hd : 0x80 ≤ d.toNat := hd
  replace hd' : d.toNat ≤ 0xbf := hd'
  refine ⟨_, rest, s', rfl, ?_, hrest⟩
  rw [encodeChar_ofNat (by omega), if_neg (by omega), if_neg (by omega), if_pos (by omega),
    ofNat_eq (b := b) (by omega), ofNat_eq (b := c) (by omega), ofNat_eq (b := d) (by omega)]
  rfl

theorem begins_four {low high : UInt8} (hb : 0xf0 ≤ b.toNat) (hb' : b.toNat < 0xf5)
    (hlow : 0x80 ≤ low.toNat ∧ (b.toNat = 0xf0 → 0x90 ≤ low.toNat))
    (hhigh : high.toNat ≤ 0xbf ∧ (b.toNat = 0xf4 → high.toNat ≤ 0x8f))
    (h : partsFrom (some ⟨3, low, high, b.toNat - 0xf0⟩) bytes = s.map some) :
    Begins (b :: bytes) s := by
  obtain ⟨c, rest, rfl, hc, hc', hmore⟩ := more_of_partsFrom h
  obtain ⟨d, rest, rfl, hd, hd', hmore⟩ := more_of_partsFrom hmore
  obtain ⟨e, rest, s', rfl, he, he', rfl, hrest⟩ := last_of_partsFrom hmore
  replace hd : 0x80 ≤ d.toNat := hd
  replace hd' : d.toNat ≤ 0xbf := hd'
  replace he : 0x80 ≤ e.toNat := he
  replace he' : e.toNat ≤ 0xbf := he'
  refine ⟨_, rest, s', rfl, ?_, hrest⟩
  rw [encodeChar_ofNat (by omega), if_neg (by omega), if_neg (by omega), if_neg (by omega),
    ofNat_eq (b := b) (by omega), ofNat_eq (b := c) (by omega), ofNat_eq (b := d) (by omega),
    ofNat_eq (b := e) (by omega)]
  rfl

/-- The first character of a text comes from exactly the bytes that are written for it. -/
theorem begins_of_partsFrom (h : partsFrom none (b :: bytes) = s.map some) : Begins (b :: bytes) s := by
  have hb := b.toNat_lt
  have hlead := lead_eq b
  by_cases h80 : b.toNat < 0x80
  · rw [if_pos h80] at hlead
    rw [partsFrom, step, start, hlead] at h
    cases s with
    | nil => cases h
    | cons c s' =>
      obtain ⟨hc, hrest⟩ := List.cons.inj h
      obtain rfl := Option.some.inj hc
      refine ⟨_, bytes, s', rfl, ?_, hrest⟩
      rw [encodeChar_ofNat (by omega), if_pos h80, UInt8.ofNat_toNat]
      rfl
  rw [if_neg h80] at hlead
  by_cases hc2 : b.toNat < 0xc2
  · rw [if_pos hc2] at hlead
    rw [partsFrom, step, start, hlead] at h
    cases s <;> cases h
  rw [if_neg hc2] at hlead
  by_cases he0 : b.toNat < 0xe0
  · rw [if_pos he0] at hlead
    rw [partsFrom_opens hlead] at h
    exact begins_two (by omega) he0 h
  rw [if_neg he0] at hlead
  by_cases hf0 : b.toNat < 0xf0
  · rw [if_pos hf0] at hlead
    rw [partsFrom_opens hlead] at h
    refine begins_three (by omega) hf0 ?_ ?_ h
    · split
      · exact ⟨by decide, fun _ => by decide⟩
      · exact ⟨by decide, fun he => absurd he ‹_›⟩
    · split
      · exact ⟨by decide, fun _ => by decide⟩
      · exact ⟨by decide, fun he => absurd he ‹_›⟩
  rw [if_neg hf0] at hlead
  by_cases hf5 : b.toNat < 0xf5
  · rw [if_pos hf5] at hlead
    rw [partsFrom_opens hlead] at h
    refine begins_four (by omega) hf5 ?_ ?_ h
    · split
      · exact ⟨by decide, fun _ => by decide⟩
      · exact ⟨by decide, fun he => absurd he ‹_›⟩
    · split
      · exact ⟨by decide, fun _ => by decide⟩
      · exact ⟨by decide, fun he => absurd he ‹_›⟩
  · rw [if_neg hf5] at hlead
    rw [partsFrom, step, start, hlead] at h
    cases s <;> cases h

theorem encode_of_partsFrom (bytes : List UInt8) (s : List Char)
    (h : partsFrom none bytes = s.map some) : bytes = encode s := by
  cases bytes with
  | nil =>
    cases s with
    | nil => rfl
    | cons c s => cases h
  | cons b bytes =>
    obtain ⟨c, rest, s', rfl, hbytes, hrest⟩ := begins_of_partsFrom h
    have hshorter : rest.length < (b :: bytes).length := by
      have hc := (encodeChar_length c).1
      rw [hbytes, List.length_append]
      omega
    rw [hbytes, encode, List.flatMap_cons, encode_of_partsFrom rest s' hrest]
    rfl
termination_by bytes.length

/-- Bytes are well-formed in one way only: as they are written for the text that they are read as. -/
theorem decode?_eq_some_iff : decode? bytes = some s ↔ bytes = encode s := by
  constructor
  · intro h
    exact encode_of_partsFrom bytes s (parts_of_decode? h)
  · rintro rfl
    exact decode?_encode s

end RestRoutes.Text.Utf8
