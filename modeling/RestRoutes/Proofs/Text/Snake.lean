import RestRoutes.Proofs.Text.Utf8
import RestRoutes.Text.Snake

namespace RestRoutes.Text

/-- A character that divides words only if it is a capital of ASCII. -/
def IsWordChar (c : Char) : Prop := c ≠ '_' ∧ (isUpper c = true → c.isUpper = true)

theorem capital_iff {c : Char} : c.isUpper = true ↔ 65 ≤ c.toNat ∧ c.toNat ≤ 90 := by
  change decide ('A'.val ≤ c.val ∧ c.val ≤ 'Z'.val) = true ↔ _
  simp [UInt32.le_iff_toNat_le, ← Char.toNat_val]

theorem find?_caseRuns {n : Nat} (h : 65 ≤ n ∧ n ≤ 90) :
    caseRuns.find? (·.has n) = some ⟨65, 90, 1, 32⟩ := by
  rw [caseRuns, List.find?_cons_of_pos]
  simp [CaseRun.has, h, Nat.mod_one]

theorem toLower_capital {c : Char} (h : c.isUpper = true) : toLower c = [Char.ofNat (c.toNat + 32)] := by
  have hn := capital_iff.mp h
  have hdotted : c ≠ '\u0130' := by
    rintro rfl
    simp at hn
  rw [toLower, if_neg hdotted, find?_caseRuns hn]
  rfl

theorem toLower_injective {c d : Char} (hc : c.isUpper = true) (hd : d.isUpper = true)
    (h : toLower c = toLower d) : c = d := by
  have hvalid {e : Char} (he : e.isUpper = true) :
      (Char.ofNat (e.toNat + 32)).toNat = e.toNat + 32 := by
    have := capital_iff.mp he
    exact Utf8.toNat_charOfNat (.inl (by omega))
  rw [toLower_capital hc, toLower_capital hd, List.cons.injEq] at h
  have hn := congrArg Char.toNat h.1
  rw [hvalid hc, hvalid hd, Nat.add_right_cancel_iff] at hn
  exact Char.toNat_inj.mp hn

theorem snakeFrom_capital {c : Char} (h : isUpper c = true) (first : Bool) (s : List Char) :
    snakeFrom first (c :: s) = (if first then [] else ['_']) ++ toLower c ++ snakeFrom false s := by
  rw [snakeFrom, if_pos h]

theorem snakeFrom_small {c : Char} (h : ¬ isUpper c = true) (first : Bool) (s : List Char) :
    snakeFrom first (c :: s) = c :: snakeFrom false s := by
  rw [snakeFrom, if_neg h]
  rfl

theorem toLower_append_inj {c d : Char} {s t : List Char} (hc : c.isUpper = true) (hd : d.isUpper = true)
    (h : toLower c ++ s = toLower d ++ t) : c = d ∧ s = t := by
  have hlength : (toLower c).length = (toLower d).length := by
    rw [toLower_capital hc, toLower_capital hd]
    rfl
  obtain ⟨hlower, hrest⟩ := List.append_inj h hlength
  exact ⟨toLower_injective hc hd hlower, hrest⟩

/-- An underscore tells a capital from other characters, but for the first of a text. -/
theorem snakeFrom_cons_inj {first : Bool} {c d : Char} {s t : List Char} (hc : IsWordChar c)
    (hd : IsWordChar d) (hfirst : first = true → isUpper c = isUpper d)
    (h : snakeFrom first (c :: s) = snakeFrom first (d :: t)) :
    c = d ∧ snakeFrom false s = snakeFrom false t := by
  by_cases hcu : isUpper c = true <;> by_cases hdu : isUpper d = true
  · rw [snakeFrom_capital hcu, snakeFrom_capital hdu, List.append_assoc, List.append_assoc] at h
    exact toLower_append_inj (hc.2 hcu) (hd.2 hdu) (List.append_cancel_left h)
  · cases first with
    | true => exact absurd (hfirst rfl ▸ hcu) hdu
    | false =>
      rw [snakeFrom_capital hcu, snakeFrom_small hdu] at h
      exact absurd (List.cons.inj h).1.symm hd.1
  · cases first with
    | true => exact absurd ((hfirst rfl).trans hdu) hcu
    | false =>
      rw [snakeFrom_small hcu, snakeFrom_capital hdu] at h
      exact absurd (List.cons.inj h).1 hc.1
  · rw [snakeFrom_small hcu, snakeFrom_small hdu] at h
    exact List.cons.inj h

theorem snakeFrom_cons_ne_nil {c : Char} (hc : IsWordChar c) (first : Bool) (s : List Char) :
    snakeFrom first (c :: s) ≠ [] := by
  by_cases hcu : isUpper c = true
  · rw [snakeFrom_capital hcu, toLower_capital (hc.2 hcu)]
    simp
  · rw [snakeFrom_small hcu]
    exact List.cons_ne_nil _ _

theorem snakeFrom_injective {first : Bool} {s t : List Char} (hs : ∀ c ∈ s, IsWordChar c)
    (ht : ∀ c ∈ t, IsWordChar c) (hfirst : first = true → s.head?.any isUpper = t.head?.any isUpper)
    (h : snakeFrom first s = snakeFrom first t) : s = t := by
  induction s generalizing first t with
  | nil =>
    cases t with
    | nil => rfl
    | cons d t => exact absurd h.symm (snakeFrom_cons_ne_nil (ht d List.mem_cons_self) first t)
  | cons c s ih =>
    obtain ⟨hc, hs⟩ := List.forall_mem_cons.mp hs
    cases t with
    | nil => exact absurd h (snakeFrom_cons_ne_nil hc first s)
    | cons d t =>
      obtain ⟨hd, hrest⟩ := List.forall_mem_cons.mp ht
      obtain ⟨rfl, htail⟩ := snakeFrom_cons_inj hc hd hfirst h
      have hst : s = t := ih hs hrest (fun h => absurd h Bool.false_ne_true) htail
      rw [hst]

theorem snakeCase_injective {a b : String} (ha : ∀ c ∈ a.toList, IsWordChar c)
    (hb : ∀ c ∈ b.toList, IsWordChar c)
    (hfirst : a.toList.head?.any isUpper = b.toList.head?.any isUpper)
    (h : snakeCase a = snakeCase b) : a = b :=
  String.toList_inj.mp (snakeFrom_injective ha hb (fun _ => hfirst) (String.ofList_inj.mp h))

theorem snakeFrom_of_small {first : Bool} {s : List Char} (h : ∀ c ∈ s, isUpper c = false) :
    snakeFrom first s = s := by
  induction s generalizing first with
  | nil => rfl
  | cons c s ih =>
    obtain ⟨hc, hs⟩ := List.forall_mem_cons.mp h
    rw [snakeFrom_small (by simp [hc]), ih hs]

theorem snakeCase_of_small {a : String} (h : ∀ c ∈ a.toList, isUpper c = false) : snakeCase a = a := by
  rw [snakeCase, snakeFrom_of_small h, String.ofList_toList]

/-- Names of one style: divided by capitals, of which all or none begin with one, or without capitals. -/
inductive OneStyle (names : List String) : Prop where
  | capitals (words : ∀ a ∈ names, ∀ c ∈ a.toList, IsWordChar c)
      (first : ∀ a ∈ names, ∀ b ∈ names, a.toList.head?.any isUpper = b.toList.head?.any isUpper)
  | small (words : ∀ a ∈ names, ∀ c ∈ a.toList, isUpper c = false)

/-- No two of the names have one snake case. -/
def ApartInSnakeCase (names : List String) : Prop :=
  ∀ a ∈ names, ∀ b ∈ names, a ≠ b → snakeCase a ≠ snakeCase b

theorem OneStyle.apart {names : List String} (h : OneStyle names) : ApartInSnakeCase names := by
  intro a ha b hb hne hsame
  apply hne
  cases h with
  | capitals words first => exact snakeCase_injective (words a ha) (words b hb) (first a ha b hb) hsame
  | small words => rwa [snakeCase_of_small (words a ha), snakeCase_of_small (words b hb)] at hsame

end RestRoutes.Text
