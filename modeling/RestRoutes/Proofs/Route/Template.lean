import RestRoutes.Proofs.Except
import RestRoutes.Route.Build

namespace RestRoutes

namespace Template

variable {c : Char} {offset : Nat} {done names : List String} {inside : Option (List Char)}
  {s : List Char}

/-- What one character of a template does. -/
theorem placeholdersFrom_cons (h : placeholdersFrom offset done inside (c :: s) = .ok names) :
    (c = '\x7b' ∧ inside = none ∧ placeholdersFrom (offset + 1) done (some []) s = .ok names) ∨
    (c = '\x7d' ∧ ∃ letters, inside = some letters ∧ letters ≠ [] ∧ String.ofList letters.reverse ∉ done ∧
      placeholdersFrom (offset + 1) (done ++ [String.ofList letters.reverse]) none s = .ok names) ∨
    (c ≠ '\x7b' ∧ c ≠ '\x7d' ∧
      ∃ offset, placeholdersFrom offset done (inside.map (c :: ·)) s = .ok names) := by
  simp only [placeholdersFrom] at h
  split at h
  · rename_i hc
    split at h
    · cases h
    · exact .inl ⟨hc, rfl, h⟩
  rename_i hopen
  split at h
  · rename_i hc
    split at h
    · cases h
    · cases h
    · rename_i letters hletters
      split at h
      · cases h
      · rename_i hnew
        exact .inr (.inl ⟨hc, letters, rfl, hletters, hnew, h⟩)
  · rename_i hclose
    exact .inr (.inr ⟨hopen, hclose, _, h⟩)

/-- A name is there before, or made of what is read. -/
theorem mem_of_mem_placeholdersFrom (h : placeholdersFrom offset done inside s = .ok names) :
    ∀ name ∈ names, name ∈ done ∨ ∀ c ∈ name.toList, c ∈ inside.getD [] ∨ c ∈ s := by
  induction s generalizing offset done inside with
  | nil =>
    rw [placeholdersFrom] at h
    split at h
    · cases h
    · cases h
      exact fun name hname => .inl hname
  | cons c s ih =>
    intro name hname
    rcases placeholdersFrom_cons h with
      ⟨rfl, rfl, hrest⟩ | ⟨rfl, letters, rfl, -, -, hrest⟩ | ⟨-, -, offset, hrest⟩
    · refine (ih hrest name hname).imp_right fun hread d hd => ?_
      exact (hread d hd).imp_right (List.mem_cons_of_mem _)
    · rcases ih hrest name hname with hdone | hread
      · rcases List.mem_append.mp hdone with hdone | hnew
        · exact .inl hdone
        · rw [List.mem_singleton.mp hnew, String.toList_ofList]
          exact .inr fun d hd => .inl (List.mem_reverse.mp hd)
      · exact .inr fun d hd => .inr ((hread d hd).elim nofun (List.mem_cons_of_mem _))
    · refine (ih hrest name hname).imp_right fun hread d hd => ?_
      cases inside with
      | none => exact (hread d hd).imp_right (List.mem_cons_of_mem _)
      | some letters =>
        rcases hread d hd with hd | hd
        · rcases List.mem_cons.mp hd with rfl | hd
          · exact .inr List.mem_cons_self
          · exact .inl hd
        · exact .inr (List.mem_cons_of_mem _ hd)

/-- No name is lost, nor is a part of one. -/
theorem placeholdersFrom_keeps (h : placeholdersFrom offset done inside s = .ok names) :
    (∀ name ∈ done, name ∈ names) ∧
    ∀ c ∈ inside.getD [], ∃ name ∈ names, c ∈ name.toList := by
  induction s generalizing offset done inside with
  | nil =>
    rw [placeholdersFrom] at h
    split at h
    · cases h
    · rename_i hinside
      cases h
      rw [Option.not_isSome_iff_eq_none.mp hinside]
      exact ⟨fun name hname => hname, nofun⟩
  | cons c s ih =>
    rcases placeholdersFrom_cons h with
      ⟨rfl, rfl, hrest⟩ | ⟨rfl, letters, rfl, -, -, hrest⟩ | ⟨-, -, offset, hrest⟩
    · exact ⟨(ih hrest).1, nofun⟩
    · refine ⟨fun name hname => (ih hrest).1 name (List.mem_append_left _ hname), fun d hd => ?_⟩
      refine ⟨_, (ih hrest).1 _ (List.mem_append_right _ (List.mem_singleton_self _)), ?_⟩
      rw [String.toList_ofList]
      exact List.mem_reverse.mpr hd
    · refine ⟨(ih hrest).1, fun d hd => (ih hrest).2 d ?_⟩
      cases inside with
      | none => cases hd
      | some letters => exact List.mem_cons_of_mem c hd

theorem mem_of_placeholdersFrom (h : placeholdersFrom offset done inside s = .ok names)
    (slots : List (List Char)) : ∀ c ∈ s, c = '\x7b' ∨ c = '\x7d' ∨ (∃ name ∈ names, c ∈ name.toList) ∨
      c ∈ substituteFrom inside.isSome slots s := by
  induction s generalizing offset done inside slots with
  | nil => nofun
  | cons c s ih =>
    intro d hd
    rcases placeholdersFrom_cons h with
      ⟨rfl, rfl, hrest⟩ | ⟨rfl, letters, rfl, -, -, hrest⟩ | ⟨hopen, hclose, offset, hrest⟩
    · rcases List.mem_cons.mp hd with rfl | hd
      · exact .inl rfl
      · simpa [substituteFrom] using ih hrest slots d hd
    · rcases List.mem_cons.mp hd with rfl | hd
      · exact .inr (.inl rfl)
      · rw [substituteFrom, if_neg (by decide), if_pos rfl]
        refine (ih hrest slots.tail d hd).imp_right (Or.imp_right (Or.imp_right fun hd => ?_))
        exact List.mem_append_right _ (List.mem_cons_of_mem _ hd)
    · cases inside with
      | none =>
        rw [substituteFrom, if_neg hopen, if_neg hclose]
        rcases List.mem_cons.mp hd with rfl | hd
        · exact .inr (.inr (.inr List.mem_cons_self))
        · refine (ih hrest slots d hd).imp_right (Or.imp_right (Or.imp_right fun hd => ?_))
          exact List.mem_cons_of_mem c hd
      | some letters =>
        rw [substituteFrom, if_neg hopen, if_neg hclose]
        rcases List.mem_cons.mp hd with rfl | hd
        · exact .inr (.inr (.inl ((placeholdersFrom_keeps hrest).2 d List.mem_cons_self)))
        · exact ih hrest slots d hd

theorem mem_of_mem_substituteFrom {inside : Bool} {slots : List (List Char)}
    (h : c ∈ substituteFrom inside slots s) : c ∈ s ∨ c = '<' ∨ c = '>' ∨ ∃ slot ∈ slots, c ∈ slot := by
  induction s generalizing inside slots with
  | nil => cases h
  | cons d s ih =>
    have hrest {inside : Bool} (h : c ∈ substituteFrom inside slots s) :
        c ∈ d :: s ∨ c = '<' ∨ c = '>' ∨ ∃ slot ∈ slots, c ∈ slot :=
      (ih h).imp_left (List.mem_cons_of_mem d)
    rw [substituteFrom] at h
    split at h
    · exact hrest h
    split at h
    · rcases List.mem_append.mp h with h | h
      · rcases List.mem_cons.mp h with rfl | h
        · exact .inr (.inl rfl)
        · cases slots with
          | nil => cases h
          | cons slot slots => exact .inr (.inr (.inr ⟨slot, List.mem_cons_self, h⟩))
      · rcases List.mem_cons.mp h with rfl | h
        · exact .inr (.inr (.inl rfl))
        · refine Or.imp (List.mem_cons_of_mem d) (Or.imp_right (Or.imp_right ?_)) (ih h)
          rintro ⟨slot, hslot, hc⟩
          exact ⟨slot, List.mem_of_mem_tail hslot, hc⟩
    split at h
    · exact hrest h
    · rcases List.mem_cons.mp h with rfl | h
      · exact .inl List.mem_cons_self
      · exact hrest h

/-- A name is made of characters of the path. -/
theorem mem_of_mem_placeholders {path name : String} (h : placeholders path = .ok names)
    (hname : name ∈ names) (hc : c ∈ name.toList) : c ∈ path.toList := by
  rcases mem_of_mem_placeholdersFrom h name hname with hdone | hread
  · cases hdone
  · exact (hread c hc).resolve_left nofun

/-- Every character goes into a name or into the pattern, whatever the slots are. -/
theorem mem_of_placeholders {path : String} (h : placeholders path = .ok names) (slots : List String)
    (hc : c ∈ path.toList) : c = '\x7b' ∨ c = '\x7d' ∨ (∃ name ∈ names, c ∈ name.toList) ∨
      c ∈ (substitute path slots).toList := by
  rw [substitute, String.toList_ofList]
  exact mem_of_placeholdersFrom h _ c hc

/-- The rest of a pattern are its slots. -/
theorem mem_of_mem_substitute {path : String} {slots : List String}
    (h : c ∈ (substitute path slots).toList) :
    c ∈ path.toList ∨ c = '<' ∨ c = '>' ∨ ∃ slot ∈ slots, c ∈ slot.toList := by
  rw [substitute, String.toList_ofList] at h
  refine (mem_of_mem_substituteFrom h).imp_right (Or.imp_right (Or.imp_right ?_))
  rintro ⟨letters, hletters, hc⟩
  obtain ⟨slot, hslot, rfl⟩ := List.mem_map.mp hletters
  exact ⟨slot, hslot, hc⟩

end Template

theorem mem_of_mem_splitOnPPrepend {p : Char → Bool} {acc cs : List Char} :
    ∀ part ∈ cs.splitOnPPrepend p acc, ∀ c ∈ part, c ∈ acc ∨ c ∈ cs := by
  induction cs generalizing acc with
  | nil => simp
  | cons c cs ih =>
    rw [List.splitOnPPrepend_cons_eq_if]
    split
    · intro part hpart d hd
      rcases List.mem_cons.mp hpart with rfl | hpart
      · exact .inl (List.mem_reverse.mp hd)
      · exact .inr ((ih part hpart d hd).elim nofun (List.mem_cons_of_mem c))
    · intro part hpart d hd
      rcases ih part hpart d hd with hd | hd
      · rcases List.mem_cons.mp hd with rfl | hd
        · exact .inr List.mem_cons_self
        · exact .inl hd
      · exact .inr (List.mem_cons_of_mem c hd)

theorem mem_of_mem_dispatchSegment {path : String} {c : Char} (h : c ∈ (dispatchSegment path).toList) :
    c ∈ path.toList ∨ c ∈ "root".toList := by
  rw [dispatchSegment] at h
  split at h
  · rename_i segment hsegment
    rw [String.toList_ofList] at h
    have hmem := List.mem_reverse.mp (List.mem_of_find?_eq_some hsegment)
    exact .inl ((mem_of_mem_splitOnPPrepend segment hmem c (List.mem_filter.mp h).1).resolve_left nofun)
  · exact .inr h

end RestRoutes
