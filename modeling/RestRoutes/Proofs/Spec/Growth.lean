import Mathlib
import RestRoutes.Proofs.Json.Pointer
import RestRoutes.Proofs.Json.ReferenceFree
import RestRoutes.Proofs.Table
import RestRoutes.Spec.Document

namespace RestRoutes

namespace Json

/-- What stands below the top of the document stands there in the other one too. The top is not the same. -/
def Grows (root root' : Json) : Prop := ∀ segment segments t,
  root.at? (segment :: segments) = some t → root'.at? (segment :: segments) = some t

variable {root root' u : Json} {m : Nat}

theorem grows_append (ms more : Table Json) : Grows (.object ms) (.object (ms ++ more)) := by
  intro segment segments t h
  obtain ⟨v, hv, ht⟩ := Option.bind_eq_some_iff.mp h
  rw [child?] at hv
  refine Option.bind_eq_some_iff.mpr ⟨v, ?_, ht⟩
  rw [child?, Table.get?_append, hv]
  rfl

/-- A reference to anything but the whole document keeps what it names. -/
theorem Refers.grow (h : Refers root ms r t) (hroot : Grows root root') (ht : t ≠ root) :
    Refers root' ms r t := by
  obtain ⟨segments, hpath, hat⟩ := target_eq_ok_iff.mp h.found
  refine ⟨h.holder, target_eq_ok_iff.mpr ⟨segments, hpath, ?_⟩⟩
  cases segments with
  | nil => exact absurd (Option.some.inj hat).symm ht
  | cons segment segments => exact hroot segment segments t hat

/-- The expansion of the whole document is no part of itself. -/
theorem Expands.ne_root (htop : Expands root m root u) (h : Expands root n t w) (hn : n < m) : t ≠ root := by
  rintro rfl
  obtain ⟨rfl, -⟩ := h.unique htop
  exact Nat.lt_irrefl n hn

mutual

/-- While the document is expanded no reference to the whole of it is followed, so what each reference
names is kept. -/
theorem Expands.grow (hroot : Grows root root') (htop : Expands root m root u) :
    Expands root n v w → n ≤ m → Expands root' n v w
  | .null, _ => .null
  | .bool b, _ => .bool b
  | .number x, _ => .number x
  | .string s, _ => .string s
  | .array items, hn => .array (ExpandsItems.grow hroot htop items hn)
  | .object plain members, hn => .object plain (ExpandsMembers.grow hroot htop members hn)
  | .reference refers value other, hn =>
    have hvalue := Expands.grow hroot htop value (Nat.le_of_lt hn)
    .reference (refers.grow hroot (htop.ne_root value hn)) hvalue other
  | .merge refers value beside, hn =>
    have hlt := Nat.le_trans (Nat.le_max_left _ _) hn
    have hvalue := Expands.grow hroot htop value (Nat.le_of_lt hlt)
    have hbeside := ExpandsMembers.grow hroot htop beside (Nat.le_trans (Nat.le_max_right _ _) hn)
    .merge (refers.grow hroot (htop.ne_root value hlt)) hvalue hbeside

theorem ExpandsItems.grow (hroot : Grows root root') (htop : Expands root m root u) :
    ExpandsItems root n vs ws → n ≤ m → ExpandsItems root' n vs ws
  | .nil, _ => .nil
  | .cons head tail, hn =>
    .cons (Expands.grow hroot htop head (Nat.le_trans (Nat.le_max_left _ _) hn))
      (ExpandsItems.grow hroot htop tail (Nat.le_trans (Nat.le_max_right _ _) hn))

theorem ExpandsMembers.grow (hroot : Grows root root') (htop : Expands root m root u) :
    ExpandsMembers root n ms ms' → n ≤ m → ExpandsMembers root' n ms ms'
  | .nil, _ => .nil
  | .cons name head tail, hn =>
    .cons name (Expands.grow hroot htop head (Nat.le_trans (Nat.le_max_left _ _) hn))
      (ExpandsMembers.grow hroot htop tail (Nat.le_trans (Nat.le_max_right _ _) hn))

end

/-- A member without references comes last in the expansion, as it is. -/
theorem ExpandsMembers.concat (h : ExpandsMembers root n ms ms') (hw : ReferenceFree w) :
    ExpandsMembers root n (ms ++ [(name, w)]) (ms' ++ [(name, w)]) := by
  induction ms generalizing n ms' with
  | nil =>
    cases h
    exact .cons name hw.expands .nil
  | cons e ms ih =>
    cases h with
    | cons other head tail => exact .cons other head (ih tail)

theorem dereference_concat {ms : Table Json} {name : String} {v w : Json}
    (hplain : Table.get? ms refName = none) (hname : name ≠ refName) (hw : ReferenceFree w)
    (h : dereference (.object ms) = .ok v) :
    ∃ vs, v = .object vs ∧ Table.names vs = Table.names ms ∧
      dereference (.object (ms ++ [(name, w)])) = .ok (.object (vs ++ [(name, w)])) := by
  obtain ⟨n, hn, htop⟩ := expandWith_sound (followFrom_sound [] referenceLimit) h
  have hgrown := htop.grow (grows_append ms [(name, w)]) htop (Nat.le_refl n)
  cases hgrown with
  | object _ members =>
    have hplain' : Table.get? (ms ++ [(name, w)]) refName = none :=
      (Table.get?_concat_of_ne hname).trans hplain
    exact ⟨_, rfl, members.names, (Expands.object hplain' (members.concat hw)).dereference.reached hn⟩
  | reference refers => exact absurd hplain refers.not_plain
  | merge refers => exact absurd hplain refers.not_plain

end Json

namespace ApiDocument

/-- Two members are all that is read of a document. -/
theorem ofExpanded_congr {root root' : Json} (hinfo : root.get? "info" = root'.get? "info")
    (hpaths : root.get? "paths" = root'.get? "paths") : ofExpanded root = ofExpanded root' := by
  rw [ofExpanded, ofExpanded, hinfo, hpaths]

theorem ofJson_eq_ok_iff {v : Json} {d : ApiDocument} :
    ofJson v = .ok d ↔ ∃ root, v.dereference = .ok root ∧ ofExpanded root = .ok d := by
  rw [ofJson]
  split
  · rename_i hroot
    simp [hroot]
  · rename_i hroot
    simp [hroot]

theorem ofJson_concat {ms : Table Json} {name : String} {w : Json} {d : ApiDocument}
    (hplain : Table.get? ms Json.refName = none) (hname : name ≠ Json.refName)
    (hw : Json.ReferenceFree w) (hinfo : name ≠ "info") (hpaths : name ≠ "paths")
    (h : ofJson (.object ms) = .ok d) : ofJson (.object (ms ++ [(name, w)])) = .ok d := by
  obtain ⟨root, hroot, hd⟩ := ofJson_eq_ok_iff.mp h
  obtain ⟨vs, rfl, -, hgrown⟩ := Json.dereference_concat hplain hname hw hroot
  refine ofJson_eq_ok_iff.mpr ⟨_, hgrown, ?_⟩
  rw [← hd]
  exact ofExpanded_congr (Table.get?_concat_of_ne hinfo) (Table.get?_concat_of_ne hpaths)

theorem ofText_of_read {text : String} {v : Json} (h : Json.read text.toList = .ok v) :
    ofText text = ofJson v := by
  rw [ofText, h]

end ApiDocument

/-- Where a document can be expanded, no reference is followed to a place that is not there yet or to the
whole document, so a new member has no part in what references stand for; and two names are all that is read
at the top. -/
theorem addition_keeps_document (ms : Table Json) (name : String) (w : Json)
    (hplain : Table.get? ms Json.refName = none) (hnew : name ∉ Table.names ms)
    (hname : name ≠ Json.refName) (hw : Json.ReferenceFree w) :
    (∀ v, Json.dereference (.object ms) = .ok v → ∃ vs, v = .object vs ∧ name ∉ Table.names vs ∧
      Json.dereference (.object (ms ++ [(name, w)])) = .ok (.object (vs ++ [(name, w)]))) ∧
    (name ≠ "info" → name ≠ "paths" → ∀ d,
      (ApiDocument.ofJson (.object ms) = .ok d →
        ApiDocument.ofJson (.object (ms ++ [(name, w)])) = .ok d) ∧
      ∀ text text', Json.read text.toList = .ok (.object ms) →
        Json.read text'.toList = .ok (.object (ms ++ [(name, w)])) →
        ApiDocument.ofText text = .ok d → ApiDocument.ofText text' = .ok d) := by
  constructor
  · intro v hv
    obtain ⟨vs, rfl, hnames, hgrown⟩ := Json.dereference_concat hplain hname hw hv
    exact ⟨vs, rfl, hnames ▸ hnew, hgrown⟩
  · intro hinfo hpaths d
    have hgrown : ApiDocument.ofJson (.object ms) = .ok d →
        ApiDocument.ofJson (.object (ms ++ [(name, w)])) = .ok d :=
      ApiDocument.ofJson_concat hplain hname hw hinfo hpaths
    refine ⟨hgrown, fun text text' htext htext' hd => ?_⟩
    rw [ApiDocument.ofText_of_read htext] at hd
    rw [ApiDocument.ofText_of_read htext']
    exact hgrown hd

def borrowed : Table Json := [
  ("paths", .object [("/a", .object [(Json.refName, .string "#/x")])]),
  ("x", .object [("get", .object [("operationId", .string "a")])])]

def borrowedText : String := String.join [
  "\x7b\"paths\":\x7b\"/a\":\x7b\"$ref\":\"#/x\"\x7d\x7d,",
  "\"x\":\x7b\"get\":\x7b\"operationId\":\"a\"\x7d\x7d\x7d"]

def lookalike : Json := .object [("paths", .object [("/b", .null)])]

def borrowedWithMore : String := String.join [
  "\x7b\"paths\":\x7b\"/a\":\x7b\"$ref\":\"#/x\"\x7d\x7d,",
  "\"x\":\x7b\"get\":\x7b\"operationId\":\"a\"\x7d\x7d,",
  "\"y\":\x7b\"paths\":\x7b\"/b\":null\x7d\x7d\x7d"]

theorem addition_keeps_document_borrowed :
    Table.get? borrowed Json.refName = none ∧ "y" ∉ Table.names borrowed ∧ Json.ReferenceFree lookalike ∧
    (∃ vs, Json.dereference (.object (borrowed ++ [("y", lookalike)])) =
      .ok (.object (vs ++ [("y", lookalike)]))) ∧
    Json.read borrowedText.toList = .ok (.object borrowed) ∧
    Json.read borrowedWithMore.toList = .ok (.object (borrowed ++ [("y", lookalike)])) ∧
    ApiDocument.ofText borrowedText =
      .ok { operations := [{ path := "/a", method := .get, id := "a" }] } ∧
    ApiDocument.ofText borrowedWithMore =
      .ok { operations := [{ path := "/a", method := .get, id := "a" }] } := by
  have hnew : "y" ∉ Table.names borrowed := by decide
  have hfree : Json.ReferenceFree lookalike := by
    have hnull : Json.ReferenceFree .null := fun _ h => by cases h
    simp [lookalike, Json.referenceFree_object_iff, Table.names, Json.refName, hnull]
  have htext : Json.read borrowedText.toList = .ok (.object borrowed) := by
    rw [borrowedText, String.toList_join]
    cbv
  have htext' : Json.read borrowedWithMore.toList = .ok (.object (borrowed ++ [("y", lookalike)])) := by
    rw [borrowedWithMore, String.toList_join]
    cbv
  have hd : ApiDocument.ofText borrowedText =
      .ok { operations := [{ path := "/a", method := .get, id := "a" }] } := by
    rw [ApiDocument.ofText_of_read htext]
    cbv
  obtain ⟨v, hv⟩ : ∃ v, Json.dereference (.object borrowed) = .ok v := ⟨_, rfl⟩
  obtain ⟨hexpanded, hloaded⟩ := addition_keeps_document borrowed "y" lookalike rfl hnew (by decide) hfree
  obtain ⟨vs, -, -, hgrown⟩ := hexpanded v hv
  exact ⟨rfl, hnew, hfree, ⟨vs, hgrown⟩, htext, htext', hd,
    (hloaded (by decide) (by decide) _).2 _ _ htext htext' hd⟩

end RestRoutes
