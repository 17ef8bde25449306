import Mathlib.Data.List.Forall2
import Mathlib.Data.List.Induction
import Mathlib.Data.List.Nodup
import RestRoutes.Proofs.Spec.Parameters

namespace RestRoutes

/-- What tells the parameters of an operation apart. -/
def Parameter.key (q : Parameter) : String × ParameterLocation := (q.name, q.location)

/-- What an operation with the parameters `own` takes over from a path item with the parameters `common`. -/
structure Inherited (own common inherited : List Parameter) : Prop where
  sublist : inherited.Sublist common
  present : ∀ q ∈ common, q.key ∈ (own ++ inherited).map (·.key)
  fresh : ∀ before q after, inherited = before ++ q :: after → q.key ∉ (own ++ before).map (·.key)
  distinct : (own.map (·.key)).Nodup → ((own ++ inherited).map (·.key)).Nodup

variable {own common inherited : List Parameter} {q : Parameter}

theorem inherit_concat (own common : List Parameter) (q : Parameter) : inherit own (common ++ [q]) =
    if q.key ∈ (inherit own common).map (·.key) then inherit own common else inherit own common ++ [q] := by
  have hany : ((inherit own common).any fun p => p.name = q.name && p.location = q.location) = true ↔
      q.key ∈ (inherit own common).map (·.key) := by
    simp [Parameter.key]
  rw [inherit, List.foldl_append, List.foldl_cons, List.foldl_nil, ← inherit]
  exact if_congr hany rfl rfl

theorem Inherited.nil (own : List Parameter) : Inherited own [] [] where
  sublist := .slnil
  present := nofun
  fresh _ _ _ h := absurd h.symm (List.append_ne_nil_of_right_ne_nil _ (List.cons_ne_nil _ _))
  distinct h := by rwa [List.append_nil]

theorem Inherited.replaced (h : Inherited own common inherited)
    (hq : q.key ∈ (own ++ inherited).map (·.key)) : Inherited own (common ++ [q]) inherited := by
  refine ⟨h.sublist.trans (List.sublist_append_left common [q]), ?_, h.fresh, h.distinct⟩
  intro p hp
  rcases List.mem_append.mp hp with hp | hp
  · exact h.present p hp
  · rwa [List.mem_singleton.mp hp]

theorem Inherited.added (h : Inherited own common inherited)
    (hq : q.key ∉ (own ++ inherited).map (·.key)) :
    Inherited own (common ++ [q]) (inherited ++ [q]) := by
  refine ⟨h.sublist.append_right [q], ?_, ?_, fun hown => ?_⟩
  · intro p hp
    rw [← List.append_assoc, List.map_append, List.mem_append]
    rcases List.mem_append.mp hp with hp | hp
    · exact .inl (h.present p hp)
    · exact .inr (List.mem_map_of_mem hp)
  · intro before p after hsplit
    rcases after.eq_nil_or_concat' with rfl | ⟨after, last, rfl⟩
    · obtain ⟨rfl, hlast⟩ := List.append_inj' hsplit rfl
      rwa [← List.singleton_inj.mp hlast]
    · rw [← List.cons_append, ← List.append_assoc] at hsplit
      exact h.fresh before p after (List.append_inj' hsplit rfl).1
  · rw [← List.append_assoc, List.map_append]
    refine List.nodup_append.mpr ⟨h.distinct hown, List.nodup_singleton _, ?_⟩
    intro key hkey other hother hsame
    rw [List.map_singleton, List.mem_singleton] at hother
    exact hq (hother ▸ hsame ▸ hkey)

/-- The test for a parameter is made against the list as it has grown, so the induction takes the
parameters of the path item from the end. -/
theorem inherit_eq_append (own common : List Parameter) :
    ∃ inherited, inherit own common = own ++ inherited ∧ Inherited own common inherited := by
  induction common using List.reverseRecOn with
  | nil => exact ⟨[], (List.append_nil own).symm, .nil own⟩
  | append_singleton common q ih =>
    obtain ⟨inherited, heq, hinherited⟩ := ih
    rw [inherit_concat, heq]
    split
    · rename_i hq
      exact ⟨inherited, rfl, hinherited.replaced hq⟩
    · rename_i hq
      exact ⟨inherited ++ [q], List.append_assoc .., hinherited.added hq⟩

/-- The operation has the parameters that stand in its member, and behind them those that it takes over. -/
def OperationMember.Inherits (paths : Table Json) (m : OperationMember) (o : Operation) : Prop :=
  ∃ own common inherited, List.Forall₂ Json.Declares m.own own ∧
    List.Forall₂ Json.Declares (m.common paths) common ∧
    o.parameters = own ++ inherited ∧ Inherited own common inherited ∧
    ∀ key, o.parameters.find? (·.key = key) =
      (own.find? (·.key = key)).or (common.find? (·.key = key))

theorem OperationMember.Makes.inherits {paths : Table Json} {m : OperationMember} {o : Operation}
    (h : Makes paths m o) (hpaths : Json.NamedOnce (.object paths)) : m.Inherits paths o := by
  obtain ⟨own, common, hown, hcommon, hparameters⟩ := h.parameters hpaths
  obtain ⟨inherited, heq, hinherited⟩ := inherit_eq_append own common
  refine ⟨own, common, inherited, hown, hcommon, hparameters.trans heq, hinherited, fun key => ?_⟩
  rw [hparameters]
  apply find?_inherit
  intro p q hname hlocation
  rw [Parameter.key, Parameter.key, hname, hlocation]

/-- A parameter of a path item is compared with all that stand before it, inherited ones among them. -/
theorem ApiDocument.ofText_inherits (text : String) (d : ApiDocument) (h : ofText text = .ok d) :
    ∃ paths, pathsOf? text = some paths ∧
      List.Forall₂ (fun m o => OperationMember.Gives m o ∧ m.Inherits paths o) (operationMembers paths)
        d.operations := by
  obtain ⟨paths, hpaths, honce, hmakes⟩ := ofText_paths h
  exact ⟨paths, hpaths, hmakes.imp fun m o hm => ⟨hm.gives honce, hm.inherits honce⟩⟩

/-- A path item with three parameters, two of them of one name and location, and an operation with a
parameter of that name elsewhere. -/
def repeatedText : String := String.join [
  "\x7b\"paths\":\x7b\"/\x7bn\x7d\":\x7b\"parameters\":[",
  "[\"n\",null,\x7b\"type\":\"integer\"\x7d],[\"n\",\"path\",\x7b\"type\":\"string\"\x7d],",
  "[\"q\",\"query\",\x7b\"type\":\"string\"\x7d]],",
  "\"get\":[\"x\",null,[[\"n\",\"query\",\x7b\"type\":\"boolean\"\x7d]],null]\x7d\x7d\x7d"]

def repeatedDocument : ApiDocument where
  operations := [
    { path := "/\x7bn\x7d", method := .get, id := "x",
      parameters := [
        ⟨"n", .query, ⟨"boolean", none⟩⟩, ⟨"n", .path, ⟨"integer", none⟩⟩, ⟨"q", .query, ⟨"string", none⟩⟩] }]

theorem ApiDocument.ofText_inherits_repeated : ofText repeatedText = .ok repeatedDocument ∧
    ∃ paths, pathsOf? repeatedText = some paths ∧
      List.Forall₂ (fun m o => OperationMember.Gives m o ∧ m.Inherits paths o) (operationMembers paths)
        repeatedDocument.operations := by
  have hd : ofText repeatedText = .ok repeatedDocument := by
    rw [ofText, repeatedText, String.toList_join]
    cbv
  exact ⟨hd, ofText_inherits _ _ hd⟩

end RestRoutes
