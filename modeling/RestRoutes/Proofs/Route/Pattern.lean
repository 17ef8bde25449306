import RestRoutes.Proofs.Route.Positions

namespace RestRoutes

namespace Route

variable {p : Policy} {number : Nat} {o : Operation} {r : Route}

/-- The pattern is woven of the texts of the path and the slots of the parameters. -/
structure Renders (r : Route) (first : List Char) (parts : List (String × List Char)) : Prop where
  path : Template.Divides r.path.toList first parts
  names : r.parameters.map (·.name) = parts.map Prod.fst
  pattern : r.pattern.toList =
    Template.weave '<' '>' first ((r.parameters.map (·.slot)).zip (parts.map Prod.snd))

theorem ofOperation_renders (h : ofOperation p number o = .ok r) : ∃ first parts, r.Renders first parts := by
  obtain ⟨names, parameters, hnames, hparameters, rfl⟩ := ofOperation_eq_ok_iff.mp h
  obtain ⟨first, parts, hdivides, rfl⟩ := Template.placeholders_eq_ok_iff.mp hnames
  have hnames := parametersOf_names hparameters
  have hlength : (parameters.map (·.slot)).length = parts.length := by
    simpa using congrArg List.length hnames
  exact ⟨first, parts, hdivides, hnames, Template.toList_substitute hdivides hlength⟩

end Route

open Template in
theorem templates_read_and_rendered :
    (∀ path names, placeholders path = .ok names ↔
      ∃ first parts, Divides path.toList first parts ∧ parts.map Prod.fst = names) ∧
    (∀ text first parts first' parts', Divides text first parts → Divides text first' parts' →
      first = first' ∧ parts = parts') ∧
    (∀ path first parts, Divides path.toList first parts → ∀ slots, slots.length = parts.length →
      (substitute path slots).toList = weave '<' '>' first (slots.zip (parts.map Prod.snd))) ∧
    ∀ p ops routes, Route.table p ops = .ok routes → ∀ r ∈ routes, ∃ first parts,
      r.Renders first parts := by
  refine ⟨fun _ _ => placeholders_eq_ok_iff, fun _ _ _ _ _ => Divides.unique,
    fun _ _ _ h _ => toList_substitute h, fun p ops routes h r hr => ?_⟩
  rw [Route.table_eq_mapM (Route.table_eq_ok h).1] at h
  obtain ⟨o, -, ho⟩ := (mapM_eq_ok h).2 r hr
  exact Route.ofOperation_renders ho

def bracketed : Operation where
  path := "/<a>/{name}{n}"
  method := .get
  id := "bracketed"
  parameters := [⟨"n", .path, ⟨"{x}", none⟩⟩, ⟨"name", .query, ⟨"string", none⟩⟩]

theorem templates_read_and_rendered_bracketed : ∃ first parts routes,
    Template.Divides bracketed.path.toList first parts ∧ parts.map Prod.fst = ["name", "n"] ∧
    (∀ first' parts', Template.Divides bracketed.path.toList first' parts' →
      first = first' ∧ parts = parts') ∧
    (Template.substitute bracketed.path ["{x}", ""]).toList =
      Template.weave '<' '>' first (["{x}", ""].zip (parts.map Prod.snd)) ∧
    Route.table {} [bracketed] = .ok routes ∧ ∀ r ∈ routes, ∃ first parts, r.Renders first parts := by
  obtain ⟨hread, hunique, hrendered, htable⟩ := templates_read_and_rendered
  obtain ⟨first, parts, hdivides, hnames⟩ := (hread bracketed.path ["name", "n"]).mp rfl
  obtain ⟨routes, hroutes⟩ : ∃ routes, Route.table {} [bracketed] = .ok routes := ⟨_, rfl⟩
  have hslots : ["{x}", ""].length = parts.length := by
    simpa using congrArg List.length hnames.symm
  exact ⟨first, parts, routes, hdivides, hnames, fun _ _ => hunique _ _ _ _ _ hdivides,
    hrendered _ _ _ hdivides _ hslots, hroutes, htable _ _ _ hroutes⟩

end RestRoutes
