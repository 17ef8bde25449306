import Mathlib.Data.List.Forall2
import RestRoutes.Proofs.Compile.Policy

namespace RestRoutes

/-- Operations with the same path, method and id whose placeholders have the same slots, or are left
without a parameter in both. -/
structure Operation.BindsAlike (o o' : Operation) : Prop where
  path : o.path = o'.path
  method : o.method = o'.method
  id : o.id = o'.id
  slots : ∀ names, Template.placeholders o.path = .ok names → ∀ name ∈ names,
    (o.parameter? name).map (·.type.slot) = (o'.parameter? name).map (·.type.slot)

namespace Operation

/-- The parameters of a placeholder's name: those in the path, or all of them if there are none. -/
def candidates (o : Operation) (name : String) : List Parameter :=
  let named := o.parameters.filter (·.name = name)
  if named.any (·.location = .path) then named.filter (·.location = .path) else named

theorem parameter?_eq_head? (o : Operation) (name : String) :
    o.parameter? name = (o.candidates name).head? := by
  have hpath : o.parameters.find? (fun p => p.name = name && p.location = .path) =
      ((o.parameters.filter (·.name = name)).filter (·.location = .path)).head? := by
    rw [List.filter_filter, List.head?_filter]
    congr 1
    funext p
    exact Bool.and_comm ..
  rw [parameter?, hpath, candidates]
  split
  · rename_i p hp
    have hany : (o.parameters.filter (·.name = name)).any (·.location = .path) = true := by
      have hmem := List.mem_filter.mp (List.mem_of_head? hp)
      exact List.any_eq_true.mpr ⟨p, hmem⟩
    rw [if_pos hany, hp]
  · rename_i hnone
    have hany : ¬ (o.parameters.filter (·.name = name)).any (·.location = .path) = true := by
      rw [List.head?_eq_none_iff, List.filter_eq_nil_iff] at hnone
      simpa using hnone
    rw [if_neg hany, List.head?_filter]

theorem candidates_perm {o o' : Operation} {name : String}
    (h : (o.parameters.filter (·.name = name)).Perm (o'.parameters.filter (·.name = name))) :
    (o.candidates name).Perm (o'.candidates name) := by
  have hany := h.any_eq (f := fun p => p.location = .path)
  rw [candidates, candidates, hany]
  split
  · exact h.filter _
  · exact h

/-- `o'` is `o` with another summary and another body, other parameters under names that no placeholder
has, and those under the names of placeholders in another order. Their order counts only where parameters
of one name, with equal rights to the placeholder, have different slots. -/
structure Redrafts (o o' : Operation) : Prop where
  path : o.path = o'.path
  method : o.method = o'.method
  id : o.id = o'.id
  reordered : ∀ names, Template.placeholders o.path = .ok names → ∀ name ∈ names,
    (o.parameters.filter (·.name = name)).Perm (o'.parameters.filter (·.name = name))
  decided : ∀ names, Template.placeholders o.path = .ok names → ∀ name ∈ names,
    ∀ p ∈ o.candidates name, ∀ q ∈ o.candidates name, p.type.slot = q.type.slot

theorem Redrafts.bindsAlike {o o' : Operation} (h : o.Redrafts o') : o.BindsAlike o' := by
  refine ⟨h.path, h.method, h.id, fun names hnames name hname => ?_⟩
  have hperm := candidates_perm (h.reordered names hnames name hname)
  have hdecided := h.decided names hnames name hname
  rw [parameter?_eq_head?, parameter?_eq_head?]
  cases hp : o.candidates name with
  | nil =>
    rw [hp, List.nil_perm] at hperm
    rw [hperm]
  | cons p ps =>
    cases hq : o'.candidates name with
    | nil =>
      rw [hp, hq] at hperm
      exact absurd hperm.eq_nil (List.cons_ne_nil p ps)
    | cons q qs =>
      have hslot : p.type.slot = q.type.slot := by
        apply hdecided
        · exact hp ▸ List.mem_cons_self
        · exact hperm.mem_iff.mpr (hq ▸ List.mem_cons_self)
      simp only [List.head?_cons, Option.map_some, hslot]

end Operation

/-- What of a route is bound: all but what is there for the reference. -/
def Route.bound (r : Route) : Route := { r with body := none, summary := none }

namespace Route

theorem parametersOf_alike {o o' : Operation} {names : List String} (hpath : o.path = o'.path)
    (hmethod : o.method = o'.method) (hid : o.id = o'.id)
    (hslots : ∀ name ∈ names,
      (o.parameter? name).map (·.type.slot) = (o'.parameter? name).map (·.type.slot)) :
    parametersOf o names = parametersOf o' names := by
  induction names with
  | nil => rfl
  | cons name names ih =>
    obtain ⟨hslot, hslots⟩ := List.forall_mem_cons.mp hslots
    have hrest := ih hslots
    rw [parametersOf, parametersOf] at hrest
    rw [parametersOf, parametersOf, List.mapM_cons, List.mapM_cons, hrest]
    congr 1
    cases hp : o.parameter? name <;> cases hq : o'.parameter? name <;> rw [hp, hq] at hslot
    · simp only [hpath, hmethod, hid]
    · cases hslot
    · cases hslot
    · simp only [Option.some.inj hslot]

theorem ofOperation_alike {o o' : Operation} (h : o.BindsAlike o') (p : Policy) (number : Nat) :
    bound <$> ofOperation p number o = bound <$> ofOperation p number o' := by
  rw [ofOperation, ofOperation, ← h.path, ← h.id, ← h.method]
  cases hnames : Template.placeholders o.path with
  | error e => rfl
  | ok names =>
    simp only [parametersOf_alike h.path h.method h.id (h.slots names hnames)]
    cases parametersOf o' names with
    | error e => rfl
    | ok parameters => rfl

theorem tableFrom_alike {ops ops' : List Operation} (h : List.Forall₂ Operation.BindsAlike ops ops')
    (p : Policy) (number : Nat) {done done' : List Route} (hdone : done.map bound = done'.map bound) :
    List.map bound <$> tableFrom p number done ops = List.map bound <$> tableFrom p number done' ops' := by
  induction h generalizing number done done' with
  | nil => exact congrArg Except.ok hdone
  | @cons o o' _ _ ho _ ih =>
    have hroute := ofOperation_alike ho p number
    rw [tableFrom_cons, tableFrom_cons]
    cases hr : ofOperation p number o with
    | error e =>
      rw [hr] at hroute
      have hr' : ofOperation p number o' = .error e := map_eq_error_iff.mp hroute.symm
      rw [hr']
      rfl
    | ok r =>
      rw [hr] at hroute
      obtain ⟨r', hr', hbound⟩ : ∃ r', ofOperation p number o' = .ok r' ∧ r'.bound = r.bound :=
        map_eq_ok_iff.mp hroute.symm
      have hkey : r.key = r'.key := show r.bound.key = r'.bound.key by rw [hbound]
      have hmethod : r.method = r'.method := show r.bound.method = r'.bound.method by rw [hbound]
      have hpath : r.path = r'.path := show r.bound.path = r'.bound.path by rw [hbound]
      have htaken : done.any (·.key = r.key) = done'.any (·.key = r.key) := by
        rw [← any_key_map (f := bound) fun _ => rfl, hdone, any_key_map (f := bound) fun _ => rfl]
      rw [hr', Except.bind, Except.bind, htaken, hkey, hmethod, hpath]
      split
      · rfl
      · apply ih
        rw [List.map_append, List.map_append, hdone, List.map_singleton, List.map_singleton, hbound]

theorem table_alike {ops ops' : List Operation} (h : List.Forall₂ Operation.BindsAlike ops ops')
    (p : Policy) : List.map bound <$> table p ops = List.map bound <$> table p ops' := by
  have hids : ops.map (·.id) = ops'.map (·.id) := by
    rw [← List.forall₂_eq_eq_eq, List.forall₂_map_left_iff, List.forall₂_map_right_iff]
    exact h.imp fun _ _ h => h.id
  have hunknown : p.unknown? ops = p.unknown? ops' := by
    apply Option.ext
    intro id
    rw [Policy.unknown?_eq_some_iff, Policy.unknown?_eq_some_iff, hids]
  rw [table, table, hunknown]
  cases p.unknown? ops' with
  | some id => rfl
  | none => exact tableFrom_alike h p 0 rfl

end Route

/-- A router that writes down no more of a route than what is bound of it. -/
structure Router.BindsOnly (r : Router) : Prop where
  registration : ∀ x, r.registration x.bound = r.registration x
  entry : ∀ x, r.entry x.bound = r.entry x

theorem RouterKind.bindsOnly_router (k : RouterKind) (crow : Crow.Options) (actix : Actix.Options) :
    (k.router crow actix).BindsOnly := by
  cases k with
  | crow => exact ⟨fun _ => rfl, fun _ => rfl⟩
  | actix => exact ⟨fun _ => rfl, fun _ => rfl⟩

theorem Router.BindsOnly.dispatchMap_bound {r : Router} (hr : r.BindsOnly) (routes : List Route) :
    r.dispatchMap (routes.map Route.bound) = r.dispatchMap routes := by
  have hsame : r.entry ∘ Route.bound = r.entry := funext hr.entry
  rw [Router.dispatchMap, Router.dispatchMap, List.filter_map, List.map_map, hsame]
  rfl

/-- The sources that are compiled, without the reference. -/
def Generated.sources (g : Generated) : String × String := (g.bindings, g.dispatchMap)

theorem compile_sources {r : Router} (hr : r.BindsOnly) (d : ApiDocument) (blocks : List Block)
    (o : CompileOptions) : Generated.sources <$> compile r d blocks o =
      (fun routes => (r.bindings routes, r.dispatchMap routes)) <$>
        (List.map Route.bound <$> Route.table o.policy d.operations) := by
  rw [compile]
  cases Route.table o.policy d.operations with
  | error e => rfl
  | ok routes =>
    apply congrArg Except.ok
    dsimp only
    rw [Router.bindings_map hr.registration, hr.dispatchMap_bound]
    rfl

/-- The sources depend on nothing but what they bind. A document with other summaries, bodies, parameters
that are no placeholders', blocks and titles gives the same ones, or the same error. -/
theorem compile_binds_alike :
    (∀ (k : RouterKind) (crow : Crow.Options) (actix : Actix.Options),
      (k.router crow actix).BindsOnly) ∧
    (∀ r : Router, r.BindsOnly → ∀ (p : Policy) (d d' : ApiDocument),
      List.Forall₂ Operation.BindsAlike d.operations d'.operations →
      ∀ (blocks blocks' : List Block) (title title' : Option String),
        Generated.sources <$> compile r d blocks { policy := p, title } =
          Generated.sources <$> compile r d' blocks' { policy := p, title := title' }) ∧
    ∀ o o' : Operation, o.Redrafts o' → o.BindsAlike o' := by
  refine ⟨RouterKind.bindsOnly_router, ?_, fun _ _ h => h.bindsAlike⟩
  intro r hr p d d' hops blocks blocks' title title'
  rw [compile_sources hr, compile_sources hr, Route.table_alike hops]

def plainOperation : Operation where
  path := "/a/\x7bb\x7d"
  method := .put
  id := "x"
  parameters := [⟨"b", .path, ⟨"integer", none⟩⟩, ⟨"b", .query, ⟨"string", none⟩⟩]

/-- Another parameter, another order, a body and a summary. -/
def redraftedOperation : Operation where
  path := "/a/\x7bb\x7d"
  method := .put
  id := "x"
  parameters := [⟨"c", .query, ⟨"string", none⟩⟩, ⟨"b", .query, ⟨"string", none⟩⟩,
    ⟨"b", .path, ⟨"integer", none⟩⟩]
  body := some [("y", ⟨"string", none⟩)]
  summary := some "S"

theorem plainOperation_redrafts : plainOperation.Redrafts redraftedOperation := by
  have hnames : Template.placeholders plainOperation.path = .ok ["b"] := by decide
  have hb {names : List String} {name : String}
      (h : Template.placeholders plainOperation.path = .ok names) (hname : name ∈ names) : name = "b" := by
    rw [hnames, Except.ok.injEq] at h
    exact List.mem_singleton.mp (h ▸ hname)
  refine ⟨rfl, rfl, rfl, fun names h name hname => ?_, fun names h name hname => ?_⟩
  · rw [hb h hname]
    exact .swap _ _ []
  · rw [hb h hname]
    decide

/-- Says what the reference has for the operation. -/
def redraftedBlock : Block where
  qualifiedName := "A::x"
  method := "x"
  payload := { function := none, purpose := some "P", input := none, output := [] }
  raw := .null
  location := ⟨"a.h", 1, 3⟩

theorem compile_binds_alike_redrafted : ∃ g g',
    plainOperation.Redrafts redraftedOperation ∧
    compile (RouterKind.actix.router {} {}) { operations := [plainOperation] } [] {} = .ok g ∧
    compile (RouterKind.actix.router {} {}) { operations := [redraftedOperation] } [redraftedBlock]
      { title := some "T" } = .ok g' ∧
    g.bindings = g'.bindings ∧ g.dispatchMap = g'.dispatchMap := by
  obtain ⟨hrouters, hsources, hredrafts⟩ := compile_binds_alike
  obtain ⟨g, hg⟩ : ∃ g,
      compile (RouterKind.actix.router {} {}) { operations := [plainOperation] } [] {} = .ok g :=
    ⟨_, rfl⟩
  have hsame := hsources _ (hrouters .actix {} {}) {} { operations := [plainOperation] }
    { operations := [redraftedOperation] } (.cons (hredrafts _ _ plainOperation_redrafts) .nil)
    [] [redraftedBlock] none (some "T")
  rw [hg] at hsame
  obtain ⟨g', hg', hboth⟩ := map_eq_ok_iff.mp hsame.symm
  obtain ⟨hbindings, hmap⟩ := Prod.mk.inj hboth
  exact ⟨g, g', plainOperation_redrafts, hg, hg', hbindings.symm, hmap.symm⟩

end RestRoutes
