import Mathlib.Data.String.Basic
import RestRoutes.Proofs.Compile.Agreement

namespace RestRoutes

/-- A route as it is under a policy. -/
def Route.under (p : Policy) (r : Route) : Route := { r with dispatchable := p.dispatches r.operation }

namespace Route

/-- An operation is served alike under all policies. -/
theorem ofOperation_under (p q : Policy) (number : Nat) (o : Operation) :
    ofOperation p number o = Route.under p <$> ofOperation q number o := by
  simp only [ofOperation]
  cases Template.placeholders o.path with
  | error e => rfl
  | ok names =>
    cases h : parametersOf o names with
    | error e => simp only [h]; rfl
    | ok parameters => simp only [h]; rfl

theorem tableFrom_under (p q : Policy) (number : Nat) (done : List Route) (ops : List Operation) :
    tableFrom p number (done.map (Route.under p)) ops =
      List.map (Route.under p) <$> tableFrom q number done ops := by
  induction ops generalizing number done with
  | nil => rfl
  | cons o ops ih =>
    rw [tableFrom_cons, tableFrom_cons, ofOperation_under p q]
    cases ofOperation q number o with
    | error e => rfl
    | ok r =>
      have hnext := ih (number + 1) (done ++ [r])
      rw [List.map_append, List.map_singleton] at hnext
      change (if (done.map (Route.under p)).any (·.key = r.key) then _ else _) =
        List.map (Route.under p) <$> (if done.any (·.key = r.key) then _ else _)
      rw [any_key_map (f := under p) fun _ => rfl]
      split
      · rfl
      · exact hnext

/-- What a policy adds to a table: it may name an operation that is not there, and it sets the flags. -/
theorem table_under (p : Policy) (ops : List Operation) :
    table p ops = match p.unknown? ops with
      | some id => .error (.unknownOperation id)
      | none => List.map (Route.under p) <$> table {} ops := by
  rw [table]
  cases p.unknown? ops with
  | some id => rfl
  | none => exact tableFrom_under p {} 0 [] ops

theorem table_eq_ok_under {p : Policy} {ops : List Operation} {routes : List Route}
    (h : table p ops = .ok routes) :
    ∃ all, table {} ops = .ok all ∧ routes = all.map (Route.under p) := by
  rw [table_under] at h
  split at h
  · cases h
  · obtain ⟨all, hall, rfl⟩ := map_eq_ok_iff.mp h
    exact ⟨all, hall, rfl⟩

end Route

theorem Policy.foldl_least_eq_some {ids : List String} {first least : String}
    (h : ids.foldl (fun least id => match least with
      | none => some id
      | some other => some (if id < other then id else other)) (some first) = some least) :
    least ∈ first :: ids ∧ ∀ id ∈ first :: ids, least ≤ id := by
  induction ids generalizing first with
  | nil =>
    cases h
    simp
  | cons id ids ih =>
    obtain ⟨hmem, hle⟩ := ih h
    obtain ⟨hleast, hle⟩ := List.forall_mem_cons.mp hle
    split at hmem
    · rename_i hid
      rw [if_pos hid] at hleast
      exact ⟨List.mem_cons_of_mem _ hmem, List.forall_mem_cons.mpr
        ⟨hleast.trans hid.le, List.forall_mem_cons.mpr ⟨hleast, hle⟩⟩⟩
    · rename_i hid
      rw [if_neg hid] at hleast
      refine ⟨?_, List.forall_mem_cons.mpr
        ⟨hleast, List.forall_mem_cons.mpr ⟨hleast.trans (not_lt.mp hid), hle⟩⟩⟩
      rcases List.mem_cons.mp hmem with rfl | hmem
      · exact List.mem_cons_self
      · exact List.mem_cons_of_mem _ (List.mem_cons_of_mem _ hmem)

/-- The least of the excluded operations that are no operations is reported. -/
theorem Policy.unknown?_eq_some_iff {p : Policy} {ops : List Operation} {id : String} :
    p.unknown? ops = some id ↔ (id ∈ p.excluded ∧ id ∉ ops.map (·.id)) ∧
      ∀ other ∈ p.excluded, other ∉ ops.map (·.id) → id ≤ other := by
  have hunknown (x : String) : x ∈ p.excluded.filter (fun id => ops.all (·.id ≠ id)) ↔
      x ∈ p.excluded ∧ x ∉ ops.map (·.id) := by
    simp [List.mem_filter]
  have hleast {x : String} (h : p.unknown? ops = some x) :
      (x ∈ p.excluded ∧ x ∉ ops.map (·.id)) ∧
        ∀ other ∈ p.excluded, other ∉ ops.map (·.id) → x ≤ other := by
    rw [unknown?] at h
    cases hids : p.excluded.filter fun id => ops.all (·.id ≠ id) with
    | nil =>
      rw [hids] at h
      cases h
    | cons first ids =>
      rw [hids, List.foldl_cons] at h
      obtain ⟨hmem, hle⟩ := foldl_least_eq_some h
      rw [← hids] at hmem hle
      exact ⟨(hunknown x).mp hmem, fun other ho hop => hle other ((hunknown other).mpr ⟨ho, hop⟩)⟩
  refine ⟨hleast, ?_⟩
  rintro ⟨⟨hid, hop⟩, hle⟩
  cases h : p.unknown? ops with
  | none => exact absurd (unknown?_eq_none_iff.mp h id hid) hop
  | some least =>
    obtain ⟨⟨hid', hop'⟩, hle'⟩ := hleast h
    rw [le_antisymm (hle' id hid hop) (hle least hid' hop')]

/-- Two policies that exclude the same operations. -/
def Policy.Same (p q : Policy) : Prop := ∀ id, id ∈ p.excluded ↔ id ∈ q.excluded

theorem Policy.Same.unknown? {p q : Policy} (h : p.Same q) (ops : List Operation) :
    p.unknown? ops = q.unknown? ops := by
  apply Option.ext
  intro id
  simp only [Policy.unknown?_eq_some_iff, h id]
  exact and_congr_right fun _ => forall_congr' fun other => imp_congr_left (h other)

theorem Policy.Same.table {p q : Policy} (h : p.Same q) (ops : List Operation) :
    Route.table p ops = Route.table q ops := by
  have hunder : Route.under p = Route.under q := by
    funext r
    simp only [Route.under, Policy.dispatches, h r.operation]
  rw [Route.table_under p, Route.table_under q, h.unknown?, hunder]

theorem Router.bindings_map {r : Router} {f : Route → Route}
    (hf : ∀ x, r.registration (f x) = r.registration x) (routes : List Route) :
    r.bindings (routes.map f) = r.bindings routes := by
  have hsame : r.registration ∘ f = r.registration := funext hf
  rw [bindings, bindings, List.map_map, hsame]

/-- A router that writes a route down alike whether it is dispatched or not. -/
structure Router.Blind (r : Router) : Prop where
  registration : ∀ p x, r.registration (Route.under p x) = r.registration x
  entry : ∀ p x, r.entry (Route.under p x) = r.entry x

theorem RouterKind.blind_router (k : RouterKind) (crow : Crow.Options) (actix : Actix.Options) :
    (k.router crow actix).Blind := by
  cases k with
  | crow => exact ⟨fun _ _ => rfl, fun _ _ => rfl⟩
  | actix => exact ⟨fun _ _ => rfl, fun _ _ => rfl⟩

namespace Router.Blind

variable {r : Router} (hr : r.Blind) (p : Policy) (routes : List Route)

include hr

theorem dispatchMap_under : r.dispatchMap (routes.map (Route.under p)) =
    r.dispatchOpening ++ String.join ((routes.filter (·.operation ∉ p.excluded)).map r.entry) ++
      r.dispatchClosing := by
  have hsame : r.entry ∘ Route.under p = r.entry := funext (hr.entry p)
  rw [Router.dispatchMap, List.filter_map, List.map_map, hsame]
  rfl

end Router.Blind

theorem ReferenceEntry.all_under (p : Policy) (routes : List Route) (blocks : List Block) :
    all (routes.map (Route.under p)) blocks = all routes blocks := by
  rw [all, List.map_map]
  rfl

theorem ReferenceEntry.unmatched_under (p : Policy) (routes : List Route) (blocks : List Block) :
    unmatched (routes.map (Route.under p)) blocks = unmatched routes blocks := by
  apply List.filter_congr
  intro b _
  rw [List.all_map]
  rfl

/-- How the texts under a policy come from the texts `full` without one. -/
structure Generated.Restricts (g : Generated) (r : Router) (p : Policy) (full : Generated) : Prop where
  bindings : g.bindings = full.bindings
  reference : g.reference = full.reference
  unmatched : g.unmatched = full.unmatched
  /-- The routes are the same but for their flags. -/
  routes : g.routes = full.routes.map (Route.under p)
  /-- Without a policy every route has its entry. -/
  entries : full.dispatchMap =
    r.dispatchOpening ++ String.join (full.routes.map r.entry) ++ r.dispatchClosing
  /-- Under it the entries of other operations are left, as they were and in their order. -/
  kept : g.dispatchMap = r.dispatchOpening ++
    String.join ((full.routes.filter (·.operation ∉ p.excluded)).map r.entry) ++ r.dispatchClosing

/-- What does not look at the flags is the same for all routes. -/
theorem Generated.Restricts.map_routes {g full : Generated} {r : Router} {p : Policy} {β : Type}
    {f : Route → β} (h : g.Restricts r p full) (hf : ∀ p x, f (Route.under p x) = f x) :
    g.routes.map f = full.routes.map f := by
  rw [h.routes, List.map_map]
  exact List.map_congr_left fun x _ => hf p x

/-- Without a policy every route is dispatched. -/
theorem Route.map_under_table {ops : List Operation} {routes : List Route}
    (h : table {} ops = .ok routes) : routes.map (Route.under {}) = routes := by
  obtain ⟨all, hall, hunder⟩ := table_eq_ok_under h
  rw [h, Except.ok.injEq] at hall
  rw [hall, ← hunder, hall]

theorem compile_restricts {r : Router} (hr : r.Blind) {d : ApiDocument} {blocks : List Block}
    {title : Option String} {p : Policy} {g : Generated}
    (h : compile r d blocks { policy := p, title } = .ok g) :
    ∃ full, compile r d blocks { title } = .ok full ∧ g.Restricts r p full := by
  obtain ⟨routes, htable, h⟩ := bind_eq_ok_iff.mp h
  cases h
  obtain ⟨all, hall, rfl⟩ := Route.table_eq_ok_under htable
  refine ⟨_, bind_eq_ok_iff.mpr ⟨all, hall, rfl⟩, Router.bindings_map (hr.registration p) all, ?_,
    ReferenceEntry.unmatched_under p all blocks, rfl, ?_, hr.dispatchMap_under p all⟩
  · dsimp only
    rw [ReferenceEntry.all_under]
    rfl
  · have hentries := hr.dispatchMap_under {} all
    rw [Route.map_under_table hall] at hentries
    simpa using hentries

/-- Whatever is left out of the dispatch map, all else that is generated stays as it is. All routers are
blind to the flag, and any other that is will do. -/
theorem compile_under_policies :
    (∀ (k : RouterKind) (crow : Crow.Options) (actix : Actix.Options), (k.router crow actix).Blind) ∧
    ∀ (r : Router), r.Blind → ∀ (d : ApiDocument) (blocks : List Block) (title : Option String),
      (∀ (p : Policy) (g : Generated), compile r d blocks { policy := p, title } = .ok g →
        ∃ full, compile r d blocks { title } = .ok full ∧ g.Restricts r p full) ∧
      ∀ (p q : Policy) (g h : Generated), compile r d blocks { policy := p, title } = .ok g →
        compile r d blocks { policy := q, title } = .ok h →
        g.bindings = h.bindings ∧ g.reference = h.reference ∧
        g.routes.map (·.operation) = h.routes.map (·.operation) ∧
        g.routes.map (·.key) = h.routes.map (·.key) := by
  refine ⟨RouterKind.blind_router, fun r hr d blocks title => ⟨fun p g => compile_restricts hr, ?_⟩⟩
  intro p q g h hg hh
  obtain ⟨full, hfull, hgfull⟩ := compile_restricts hr hg
  obtain ⟨full', hfull', hhfull⟩ := compile_restricts hr hh
  rw [hfull, Except.ok.injEq] at hfull'
  subst hfull'
  refine ⟨hgfull.bindings.trans hhfull.bindings.symm, hgfull.reference.trans hhfull.reference.symm, ?_, ?_⟩
  · rw [hgfull.map_routes fun _ _ => rfl, hhfull.map_routes fun _ _ => rfl]
  · rw [hgfull.map_routes fun _ _ => rfl, hhfull.map_routes fun _ _ => rfl]

/-- One of two operations is left out, and then the other. -/
theorem compile_under_policies_pair : ∃ g h full,
    compile (RouterKind.crow.router {} {}) pairDocument [] { policy := ⟨["x"]⟩ } = .ok g ∧
    compile (RouterKind.crow.router {} {}) pairDocument [] { policy := ⟨["y"]⟩ } = .ok h ∧
    compile (RouterKind.crow.router {} {}) pairDocument [] {} = .ok full ∧
    g.Restricts (RouterKind.crow.router {} {}) ⟨["x"]⟩ full ∧
    g.bindings = h.bindings ∧ g.reference = h.reference ∧
    g.routes.map (·.key) = ["a_0", "a_1"] ∧ h.routes.map (·.key) = ["a_0", "a_1"] := by
  obtain ⟨g, hg, hkeys⟩ : ∃ g,
      compile (RouterKind.crow.router {} {}) pairDocument [] { policy := ⟨["x"]⟩ } = .ok g ∧
      g.routes.map (·.key) = ["a_0", "a_1"] := ⟨_, rfl, by decide⟩
  obtain ⟨h, hh⟩ : ∃ h,
      compile (RouterKind.crow.router {} {}) pairDocument [] { policy := ⟨["y"]⟩ } = .ok h := ⟨_, rfl⟩
  obtain ⟨hblind, hall⟩ := compile_under_policies
  obtain ⟨hone, htwo⟩ := hall _ (hblind .crow {} {}) pairDocument [] none
  obtain ⟨full, hfull, hrestricts⟩ := hone _ g hg
  obtain ⟨hbindings, hreference, -, hsame⟩ := htwo _ _ g h hg hh
  exact ⟨g, h, full, hg, hh, hfull, hrestricts, hbindings, hreference, hkeys, hsame ▸ hkeys⟩

end RestRoutes
