import RestRoutes.Failure
import RestRoutes.Proofs.Except
import RestRoutes.Proofs.Json.Expansion

namespace RestRoutes.Json

variable {root : Json}

/-- What `follow` gives is the expansion of what a reference names, nested less than `left` deep. -/
def Follows (root : Json) (left : Nat) (follow : String → Except ReferenceError Json) : Prop :=
  ∀ r w, follow r = .ok w → ∃ n < left, ∃ t, target root r = .ok t ∧ Expands root n t w

section
variable {follow : String → Except ReferenceError Json} {left : Nat}

/-- What is beside a reference is expanded like the members of an object and then written over them. -/
theorem expandSiblings_eq (base ms : Table Json) :
    expandSiblings follow base ms = Table.putAll base <$> expandMembers follow (siblings ms) := by
  induction ms generalizing base with
  | nil => simp [expandSiblings, siblings, expandMembers, Table.putAll]
  | cons e ms ih =>
    obtain ⟨name, v⟩ := e
    by_cases h : name = refName
    · simpa [expandSiblings, siblings, h] using ih base
    · simp only [expandSiblings, h, siblings, ne_eq, not_false_eq_true, decide_true,
        List.filter_cons_of_pos, expandMembers, if_false]
      cases expandWith follow v with
      | error e => rfl
      | ok w =>
        change expandSiblings follow (base.put name w) ms = _
        rw [ih (base.put name w), siblings]
        cases expandMembers follow (ms.filter (·.1 ≠ refName)) <;> rfl

theorem expandItems_sound
    (hv : ∀ v ∈ vs, ∀ w, expandWith follow v = .ok w → ∃ n ≤ left, Expands root n v w)
    (h : expandItems follow vs = .ok ws) : ∃ n ≤ left, ExpandsItems root n vs ws := by
  induction vs generalizing ws with
  | nil =>
    obtain rfl : _ = _ := by simpa [expandItems, pure, Except.pure] using h
    exact ⟨0, Nat.zero_le _, .nil⟩
  | cons v vs ih =>
    simp only [expandItems, bind_eq_ok_iff] at h
    obtain ⟨w, hw, ws', hws, he⟩ := h
    obtain rfl : _ = _ := by simpa [pure, Except.pure] using he
    obtain ⟨n, hn, head⟩ := hv v (by simp) w hw
    obtain ⟨m, hm, tail⟩ := ih (fun u hu => hv u (by simp [hu])) hws
    exact ⟨max n m, Nat.max_le.mpr ⟨hn, hm⟩, .cons head tail⟩

theorem expandMembers_sound
    (hv : ∀ e ∈ ms, ∀ w, expandWith follow e.2 = .ok w → ∃ n ≤ left, Expands root n e.2 w)
    (h : expandMembers follow ms = .ok ms') : ∃ n ≤ left, ExpandsMembers root n ms ms' := by
  induction ms generalizing ms' with
  | nil =>
    obtain rfl : _ = _ := by simpa [expandMembers, pure, Except.pure] using h
    exact ⟨0, Nat.zero_le _, .nil⟩
  | cons e ms ih =>
    obtain ⟨name, v⟩ := e
    simp only [expandMembers, bind_eq_ok_iff] at h
    obtain ⟨w, hw, ws', hws, he⟩ := h
    obtain rfl : _ = _ := by simpa [pure, Except.pure] using he
    obtain ⟨n, hn, head⟩ := hv (name, v) (by simp) w hw
    obtain ⟨m, hm, tail⟩ := ih (fun u hu => hv u (by simp [hu])) hws
    exact ⟨max n m, Nat.max_le.mpr ⟨hn, hm⟩, .cons name head tail⟩

theorem expandWith_sound (hf : Follows root left follow) {v w : Json}
    (h : expandWith follow v = .ok w) : ∃ n ≤ left, Expands root n v w := by
  match v with
  | .null =>
    obtain rfl : _ = _ := by simpa [expandWith, pure, Except.pure] using h
    exact ⟨0, Nat.zero_le _, .null⟩
  | .bool b =>
    obtain rfl : _ = _ := by simpa [expandWith, pure, Except.pure] using h
    exact ⟨0, Nat.zero_le _, .bool b⟩
  | .number x =>
    obtain rfl : _ = _ := by simpa [expandWith, pure, Except.pure] using h
    exact ⟨0, Nat.zero_le _, .number x⟩
  | .string s =>
    obtain rfl : _ = _ := by simpa [expandWith, pure, Except.pure] using h
    exact ⟨0, Nat.zero_le _, .string s⟩
  | .array vs =>
    simp only [expandWith, bind_eq_ok_iff] at h
    obtain ⟨ws, hws, he⟩ := h
    obtain rfl : _ = _ := by simpa [pure, Except.pure] using he
    obtain ⟨n, hn, items⟩ := expandItems_sound (fun v _ w hw => expandWith_sound hf hw) hws
    exact ⟨n, hn, .array items⟩
  | .object ms =>
    have hm : ∀ e ∈ ms, ∀ w, expandWith follow e.2 = .ok w → ∃ n ≤ left, Expands root n e.2 w :=
      fun e _ w hw => expandWith_sound hf hw
    simp only [expandWith] at h
    split at h
    · rename_i r holder
      obtain ⟨t', ht, h⟩ := bind_eq_ok_iff.mp h
      obtain ⟨n, hn, t, found, value⟩ := hf r t' ht
      split at h
      · rename_i base
        simp only [bind_eq_ok_iff, expandSiblings_eq, map_eq_ok_iff] at h
        obtain ⟨_, ⟨ms', hms, rfl⟩, he⟩ := h
        obtain rfl : _ = _ := by simpa [pure, Except.pure] using he
        obtain ⟨m, hm, beside⟩ :=
          expandMembers_sound (fun e he => hm e (List.mem_filter.mp he).1) hms
        exact ⟨max (n + 1) m, Nat.max_le.mpr ⟨hn, hm⟩, .merge ⟨holder, found⟩ value beside⟩
      · rename_i hother
        obtain rfl : _ = _ := by simpa [pure, Except.pure] using h
        refine ⟨n + 1, hn, .reference ⟨holder, found⟩ value ?_⟩
        cases t' with
        | object base => exact absurd rfl (hother base)
        | _ => rfl
    · cases h
    · rename_i plain
      simp only [bind_eq_ok_iff] at h
      obtain ⟨ms', hms, he⟩ := h
      obtain rfl : _ = _ := by simpa [pure, Except.pure] using he
      obtain ⟨n, hn, members⟩ := expandMembers_sound hm hms
      exact ⟨n, hn, .object plain members⟩
termination_by sizeOf v
decreasing_by
  · have := List.sizeOf_lt_of_mem ‹v ∈ vs›
    simp_wf
    omega
  · have := List.sizeOf_lt_of_mem ‹e ∈ ms›
    obtain ⟨name, u⟩ := e
    simp_wf
    simp only [Prod.mk.sizeOf_spec] at this
    omega

end

theorem followFrom_sound (opened : List String) (left : Nat) :
    Follows root left (followFrom root opened left) := by
  induction left generalizing opened with
  | zero =>
    intro r w h
    simp only [followFrom] at h
    split at h <;> cases h
  | succ left ih =>
    intro r w h
    simp only [followFrom] at h
    split at h
    · cases h
    · obtain ⟨t, found, h⟩ := bind_eq_ok_iff.mp h
      obtain ⟨n, hn, value⟩ := expandWith_sound (ih (opened ++ [r])) h
      exact ⟨n, Nat.lt_succ_of_le hn, t, found, value⟩

/-- The outcome for a value that expands to `w` with references `n` deep, when `left` more of them may
be followed inside one another. -/
structure Within (left n : Nat) (w : α) (result : Except ReferenceError α) : Prop where
  reached : n ≤ left → result = .ok w
  stopped : left < n → ∃ r, result = .error (.tooDeep r)

theorem Within.pure (left : Nat) (w : α) : Within left 0 w (.ok w) :=
  ⟨fun _ => rfl, fun h => absurd h (Nat.not_lt_zero _)⟩

theorem Within.bind {f : α → Except ReferenceError β} (hx : Within left n a x)
    (hf : Within left m b (f a)) : Within left (max n m) b (x >>= f) := by
  constructor
  · intro h
    rw [hx.reached (Nat.le_trans (Nat.le_max_left _ _) h)]
    exact hf.reached (Nat.le_trans (Nat.le_max_right _ _) h)
  · intro h
    by_cases hn : n ≤ left
    · rw [hx.reached hn]
      exact hf.stopped (by omega)
    · obtain ⟨r, hr⟩ := hx.stopped (by omega)
      exact ⟨r, by rw [hr]; rfl⟩

theorem Within.map {f : α → β} (hx : Within left n a x) : Within left n (f a) (f <$> x) := by
  constructor
  · intro h
    rw [hx.reached h]
    rfl
  · intro h
    obtain ⟨r, hr⟩ := hx.stopped h
    exact ⟨r, by rw [hr]; rfl⟩

/-- Every open reference names a value whose references are nested at least `n` deep. A value being
expanded inside of it is nested less deep, so it cannot be the same one again. -/
def Covers (root : Json) (opened : List String) (n : Nat) : Prop :=
  ∀ r ∈ opened, ∃ t m w, target root r = .ok t ∧ Expands root m t w ∧ n ≤ m

theorem Covers.mono (h : Covers root opened n) (hm : m ≤ n) : Covers root opened m := by
  intro r hr
  obtain ⟨t, k, w, found, value, hk⟩ := h r hr
  exact ⟨t, k, w, found, value, Nat.le_trans hm hk⟩

theorem Covers.open (h : Covers root opened (n + 1)) (found : target root r = .ok t)
    (value : Expands root n t w) : Covers root (opened ++ [r]) n := by
  intro q hq
  rcases List.mem_append.mp hq with hq | hq
  · exact h.mono (Nat.le_succ n) q hq
  · obtain rfl := List.mem_singleton.mp hq
    exact ⟨t, n, w, found, value, Nat.le_refl n⟩

theorem Covers.not_mem (h : Covers root opened (n + 1)) (found : target root r = .ok t)
    (value : Expands root n t w) : r ∉ opened := by
  intro hr
  obtain ⟨t', m, w', found', value', hm⟩ := h r hr
  obtain rfl : t = t' := by simpa [found] using found'
  obtain ⟨rfl, -⟩ := value.unique value'
  omega

theorem followFrom_within (left : Nat) (hc : Covers root opened (n + 1)) (found : target root r = .ok t)
    (value : Expands root n t w)
    (ih : ∀ left, Within left n w (expandWith (followFrom root (opened ++ [r]) left) t)) :
    Within left (n + 1) w (followFrom root opened left r) := by
  have hr := hc.not_mem found value
  cases left with
  | zero => exact ⟨fun h => absurd h (by omega), fun _ => ⟨r, by simp [followFrom, hr]⟩⟩
  | succ left =>
    have he : followFrom root opened (left + 1) r =
        expandWith (followFrom root (opened ++ [r]) left) t := by
      simp only [followFrom, hr, if_false, found]
      rfl
    rw [he]
    exact ⟨fun h => (ih left).reached (by omega), fun h => (ih left).stopped (by omega)⟩

mutual

theorem Expands.within : Expands root n v w → ∀ {opened} (left), Covers root opened n →
    Within left n w (expandWith (followFrom root opened left) v)
  | .null, _, left, _ => .pure left _
  | .bool _, _, left, _ => .pure left _
  | .number _, _, left, _ => .pure left _
  | .string _, _, left, _ => .pure left _
  | .array items, _, left, hc => by
    simp only [expandWith, bind_pure_comp]
    exact (ExpandsItems.within items left hc).map
  | .object plain members, _, left, hc => by
    simp only [expandWith, plain, bind_pure_comp]
    exact (ExpandsMembers.within members left hc).map
  | .reference refers value other, _, left, hc => by
    have hf := followFrom_within left hc refers.found value
      (fun left => Expands.within value left (hc.open refers.found value))
    simp only [expandWith, refers.holder]
    apply hf.bind (m := 0)
    split
    · simp [members?] at other
    · exact .pure left _
  | .merge refers value beside, _, left, hc => by
    have hc' := hc.mono (Nat.le_max_left _ _)
    have hf := followFrom_within left hc' refers.found value
      (fun left => Expands.within value left (hc'.open refers.found value))
    have hb := ExpandsMembers.within beside left (hc.mono (Nat.le_max_right _ _))
    simp only [expandWith, refers.holder, expandSiblings_eq, bind_pure_comp]
    exact hf.bind hb.map.map

theorem ExpandsItems.within : ExpandsItems root n vs ws → ∀ {opened} (left), Covers root opened n →
    Within left n ws (expandItems (followFrom root opened left) vs)
  | .nil, _, left, _ => .pure left _
  | .cons head tail, _, left, hc => by
    simp only [expandItems, bind_pure_comp]
    have hh := Expands.within head left (hc.mono (Nat.le_max_left _ _))
    have ht := ExpandsItems.within tail left (hc.mono (Nat.le_max_right _ _))
    exact hh.bind ht.map

theorem ExpandsMembers.within : ExpandsMembers root n ms ms' → ∀ {opened} (left),
    Covers root opened n → Within left n ms' (expandMembers (followFrom root opened left) ms)
  | .nil, _, left, _ => .pure left _
  | .cons name head tail, _, left, hc => by
    simp only [expandMembers, bind_pure_comp]
    have hh := Expands.within head left (hc.mono (Nat.le_max_left _ _))
    have ht := ExpandsMembers.within tail left (hc.mono (Nat.le_max_right _ _))
    exact hh.bind ht.map

end

theorem Expands.dereference (h : Expands root n root v) :
    Within referenceLimit n v root.dereference :=
  h.within referenceLimit (by simp [Covers])

/-- Following references with a stack and a limit is expansion, as far as the limit goes. A document
that has an expansion is refused only for being nested too deep, and one whose expansion would never
end is refused. -/
theorem dereference_refines_expansion (root : Json) :
    (∀ v, root.dereference = .ok v ↔ ∃ n ≤ referenceLimit, Expands root n root v) ∧
    (∀ n v, Expands root n root v → referenceLimit < n →
      ∃ r, root.dereference = .error (.tooDeep r)) ∧
    (∀ n v, Expands root n root v → ∀ chain, root.dereference ≠ .error (.cyclic chain)) ∧
    (Endless root root → ∃ e, root.dereference = .error e ∧
      (Failure.spec (.reference e)).kind = .schema) := by
  have sound : ∀ v, root.dereference = .ok v → ∃ n ≤ referenceLimit, Expands root n root v :=
    fun v h => expandWith_sound (followFrom_sound [] referenceLimit) h
  refine ⟨fun v => ⟨sound v, ?_⟩, fun n v h => h.dereference.stopped, ?_, ?_⟩
  · rintro ⟨n, hn, h⟩
    exact h.dereference.reached hn
  · intro n v h chain he
    by_cases hn : n ≤ referenceLimit
    · rw [h.dereference.reached hn] at he
      cases he
    · obtain ⟨r, hr⟩ := h.dereference.stopped (by omega)
      rw [hr] at he
      cases he
  · intro hend
    cases hd : root.dereference with
    | error e => exact ⟨e, rfl, rfl⟩
    | ok v =>
      obtain ⟨n, _, h⟩ := sound v hd
      exact absurd hend h.settled.not_endless

/-- Two members that refer to each other, one of them by another spelling of its name. -/
def roundabout : Json := .object [
  ("a", .object [(refName, .string "#/b")]), ("b", .object [(refName, .string "#/%61")])]

/-- A reference with a member beside it that its target has too. -/
def overlay : Json := .object [
  ("a", .object [("x", .bool true), (refName, .string "#/b")]),
  ("b", .object [("x", .null), ("y", .null)])]

/-- A member beside a reference wins over the target's, in the target's place. The stack tells apart the
spellings of one place, and still no circle escapes it. -/
theorem dereference_overlay_and_roundabout :
    (∃ n ≤ referenceLimit, Expands overlay n overlay (.object [
      ("a", .object [("x", .bool true), ("y", .null)]),
      ("b", .object [("x", .null), ("y", .null)])])) ∧
    Endless roundabout roundabout ∧
    ∃ e, roundabout.dereference = .error e ∧ (Failure.spec (.reference e)).kind = .schema := by
  have ha : Refers roundabout [(refName, .string "#/b")] "#/b" (.object [(refName, .string "#/%61")]) :=
    ⟨rfl, rfl⟩
  have hb : Refers roundabout [(refName, .string "#/%61")] "#/%61" (.object [(refName, .string "#/b")]) :=
    ⟨rfl, rfl⟩
  have h : Endless roundabout roundabout := by
    refine ⟨fun i => if i = 0 then roundabout
      else if i % 2 = 1 then .object [(refName, .string "#/b")]
      else .object [(refName, .string "#/%61")], rfl, ?_⟩
    intro i
    by_cases hi : i = 0
    · subst hi
      exact .member (by decide) (List.mem_cons_self ..)
    · rcases Nat.mod_two_eq_zero_or_one i with h0 | h1
      · simpa [h0, hi, show (i + 1) % 2 = 1 by omega] using Needs.target hb
      · simpa [h1, hi, show (i + 1) % 2 = 0 by omega] using Needs.target ha
  exact ⟨((dereference_refines_expansion overlay).1 _).mp rfl, h,
    (dereference_refines_expansion roundabout).2.2.2 h⟩

end RestRoutes.Json
