import ServiceBindings.Proofs.Schema.Descent

/-!
# Paths of namespaces

The way from a namespace up to the global one is looked at for no more namespaces than there are.
That is always enough, and it ends every circle: a namespace has a path exactly if its parents lead
to the global namespace, and its path then consists of the names on the way.
-/

namespace ServiceBindings

namespace TypeGraph

/-- Whether a number of steps to the parent leads to the global namespace, and no fewer do. -/
abbrev GlobalAfter (graph : TypeGraph) (id : NamespaceId) (steps : Nat) : Prop :=
  Chain.First graph.parent? (· = .global) id steps .global

/-- The namespaces that a number of steps to the parent passes, from the uppermost one down. -/
def wayDown (graph : TypeGraph) (id : NamespaceId) (steps : Nat) : List (Option NamespaceId) :=
  (List.range steps).reverse.map (graph.ancestor? id)

variable {graph : TypeGraph} {id : NamespaceId} {ids : List NamespaceId} {limit steps : Nat}

theorem wayDown_succ {parent : NamespaceId} (h : graph.parent? id = some parent) (steps : Nat) :
  graph.wayDown id (steps + 1) = graph.wayDown parent steps ++ [some id]
  := by
  rw [wayDown, List.range_succ_eq_map, List.reverse_cons, List.map_append, ← List.map_reverse,
    List.map_map]
  congr 1
  apply List.map_congr_left
  intro i _
  rw [Function.comp_apply, ancestor?_eq_follow, Chain.follow_succ, h, ancestor?_eq_follow]
  rfl

/-! ### Chains -/

theorem chainWithin_succ (id : NamespaceId) (limit : Nat) :
  graph.chainWithin (limit + 1) id
    = if id = .global then some []
      else (graph.parent? id).bind fun parent =>
        (graph.chainWithin limit parent).map (· ++ [id])
  := by
  rw [chainWithin, parent?]
  cases (graph.namespace? id).bind (·.parent) with
  | none => rfl
  | some parent => rfl

/-- A chain within a limit is the way down from the global namespace, if fewer steps than the limit
lead there. -/
theorem chainWithin_eq_some :
  graph.chainWithin limit id = some ids
    ↔ ∃ steps < limit, graph.GlobalAfter id steps ∧ ids.map some = graph.wayDown id steps
  := by
  induction limit generalizing id ids with
  | zero => simp [chainWithin]
  | succ limit ih =>
      rw [chainWithin_succ]
      split
      case isTrue hglobal =>
        constructor
        · rintro ⟨⟩
          exact ⟨0, Nat.zero_lt_succ _, Chain.first_zero.mpr ⟨hglobal, hglobal⟩, rfl⟩
        · rintro ⟨steps, -, hfirst, hids⟩
          cases steps with
          | zero => rw [List.map_eq_nil_iff.mp hids]
          | succ steps => apply absurd hglobal (Chain.first_succ.mp hfirst).1
      case isFalse hglobal =>
        rw [Option.bind_eq_some_iff]
        constructor
        · rintro ⟨parent, hparent, hrest⟩
          obtain ⟨earlier, hearlier, rfl⟩ := Option.map_eq_some_iff.mp hrest
          obtain ⟨steps, hlt, hfirst, hids⟩ := ih.mp hearlier
          refine ⟨steps + 1, Nat.succ_lt_succ hlt,
            Chain.first_succ.mpr ⟨hglobal, parent, hparent, hfirst⟩, ?_⟩
          rw [wayDown_succ hparent, List.map_append, hids]
          rfl
        · rintro ⟨steps, hlt, hfirst, hids⟩
          cases steps with
          | zero => apply absurd (Chain.first_zero.mp hfirst).1 hglobal
          | succ steps =>
              obtain ⟨-, parent, hparent, hfirst⟩ := Chain.first_succ.mp hfirst
              rw [wayDown_succ hparent] at hids
              obtain ⟨earlier, last, rfl, hearlier, hlast⟩ := List.map_eq_append_iff.mp hids
              have hchain := ih.mpr ⟨steps, Nat.lt_of_succ_lt_succ hlt, hfirst, hearlier⟩
              obtain rfl : last = [id] := by
                apply List.map_injective_iff.mpr (fun _ _ => Option.some.inj) hlast
              refine ⟨parent, hparent, ?_⟩
              rw [hchain, Option.map_some]

/-- A chain that is found is found with a greater limit. -/
theorem chainWithin_mono {other : Nat} (h : graph.chainWithin limit id = some ids)
    (hle : limit ≤ other) :
  graph.chainWithin other id = some ids
  := by
  obtain ⟨steps, hlt, hsteps⟩ := chainWithin_eq_some.mp h
  apply chainWithin_eq_some.mpr ⟨steps, Nat.lt_of_lt_of_le hlt hle, hsteps⟩

/-- A namespace with a chain is below the global one. -/
theorem descends_of_chainWithin (h : graph.chainWithin limit id = some ids) :
  graph.Descends .global id
  := by
  obtain ⟨steps, -, hfirst, -⟩ := chainWithin_eq_some.mp h
  apply descends_iff_first.mpr ⟨steps, hfirst⟩

/-- Whatever is passed on the way to the global namespace is a namespace. -/
theorem exists_wayDown (h : graph.GlobalAfter id steps) :
  ∃ ids : List NamespaceId, ids.map some = graph.wayDown id steps
  := by
  induction steps generalizing id with
  | zero => exact ⟨[], rfl⟩
  | succ steps ih =>
      obtain ⟨-, parent, hparent, hfirst⟩ := Chain.first_succ.mp h
      obtain ⟨ids, hids⟩ := ih hfirst
      use ids ++ [id]
      rw [wayDown_succ hparent, List.map_append, hids]
      rfl

/-- In a graph with a global namespace, each namespace below it has a chain: the shortest way up is
shorter than the list of namespaces, also if other parents run in a circle. -/
theorem exists_chain (hglobal : graph.namespaces.length ≠ 0) (h : graph.Descends .global id) :
  ∃ ids, graph.chain id = some ids
  := by
  obtain ⟨steps, hfirst⟩ := descends_iff_first.mp h
  obtain ⟨ids, hids⟩ := exists_wayDown hfirst
  have hlt := steps_lt_of_first (Nat.pos_of_ne_zero hglobal) hfirst
  exact ⟨ids, chainWithin_eq_some.mpr ⟨steps, hlt, hfirst, hids⟩⟩

/-! ### Names -/

theorem namespacePath_eq_ok {names : List String} :
  graph.namespacePath id = .ok names
    ↔ ∃ ids, graph.chain id = some ids ∧ ids.map graph.namespaceName = names
  := by
  rw [namespacePath]
  split
  case h_1 ids hchain => simp [hchain]
  case h_2 hchain => simp [hchain]

/-- The names on the way to the global namespace are those of namespaces. -/
theorem map_namespaceName (h : graph.GlobalAfter id steps)
    (hids : ids.map some = graph.wayDown id steps) :
  (ids.map graph.namespaceName).map some
    = (List.range steps).reverse.map fun i =>
      ((graph.ancestor? id i).bind graph.namespace?).map (·.name)
  := by
  calc (ids.map graph.namespaceName).map some
      = (ids.map some).map (Option.map graph.namespaceName) := by
        rw [List.map_map, List.map_map]
        rfl
    _ = (List.range steps).reverse.map fun i =>
        (graph.ancestor? id i).map graph.namespaceName := by
        rw [hids, wayDown, List.map_map]
        rfl
    _ = _ := by
        apply List.map_congr_left
        intro i hi
        -- What is passed has a parent, so it exists and has a name.
        obtain ⟨passed, parent, hpassed, hparent⟩ := h.exists_passed
          (List.mem_range.mp (List.mem_reverse.mp hi))
        obtain ⟨ns, hns, -⟩ := Option.bind_eq_some_iff.mp hparent
        rw [ancestor?_eq_follow, hpassed, Option.map_some, Option.bind_some, namespaceName, hns]
        rfl

/-- A namespace has a path exactly if its parents lead to the global namespace.  The path has the
names from just below the global namespace down to the one itself.  If a parent is missing or the
parents run in a circle, the namespace is detached. -/
theorem namespacePath_exact {ns : Namespace} (hns : graph.namespace? id = some ns) :
  ((∃ names, graph.namespacePath id = .ok names) ↔ graph.Descends .global id)
    ∧ (∀ names, graph.namespacePath id = .ok names →
      ∃ steps, graph.ancestor? id steps = some .global
        ∧ (∀ fewer < steps, graph.ancestor? id fewer ≠ some .global)
        ∧ names.map some = (List.range steps).reverse.map fun i =>
          ((graph.ancestor? id i).bind graph.namespace?).map (·.name))
    ∧ (¬graph.Descends .global id →
      graph.namespacePath id = .error (.detachedNamespace ns.name))
  := by
  have hlength : graph.namespaces.length ≠ 0 :=
    Nat.ne_zero_of_lt (List.getElem?_eq_some_iff.mp hns).1
  refine ⟨⟨?_, ?_⟩, ?_, ?_⟩
  · rintro ⟨names, hnames⟩
    obtain ⟨ids, hchain, -⟩ := namespacePath_eq_ok.mp hnames
    apply descends_of_chainWithin hchain
  · intro hdescends
    obtain ⟨ids, hchain⟩ := exists_chain hlength hdescends
    exact ⟨_, namespacePath_eq_ok.mpr ⟨ids, hchain, rfl⟩⟩
  · intro names hnames
    obtain ⟨ids, hchain, rfl⟩ := namespacePath_eq_ok.mp hnames
    obtain ⟨steps, -, hfirst, hids⟩ := chainWithin_eq_some.mp hchain
    refine ⟨steps, ?_, ?_, map_namespaceName hfirst hids⟩
    · rw [ancestor?_eq_follow, hfirst.reached]
    · intro fewer hfewer hglobal
      rw [ancestor?_eq_follow] at hglobal
      apply hfirst.earlier fewer hfewer _ hglobal rfl
  · intro hdetached
    rw [namespacePath, namespaceName, hns]
    split
    case h_1 ids hchain => apply absurd (descends_of_chainWithin hchain) hdetached
    case h_2 => rfl

/-- Namespaces that all lie on one way. -/
def stairGraph : TypeGraph := {
  namespaces := [
    { name := "" },
    { name := "Cellar", parent := some .global },
    { name := "Hall", parent := some ⟨1⟩ },
    { name := "Attic", parent := some ⟨2⟩ }] }

/-- A namespace that leads into a circle which it is not part of. -/
def ringGraph : TypeGraph := {
  namespaces := [
    { name := "" },
    { name := "Moat", parent := some ⟨2⟩ },
    { name := "Wall", parent := some ⟨1⟩ },
    { name := "Keep", parent := some ⟨2⟩ }] }

/-- Nothing but the global namespace itself leads there. -/
theorem eq_global_of_descends_ring (h : ringGraph.Descends .global id) : id = .global := by
  induction h with
  | root => rfl
  | @child id parent hparent _ ih =>
      subst ih
      rcases id with ⟨_ | _ | _ | _ | _⟩ <;> cases hparent

/-- The longest way is followed to its end, and the circle is noticed. -/
theorem namespacePath_exact_stairs :
  stairGraph.Descends .global ⟨3⟩
    ∧ stairGraph.namespacePath ⟨3⟩ = .ok ["Cellar", "Hall", "Attic"]
    ∧ ¬ringGraph.Descends .global ⟨3⟩
    ∧ ringGraph.namespacePath ⟨3⟩ = .error (.detachedNamespace "Keep")
  := by
  have hstairs : stairGraph.Descends .global ⟨3⟩ := .child rfl (.child rfl (.child rfl .root))
  have hring : ¬ringGraph.Descends .global ⟨3⟩ := by
    intro h
    cases eq_global_of_descends_ring h
  refine ⟨hstairs, ?_, hring, ?_⟩
  · obtain ⟨hiff, hpath, -⟩ := namespacePath_exact
      (show stairGraph.namespace? ⟨3⟩ = some { name := "Attic", parent := some ⟨2⟩ } from rfl)
    obtain ⟨names, hnames⟩ := hiff.mpr hstairs
    obtain ⟨steps, hsteps, hleast, heq⟩ := hpath names hnames
    have hearlier : ∀ fewer < 3, stairGraph.ancestor? ⟨3⟩ fewer ≠ some .global := by decide
    obtain rfl : steps = 3 := by
      apply Nat.le_antisymm
      · apply Nat.le_of_not_lt fun hlt => hleast 3 hlt rfl
      · apply Nat.le_of_not_lt fun hlt => hearlier steps hlt hsteps
    rw [hnames]
    congr 1
    apply List.map_injective_iff.mpr (fun _ _ => Option.some.inj) heq
  · apply (namespacePath_exact
      (show ringGraph.namespace? ⟨3⟩ = some { name := "Keep", parent := some ⟨2⟩ } from rfl)).2.2
    apply hring

end TypeGraph

end ServiceBindings
