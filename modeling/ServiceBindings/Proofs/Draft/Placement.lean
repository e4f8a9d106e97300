import ServiceBindings.Proofs.Draft.Anchoring
import ServiceBindings.Proofs.Draft.Traversal

/-!
# Modules of namespaces

A namespace gets a module if its parents lead to the global namespace, and only then.  The module
was made for that namespace, it stands where the names on the way say, and no other namespace has
it.  Whatever is asked of a session, the module of a namespace stays the same.
-/

namespace ServiceBindings

/-! ### The way to the global namespace -/

namespace TypeGraph

variable {graph : TypeGraph} {id : NamespaceId}

/-- In a graph that was linked, each namespace below the global one has a chain. -/
theorem chain_of_descends {unlinked : TypeGraph} (hlink : unlinked.link = (graph, none))
    (h : graph.Descends .global id) :
  ∃ ids, graph.chain id = some ids :=
  exists_chain (global_of_link hlink).1 h

/-- The names on the way to a namespace with a chain say where its module stands. -/
theorem modulePath_of_chain {ids : List NamespaceId} (h : graph.chain id = some ids) :
  graph.namespacePath id = .ok (ids.map graph.namespaceName)
    ∧ graph.modulePath id
      = ⟨"models" :: "all" :: (ids.map graph.namespaceName).map Identifier.valueName⟩
  := by
  rw [namespacePath, modulePath, h, Option.getD_some, List.map_map, Function.comp_def]
  exact ⟨rfl, rfl⟩

end TypeGraph

/-! ### What a module was made for -/

namespace ModuleTree

/-- The namespace that a module was made for. -/
def origin? (tree : ModuleTree) (id : ModuleId) : Option NamespaceId :=
  ((tree.get? id).map (·.origin)).getD none

variable (tree : ModuleTree) (id : ModuleId)

theorem origin?_modify {f : Module → Module} (hf : ∀ m, (f m).origin = m.origin) :
  (tree.modify id f).origin? = tree.origin?
  := by
  funext other
  rw [origin?, map_get?_modify tree id hf other]
  rfl

@[simp] theorem origin?_appendText (body : String) :
  (tree.appendText id body).origin? = tree.origin? :=
  tree.origin?_modify id fun _ => rfl

@[simp] theorem origin?_setDoc (doc : Option String) : (tree.setDoc id doc).origin? = tree.origin? :=
  tree.origin?_modify id fun _ => rfl

theorem origin?_setOrigin (origin : NamespaceId) (other : ModuleId) (h : id.index < tree.size) :
  (tree.setOrigin id origin).origin? other = if other = id then some origin else tree.origin? other
  := by
  have hget : tree.get? id = some tree.modules[id.index] := List.getElem?_eq_getElem h
  rw [origin?, setOrigin, get?_modify]
  split
  case isTrue =>
    rw [hget]
    rfl
  case isFalse => rfl

/-- The modules of a tree are for the same namespaces when another one is made. -/
theorem origin?_addChild (name : String) (visibility : Visibility) (inline : Bool)
    {other : ModuleId} (h : other.index < tree.size) :
  (tree.addChild id name visibility inline).2.origin? other = tree.origin? other
  := by
  rw [addChild, pushItem, origin?_modify, origin?, get?, List.getElem?_append_left h]
  · rfl
  · intro m
    rfl

end ModuleTree

namespace Draft

variable {graph : TypeGraph} {d e : Draft}

/-- The module that a namespace gets is made for it, and no other one changes. -/
theorem origin?_openModule {id : NamespaceId} (hid : d.moduleOf? id = none) (parent : ModuleId)
    {m : ModuleId} (hm : m.index ≤ d.modules.size) :
  (d.openModule graph parent id).2.modules.origin? m
    = if m = ⟨d.modules.size⟩ then some id else d.modules.origin? m
  := by
  rw [openModule_of_new hid]
  dsimp only
  rw [ModuleTree.origin?_setDoc, ModuleTree.origin?_setOrigin _ _ _ _ (by simp)]
  split
  case isTrue => rfl
  case isFalse hne =>
    apply ModuleTree.origin?_addChild
    apply Nat.lt_of_le_of_ne hm
    intro heq
    apply hne (congrArg ModuleId.mk heq)

theorem Change.origin? (h : Change graph d e) {m : ModuleId} (hm : m.index < d.modules.size) :
  e.modules.origin? m = d.modules.origin? m
  := by
  cases h with
  | openModule hid _ =>
      rw [origin?_openModule hid _ (Nat.le_of_lt hm), if_neg]
      rintro rfl
      apply Nat.lt_irrefl _ hm
  | addModule parent name inline doc => simp [ModuleTree.origin?_addChild _ _ _ _ _ hm]
  | write lines _ => simp
  | _ => rfl

theorem Turn.origin? (h : Turn d e) {m : ModuleId} (hm : m.index < d.modules.size) :
  e.modules.origin? m = d.modules.origin? m
  := by
  cases h with
  | addModule parent name inline doc => simp [ModuleTree.origin?_addChild _ _ _ _ _ hm]
  | write other body => simp
  | document other doc => simp
  | _ => rfl

/-- Whether the module of each namespace was made for it, and the namespace is below the global
one. -/
structure Housed (graph : TypeGraph) (d : Draft) : Prop where
  origin : ∀ id m, d.moduleOf? id = some m → d.modules.origin? m = some id
  descends : ∀ id m, d.moduleOf? id = some m → graph.Descends .global id

theorem housed_start (graph : TypeGraph) : Housed graph .start where
  origin id m h := by
    obtain ⟨rfl, rfl⟩ := moduleOf?_start h
    rfl
  descends id m h := by
    obtain ⟨rfl, -⟩ := moduleOf?_start h
    apply TypeGraph.Descends.root

namespace Housed

/-- Two namespaces have two modules. -/
theorem eq_of_moduleOf? (h : Housed graph d) {first second : NamespaceId} {m : ModuleId}
    (hfirst : d.moduleOf? first = some m) (hsecond : d.moduleOf? second = some m) :
  first = second
  := by
  have horigin := h.origin first m hfirst
  rw [h.origin second m hsecond] at horigin
  apply (Option.some.inj horigin).symm

/-- Namespaces stay housed while none gets a module. -/
theorem unplaced (h : Housed graph d) (hplaced : Placed d)
    (horigin : ∀ m : ModuleId, m.index < d.modules.size →
      e.modules.origin? m = d.modules.origin? m)
    (hplaces : ∀ id m, e.moduleOf? id = some m → d.moduleOf? id = some m) :
  Housed graph e where
  origin id m hm := by
    have hold := hplaces id m hm
    rw [horigin m (hplaced.place_lt id m hold), h.origin id m hold]
  descends id m hm := h.descends id m (hplaces id m hm)

theorem openModule (h : Housed graph d) (hplaced : Placed d) {parent : ModuleId} {id : NamespaceId}
    (hid : d.moduleOf? id = none) (hparent : d.Encloses graph parent id) :
  Housed graph (d.openModule graph parent id).2
  := by
  constructor
  · intro other m hm
    rcases moduleOf?_openModule_cases hid hm with ⟨rfl, rfl⟩ | hm
    · have hsize : (⟨d.modules.size⟩ : ModuleId).index ≤ d.modules.size := Nat.le_refl _
      rw [origin?_openModule hid _ hsize, if_pos rfl]
    · have hlt := hplaced.place_lt other m hm
      rw [(Change.openModule d hid hparent).origin? hlt, h.origin other m hm]
  · intro other m hm
    rcases moduleOf?_openModule_cases hid hm with ⟨rfl, -⟩ | hm
    · obtain ⟨_, _, -, hchain, -⟩ := hparent
      apply TypeGraph.descends_of_chainWithin hchain
    · apply h.descends other m hm

end Housed

end Draft

namespace Job

open Draft Drafting

variable {job : Job} {d e : Draft} {id : NamespaceId}

/-- In every draft of a session the namespaces are housed. -/
theorem Session.housed (h : job.Session d) : Housed job.graph d := by
  induction h with
  | refl => apply housed_start
  | tail hbefore hmove ih =>
      have hplaced := (Session.anchored hbefore).toPlaced
      cases hmove with
      | change hchange =>
          have horigin {m : ModuleId} := @Change.origin? _ _ _ hchange m
          cases hchange with
          | openModule hid hparent => apply ih.openModule hplaced hid hparent
          | _ => apply ih.unplaced hplaced (fun _ => horigin) fun _ _ hm => hm
      | turn hturn =>
          apply ih.unplaced hplaced fun _ hm => hturn.origin? hm
          intro other m hm
          rw [moduleOf?, hturn.places_eq] at hm
          apply hm

/-- Placing a namespace fails only if no parents lead to the global one, and then it changes
nothing. -/
theorem place_eq_error {error : CompileError} (h : exec (job.place id) d = (.error error, e)) :
  job.graph.chain id = none ∧ error = .detachedNamespace (job.graph.namespaceName id) ∧ e = d
  := by
  rw [place, exec_get_bind] at h
  split at h
  case h_1 => cases h
  case h_2 =>
    split at h
    case h_1 hchain =>
      cases h
      exact ⟨hchain, rfl, rfl⟩
    case h_2 => cases h

/-- Namespaces have modules consistently.  In any draft of a session over a graph that was linked,
a namespace can be placed exactly if parents lead from it to the global namespace.  Then its module
stands where the names on the way say and was made for it; whatever the session does afterwards,
placing the namespace again gives that module and changes nothing; the modules of namespaces and the
paths of modules stay as they were; and no two namespaces have the same module.  If the namespace
cannot be placed, the draft stays as it was. -/
theorem place_consistent {unlinked : TypeGraph} (hlink : unlinked.link = (job.graph, none))
    (hd : job.Session d) (id : NamespaceId) :
  ((∃ m e, exec (job.place id) d = (.ok m, e)) ↔ job.graph.Descends .global id)
  ∧ (∀ m e, exec (job.place id) d = (.ok m, e) →
    (∃ names, job.graph.namespacePath id = .ok names
      ∧ e.modules.path m = ⟨"models" :: "all" :: names.map Identifier.valueName⟩)
    ∧ e.modules.origin? m = some id ∧ e.moduleOf? id = some m
    ∧ (∀ f, Moves job.graph e f → exec (job.place id) f = (.ok m, f))
    ∧ (∀ other n, d.moduleOf? other = some n → e.moduleOf? other = some n)
    ∧ (∀ n : ModuleId, n.index < d.modules.size → e.modules.path n = d.modules.path n)
    ∧ (∀ first second n, e.moduleOf? first = some n → e.moduleOf? second = some n →
      first = second))
  ∧ (∀ error e, exec (job.place id) d = (.error error, e) →
    error = .detachedNamespace (job.graph.namespaceName id) ∧ e = d)
  := by
  have hsession {m : ModuleId} {e : Draft} (h : exec (job.place id) d = (.ok m, e)) :
      job.Session e :=
    Relation.ReflTransGen.trans hd ((job.place_steady id).growth h).moves
  have hmodule {m : ModuleId} {e : Draft} (h : exec (job.place id) d = (.ok m, e)) :
      e.moduleOf? id = some m :=
    job.place_eq_ok hd.anchored.global h
  refine ⟨⟨?_, ?_⟩, ?_, ?_⟩
  · rintro ⟨m, e, h⟩
    apply (hsession h).housed.descends id m (hmodule h)
  · intro hdescends
    obtain ⟨ids, hids⟩ := TypeGraph.chain_of_descends hlink hdescends
    rcases hexec : exec (job.place id) d with ⟨outcome, e⟩
    cases outcome with
    | ok m => exact ⟨m, e, rfl⟩
    | error error =>
        obtain ⟨hnone, -⟩ := place_eq_error hexec
        rw [hids] at hnone
        cases hnone
  · intro m e h
    have hlater := ((job.place_steady id).growth h).later
    have hhoused := (hsession h).housed
    have hm := hmodule h
    obtain ⟨ids, hids⟩ := TypeGraph.chain_of_descends hlink (hhoused.descends id m hm)
    obtain ⟨hnames, hpath⟩ := TypeGraph.modulePath_of_chain hids
    refine ⟨⟨_, hnames, ?_⟩, hhoused.origin id m hm, hm, ?_, hlater.place, hlater.path, ?_⟩
    · rw [(hsession h).anchored.place_path id m hm, hpath]
    · intro f hmoves
      apply job.exec_place_of_placed (hmoves.later.place id m hm)
    · intro first second n hfirst hsecond
      apply hhoused.eq_of_moduleOf? hfirst hsecond
  · intro error e h
    apply (place_eq_error h).2

/-- A shop with a namespace that has a keyword for a name, and two namespaces that are each other's
parents. -/
def circleGraph : TypeGraph := {
  namespaces := [
    { name := "" },
    { name := "Shop", parent := some .global },
    { name := "super", parent := some ⟨1⟩ },
    { name := "Hen", parent := some ⟨4⟩ },
    { name := "Egg", parent := some ⟨3⟩ }] }

/-- The job with the circle. -/
def circleJob : Job := { graph := circleGraph.link.1, service := { root := ⟨1⟩ }, config := {} }

/-- The namespace with the keyword gets a module after the one that it lies in, and those in the
circle get none. -/
theorem place_consistent_circle :
  ∃ d m e, circleJob.Session d ∧ exec (circleJob.place ⟨2⟩) d = (.ok m, e)
    ∧ e.modules.path m = ⟨["models", "all", "shop", "super_"]⟩
    ∧ e.modules.origin? m = some ⟨2⟩ ∧ exec (circleJob.place ⟨2⟩) e = (.ok m, e)
    ∧ exec (circleJob.place ⟨3⟩) e = (.error (.detachedNamespace "Hen"), e)
  := by
  have hlink : circleGraph.link = (circleJob.graph, none) := by decide +kernel
  have hsession : circleJob.Session (exec (circleJob.place ⟨1⟩) .start).2 :=
    ((circleJob.place_steady ⟨1⟩).grows .start).moves
  generalize (exec (circleJob.place ⟨1⟩) .start).2 = d at hsession
  have hshop : circleJob.graph.Descends .global ⟨1⟩ := .child (by decide +kernel) .root
  have hdescends : circleJob.graph.Descends .global ⟨2⟩ := .child (by decide +kernel) hshop
  obtain ⟨m, e, hplace⟩ := (place_consistent hlink hsession ⟨2⟩).1.mpr hdescends
  obtain ⟨⟨names, hnames, hpath⟩, horigin, -, hagain, -⟩ :=
    (place_consistent hlink hsession ⟨2⟩).2.1 m e hplace
  have hnames' : circleJob.graph.namespacePath ⟨2⟩ = .ok ["Shop", "super"] := by decide +kernel
  obtain rfl : names = ["Shop", "super"] := by
    rw [hnames'] at hnames
    apply (Except.ok.inj hnames).symm
  have hsession' : circleJob.Session e :=
    Relation.ReflTransGen.trans hsession ((circleJob.place_steady ⟨2⟩).growth hplace).moves
  refine ⟨d, m, e, hsession, hplace, ?_, horigin, hagain e .refl, ?_⟩
  · rw [hpath]
    decide +kernel
  · rcases hexec : exec (circleJob.place ⟨3⟩) e with ⟨outcome, f⟩
    cases outcome with
    | ok n =>
        have hchain : circleJob.graph.chain ⟨3⟩ = none := by decide +kernel
        obtain ⟨ids, hids⟩ := TypeGraph.chain_of_descends hlink
          ((place_consistent hlink hsession' ⟨3⟩).1.mp ⟨n, f, hexec⟩)
        rw [hchain] at hids
        cases hids
    | error error =>
        obtain ⟨rfl, rfl⟩ := (place_consistent hlink hsession' ⟨3⟩).2.2 error f hexec
        rfl

end Job

end ServiceBindings
