import ServiceBindings.Proofs.Draft.Allowing
import ServiceBindings.Proofs.Draft.History
import ServiceBindings.Proofs.Module.Nesting

/-!
# Modules that are not for namespaces

A module that is not inline is that of a namespace, or it is one of a few others: the first modules
of a draft, and those that the HTTP surface makes.  A shelf lists these others with their paths.
Whatever drafting does besides making modules leaves the shelf as it is, since placing a namespace
only makes modules for namespaces.
-/

namespace ServiceBindings

open Draft

namespace Draft

variable {graph : TypeGraph} {d e : Draft} {shelf : List (ModuleId × ModulePath)}

/-- Whether the modules on a shelf exist and stand where it says, and any other module is inline or
that of a namespace. -/
structure Shelves (d : Draft) (shelf : List (ModuleId × ModulePath)) : Prop extends Placed d where
  built : d.modules.Built
  listed : ∀ entry ∈ shelf, entry.1.index < d.modules.size ∧ d.modules.path entry.1 = entry.2
  covered : ∀ m : ModuleId, m.index < d.modules.size → d.modules.isInline m = false →
    (∃ id, d.moduleOf? id = some m) ∨ ∃ path, (m, path) ∈ shelf

/-- The modules that a draft starts with, besides that of the global namespace. -/
def firstShelf : List (ModuleId × ModulePath) :=
  [(.root, .root), (.models, ⟨["models"]⟩), (.synthetic, syntheticPath)]

namespace Shelves

theorem start : Shelves .start firstShelf where
  toPlaced := (consistent_start ⟨[], []⟩).toPlaced
  built := by
    have hroot : ModuleId.root.index < ModuleTree.empty.size := by decide
    have hmodels := (ModuleTree.Built.empty.addChild "models" .everywhere false hroot).setDoc
      .models (some "Data types declared by the service.")
    have hglobal := (hmodels.addChild "all" .everywhere false
      (show ModuleId.models.index < _ by decide)).setOrigin .global .global
    apply (hglobal.addChild "synthetic" .everywhere false
      (show ModuleId.models.index < _ by decide)).setDoc
  listed := by decide
  covered m hm _ := by
    obtain ⟨index⟩ := m
    match index with
    | 0 => exact Or.inr ⟨_, List.mem_cons_self⟩
    | 1 => exact Or.inr ⟨_, List.mem_cons_of_mem _ List.mem_cons_self⟩
    | 2 => exact Or.inl ⟨.global, rfl⟩
    | 3 => exact Or.inr ⟨_, List.mem_cons_of_mem _ (List.mem_cons_of_mem _ List.mem_cons_self)⟩
    | index + 4 => apply absurd hm (Nat.not_lt.mpr (Nat.le_add_left 4 index))

/-- Texts and documentation leave a shelf as it is. -/
theorem withModules (h : Shelves d shelf) {modules : ModuleTree} (hbuilt : modules.Built)
    (hsize : modules.size = d.modules.size) (hpath : modules.path = d.modules.path)
    (hinline : modules.isInline = d.modules.isInline) :
  Shelves { d with modules := modules } shelf where
  global := h.global
  place_lt id m hm := by
    rw [hsize]
    apply h.place_lt id m hm
  built := hbuilt
  listed entry hentry := by
    rw [hsize, hpath]
    apply h.listed entry hentry
  covered m hm hopen := by
    rw [hsize] at hm
    rw [hinline] at hopen
    apply h.covered m hm hopen

theorem appendText (h : Shelves d shelf) (m : ModuleId) (body : String) :
  Shelves { d with modules := d.modules.appendText m body } shelf
  := by
  apply h.withModules (h.built.appendText m body)
  · simp
  · simp
  · apply ModuleTree.isInline_pushItem

theorem setDoc (h : Shelves d shelf) (m : ModuleId) (doc : Option String) :
  Shelves { d with modules := d.modules.setDoc m doc } shelf
  := by
  apply h.withModules (h.built.setDoc m doc)
  · simp
  · simp
  · simp

/-- A module that is made for anything but a namespace comes on the shelf, unless it is inline. -/
theorem addModule (h : Shelves d shelf) {parent : ModuleId} {path : ModulePath}
    (hparent : (parent, path) ∈ shelf) (name : String) (inline : Bool) (doc : String) :
  Shelves (Drafting.exec (Drafting.addModule parent name inline doc) d).2
    (if inline then shelf else (⟨d.modules.size⟩, path.enter [name]) :: shelf)
  := by
  obtain ⟨hlt, hpath⟩ := h.listed _ hparent
  have hmade : Shelves { d with
      modules := (d.modules.addChild parent name .everywhere inline).2 }
      (if inline then shelf else (⟨d.modules.size⟩, path.enter [name]) :: shelf) := by
    constructor
    case toPlaced =>
      refine ⟨h.global, ?_⟩
      intro id m hm
      rw [ModuleTree.size_addChild]
      apply Nat.lt_succ_of_lt (h.place_lt id m hm)
    case built => apply h.built.addChild name .everywhere inline hlt
    case listed =>
      have hkept : ∀ entry ∈ shelf,
          entry.1.index < (d.modules.addChild parent name .everywhere inline).2.size
          ∧ (d.modules.addChild parent name .everywhere inline).2.path entry.1 = entry.2 := by
        intro entry hentry
        obtain ⟨hindex, hentry⟩ := h.listed entry hentry
        rw [ModuleTree.size_addChild, ModuleTree.path_addChild _ _ _ _ _ hindex]
        exact ⟨Nat.lt_succ_of_lt hindex, hentry⟩
      intro entry hentry
      split at hentry
      case isTrue => apply hkept entry hentry
      case isFalse =>
        rcases List.mem_cons.mp hentry with rfl | hentry
        · rw [ModuleTree.size_addChild, ModuleTree.path_addChild_self, hpath]
          exact ⟨Nat.lt_succ_self _, rfl⟩
        · apply hkept entry hentry
    case covered =>
      intro m hm hopen
      rw [ModuleTree.size_addChild] at hm
      rcases Nat.lt_succ_iff_lt_or_eq.mp hm with hm | hm
      · rw [ModuleTree.isInline_addChild hm] at hopen
        rcases h.covered m hm hopen with hplaced | ⟨known, hknown⟩
        · apply Or.inl hplaced
        · refine Or.inr ⟨known, ?_⟩
          split
          case isTrue => apply hknown
          case isFalse => apply List.mem_cons_of_mem _ hknown
      · obtain rfl : m = ⟨d.modules.size⟩ := congrArg ModuleId.mk hm
        rw [ModuleTree.isInline_addChild_self] at hopen
        rw [if_neg (by simp [hopen])]
        exact Or.inr ⟨_, List.mem_cons_self⟩
  apply hmade.setDoc

/-- The module that a namespace gets does not come on the shelf. -/
theorem openModule (h : Shelves d shelf) {parent : ModuleId} {id : NamespaceId}
    (hid : d.moduleOf? id = none) (hparent : d.Encloses graph parent id) :
  Shelves (d.openModule graph parent id).2 shelf
  := by
  have hlater := @later_openModule graph d id hid parent
  have hlt : parent.index < d.modules.size := by
    obtain ⟨outer, ids, -, -, ⟨-, rfl⟩ | hmodule⟩ := hparent
    · apply h.place_lt _ _ h.global
    · apply h.place_lt _ _ hmodule
  constructor
  case toPlaced => apply h.toPlaced.openModule hid
  case built =>
    rw [openModule_of_new hid]
    apply ((h.built.addChild _ _ _ hlt).setOrigin _ _).setDoc
  case listed =>
    intro entry hentry
    obtain ⟨hindex, hpath⟩ := h.listed entry hentry
    use Nat.lt_of_lt_of_le hindex hlater.size
    rw [hlater.path _ hindex, hpath]
  case covered =>
    intro m hm hopen
    have hinline : (d.openModule graph parent id).2.modules.isInline
        = (d.modules.addChild parent (Identifier.valueName (graph.namespaceName id))
          .everywhere false).2.isInline := by
      rw [openModule_of_new hid]
      simp
    have hsize : (d.openModule graph parent id).2.modules.size = d.modules.size + 1 := by
      rw [openModule_of_new hid]
      simp
    rw [hsize] at hm
    rcases Nat.lt_succ_iff_lt_or_eq.mp hm with hm | hm
    · rw [hinline, ModuleTree.isInline_addChild hm] at hopen
      rcases h.covered m hm hopen with ⟨other, hplaced⟩ | hknown
      · exact Or.inl ⟨other, hlater.place _ _ hplaced⟩
      · apply Or.inr hknown
    · obtain rfl : m = ⟨d.modules.size⟩ := congrArg ModuleId.mk hm
      refine Or.inl ⟨id, ?_⟩
      rw [moduleOf?_openModule hid, if_pos rfl]

theorem opens (h : Shelves d shelf) (hopens : Relation.ReflTransGen (Opens graph) d e) :
  Shelves e shelf
  := by
  induction hopens with
  | refl => apply h
  | tail _ hopen ih =>
      cases hopen with
      | openModule hid hparent => apply ih.openModule hid hparent

end Shelves

end Draft

/-! ### Drafting -/

namespace Job

open Drafting

variable (job : Job) (shelf : List (ModuleId × ModulePath))

/-- What drafting does besides making modules leaves a shelf as it is. -/
theorem allows_shelves : job.Allows fun d e => Shelves d shelf → Shelves e shelf where
  refl _ h := h
  trans hcd hde h := hde (hcd h)
  report _ _ h := { h with }
  request _ _ h := { h with }
  place id d h := h.opens (job.place_opens id d)
  anonymousName _ preferred d h := by
    rw [anonymousName, exec_get_bind]
    split
    case h_1 => apply h
    case h_2 =>
      split
      case isTrue => apply h
      case isFalse => exact { h with }
  mark _ _ h := { h with }
  write m lines _ h := h.appendText m _

theorem makeSplit_shelves (container : Container) (operation : Operation) :
  Stays (fun d e => Shelves d shelf → Shelves e shelf) (job.makeSplit container operation)
  := by
  have hR := job.allows_shelves shelf
  have hside (id : TypeId) (union : UnionType) (variants : List Nat) (name : String) :
      Stays (fun d e => Shelves d shelf → Shelves e shelf)
        (returnSide id union variants name) := by
    intro d h
    obtain ⟨subsets, synthetics, names, hkeeps⟩ := returnSide_keeps id union variants name d
    rw [hkeeps]
    exact { h with }
  unfold makeSplit
  dsimp only
  split
  case h_1 =>
    apply hR.bind (hR.placeOfContainer container)
    intro _
    apply hR.bind (hside _ _ _ _)
    intro success
    apply hR.bind_pure (hside _ _ _ _)
  case h_2 => split <;> apply hR.pure

theorem allowsSplits_shelves :
  job.AllowsSplits fun d e => Shelves d shelf → Shelves e shelf where
  toAllows := job.allows_shelves shelf
  splitReturn {container operation} _ := by
    have hR := job.allows_shelves shelf
    intro d
    rw [splitReturn, exec_get_bind]
    split
    case h_1 => apply hR.refl
    case h_2 =>
      apply exec_bind_rel @hR.trans (job.makeSplit_shelves shelf container operation d)
      intro split e _ h
      exact { h with }

theorem completes_shelves : job.Completes fun d e => Shelves d shelf → Shelves e shelf where
  toComposes := (job.allows_shelves shelf).toComposes
  declaration _ h := (job.allowsSplits_shelves shelf).writeDeclaration _ _ { h with }
  synthetic _ h := (job.allows_shelves shelf).writeSynthetic _ _ { h with }

/-! ### The HTTP surface -/

/-- The paths of the modules that the surface makes, besides inline ones. -/
def surfacePaths : List ModulePath :=
  [⟨["http", "server"]⟩, ⟨["http", "operations"]⟩, ⟨["http", "router"]⟩, ⟨["http"]⟩]

variable {job shelf} {d e : Draft} {parent : ModuleId} {path : ModulePath}

/-- An inline module does not come on the shelf. -/
theorem addInline_shelves (hparent : (parent, path) ∈ shelf) (name doc : String) :
  Stays (fun d e => Shelves d shelf → Shelves e shelf) (addModule parent name true doc) :=
  fun _ h => h.addModule hparent name true doc

/-- A module that is made comes on the shelf. -/
theorem make_shelves (hd : Shelves d shelf) (hparent : (parent, path) ∈ shelf) {name doc : String}
    {fill : ModuleId → Drafting Unit}
    (h : exec (addModule parent name false doc >>= fill) d = (.ok (), e)) :
  ∃ m d', Shelves d' ((m, path.enter [name]) :: shelf) ∧ exec (fill m) d' = (.ok (), e)
  := by
  have hmade := hd.addModule hparent name false doc
  obtain ⟨m, d', hmodule, h⟩ := exec_bind_eq_ok.mp h
  rw [hmodule] at hmade
  cases hmodule
  exact ⟨_, _, hmade, h⟩

theorem writeRouter_shelves (job : Job) {endpoints : List Endpoint} (hd : Shelves d shelf)
    (hparent : (parent, path) ∈ shelf)
    (h : exec (writeRouter parent endpoints) d = (.ok (), e)) :
  ∃ m, Shelves e ((m, path.enter ["router"]) :: shelf)
  := by
  obtain ⟨doc, fill, heq, hfill⟩ := job.writeRouter_eq parent endpoints
  rw [heq] at h
  obtain ⟨m, d', hmade, h⟩ := make_shelves hd hparent h
  exact ⟨m, (hfill _ (job.allows_shelves _) m).exec h hmade⟩

section

variable {endpoints : List Endpoint} (hoperation : ∀ endpoint ∈ endpoints,
  endpoint.operation ∈ job.graph.operations endpoint.http.operation.container)
include hoperation

theorem writeEndpoints_shelves (hd : Shelves d shelf) (hparent : (parent, path) ∈ shelf)
    (h : exec (job.writeEndpoints parent endpoints) d = (.ok (), e)) :
  ∃ m, Shelves e ((m, path.enter ["operations"]) :: shelf)
  := by
  obtain ⟨doc, fill, heq, hfill⟩ := job.writeEndpoints_eq parent endpoints
  rw [heq] at h
  obtain ⟨m, d', hmade, h⟩ := make_shelves hd hparent h
  use m
  apply (hfill _ (job.allows_shelves _) m _ _).exec h hmade
  · apply addInline_shelves List.mem_cons_self
  · intro endpoint hendpoint
    apply (job.allowsSplits_shelves _).splitReturn (hoperation endpoint hendpoint)

/-- The server comes on the shelf if there is one. -/
theorem writeServer_shelves (hd : Shelves d shelf) (hparent : (parent, path) ∈ shelf)
    (h : exec (job.writeServer parent endpoints) d = (.ok (), e)) :
  ∃ server, Shelves e (server ++ shelf) ∧ (server.map (·.2)).Sublist [path.enter ["server"]]
  := by
  cases hempty : endpoints.isEmpty with
  | true =>
      rw [writeServer, if_pos hempty] at h
      cases h
      exact ⟨[], hd, List.nil_sublist _⟩
  | false =>
      obtain ⟨doc, fill, heq, hfill⟩ := job.writeServer_eq parent hempty
      rw [heq] at h
      obtain ⟨m, d', hmade, h⟩ := make_shelves hd hparent h
      refine ⟨[(m, path.enter ["server"])], ?_, List.Sublist.refl _⟩
      have hR := job.allowsSplits_shelves ((m, path.enter ["server"]) :: shelf)
      apply (hfill _ hR.toAllows m _).exec h hmade
      intro host path operations backend endpoint hendpoint
      apply hR.serveMethod _ host path operations backend
        (hR.splitReturn (hoperation endpoint hendpoint))
      intro _ _ h
      exact { h with }

end

/-- Writing the surface puts its modules on the shelf. -/
theorem writeSurface_shelves {http : HttpService} (hd : Shelves d shelf)
    (hroot : (.root, .root) ∈ shelf) (h : exec (job.writeSurface http) d = (.ok (), e)) :
  ∃ surface, Shelves e (surface ++ shelf) ∧ (surface.map (·.2)).Sublist surfacePaths
  := by
  have hoperation (endpoint : Endpoint) (h : endpoint ∈ (Endpoint.collect job.graph http).1) :
      endpoint.operation ∈ job.graph.operations endpoint.http.operation.container :=
    (TypeGraph.operation?_eq_some (Endpoint.operation_mem h).2).1
  obtain ⟨m, d₁, hd₁, h⟩ := make_shelves hd hroot h
  obtain ⟨_, d₂, hproblems, h⟩ := exec_bind_eq_ok.mp h
  obtain ⟨_, d₃, hrequests, h⟩ := exec_bind_eq_ok.mp h
  obtain ⟨_, d₄, hcredential, h⟩ := exec_bind_eq_ok.mp h
  obtain ⟨_, d₅, hrouter, h⟩ := exec_bind_eq_ok.mp h
  obtain ⟨_, d₆, hendpoints, hserver⟩ := exec_bind_eq_ok.mp h
  have hR := job.allows_shelves ((m, ⟨["http"]⟩) :: shelf)
  have hd₂ := (hR.reportProblems http).exec hproblems hd₁
  have hd₃ := (hR.forM fun endpoint _ => hR.request _).exec hrequests hd₂
  have hd₄ := (hR.writeCredential (addInline_shelves List.mem_cons_self) _).exec hcredential hd₃
  obtain ⟨router, hd₅⟩ := job.writeRouter_shelves hd₄ List.mem_cons_self hrouter
  obtain ⟨operations, hd₆⟩ := writeEndpoints_shelves hoperation hd₅
    (List.mem_cons_of_mem _ List.mem_cons_self) hendpoints
  obtain ⟨server, he, hsublist⟩ := writeServer_shelves hoperation hd₆
    (List.mem_cons_of_mem _ (List.mem_cons_of_mem _ List.mem_cons_self)) hserver
  use server ++ [(operations, ⟨["http", "operations"]⟩), (router, ⟨["http", "router"]⟩),
    (m, ⟨["http"]⟩)]
  rw [List.append_assoc, List.map_append]
  use he
  apply hsublist.append (List.Sublist.refl _)

theorem writeRoot_shelves (job : Job) (shelf : List (ModuleId × ModulePath)) (m : ModuleId) :
  Stays (fun d e => Shelves d shelf → Shelves e shelf) (job.writeRoot m)
  := by
  have hR := job.allows_shelves shelf
  apply hR.bind (hR.pathOf m)
  intro path
  split
  case h_1 => apply hR.throw
  case h_2 =>
    apply hR.bind (hR.write _ _)
    intro _ d hd
    apply hd.setDoc

/-- The shelf of a run that succeeds. -/
theorem run_shelves (h : exec job.run .start = (.ok (), e)) :
  ∃ shelf, Shelves e shelf
    ∧ (shelf.map (·.2)).Sublist (surfacePaths ++ firstShelf.map (·.2))
  := by
  have hcomplete (shelf : List (ModuleId × ModulePath)) := (job.completes_shelves shelf).complete
  have hR := job.allows_shelves firstShelf
  obtain ⟨m, d₁, hplace, h⟩ := exec_bind_eq_ok.mp h
  obtain ⟨_, d₂, hrequests, h⟩ := exec_bind_eq_ok.mp h
  obtain ⟨_, d₃, hfirst, h⟩ := exec_bind_eq_ok.mp h
  have hd₁ := (hR.place _).exec hplace Shelves.start
  have hd₂ := (hR.forM fun declaration _ => hR.request declaration).exec hrequests hd₁
  have hd₃ := (hcomplete _).exec hfirst hd₂
  have hplain : (firstShelf.map (·.2)).Sublist (surfacePaths ++ firstShelf.map (·.2)) :=
    List.sublist_append_right _ _
  dsimp only at h
  split at h
  case h_1 http _ =>
    split at h
    case isTrue =>
      obtain ⟨_, d₄, hsurface, h⟩ := exec_bind_eq_ok.mp h
      obtain ⟨_, d₅, hrest, h⟩ := exec_bind_eq_ok.mp h
      obtain ⟨surface, hd₄, hsublist⟩ :=
        writeSurface_shelves hd₃ List.mem_cons_self hsurface
      refine ⟨surface ++ firstShelf,
        (job.writeRoot_shelves _ m).exec h ((hcomplete _).exec hrest hd₄), ?_⟩
      rw [List.map_append]
      apply hsublist.append (List.Sublist.refl _)
    case isFalse => exact ⟨firstShelf, (job.writeRoot_shelves _ m).exec h hd₃, hplain⟩
  case h_2 => exact ⟨firstShelf, (job.writeRoot_shelves _ m).exec h hd₃, hplain⟩

end Job

end ServiceBindings
