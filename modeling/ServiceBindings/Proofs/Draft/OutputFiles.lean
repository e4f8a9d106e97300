import ServiceBindings.Proofs.Draft.Emission
import ServiceBindings.Proofs.Draft.Placement
import ServiceBindings.Proofs.Draft.Shelf
import ServiceBindings.Proofs.Module.FilePath
import ServiceBindings.Proofs.Module.Filing

/-!
# Output files

The paths of the files of a compilation differ.  A module with a file is that of a namespace, or it
is one of a few others.  The path of the module of a namespace has the names of the namespaces
around it, so it tells the namespace if namespaces in the same one have different names, and none of
the others stands there.
-/

namespace ServiceBindings

open Draft

/-! ### Namespaces by their paths -/

namespace TypeGraph

variable {graph : TypeGraph}

/-- Whether namespaces that lie in the same one have modules of different names. -/
def DistinctSiblings (graph : TypeGraph) : Prop :=
  ∀ first ∈ graph.namespaceIds, ∀ second ∈ graph.namespaceIds, graph.parent? first ≠ none →
    graph.parent? first = graph.parent? second →
    Identifier.valueName (graph.namespaceName first)
      = Identifier.valueName (graph.namespaceName second) →
    first = second

instance (graph : TypeGraph) : Decidable graph.DistinctSiblings :=
  inferInstanceAs (Decidable (∀ first ∈ graph.namespaceIds, ∀ second ∈ graph.namespaceIds, _))

/-- The names on the way to a namespace tell which one it is. -/
theorem DistinctSiblings.eq_of_chain (h : graph.DistinctSiblings) {limit other : Nat}
    {first second : NamespaceId} {ids others : List NamespaceId}
    (hfirst : graph.chainWithin limit first = some ids)
    (hsecond : graph.chainWithin other second = some others)
    (hnames : ids.map (fun id => Identifier.valueName (graph.namespaceName id))
      = others.map fun id => Identifier.valueName (graph.namespaceName id)) :
  first = second
  := by
  induction limit generalizing other first second ids others with
  | zero => cases hfirst
  | succ limit ih =>
      rcases chainWithin_cases hfirst with
        ⟨rfl, rfl⟩ | ⟨-, _, parent, earlier, hsucc, hparent, hearlier, rfl⟩
      · rcases chainWithin_cases hsecond with ⟨rfl, -⟩ | ⟨-, _, _, _, -, -, -, rfl⟩
        · rfl
        · simp at hnames
      · cases hsucc
        rcases chainWithin_cases hsecond with
          ⟨-, rfl⟩ | ⟨-, _, parent', earlier', -, hparent', hearlier', rfl⟩
        · simp at hnames
        · rw [List.map_append, List.map_append] at hnames
          obtain ⟨hbefore, hlast⟩ := List.append_inj' hnames (by simp)
          obtain rfl : parent = parent' := ih hearlier hearlier' hbefore
          apply h first (mem_namespaceIds_of_parent? hparent) second
            (mem_namespaceIds_of_parent? hparent')
          · rw [parent?, hparent]
            apply Option.some_ne_none
          · rw [parent?, parent?, hparent, hparent']
          · apply List.head_eq_of_cons_eq hlast

/-- The path of its module tells which namespace below the global one it is. -/
theorem DistinctSiblings.eq_of_modulePath (h : graph.DistinctSiblings) {unlinked : TypeGraph}
    (hlink : unlinked.link = (graph, none)) {first second : NamespaceId}
    (hfirst : graph.Descends .global first) (hsecond : graph.Descends .global second)
    (hpath : graph.modulePath first = graph.modulePath second) :
  first = second
  := by
  obtain ⟨ids, hids⟩ := chain_of_descends hlink hfirst
  obtain ⟨others, hothers⟩ := chain_of_descends hlink hsecond
  apply h.eq_of_chain hids hothers
  rw [modulePath, modulePath, hids, hothers] at hpath
  injection hpath with hparts
  injection hparts with _ hparts
  injection hparts with _ hparts

/-- The modules of namespaces can have files. -/
theorem isFilePart_modulePath (graph : TypeGraph) (id : NamespaceId) :
  ∀ part ∈ (graph.modulePath id).parts, ModulePath.IsFilePart part
  := by
  intro part hpart
  have hfirst : ∀ part ∈ ["models", "all"], ModulePath.IsFilePart part := by decide
  rcases List.mem_append.mp (show part ∈ ["models", "all"] ++ _ from hpart) with hpart | hpart
  · apply hfirst part hpart
  · obtain ⟨outer, -, rfl⟩ := List.mem_map.mp hpart
    apply Identifier.isFilePart_valueName

/-- The namespaces on the way to one lie in others. -/
theorem exists_parent_of_mem_chain {limit : Nat} {id : NamespaceId} {ids : List NamespaceId}
    (h : graph.chainWithin limit id = some ids) {outer : NamespaceId} (houter : outer ∈ ids) :
  ∃ parent, graph.parent? outer = some parent
  := by
  induction limit generalizing id ids with
  | zero => cases h
  | succ limit ih =>
      rcases chainWithin_cases h with
        ⟨-, rfl⟩ | ⟨-, _, parent, earlier, hsucc, hparent, hearlier, rfl⟩
      · cases houter
      · cases hsucc
        rcases List.mem_append.mp houter with houter | houter
        · apply ih hearlier houter
        · cases List.mem_singleton.mp houter
          exact ⟨parent, hparent⟩

/-- The parts of the path of a namespace are not empty if no namespace in another one has an empty
name. -/
theorem modulePath_ne_empty
    (h : ∀ id ∈ graph.namespaceIds, graph.parent? id ≠ none →
      Identifier.valueName (graph.namespaceName id) ≠ "") (id : NamespaceId) :
  ∀ part ∈ (graph.modulePath id).parts, part ≠ ""
  := by
  intro part hpart
  have hfirst : ∀ part ∈ ["models", "all"], part ≠ "" := by decide
  rcases List.mem_append.mp (show part ∈ ["models", "all"] ++ _ from hpart) with hpart | hpart
  · apply hfirst part hpart
  · obtain ⟨outer, houter, rfl⟩ := List.mem_map.mp hpart
    cases hchain : graph.chain id with
    | none =>
        rw [hchain] at houter
        cases houter
    | some ids =>
        rw [hchain] at houter
        obtain ⟨parent, hparent⟩ := exists_parent_of_mem_chain hchain houter
        apply h outer (mem_namespaceIds_of_parent? hparent)
        rw [hparent]
        apply Option.some_ne_none

end TypeGraph

/-! ### Modules by their paths -/

namespace Job

open Drafting

variable {job : Job} {d e : Draft} {shelf : List (ModuleId × ModulePath)}

/-- The paths that a shelf can have. -/
def shelfPaths : List ModulePath := surfacePaths ++ firstShelf.map (·.2)

/-- No path that a shelf can have is that of a namespace. -/
theorem modulePath_not_mem_shelfPaths (graph : TypeGraph) (id : NamespaceId) :
  graph.modulePath id ∉ shelfPaths
  := by
  have hall : ∀ path ∈ shelfPaths, path.parts.take 2 ≠ ["models", "all"] := by decide +kernel
  intro hmem
  apply hall _ hmem rfl

section

variable (hd : job.Session d) (hshelf : Shelves d shelf)
  (hpaths : (shelf.map (·.2)).Sublist shelfPaths)
include hd hshelf hpaths

/-- The path of a module that is not inline is that of a namespace below the global one, which has
the module, or one that a shelf can have. -/
theorem path_cases {m : ModuleId} (hm : m.index < d.modules.size)
    (hopen : d.modules.isInline m = false) :
  (∃ id, d.moduleOf? id = some m ∧ job.graph.Descends .global id
      ∧ d.modules.path m = job.graph.modulePath id)
    ∨ (m, d.modules.path m) ∈ shelf ∧ d.modules.path m ∈ shelfPaths
  := by
  rcases hshelf.covered m hm hopen with ⟨id, hid⟩ | ⟨path, hmem⟩
  · exact Or.inl ⟨id, hid, hd.housed.descends id m hid, hd.anchored.place_path id m hid⟩
  · right
    rw [(hshelf.listed _ hmem).2]
    exact ⟨hmem, hpaths.subset (List.mem_map_of_mem hmem)⟩

/-- Modules that are not inline have different paths. -/
theorem eq_of_path {unlinked : TypeGraph} (hlink : unlinked.link = (job.graph, none))
    (hdistinct : job.graph.DistinctSiblings) {first second : ModuleId}
    (hfirst : first.index < d.modules.size) (hopen : d.modules.isInline first = false)
    (hsecond : second.index < d.modules.size) (hopen' : d.modules.isInline second = false)
    (hpath : d.modules.path first = d.modules.path second) :
  first = second
  := by
  rcases path_cases hd hshelf hpaths hfirst hopen with
    ⟨id, hid, hbelow, hplace⟩ | ⟨hmem, hlisted⟩
  · rcases path_cases hd hshelf hpaths hsecond hopen' with
      ⟨id', hid', hbelow', hplace'⟩ | ⟨-, hlisted'⟩
    · rw [hplace, hplace'] at hpath
      cases hdistinct.eq_of_modulePath hlink hbelow hbelow' hpath
      rw [hid] at hid'
      apply Option.some.inj hid'
    · rw [← hpath, hplace] at hlisted'
      apply absurd hlisted' (modulePath_not_mem_shelfPaths _ id)
  · rcases path_cases hd hshelf hpaths hsecond hopen' with
      ⟨id', -, -, hplace'⟩ | ⟨hmem', -⟩
    · rw [hpath, hplace'] at hlisted
      apply absurd hlisted (modulePath_not_mem_shelfPaths _ id')
    · have hnodup : (shelf.map (·.2)).Nodup := hpaths.nodup (by decide)
      have heq := List.inj_on_of_nodup_map hnodup hmem hmem' hpath
      apply congrArg Prod.fst heq

/-- Modules that are not inline can have files. -/
theorem isFilePart_path {m : ModuleId} (hm : m.index < d.modules.size)
    (hopen : d.modules.isInline m = false) :
  ∀ part ∈ (d.modules.path m).parts, ModulePath.IsFilePart part
  := by
  rcases path_cases hd hshelf hpaths hm hopen with ⟨id, -, -, hplace⟩ | ⟨-, hlisted⟩
  · rw [hplace]
    apply TypeGraph.isFilePart_modulePath
  · have hall : ∀ path ∈ shelfPaths, ∀ part ∈ path.parts, ModulePath.IsFilePart part := by
      decide +kernel
    apply hall _ hlisted

theorem path_ne_empty
    (hempty : ∀ id ∈ job.graph.namespaceIds, job.graph.parent? id ≠ none →
      Identifier.valueName (job.graph.namespaceName id) ≠ "") {m : ModuleId}
    (hm : m.index < d.modules.size) (hopen : d.modules.isInline m = false) :
  ∀ part ∈ (d.modules.path m).parts, part ≠ ""
  := by
  rcases path_cases hd hshelf hpaths hm hopen with ⟨id, -, -, hplace⟩ | ⟨-, hlisted⟩
  · rw [hplace]
    apply TypeGraph.modulePath_ne_empty hempty
  · have hall : ∀ path ∈ shelfPaths, ∀ part ∈ path.parts, part ≠ "" := by decide
    apply hall _ hlisted

/-- Files with the same parts are those of the same module. -/
theorem eq_of_fileParts {unlinked : TypeGraph} (hlink : unlinked.link = (job.graph, none))
    (hdistinct : job.graph.DistinctSiblings) {mode : OutputMode} {first second : ModuleId}
    (hfirst : first ∈ d.modules.filed mode) (hsecond : second ∈ d.modules.filed mode)
    (heq : (d.modules.path first).fileParts (d.modules.isDirectory mode first)
      = (d.modules.path second).fileParts (d.modules.isDirectory mode second)) :
  first = second
  := by
  have hnested := hshelf.built.nested
  obtain ⟨hlt, hopen⟩ := hnested.open_of_mem_filed hfirst
  obtain ⟨hlt', hopen'⟩ := hnested.open_of_mem_filed hsecond
  apply eq_of_path hd hshelf hpaths hlink hdistinct hlt hopen hlt' hopen'
  apply ModulePath.fileParts_inj ModuleTree.isDirectory_of_root ModuleTree.isDirectory_of_root
    (isFilePart_path hd hshelf hpaths hlt hopen) (isFilePart_path hd hshelf hpaths hlt' hopen') heq

end

end Job

/-! ### Files of a compilation -/

/-- The modules of a compilation are those of a run that succeeds. -/
theorem compile_eq_ok {schema : Schema} {config : Config} {compilation : Compilation}
    (h : compile schema config = .ok compilation) :
  ∃ draft, Drafting.exec (schema.job config).run .start = (.ok (), draft)
    ∧ compilation = ⟨draft.modules, draft.diagnostics, config.outputMode, config.generator⟩
  := by
  rw [compile, compileGraph] at h
  split at h
  case h_1 draft hrun =>
    cases h
    exact ⟨draft, hrun, rfl⟩
  case h_2 => cases h

/-- If namespaces of a schema that lie in the same one have modules of different names, then the
paths of the files of a compilation differ as texts.  A file system leaves out empty names on a
path, so different paths can still lead to one place there; they lead to different places if each
namespace that lies in another one has a name with words. -/
theorem compile_paths_distinct {graph : TypeGraph} {service : Service} {schema : Schema}
    (hschema : Schema.make graph service = .ok schema)
    (hdistinct : schema.graph.DistinctSiblings) {config : Config} {compilation : Compilation}
    (h : compile schema config = .ok compilation) :
  (compilation.files.map (·.path)).Nodup
  ∧ ((∀ id ∈ schema.graph.namespaceIds, schema.graph.parent? id ≠ none →
        Identifier.valueName (schema.graph.namespaceName id) ≠ "") →
      ((compilation.files.map (·.path)).map PathText.names).Nodup)
  := by
  obtain ⟨hlink, -⟩ := Schema.link_of_make hschema
  obtain ⟨draft, hrun, rfl⟩ := compile_eq_ok h
  obtain ⟨shelf, hshelf, hpaths⟩ := Job.run_shelves hrun
  have hsession : (schema.job config).Session draft := by
    have hreplay := (schema.job config).session_replay [.run]
    change Job.Session _ (Drafting.exec (schema.job config).run .start).2 at hreplay
    rw [hrun] at hreplay
    apply hreplay
  have hnested := hshelf.built.nested
  have hparts {m : ModuleId} (hm : m ∈ draft.modules.filed config.outputMode) :=
    Job.isFilePart_path hsession hshelf hpaths (hnested.open_of_mem_filed hm).1
      (hnested.open_of_mem_filed hm).2
  have hfiles : (Compilation.files ⟨draft.modules, draft.diagnostics, config.outputMode,
      config.generator⟩).map (·.path)
      = (draft.modules.filed config.outputMode).map (draft.modules.filePath config.outputMode) :=
    List.map_map
  rw [hfiles]
  constructor
  · apply (hnested.filed_nodup _).map_on
    intro first hfirst second hsecond heq
    apply Job.eq_of_fileParts hsession hshelf hpaths hlink hdistinct hfirst hsecond
    rw [← ModuleTree.pieces_filePath (hparts hfirst), heq,
      ModuleTree.pieces_filePath (hparts hsecond)]
  · intro hempty
    have hnames {m : ModuleId} (hm : m ∈ draft.modules.filed config.outputMode) :=
      @ModuleTree.names_filePath _ config.outputMode m (hparts hm)
        (Job.path_ne_empty hsession hshelf hpaths hempty (hnested.open_of_mem_filed hm).1
          (hnested.open_of_mem_filed hm).2)
    rw [List.map_map]
    apply (hnested.filed_nodup _).map_on
    intro first hfirst second hsecond heq
    apply Job.eq_of_fileParts hsession hshelf hpaths hlink hdistinct hfirst hsecond
    rw [← hnames hfirst, ← hnames hsecond]
    apply heq

/-- A namespace that is named like the file of a directory, between two of one name, and an
operation in it. -/
def shopGraph : TypeGraph := {
  namespaces := [
    { name := "" },
    { name := "Shop", parent := some .global },
    { name := "mod", parent := some ⟨1⟩, operations := [{ name := "list", returnType := ⟨0⟩ }] },
    { name := "Shop", parent := some ⟨2⟩ }]
  types := [{ kind := .record { name := some "Item", owner := some ⟨3⟩ } }] }

/-- A service that offers the operation. -/
def shopService : Service := {
  root := ⟨1⟩
  http := some {
    operations := [{ operation := ⟨.group ⟨2⟩, "list"⟩, verb := .get, path := "/items" }] } }

/-- The files of the shop. -/
def shopFiles : List String := [
  "mod.rs", "models/mod.rs", "http/mod.rs", "models/all/mod.rs", "models/synthetic.rs",
  "http/router.rs", "http/operations.rs", "http/server.rs", "models/all/shop/mod.rs",
  "models/all/shop/r#mod/mod.rs", "models/all/shop/r#mod/shop.rs"]

/-- The files of the shop are all different, and so are their places. -/
theorem compile_paths_distinct_shop :
  ∃ schema compilation, Schema.make shopGraph shopService = .ok schema
    ∧ schema.graph.DistinctSiblings ∧ compile schema {} = .ok compilation
    ∧ compilation.files.map (·.path) = shopFiles ∧ shopFiles.Nodup
    ∧ (shopFiles.map PathText.names).Nodup
  := by
  have hmake : Schema.make shopGraph shopService = .ok ⟨shopGraph.link.1, shopService⟩ := by
    decide +kernel
  have hdistinct : shopGraph.link.1.DistinctSiblings := by decide +kernel
  have hnames : ∀ id ∈ shopGraph.link.1.namespaceIds, shopGraph.link.1.parent? id ≠ none →
      Identifier.valueName (shopGraph.link.1.namespaceName id) ≠ "" := by
    decide +kernel
  have hfiles : (compile ⟨shopGraph.link.1, shopService⟩ {}).toOption.map
      (fun compilation => compilation.files.map (·.path)) = some shopFiles := by
    decide +kernel
  cases hcompile : compile ⟨shopGraph.link.1, shopService⟩ {} with
  | error error =>
      rw [hcompile] at hfiles
      cases hfiles
  | ok compilation =>
      rw [hcompile] at hfiles
      have hfiles : compilation.files.map (·.path) = shopFiles := Option.some.inj hfiles
      obtain ⟨hnodup, hplaces⟩ := compile_paths_distinct hmake hdistinct hcompile
      have hplaces := hplaces hnames
      rw [hfiles] at hnodup hplaces
      exact ⟨_, compilation, hmake, hdistinct, hcompile, hfiles, hnodup, hplaces⟩

/-- A namespace whose name has no words. -/
def wordlessGraph : TypeGraph := {
  namespaces := [
    { name := "" }, { name := "-", parent := some .global }, { name := "a", parent := some ⟨1⟩ }]
  types := [{ kind := .record { name := some "Item", owner := some ⟨2⟩ } }] }

-- The third and the fifth file differ as texts, but a file system has them in one place.
example :
  ((Schema.make wordlessGraph { root := ⟨1⟩ }).toOption.bind fun schema =>
      (compile schema {}).toOption.map fun compilation => compilation.files.map (·.path))
    = some ["mod.rs", "models/mod.rs", "models/all/mod.rs", "models/synthetic.rs",
      "models/all//mod.rs", "models/all//a.rs"]
  := by decide +kernel

end ServiceBindings
