import ServiceBindings.Proofs.Draft.Session
import ServiceBindings.Proofs.Naming.Words

/-!
# References lead to declarations

The module of a namespace stands where the names of the namespaces on the way to it say, and the
synthetic declarations stand in a module of their own.  Every move of a session keeps that.  So a
reference that a session spells, read back in the module that it stands in, names the declaration
where it is written.
-/

namespace ServiceBindings

open Draft ModulePath

/-! ### Where declarations stand -/

/-- The path of the module of a namespace. -/
def TypeGraph.modulePath (graph : TypeGraph) (id : NamespaceId) : ModulePath :=
  ⟨"models" :: "all" :: ((graph.chain id).getD []).map fun outer =>
    Identifier.valueName (graph.namespaceName outer)⟩

/-- The parts of the path of a namespace are names in references if none is empty. -/
theorem TypeGraph.isName_modulePath {graph : TypeGraph} {id : NamespaceId}
    (h : ∀ names, graph.namespacePath id = .ok names → ∀ name ∈ names,
      Identifier.valueName name ≠ "") :
  ∀ part ∈ (graph.modulePath id).parts, IsName part
  := by
  intro part hpart
  have hfirst : ∀ part ∈ ["models", "all"], IsName part := by decide
  rcases List.mem_append.mp (show part ∈ ["models", "all"] ++ _ from hpart) with hpart | hpart
  · apply hfirst part hpart
  · obtain ⟨outer, houter, rfl⟩ := List.mem_map.mp hpart
    apply Identifier.isName_valueName
    cases hchain : graph.chain id with
    | none =>
        rw [hchain] at houter
        cases houter
    | some ids =>
        rw [hchain] at houter
        apply h (ids.map graph.namespaceName)
        · rw [namespacePath, hchain]
        · apply List.mem_map_of_mem houter

namespace Draft

variable {graph : TypeGraph} {d e : Draft}

/-- Whether the modules of a draft stand where they belong, and its synthetic declarations have
names for references. -/
structure Anchored (graph : TypeGraph) (d : Draft) : Prop extends Founded d where
  place_path : ∀ id m, d.moduleOf? id = some m → d.modules.path m = graph.modulePath id
  synthetic_path : d.modules.path .synthetic = syntheticPath
  anonymous : ∀ entry ∈ d.anonymous, IsName entry.2

/-- The draft at the start is anchored. -/
theorem anchored_start (graph : TypeGraph) : Anchored graph .start where
  global := rfl
  place_lt id m h := by
    obtain ⟨-, rfl⟩ := moduleOf?_start h
    decide
  place_path id m h := by
    obtain ⟨rfl, rfl⟩ := moduleOf?_start h
    have hchain : (graph.chain .global).getD [] = [] := by
      cases hchain : graph.chain .global with
      | none => rfl
      | some ids => apply TypeGraph.chain_global hchain
    rw [TypeGraph.modulePath, hchain]
    rfl
  synthetic_lt := by decide
  synthetic_path := rfl
  anonymous _ h := nomatch h

/-- A draft stays anchored while no namespace gets a module. -/
theorem Anchored.later (h : Anchored graph d) (hlater : Later d e)
    (hplaces : ∀ id m, e.moduleOf? id = some m → d.moduleOf? id = some m)
    (hanonymous : ∀ entry ∈ e.anonymous, IsName entry.2) :
  Anchored graph e where
  toFounded := ⟨h.toPlaced.later hlater hplaces, Nat.lt_of_lt_of_le h.synthetic_lt hlater.size⟩
  place_path id m hm := by
    have hold := hplaces id m hm
    rw [hlater.path m (h.place_lt id m hold), h.place_path id m hold]
  synthetic_path := by rw [hlater.path _ h.synthetic_lt, h.synthetic_path]
  anonymous := hanonymous

/-- The module that a namespace gets stands below that of the namespace it lies in. -/
theorem Anchored.openModule (h : Anchored graph d) {parent : ModuleId} {id : NamespaceId}
    (hid : d.moduleOf? id = none) (hparent : d.Encloses graph parent id) :
  Anchored graph (d.openModule graph parent id).2
  := by
  have hlater := @later_openModule graph d id hid parent
  obtain ⟨outer, ids, houter, hchain, hmodule⟩ := hparent
  have hpath : d.modules.path parent = graph.modulePath outer := by
    rcases hmodule with ⟨rfl, rfl⟩ | hmodule
    · apply h.place_path _ _ h.global
    · apply h.place_path _ _ hmodule
  refine ⟨⟨h.toPlaced.openModule hid parent, ?_⟩, ?_, ?_, ?_⟩
  · apply Nat.lt_of_lt_of_le h.synthetic_lt hlater.size
  · intro other m hm
    rcases moduleOf?_openModule_cases hid hm with ⟨rfl, rfl⟩ | hm
    · rw [openModule_of_new hid]
      simp [ModuleTree.path_addChild_self, hpath, TypeGraph.modulePath, houter, hchain, enter]
    · rw [hlater.path m (h.place_lt other m hm), h.place_path other m hm]
  · rw [hlater.path _ h.synthetic_lt, h.synthetic_path]
  · rw [openModule_of_new hid]
    apply h.anonymous

/-- A change keeps a draft anchored. -/
theorem Change.anchored (hchange : Change graph d e) (h : Anchored graph d) :
  Anchored graph e
  := by
  have hlater := hchange.later
  cases hchange with
  | openModule hid hparent => apply h.openModule hid hparent
  | @nameAnonymous id base _ _ hbase =>
      apply h.later hlater (fun _ _ hm => hm)
      intro entry hentry
      rcases List.mem_cons.mp hentry with rfl | hentry
      · apply NameScope.isName_nameFor (Identifier.isName_typeName hbase)
      · apply h.anonymous entry hentry
  | _ => apply h.later hlater (fun _ _ hm => hm) h.anonymous

/-- A turn of a session names no types without a name. -/
theorem Turn.anchored (hturn : Turn d e) (h : Anchored graph d) :
  Anchored graph e
  := by
  have hlater := hturn.later
  cases hturn <;> apply h.later hlater (fun _ _ hm => hm) h.anonymous

end Draft

namespace Job

open Drafting

variable {job : Job} {d e : Draft}

/-- Every draft of a session is anchored. -/
theorem Session.anchored (h : job.Session d) : Anchored job.graph d := by
  induction h with
  | refl => apply anchored_start
  | tail _ hmove ih =>
      cases hmove with
      | change hchange => apply hchange.anchored ih
      | turn hturn => apply hturn.anchored ih

end Job

/-! ### References -/

/-- The words of a declared name are those of identifiers. -/
theorem TypeKind.parsed_declaredName {kind : TypeKind} {words : Words}
    (h : kind.declaredName = some words) :
  words.Parsed
  := by
  have hnamed {name : Option String} (hname : (presentName name).map Words.parse = some words) :
      words.Parsed := by
    obtain ⟨text, -, rfl⟩ := Option.map_eq_some_iff.mp hname
    apply Words.Parsed.parse
  cases kind with
  | record record =>
      change record.declaredName = some words at h
      unfold RecordType.declaredName at h
      split at h
      case h_1 =>
        cases h
        apply Words.Parsed.parse
      case h_2 =>
        obtain ⟨name, -, rfl⟩ := Option.map_eq_some_iff.mp h
        apply Words.Parsed.ofComponents
  | union _ => apply hnamed h
  | scalar _ | enum _ | interface _ =>
      cases h
      apply Words.Parsed.parse
  | _ => cases h

namespace Job

open Drafting

variable {job : Job} {d e : Draft}

/-- The identifier of a declaration is a name in references. -/
theorem declarationName_eq_ok {id : TypeId} {name : String}
    (h : exec (job.declarationName id) d = (.ok name, e)) :
  e = d ∧ IsName name
  := by
  unfold declarationName at h
  split at h
  case h_1 words hwords =>
    cases h
    obtain ⟨hdeclared, hne⟩ := Option.filter_eq_some_iff.mp hwords
    obtain ⟨kind, -, hkind⟩ := Option.bind_eq_some_iff.mp hdeclared
    use rfl
    apply Identifier.isName_escape_pascal (TypeKind.parsed_declaredName hkind).sound
    simpa using hne
  case h_2 => cases h

/-- A type with a declaration is spelled by a reference to it. -/
theorem spell_owned {id : TypeId} {kind : TypeKind} (hkind : job.graph.kind? id = some kind)
    (hreference : kind.isReference = true) (span : Option Span) (path : ModulePath)
    (preferred : String) :
  job.spell id span .owned path preferred
    = if kind.declaredName = none then spellAnonymous id path preferred
      else job.spellDeclaration id path
  := by
  have hunwrap : job.graph.unwrap id = some ([], id) := by
    rw [TypeGraph.unwrap, TypeGraph.unwrapWithin, hkind]
    cases kind <;> first | rfl | cases hreference
  rw [spell, hunwrap]
  dsimp only
  rw [spellCore, hkind]
  cases kind with
  | record record => simp [referenceFor, Option.isNone_iff_eq_none]
  | union union => simp [referenceFor, Option.isNone_iff_eq_none]
  | enum enumeration => simp [referenceFor, TypeKind.declaredName]
  | interface interface => simp [referenceFor, TypeKind.declaredName]
  | _ => cases hreference

/-- A reference to a named declaration is one to its identifier in the module of its namespace. -/
theorem Session.spellDeclaration_eq_ok (hd : job.Session d) {id : TypeId} {path : ModulePath}
    {text : String} (h : exec (job.spellDeclaration id path) d = (.ok text, e)) :
  ∃ owner m name, job.graph.owner? id = some owner ∧ e.moduleOf? owner = some m
    ∧ e.modules.path m = job.graph.modulePath owner
    ∧ exec (job.declarationName id) d = (.ok name, d) ∧ IsName name
    ∧ text = path.itemReference (job.graph.modulePath owner) name
  := by
  obtain ⟨name, d₁, hname, hrest⟩ := exec_bind_eq_ok.mp h
  obtain ⟨m, d₂, hplace, hreturn⟩ := exec_bind_eq_ok.mp hrest
  obtain ⟨rfl, hisName⟩ := declarationName_eq_ok hname
  obtain ⟨owner, howner, hm⟩ := job.placeOf_eq_ok hd.anchored.global hplace
  have hmoves := ((job.placeOf_steady id).growth hplace).moves
  have hanchored : Anchored job.graph d₂ := Session.anchored (hd.trans hmoves)
  have hpath := hanchored.place_path owner m hm
  cases hreturn
  use owner, m, name, howner, hm, hpath, hname, hisName
  rw [hpath]

/-- A reference to a type without a name is one to its name among the synthetic declarations. -/
theorem Session.spellAnonymous_eq_ok (hd : job.Session d) {id : TypeId}
    (hid : job.graph.Declares (.type id)) {path : ModulePath} {preferred text : String}
    (h : exec (spellAnonymous id path preferred) d = (.ok text, e)) :
  ∃ name, e.anonymous.lookup id = some name ∧ IsName name
    ∧ text = path.itemReference syntheticPath name
  := by
  obtain ⟨name, d₁, hname, h⟩ := exec_bind_eq_ok.mp h
  have hmoves := ((job.anonymousName_steady hid preferred).growth hname).moves
  have hanchored : Anchored job.graph d₁ := Session.anchored (hd.trans hmoves)
  have hlookup := anonymousName_eq_ok hname
  cases h
  exact ⟨name, hlookup, hanchored.anonymous (id, name) (mem_of_lookup hlookup), rfl⟩

/-- A reference that a session spells leads to the declaration: read back where it stands, it gives
the module of the owning namespace and the identifier of a named type, and the module of synthetic
declarations and the registered name of a type without a name. -/
theorem spell_resolves (hd : job.Session d) {id : TypeId} {kind : TypeKind}
    (hkind : job.graph.kind? id = some kind) (hreference : kind.isReference = true)
    (span : Option Span) (cursor : ModulePath) (preferred : String) {text : String}
    (h : exec (job.spell id span .owned cursor preferred) d = (.ok text, e)) :
  (kind.declaredName ≠ none → ∃ owner m name,
    job.graph.owner? id = some owner ∧ e.moduleOf? owner = some m
    ∧ exec (job.declarationName id) d = (.ok name, d)
    ∧ ((∀ names, job.graph.namespacePath owner = .ok names → ∀ name ∈ names,
        Identifier.valueName name ≠ "") →
      cursor.resolve text = .ok ⟨e.modules.path m, name⟩))
  ∧ (kind.declaredName = none → ∃ name, e.anonymous.lookup id = some name
    ∧ cursor.resolve text = .ok ⟨syntheticPath, name⟩)
  := by
  rw [spell_owned hkind hreference] at h
  constructor
  · intro hnamed
    rw [if_neg hnamed] at h
    obtain ⟨owner, m, name, howner, hm, hpath, hname, hisName, rfl⟩ := hd.spellDeclaration_eq_ok h
    use owner, m, name, howner, hm, hname
    intro hnames
    rw [hpath]
    apply resolve_itemReference cursor (TypeGraph.isName_modulePath hnames) hisName
  · intro hanonymous
    rw [if_pos hanonymous] at h
    obtain ⟨name, hlookup, hisName, rfl⟩ :=
      hd.spellAnonymous_eq_ok (TypeGraph.declares_of_kind? hkind) h
    use name, hlookup
    apply resolve_itemReference cursor _ hisName
    decide

/-- A record with a keyword for a name, in a namespace with another one, and a record without a
name. -/
def keywordGraph : TypeGraph := {
  namespaces := [
    { name := "" },
    { name := "Shop", parent := some .global },
    { name := "super", parent := some ⟨1⟩ }]
  types := [
    { kind := .record { name := some "self", owner := some ⟨2⟩, fields := [] } },
    { kind := .record { fields := [] } }] }

/-- The job with the keywords. -/
def keywordJob : Job := { graph := keywordGraph, service := { root := ⟨1⟩ }, config := {} }

/-- References to the two records, after the second one was named in the session. -/
theorem spell_resolves_keywords :
  ∃ d e m, keywordJob.Session d ∧ e.moduleOf? ⟨2⟩ = some m
    ∧ exec (keywordJob.spell ⟨0⟩ none .owned ⟨["http", "server"]⟩ "") d
      = (.ok "super::super::models::all::shop::super_::Self_", e)
    ∧ ModulePath.resolve ⟨["http", "server"]⟩ "super::super::models::all::shop::super_::Self_"
      = .ok ⟨e.modules.path m, "Self_"⟩
    ∧ ∃ f name, exec (keywordJob.spell ⟨1⟩ none .owned ⟨["models", "all", "shop"]⟩ "") d
        = (.ok "super::super::synthetic::Tag", f)
      ∧ f.anonymous.lookup ⟨1⟩ = some name
      ∧ ModulePath.resolve ⟨["models", "all", "shop"]⟩ "super::super::synthetic::Tag"
        = .ok ⟨syntheticPath, name⟩
  := by
  have hsession : keywordJob.Session
      (exec (Call.perform keywordJob (.spell ⟨1⟩ none .param .root "tag")) .start).2 :=
    Session.perform keywordJob .refl _
  have hself := exec_eq_of_ok (show
    (exec (keywordJob.spell ⟨0⟩ none .owned ⟨["http", "server"]⟩ "")
      (exec (Call.perform keywordJob (.spell ⟨1⟩ none .param .root "tag")) .start).2).1
      = .ok "super::super::models::all::shop::super_::Self_" by decide +kernel)
  have htag := exec_eq_of_ok (show
    (exec (keywordJob.spell ⟨1⟩ none .owned ⟨["models", "all", "shop"]⟩ "")
      (exec (Call.perform keywordJob (.spell ⟨1⟩ none .param .root "tag")) .start).2).1
      = .ok "super::super::synthetic::Tag" by decide +kernel)
  have hidentifier : (exec (keywordJob.declarationName ⟨0⟩)
      (exec (Call.perform keywordJob (.spell ⟨1⟩ none .param .root "tag")) .start).2).1
      = .ok "Self_" := by decide +kernel
  generalize (exec (Call.perform keywordJob (.spell ⟨1⟩ none .param .root "tag")) .start).2 = d
    at hsession hself htag hidentifier
  obtain ⟨owner, m, name, howner, hm, hname, hresolve⟩ :=
    (spell_resolves hsession rfl rfl none _ "" hself).1 (by decide)
  obtain rfl : ⟨2⟩ = owner := Option.some.inj howner
  rw [hname] at hidentifier
  obtain rfl : name = "Self_" := Except.ok.inj hidentifier
  refine ⟨d, _, m, hsession, hm, hself, hresolve ?_, ?_⟩
  · intro names hnames
    have hpath : keywordGraph.namespacePath ⟨2⟩ = .ok ["Shop", "super"] := by decide
    cases hpath.symm.trans hnames
    decide
  · obtain ⟨name, hlookup, hread⟩ := (spell_resolves hsession rfl rfl none _ "" htag).2 rfl
    exact ⟨_, name, htag, hlookup, hread⟩

end Job

end ServiceBindings
