import Mathlib.Data.List.Forall2
import ServiceBindings.Proofs.Draft.Consistency
import ServiceBindings.Proofs.Schema.NamespacePath

/-!
# Stability of what is drafted

A step that succeeded is settled: run again on a draft that knows all that was decided, it gives the
same value and changes nothing but that it reports the same problems again.  Everything that spells
a type or puts the lines of a declaration together is steady: it makes the draft grow, once it
succeeded it is settled, and the problems that it reports are those of spelling.
-/

namespace ServiceBindings

open Draft

/-- The draft with more problems reported. -/
def Draft.reported (draft : Draft) (diagnostics : List Diagnostic) : Draft :=
  { draft with diagnostics := draft.diagnostics ++ diagnostics }

/-- Reporting problems takes back no decision. -/
theorem Draft.Later.reported {d e : Draft} (h : Later d e) (diagnostics : List Diagnostic) :
  Later d (e.reported diagnostics)
  := { h with }

namespace Drafting

variable {α β : Type} {graph : TypeGraph}

/-! ### Settled steps -/

/-- Whether a step gives the value `a` on each draft that knows what `d` knows, and only reports
problems there. -/
def Settled (x : Drafting α) (d : Draft) (a : α) : Prop :=
  ∀ e, Later d e → ∃ diagnostics, exec x e = (.ok a, e.reported diagnostics)

/-- A settled step stays settled. -/
theorem Settled.later {x : Drafting α} {d e : Draft} {a : α} (h : Settled x d a)
    (hde : Later d e) :
  Settled x e a
  := fun f hef => h f (hde.trans hef)

/-- A step that changes nothing on later drafts is settled. -/
theorem Settled.of_unchanged {x : Drafting α} {d : Draft} {a : α}
    (h : ∀ e, Later d e → exec x e = (.ok a, e)) :
  Settled x d a
  := by
  intro e hde
  use []
  rw [h e hde]
  simp [Draft.reported]

theorem Settled.pure (a : α) (d : Draft) : Settled (pure a) d a :=
  of_unchanged fun _ _ => rfl

/-- A sequence of settled steps is settled. -/
theorem Settled.bind {x : Drafting α} {f : α → Drafting β} {d : Draft} {a : α} {b : β}
    (hx : Settled x d a) (hf : Settled (f a) d b) :
  Settled (x >>= f) d b
  := by
  intro e hde
  obtain ⟨first, hfirst⟩ := hx e hde
  obtain ⟨second, hsecond⟩ := hf _ (hde.reported first)
  use first ++ second
  rw [exec_bind_of_ok hfirst, hsecond]
  simp [Draft.reported]

/-- A value computed from the result of a settled step is settled. -/
theorem Settled.bind_pure {x : Drafting α} {d : Draft} {a : α} (hx : Settled x d a) (f : α → β) :
  Settled (x >>= fun a => Pure.pure (f a)) d (f a) :=
  hx.bind (Settled.pure (f a) d)

/-- A settled step has one value. -/
theorem Settled.eq {x : Drafting α} {d : Draft} {a b : α} (ha : Settled x d a)
    (hb : Settled x d b) :
  a = b
  := by
  obtain ⟨_, hfirst⟩ := ha d (Later.refl d)
  obtain ⟨_, hsecond⟩ := hb d (Later.refl d)
  rw [hfirst] at hsecond
  apply Except.ok.inj (Prod.mk.inj hsecond).1

/-- Whether a step is settled does not depend on the problems. -/
theorem Settled.of_reported {x : Drafting α} {d : Draft} {problems : List Diagnostic} {a : α}
    (h : Settled x (d.reported problems) a) :
  Settled x d a
  := fun e hde => h e { hde with }

/-! ### Steady steps -/

/-- Whether a step makes a draft grow and is settled once it succeeded. -/
structure Settles (graph : TypeGraph) (x : Drafting α) : Prop where
  grows : ∀ d, Growth graph d (exec x d).2
  settled : ∀ {d a e}, Placed d → exec x d = (.ok a, e) → Settled x e a

namespace Settles

/-- A draft grows to what such a step leaves. -/
theorem growth {x : Drafting α} (h : Settles graph x) {d e : Draft}
    {outcome : Except CompileError α} (hexec : exec x d = (outcome, e)) :
  Growth graph d e
  := by
  have hgrows := h.grows d
  rw [hexec] at hgrows
  apply hgrows

theorem pure (a : α) : Settles graph (pure a) where
  grows _ := .refl
  settled _ h := by
    cases h
    apply Settled.pure

theorem report (diagnostic : Diagnostic) : Settles graph (report diagnostic) where
  grows d := .single (.report d diagnostic)
  settled _ h := by
    cases h
    intro e _
    use [diagnostic]
    rfl

/-- A sequence of such steps is one. -/
theorem bind {x : Drafting α} {f : α → Drafting β} (hx : Settles graph x)
    (hf : ∀ a, Settles graph (f a)) :
  Settles graph (x >>= f)
  := by
  constructor
  · intro d
    apply exec_bind_rel Relation.ReflTransGen.trans (hx.grows d)
    intro a e _
    apply (hf a).grows
  · intro d b e hd h
    obtain ⟨a, d', hfirst, hrest⟩ := exec_bind_eq_ok.mp h
    apply Settled.bind ((hx.settled hd hfirst).later ((hf a).growth hrest).later)
    apply (hf a).settled ((hx.growth hfirst).placed hd) hrest

/-- A value computed from the result of such a step is settled too. -/
theorem bind_pure {x : Drafting α} (hx : Settles graph x) (f : α → β) :
  Settles graph (x >>= fun a => Pure.pure (f a)) :=
  hx.bind fun a => pure (f a)

/-- The steps of a sequence that is settled are settled. -/
theorem of_bind {x : Drafting α} {f : α → Drafting β} (hx : Settles graph x)
    (hf : ∀ a, Settles graph (f a)) {d : Draft} {b : β} (hd : Placed d)
    (h : Settled (x >>= f) d b) :
  ∃ a, Settled x d a ∧ Settled (f a) d b
  := by
  obtain ⟨problems, hexec⟩ := h d (Later.refl d)
  obtain ⟨a, d', hfirst, hrest⟩ := exec_bind_eq_ok.mp hexec
  use a
  constructor
  · apply Settled.of_reported ((hx.settled hd hfirst).later ((hf a).growth hrest).later)
  · apply Settled.of_reported ((hf a).settled ((hx.growth hfirst).placed hd) hrest)

/-- The value of a settled step is what is computed from a settled result. -/
theorem of_bind_pure {x : Drafting α} (hx : Settles graph x) {f : α → β} {d : Draft} {b : β}
    (hd : Placed d) (h : Settled (x >>= fun a => Pure.pure (f a)) d b) :
  ∃ a, Settled x d a ∧ b = f a
  := by
  obtain ⟨a, ha, hb⟩ := hx.of_bind (fun a => pure (f a)) hd h
  exact ⟨a, ha, hb.eq (Settled.pure (f a) d)⟩

end Settles

end Drafting

/-- The problems that types without a spelling give rise to. -/
def spellingKinds : List DiagnosticKind := [.unrecognizedScalar, .unrecognizedEncoding]

/-- Whether a draft has the problems of another one and further ones of certain kinds. -/
def Draft.Reports (kinds : List DiagnosticKind) (d e : Draft) : Prop :=
  ∃ problems, e.diagnostics = d.diagnostics ++ problems
    ∧ ∀ problem ∈ problems, problem.kind ∈ kinds

namespace Draft.Reports

variable {kinds : List DiagnosticKind}

theorem of_same {d e : Draft} (h : e.diagnostics = d.diagnostics) : Reports kinds d e :=
  ⟨[], by simp [h], List.forall_mem_nil _⟩

theorem trans {c d e : Draft} (hcd : Reports kinds c d) (hde : Reports kinds d e) :
  Reports kinds c e
  := by
  obtain ⟨first, hfirst, hkinds⟩ := hcd
  obtain ⟨second, hsecond, hkinds'⟩ := hde
  use first ++ second
  constructor
  · rw [hsecond, hfirst, List.append_assoc]
  · intro problem hproblem
    rcases List.mem_append.mp hproblem with hproblem | hproblem
    · apply hkinds problem hproblem
    · apply hkinds' problem hproblem

end Draft.Reports

namespace Drafting

variable {α β : Type} {graph : TypeGraph}

/-- Whether a step makes a draft grow, is settled once it succeeded, and reports no problems but
those of spelling. -/
structure Steady (graph : TypeGraph) (x : Drafting α) : Prop extends Settles graph x where
  reports : ∀ d, Reports spellingKinds d (exec x d).2

namespace Steady

theorem pure (a : α) : Steady graph (pure a) where
  toSettles := Settles.pure a
  reports _ := .of_same rfl

theorem throw (error : CompileError) : Steady graph (throw error : Drafting α) where
  grows _ := .refl
  settled _ h := nomatch h
  reports _ := .of_same rfl

theorem report {diagnostic : Diagnostic} (h : diagnostic.kind ∈ spellingKinds) :
  Steady graph (report diagnostic) where
  toSettles := Settles.report diagnostic
  reports _ := ⟨[diagnostic], rfl, by simpa using h⟩

/-- A sequence of steady steps is steady. -/
theorem bind {x : Drafting α} {f : α → Drafting β} (hx : Steady graph x)
    (hf : ∀ a, Steady graph (f a)) :
  Steady graph (x >>= f) where
  toSettles := hx.toSettles.bind fun a => (hf a).toSettles
  reports d :=
    exec_bind_rel (@Reports.trans spellingKinds) (hx.reports d) fun a e _ => (hf a).reports e

/-- A value computed from the result of a steady step is steady. -/
theorem bind_pure {x : Drafting α} (hx : Steady graph x) (f : α → β) :
  Steady graph (x >>= fun a => Pure.pure (f a)) :=
  hx.bind fun a => pure (f a)

/-- Steady steps over a list are steady. -/
theorem mapM {f : α → Drafting β} {items : List α} (hf : ∀ a ∈ items, Steady graph (f a)) :
  Steady graph (items.mapM f)
  := by
  induction items with
  | nil =>
      rw [List.mapM_nil]
      apply pure
  | cons item items ih =>
      rw [List.mapM_cons]
      apply bind (hf item List.mem_cons_self)
      intro b
      apply bind_pure
      apply ih
      intro a ha
      apply hf a (List.mem_cons_of_mem _ ha)

/-- Steps over a list that are settled are settled one by one. -/
theorem of_mapM {f : α → Drafting β} {items : List α} (hf : ∀ a ∈ items, Steady graph (f a))
    {d : Draft} {results : List β} (hd : Placed d) (h : Settled (items.mapM f) d results) :
  List.Forall₂ (fun a b => Settled (f a) d b) items results
  := by
  induction items generalizing results with
  | nil =>
      rw [List.mapM_nil] at h
      obtain rfl := h.eq (Settled.pure _ d)
      apply List.Forall₂.nil
  | cons item items ih =>
      have hrest (a : α) (ha : a ∈ items) := hf a (List.mem_cons_of_mem _ ha)
      rw [List.mapM_cons] at h
      obtain ⟨result, hresult, h⟩ := (hf item List.mem_cons_self).toSettles.of_bind
        (fun _ => (mapM hrest).toSettles.bind_pure _) hd h
      obtain ⟨others, hothers, rfl⟩ := (mapM hrest).toSettles.of_bind_pure hd h
      exact .cons hresult (ih hrest hothers)

end Steady

end Drafting

/-! ### Places -/

namespace Draft

variable {graph : TypeGraph}

/-- A namespace gets its module in that of the namespace that it lies in. -/
inductive Opens (graph : TypeGraph) : Draft → Draft → Prop where
  | openModule (d : Draft) {parent : ModuleId} {id : NamespaceId} : d.moduleOf? id = none →
      d.Encloses graph parent id → Opens graph d (d.openModule graph parent id).2

theorem Opens.change {d e : Draft} (h : Opens graph d e) : Change graph d e := by
  cases h with
  | openModule hid hparent => apply Change.openModule d hid hparent

theorem openModule_opens {parent : ModuleId} {d : Draft} {id : NamespaceId}
    (h : d.Encloses graph parent id) :
  Relation.ReflTransGen (Opens graph) d (d.openModule graph parent id).2
  := by
  cases hid : d.moduleOf? id with
  | none => apply Relation.ReflTransGen.single (.openModule d hid h)
  | some m => rw [openModule, hid]

/-- Opening modules changes nothing else. -/
theorem openChain_keeps (m : ModuleId) (ids : List NamespaceId) (d : Draft) :
  ∃ modules places, (openChain graph m ids d).2
    = { d with modules := modules, places := places }
  := by
  induction ids generalizing m d with
  | nil => exact ⟨d.modules, d.places, rfl⟩
  | cons id ids ih =>
      cases hid : d.moduleOf? id with
      | some child =>
          rw [openChain, openModule, hid]
          apply ih child d
      | none =>
          rw [openChain, openModule_of_new hid]
          apply ih

/-- The module that is opened is that of the namespace. -/
theorem moduleOf?_openModule_self (parent : ModuleId) (d : Draft) (id : NamespaceId) :
  (d.openModule graph parent id).2.moduleOf? id = some (d.openModule graph parent id).1
  := by
  cases hid : d.moduleOf? id with
  | none =>
      rw [moduleOf?_openModule hid, if_pos rfl, openModule_of_new hid]
  | some m =>
      rw [openModule, hid]
      apply hid

/-- A namespace after a chain gets its module in the last one of the chain. -/
theorem openChain_append (m : ModuleId) (ids : List NamespaceId) (id : NamespaceId) (d : Draft) :
  openChain graph m (ids ++ [id]) d
    = (openChain graph m ids d).2.openModule graph (openChain graph m ids d).1 id
  := by
  induction ids generalizing m d with
  | nil => rfl
  | cons first ids ih => apply ih

/-- The module at the end of a chain is that of the last namespace. -/
theorem moduleOf?_openChain (m : ModuleId) (ids : List NamespaceId) (id : NamespaceId) (d : Draft) :
  (openChain graph m (ids ++ [id]) d).2.moduleOf? id
    = some (openChain graph m (ids ++ [id]) d).1
  := by
  rw [openChain_append]
  apply moduleOf?_openModule_self

end Draft

/-- A chain is that of the global namespace, or it goes on from the chain of the parent. -/
theorem TypeGraph.chainWithin_cases {graph : TypeGraph} {limit : Nat} {id : NamespaceId}
    {ids : List NamespaceId} (h : graph.chainWithin limit id = some ids) :
  id = .global ∧ ids = []
    ∨ id ≠ .global ∧ ∃ limit' parent earlier, limit = limit' + 1
      ∧ (graph.namespace? id).bind (·.parent) = some parent
      ∧ graph.chainWithin limit' parent = some earlier ∧ ids = earlier ++ [id]
  := by
  cases limit with
  | zero => cases h
  | succ limit =>
      rw [chainWithin] at h
      split at h
      case isTrue hid => exact Or.inl ⟨hid, (Option.some.inj h).symm⟩
      case isFalse hid =>
        split at h
        case h_1 => cases h
        case h_2 parent hparent =>
          obtain ⟨earlier, hearlier, rfl⟩ := Option.map_eq_some_iff.mp h
          exact Or.inr ⟨hid, limit, parent, earlier, rfl, hparent, hearlier, rfl⟩

/-- No namespaces lie on the way to the global one. -/
theorem TypeGraph.chain_global {graph : TypeGraph} {ids : List NamespaceId}
    (h : graph.chain .global = some ids) :
  ids = []
  := by
  rcases chainWithin_cases h with ⟨-, rfl⟩ | ⟨hne, -⟩
  · rfl
  · apply absurd rfl hne

/-- The chain of a namespace other than the global one ends with it. -/
theorem TypeGraph.chain_ends {graph : TypeGraph} {id : NamespaceId} {ids : List NamespaceId}
    (h : graph.chain id = some ids) (hid : id ≠ .global) :
  ∃ earlier, ids = earlier ++ [id]
  := by
  rcases chainWithin_cases h with ⟨hglobal, -⟩ | ⟨-, _, _, earlier, -, -, -, rfl⟩
  · apply absurd hglobal hid
  · use earlier

/-- Each namespace of a chain gets its module in that of the one before it. -/
theorem Draft.openChain_opens {graph : TypeGraph} {limit : Nat} {id : NamespaceId}
    {ids : List NamespaceId} (hlimit : limit ≤ graph.namespaces.length)
    (h : graph.chainWithin limit id = some ids) (d : Draft) :
  Relation.ReflTransGen (Opens graph) d (openChain graph .global ids d).2
  := by
  have hchain : graph.chain id = some ids := TypeGraph.chainWithin_mono h hlimit
  induction limit generalizing id ids with
  | zero => cases h
  | succ limit ih =>
      rcases TypeGraph.chainWithin_cases h with
        ⟨-, rfl⟩ | ⟨-, _, outer, earlier, hsucc, -, hearlier, rfl⟩
      · apply Relation.ReflTransGen.refl
      · cases hsucc
        have hle := Nat.le_of_succ_le hlimit
        have houter : graph.chain outer = some earlier :=
          TypeGraph.chainWithin_mono hearlier hle
        rw [openChain_append]
        apply (ih hle hearlier houter).trans
        apply openModule_opens
        use outer, earlier, houter, hchain
        by_cases hglobal : outer = .global
        · left
          use hglobal
          subst hglobal
          rw [TypeGraph.chain_global houter]
          rfl
        · right
          obtain ⟨first, rfl⟩ := TypeGraph.chain_ends houter hglobal
          apply moduleOf?_openChain

namespace Job

open Drafting

variable (job : Job)

/-- Placing a namespace opens modules and does nothing else. -/
theorem place_opens (id : NamespaceId) (d : Draft) :
  Relation.ReflTransGen (Opens job.graph) d (exec (job.place id) d).2
  := by
  rw [place, exec_get_bind]
  split
  case h_1 => apply Relation.ReflTransGen.refl
  case h_2 =>
    split
    case h_1 => apply Relation.ReflTransGen.refl
    case h_2 ids hids => apply openChain_opens (Nat.le_refl _) hids

theorem place_grows (id : NamespaceId) (d : Draft) :
  Growth job.graph d (exec (job.place id) d).2 :=
  (job.place_opens id d).lift (fun d => d) fun _ _ h => h.change

/-- A namespace that is placed has the module that placing it gives. -/
theorem place_eq_ok {id : NamespaceId} {d e : Draft} {m : ModuleId}
    (hd : d.moduleOf? .global = some .global) (h : exec (job.place id) d = (.ok m, e)) :
  e.moduleOf? id = some m
  := by
  rw [place, exec_get_bind] at h
  split at h
  case h_1 hid =>
    cases h
    apply hid
  case h_2 hid =>
    have hne : id ≠ .global := by
      rintro rfl
      rw [hd] at hid
      cases hid
    split at h
    case h_1 => cases h
    case h_2 ids hids =>
      obtain ⟨earlier, rfl⟩ := TypeGraph.chain_ends hids hne
      cases h
      apply moduleOf?_openChain

/-- A namespace with a module is placed without any change. -/
theorem exec_place_of_placed {id : NamespaceId} {d : Draft} {m : ModuleId}
    (h : d.moduleOf? id = some m) :
  exec (job.place id) d = (.ok m, d)
  := by
  rw [place, exec_get_bind, h]
  rfl

/-- Placing a namespace opens modules and changes nothing else. -/
theorem place_keeps (id : NamespaceId) (d : Draft) :
  ∃ modules places, (exec (job.place id) d).2 = { d with modules := modules, places := places }
  := by
  rw [place, exec_get_bind]
  split
  case h_1 => exact ⟨d.modules, d.places, rfl⟩
  case h_2 =>
    split
    case h_1 => exact ⟨d.modules, d.places, rfl⟩
    case h_2 ids _ => apply openChain_keeps

theorem place_steady (id : NamespaceId) : Steady job.graph (job.place id) where
  grows := job.place_grows id
  settled hd h := by
    apply Settled.of_unchanged
    intro e hlater
    apply job.exec_place_of_placed (hlater.place _ _ (job.place_eq_ok hd.global h))
  reports d := by
    obtain ⟨modules, places, hkeeps⟩ := job.place_keeps id d
    rw [hkeeps]
    apply Reports.of_same rfl

theorem ownerOf_steady (id : TypeId) : Steady job.graph (job.ownerOf id) := by
  unfold ownerOf
  split
  case h_1 => apply Steady.pure
  case h_2 => apply Steady.throw

theorem placeOf_steady (id : TypeId) : Steady job.graph (job.placeOf id) :=
  (job.ownerOf_steady id).bind job.place_steady

/-- A declaration that is placed has the module of its namespace. -/
theorem placeOf_eq_ok {id : TypeId} {d e : Draft} {m : ModuleId}
    (hd : d.moduleOf? .global = some .global) (h : exec (job.placeOf id) d = (.ok m, e)) :
  ∃ owner, job.graph.owner? id = some owner ∧ e.moduleOf? owner = some m
  := by
  rw [placeOf, ownerOf] at h
  split at h
  case h_1 owner howner =>
    use owner, howner
    apply job.place_eq_ok hd h
  case h_2 => cases h

theorem placeOfContainer_steady (container : Container) :
  Steady job.graph (job.placeOfContainer container)
  := by
  cases container with
  | group id => apply place_steady
  | interface id => apply placeOf_steady

theorem placeOf_keeps (id : TypeId) (d : Draft) :
  ∃ modules places, (exec (job.placeOf id) d).2 = { d with modules := modules, places := places }
  := by
  rw [placeOf, ownerOf]
  split
  case h_1 owner _ => apply job.place_keeps owner d
  case h_2 => exact ⟨d.modules, d.places, rfl⟩

theorem placeOfContainer_keeps (container : Container) (d : Draft) :
  ∃ modules places, (exec (job.placeOfContainer container) d).2
    = { d with modules := modules, places := places }
  := by
  cases container with
  | group id => apply place_keeps
  | interface id => apply placeOf_keeps

theorem declarationName_steady (id : TypeId) : Steady job.graph (job.declarationName id) := by
  unfold declarationName
  split
  case h_1 => apply Steady.pure
  case h_2 => apply Steady.throw

/-- The path of a module that a namespace has stays the same. -/
theorem place_pathOf_steady {α : Type} (id : NamespaceId) {f : ModuleId → ModulePath → Drafting α}
    (hf : ∀ m path, Steady job.graph (f m path)) :
  Steady job.graph (job.place id >>= fun m => pathOf m >>= f m)
  := by
  refine ⟨⟨?_, ?_⟩, ?_⟩
  · intro d
    apply exec_bind_rel Relation.ReflTransGen.trans (job.place_grows id d)
    intro m e _
    apply (hf m _).grows
  · intro d b e hd h
    obtain ⟨m, d', hplace, hrest⟩ := exec_bind_eq_ok.mp h
    have hd' := ((job.place_steady id).growth hplace).placed hd
    have hlater : Later d' e := ((hf m (d'.modules.path m)).growth hrest).later
    have hm := hd'.place_lt id m (job.place_eq_ok hd.global hplace)
    apply Settled.bind (((job.place_steady id).settled hd hplace).later hlater)
    intro e' he'
    have hpath : e'.modules.path m = d'.modules.path m := (hlater.trans he').path m hm
    obtain ⟨diagnostics, hdiagnostics⟩ := (hf m _).settled hd' hrest e' he'
    use diagnostics
    rw [exec_bind_of_ok (exec_pathOf m e'), hpath]
    apply hdiagnostics
  · intro d
    apply exec_bind_rel (@Reports.trans spellingKinds) ((job.place_steady id).reports d)
    intro m e _
    apply (hf m _).reports

theorem placeOf_pathOf_steady {α : Type} (id : TypeId) {f : ModuleId → ModulePath → Drafting α}
    (hf : ∀ m path, Steady job.graph (f m path)) :
  Steady job.graph (job.placeOf id >>= fun m => pathOf m >>= f m)
  := by
  rw [placeOf, bind_assoc]
  apply (job.ownerOf_steady id).bind
  intro owner
  apply job.place_pathOf_steady owner hf

/-! ### References -/

/-- A declaration that is requested again is accepted already. -/
theorem request_steady {declaration : DeclarationRef} (h : job.graph.Declares declaration) :
  Steady job.graph (request declaration)
  := by
  refine ⟨⟨?_, ?_⟩, ?_⟩
  · intro d
    apply Relation.ReflTransGen.single (Change.request d h)
  · intro d a e _ hexec
    cases hexec
    apply Settled.of_unchanged
    intro e' he'
    have hmem : declaration ∈ e'.declarations.items := by
      apply he'.accepted
      rw [Worklist.mem_items_add]
      apply Or.inr rfl
    rw [exec_request, Worklist.add_of_mem hmem]
  · intro d
    apply Reports.of_same rfl

theorem spellScalar_steady (id : TypeId) (span : Option Span) (use : TypeUse) :
  Steady job.graph (job.spellScalar id span use)
  := by
  unfold spellScalar
  split
  case h_1 => apply Steady.pure
  case h_2 => apply (Steady.report List.mem_cons_self).bind_pure

theorem spellDeclaration_steady {id : TypeId} (hid : job.graph.Declares (.type id))
    (path : ModulePath) :
  Steady job.graph (job.spellDeclaration id path)
  := by
  apply (job.declarationName_steady id).bind
  intro name
  apply job.placeOf_pathOf_steady
  intro _ target
  apply (job.request_steady hid).bind_pure

/-- A type without a name is registered under the name that it gets. -/
theorem anonymousName_eq_ok {id : TypeId} {preferred name : String} {d e : Draft}
    (h : exec (anonymousName id preferred) d = (.ok name, e)) :
  e.anonymous.lookup id = some name
  := by
  rw [anonymousName, exec_get_bind] at h
  split at h
  case h_1 hknown =>
    cases h
    apply hknown
  case h_2 =>
    split at h
    case isTrue => cases h
    case isFalse =>
      cases h
      apply List.lookup_cons_self

/-- A type without a name keeps the name that it got. -/
theorem anonymousName_steady {id : TypeId} (hid : job.graph.Declares (.type id))
    (preferred : String) :
  Steady job.graph (anonymousName id preferred)
  := by
  refine ⟨⟨?_, ?_⟩, ?_⟩
  · intro d
    rw [anonymousName, exec_get_bind]
    split
    case h_1 => apply Relation.ReflTransGen.refl
    case h_2 hnew =>
      split
      case isTrue => apply Relation.ReflTransGen.refl
      case isFalse hwords =>
        apply Relation.ReflTransGen.single (Change.nameAnonymous d hid hnew _)
        simpa using hwords
  · intro d name e _ h
    have hname := anonymousName_eq_ok h
    apply Settled.of_unchanged
    intro e' he'
    rw [anonymousName, exec_get_bind, he'.anonymous _ _ hname]
    rfl
  · intro d
    rw [anonymousName, exec_get_bind]
    split
    case h_1 => apply Reports.of_same rfl
    case h_2 => split <;> apply Reports.of_same rfl

theorem spellAnonymous_steady {id : TypeId} (hid : job.graph.Declares (.type id))
    (path : ModulePath) (preferred : String) :
  Steady job.graph (spellAnonymous id path preferred) :=
  (job.anonymousName_steady hid preferred).bind_pure _

end Job

/-- Whether a type is spelled by the name of a declaration. -/
def TypeKind.isReference : TypeKind → Bool
  | record _ | union _ | enum _ | interface _ => true
  | _ => false

/-- A type that is something exists. -/
theorem TypeGraph.declares_of_kind? {graph : TypeGraph} {id : TypeId} {kind : TypeKind}
    (h : graph.kind? id = some kind) :
  graph.Declares (.type id)
  := by
  obtain ⟨node, hnode, -⟩ := Option.map_eq_some_iff.mp h
  apply (List.getElem?_eq_some_iff.mp hnode).1

namespace Job

open Drafting

variable (job : Job)

theorem spellCore_steady (id : TypeId) (span : Option Span) (use : TypeUse) (path : ModulePath)
    (preferred : String) :
  Steady job.graph (job.spellCore id span use path preferred)
  := by
  unfold spellCore
  split
  case h_1 => apply Steady.throw
  case h_2 kind hkind =>
    have hid := TypeGraph.declares_of_kind? hkind
    cases kind with
    | scalar _ => apply spellScalar_steady
    | record _ | union _ =>
        dsimp only
        split
        case isTrue => apply (job.spellAnonymous_steady hid _ _).bind_pure
        case isFalse => apply (job.spellDeclaration_steady hid _).bind_pure
    | enum _ | interface _ => apply (job.spellDeclaration_steady hid _).bind_pure
    | array _ | map _ | literal _ => apply Steady.throw
    | intrinsic _ => apply Steady.pure

/-- The spelling of a type is steady. -/
theorem spell_steady (id : TypeId) (span : Option Span) (use : TypeUse) (path : ModulePath)
    (preferred : String) :
  Steady job.graph (job.spell id span use path preferred)
  := by
  unfold spell
  split
  case h_1 => apply Steady.throw
  case h_2 => apply spellCore_steady
  case h_3 => apply (job.spellCore_steady _ _ _ _ _).bind_pure

end Job

end ServiceBindings
