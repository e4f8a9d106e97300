import ServiceBindings.Proofs.Draft.Target

/-!
# What drafting steps ask for

A draft holds the targets that it was asked for.  For each drafting step that succeeds there are the
targets that the draft must hold afterwards, and those that it may hold without having held them
before.  For most steps the two sets are one: rendering a target asks for exactly the targets of the
types that it spells.
-/

namespace ServiceBindings

open Draft

/-! ### Held targets -/

namespace Draft

/-- Whether a draft was asked for a target. -/
def Holds (d : Draft) : Target → Prop
  | .declaration declaration => declaration ∈ d.declarations.items
  | .anonymous id => ∃ name, d.anonymous.lookup id = some name
  | .subset id base => ∃ name, d.subsets.lookup (id, base) = some name

/-- A target that is held stays held. -/
theorem Later.holds {d e : Draft} (h : Later d e) {target : Target} (hd : d.Holds target) :
  e.Holds target
  := by
  cases target with
  | declaration declaration => apply h.accepted declaration hd
  | anonymous id =>
      obtain ⟨name, hname⟩ := hd
      use name, h.anonymous id name hname
  | subset id base =>
      obtain ⟨name, hname⟩ := hd
      use name, h.subset _ name hname

/-- What is found after an entry was added is the entry, or it was found before. -/
theorem lookup_cons_eq_some {α β : Type} [BEq α] [LawfulBEq α] {entries : List (α × β)}
    {key other : α} {value found : β} (h : ((key, value) :: entries).lookup other = some found) :
  other = key ∨ entries.lookup other = some found
  := by
  by_cases hother : other = key
  · apply Or.inl hother
  · rw [List.lookup_cons, beq_false_of_ne hother] at h
    apply Or.inr h

/-- What a draft holds depends on three registries only. -/
theorem Holds.of_kept {d e : Draft} {target : Target} (h : e.Holds target)
    (haccepted : e.declarations.items = d.declarations.items)
    (hanonymous : e.anonymous = d.anonymous) (hsubsets : e.subsets = d.subsets) :
  d.Holds target
  := by
  cases target with
  | declaration declaration =>
      rw [Holds, ← haccepted]
      apply h
  | anonymous id =>
      rw [Holds, ← hanonymous]
      apply h
  | subset id base =>
      rw [Holds, ← hsubsets]
      apply h

end Draft

/-! ### Requests -/

namespace Drafting

variable {α β : Type} {graph : TypeGraph}

/-- Whether a step that succeeds on a consistent draft leaves a later one that holds all targets of
`must`, and besides those held before no others than those of `may`. -/
def Requests (graph : TypeGraph) (must may : Target → Prop) (x : Drafting α) : Prop :=
  ∀ ⦃d a e⦄, Consistent graph d → exec x d = (.ok a, e) →
    Consistent graph e ∧ Later d e ∧ (∀ target, must target → e.Holds target)
      ∧ ∀ target, e.Holds target → d.Holds target ∨ may target

/-- No target at all. -/
def nothing (_ : Target) : Prop := False

namespace Requests

variable {must may must' may' asked asked' : Target → Prop}

/-- A step may be said to request less than it must and more than it may. -/
theorem weaken {x : Drafting α} (h : Requests graph must may x)
    (hmust : ∀ target, must' target → must target) (hmay : ∀ target, may target → may' target) :
  Requests graph must' may' x
  := by
  intro d a e hd hexec
  obtain ⟨he, hlater, hholds, hnew⟩ := h hd hexec
  refine ⟨he, hlater, ?_, ?_⟩
  · intro target htarget
    apply hholds target (hmust target htarget)
  · intro target htarget
    apply (hnew target htarget).imp_right (hmay target)

/-- A step need not be said to request anything. -/
theorem optional {x : Drafting α} (h : Requests graph must may x) :
  Requests graph nothing may x
  := by
  apply h.weaken
  · intro target htarget
    cases htarget
  · intro target htarget
    apply htarget

/-- A step that requests nothing requests nothing more than some targets. -/
theorem of_nothing {x : Drafting α} (h : Requests graph nothing nothing x) :
  Requests graph nothing may x
  := by
  apply h.weaken
  · intro target htarget
    apply htarget
  · intro target htarget
    cases htarget

/-- What a step requests can be said in another way. -/
theorem congr {x : Drafting α} (h : Requests graph asked asked x)
    (hasked : ∀ target, asked' target ↔ asked target) :
  Requests graph asked' asked' x :=
  h.weaken (fun target => (hasked target).mp) fun target => (hasked target).mpr

/-- A step that grows a draft but keeps its registries requests nothing. -/
theorem of_kept {x : Drafting α} (hgrows : ∀ d, Growth graph d (exec x d).2)
    (h : ∀ d, (exec x d).2.declarations.items = d.declarations.items
      ∧ (exec x d).2.anonymous = d.anonymous ∧ (exec x d).2.subsets = d.subsets) :
  Requests graph nothing nothing x
  := by
  intro d a e hd hexec
  have hgrowth := hgrows d
  obtain ⟨haccepted, hanonymous, hsubsets⟩ := h d
  rw [hexec] at hgrowth haccepted hanonymous hsubsets
  refine ⟨hgrowth.consistent hd, hgrowth.later, ?_, ?_⟩
  · intro target htarget
    cases htarget
  · intro target htarget
    apply Or.inl (htarget.of_kept haccepted hanonymous hsubsets)

theorem pure (a : α) : Requests graph nothing nothing (pure a : Drafting α) :=
  of_kept (fun _ => .refl) fun _ => ⟨rfl, rfl, rfl⟩

theorem throw (error : CompileError) : Requests graph must may (throw error : Drafting α) := by
  intro d a e _ hexec
  cases hexec

theorem report (diagnostic : Diagnostic) : Requests graph nothing nothing (report diagnostic) :=
  of_kept (fun d => .single (.report d diagnostic)) fun _ => ⟨rfl, rfl, rfl⟩

theorem pathOf (m : ModuleId) : Requests graph nothing nothing (pathOf m) :=
  of_kept (fun _ => .refl) fun _ => ⟨rfl, rfl, rfl⟩

theorem addModule (parent : ModuleId) (name : String) (inline : Bool) (doc : String) :
  Requests graph nothing nothing (addModule parent name inline doc)
  := by
  apply of_kept
  · intro d
    apply Relation.ReflTransGen.single (Change.addModule d parent name inline doc)
  · intro d
    rw [exec_addModule]
    exact ⟨rfl, rfl, rfl⟩

theorem write (m : ModuleId) (lines : List String) :
  Requests graph nothing nothing (write m lines)
  := by
  intro d a e hd hexec
  cases hexec
  refine ⟨hd.withModules (by simp), later_appendText d m _, ?_, ?_⟩
  · intro target htarget
    cases htarget
  · intro target htarget
    apply Or.inl (htarget.of_kept rfl rfl rfl)

/-- A sequence requests what its steps request.  The second step may rely on what is known of the
result of the first. -/
theorem bind_of {x : Drafting α} {f : α → Drafting β} {P : α → Prop}
    (hx : Requests graph must may x)
    (hP : ∀ {d a e}, Consistent graph d → exec x d = (.ok a, e) → P a)
    (hf : ∀ a, P a → Requests graph must' may' (f a)) :
  Requests graph (fun target => must target ∨ must' target)
    (fun target => may target ∨ may' target) (x >>= f)
  := by
  intro d b e hd hexec
  obtain ⟨a, d', hfirst, hrest⟩ := exec_bind_eq_ok.mp hexec
  obtain ⟨hd', hlater, hholds, hnew⟩ := hx hd hfirst
  obtain ⟨he, hlater', hholds', hnew'⟩ := hf a (hP hd hfirst) hd' hrest
  refine ⟨he, hlater.trans hlater', ?_, ?_⟩
  · rintro target (htarget | htarget)
    · apply hlater'.holds (hholds target htarget)
    · apply hholds' target htarget
  · intro target htarget
    rcases hnew' target htarget with htarget | htarget
    · apply (hnew target htarget).imp_right Or.inl
    · apply Or.inr (Or.inr htarget)

theorem bind {x : Drafting α} {f : α → Drafting β} (hx : Requests graph must may x)
    (hf : ∀ a, Requests graph must' may' (f a)) :
  Requests graph (fun target => must target ∨ must' target)
    (fun target => may target ∨ may' target) (x >>= f)
  := by
  apply hx.bind_of (P := fun _ => True)
  · intro _ _ _ _ _
    trivial
  · intro a _
    apply hf a

/-- A first step that requests nothing does not count. -/
theorem after {x : Drafting α} {f : α → Drafting β} (hx : Requests graph nothing nothing x)
    (hf : ∀ a, Requests graph must may (f a)) :
  Requests graph must may (x >>= f) :=
  (hx.bind hf).weaken (fun _ => Or.inr) fun _ h => h.resolve_left id

/-- A last step that requests nothing does not count. -/
theorem before {x : Drafting α} {f : α → Drafting β} (hx : Requests graph must may x)
    (hf : ∀ a, Requests graph nothing nothing (f a)) :
  Requests graph must may (x >>= f) :=
  (hx.bind hf).weaken (fun _ => Or.inl) fun _ h => h.resolve_right id

theorem bind_pure {x : Drafting α} (hx : Requests graph must may x) (f : α → β) :
  Requests graph must may (x >>= fun a => Pure.pure (f a)) :=
  hx.before fun a => pure (f a)

/-- Steps over a list request what one of them requests. -/
theorem mapM {f : α → Drafting β} {items : List α} {must may : α → Target → Prop}
    (hf : ∀ a ∈ items, Requests graph (must a) (may a) (f a)) :
  Requests graph (fun target => ∃ a ∈ items, must a target)
    (fun target => ∃ a ∈ items, may a target) (items.mapM f)
  := by
  induction items with
  | nil =>
      rw [List.mapM_nil]
      apply (pure _).weaken
      · simp
      · intro target htarget
        cases htarget
  | cons item items ih =>
      rw [List.mapM_cons]
      have hrest := ih fun a ha => hf a (List.mem_cons_of_mem _ ha)
      apply ((hf item List.mem_cons_self).bind fun b => hrest.bind_pure (b :: ·)).weaken
      · simp
      · simp

theorem forM {f : α → Drafting Unit} {items : List α} {must may : α → Target → Prop}
    (hf : ∀ a ∈ items, Requests graph (must a) (may a) (f a)) :
  Requests graph (fun target => ∃ a ∈ items, must a target)
    (fun target => ∃ a ∈ items, may a target) (items.forM f)
  := by
  induction items with
  | nil =>
      apply (pure ()).weaken
      · simp
      · intro target htarget
        cases htarget
  | cons item items ih =>
      have hrest := ih fun a ha => hf a (List.mem_cons_of_mem _ ha)
      apply ((hf item List.mem_cons_self).bind fun _ => hrest).weaken
      · simp
      · simp

end Requests

end Drafting

/-! ### Spelling -/

namespace TypeGraph

variable {graph : TypeGraph}

/-- An array or a map is not spelled by a name. -/
theorem IsElement.isReference {id part : TypeId} (h : graph.IsElement id part) {kind : TypeKind}
    (hkind : graph.kind? id = some kind) :
  kind.isReference ≠ true
  := by
  rcases h with h | h
  · rw [h] at hkind
    cases hkind
    apply Bool.false_ne_true
  · rw [h] at hkind
    cases hkind
    apply Bool.false_ne_true

/-- An array or a map has elements of one type. -/
theorem IsElement.unique {id part other : TypeId} (h : graph.IsElement id part)
    (h' : graph.IsElement id other) :
  part = other
  := by
  rcases h with h | h
  · rw [IsElement, h] at h'
    simpa using h'
  · rw [IsElement, h] at h'
    simpa using h'

/-- A type that is spelled by its name asks for its declaration. -/
theorem spells_named {id : TypeId} (h : graph.IsNamed id) {target : Target} :
  graph.Spells id target ↔ target = .declaration (.type id)
  := by
  obtain ⟨kind, hkind, hreference, hname⟩ := h
  constructor
  · intro hspells
    cases hspells with
    | named _ => rfl
    | anonymous hanonymous =>
        obtain ⟨kind', hkind', -, hname'⟩ := hanonymous
        rw [hkind] at hkind'
        cases hkind'
        apply absurd hname' hname
    | element helement _ => apply absurd hreference (helement.isReference hkind)
  · rintro rfl
    apply Spells.named ⟨kind, hkind, hreference, hname⟩

/-- A type that lacks a name asks for its synthetic declaration. -/
theorem spells_anonymous {id : TypeId} (h : graph.IsAnonymous id) {target : Target} :
  graph.Spells id target ↔ target = .anonymous id
  := by
  obtain ⟨kind, hkind, hreference, hname⟩ := h
  constructor
  · intro hspells
    cases hspells with
    | named hnamed =>
        obtain ⟨kind', hkind', -, hname'⟩ := hnamed
        rw [hkind] at hkind'
        cases hkind'
        apply absurd hname hname'
    | anonymous _ => rfl
    | element helement _ => apply absurd hreference (helement.isReference hkind)
  · rintro rfl
    apply Spells.anonymous ⟨kind, hkind, hreference, hname⟩

/-- A type that is spelled in place asks for nothing. -/
theorem not_spells {id : TypeId} {kind : TypeKind} (hkind : graph.kind? id = some kind)
    (hreference : kind.isReference = false)
    (hpart : ∀ part, kind ≠ .array part ∧ kind ≠ .map part) {target : Target} :
  ¬graph.Spells id target
  := by
  intro hspells
  cases hspells with
  | named hnamed =>
      obtain ⟨kind', hkind', hreference', -⟩ := hnamed
      rw [hkind] at hkind'
      cases hkind'
      apply absurd hreference' (ne_true_of_eq_false hreference)
  | anonymous hanonymous =>
      obtain ⟨kind', hkind', hreference', -⟩ := hanonymous
      rw [hkind] at hkind'
      cases hkind'
      apply absurd hreference' (ne_true_of_eq_false hreference)
  | @element _ part _ helement _ =>
      rw [IsElement, hkind, Option.some_inj, Option.some_inj] at helement
      apply helement.elim (hpart part).1 (hpart part).2

/-- An array or a map asks for what its elements ask for. -/
theorem spells_element {id part : TypeId} (h : graph.IsElement id part) {target : Target} :
  graph.Spells id target ↔ graph.Spells part target
  := by
  constructor
  · intro hspells
    cases hspells with
    | named hnamed =>
        obtain ⟨kind, hkind, hreference, -⟩ := hnamed
        apply absurd hreference (h.isReference hkind)
    | anonymous hanonymous =>
        obtain ⟨kind, hkind, hreference, -⟩ := hanonymous
        apply absurd hreference (h.isReference hkind)
    | element h' hspells =>
        rw [h.unique h']
        apply hspells
  · apply Spells.element h

/-- A type asks for what the type in its middle asks for. -/
theorem spells_of_unwrapWithin {limit : Nat} {id core : TypeId} {wrappers : List Wrapper}
    (h : graph.unwrapWithin limit id = some (wrappers, core)) {target : Target} :
  graph.Spells id target ↔ graph.Spells core target
  := by
  induction limit generalizing id wrappers with
  | zero => cases h
  | succ limit ih =>
      rw [unwrapWithin] at h
      split at h
      case h_1 element helement =>
        obtain ⟨⟨rest, core'⟩, hrest, heq⟩ := Option.map_eq_some_iff.mp h
        cases heq
        rw [spells_element (Or.inl helement)]
        apply ih hrest
      case h_2 value hvalue =>
        obtain ⟨⟨rest, core'⟩, hrest, heq⟩ := Option.map_eq_some_iff.mp h
        cases heq
        rw [spells_element (Or.inr hvalue)]
        apply ih hrest
      case h_3 =>
        cases h
        rfl

end TypeGraph

namespace Job

open Drafting

variable (job : Job)

theorem place_requests (id : NamespaceId) :
  Requests job.graph nothing nothing (job.place id)
  := by
  apply Requests.of_kept (job.place_grows id)
  intro d
  obtain ⟨modules, places, hkeeps⟩ := job.place_keeps id d
  rw [hkeeps]
  exact ⟨rfl, rfl, rfl⟩

theorem ownerOf_requests (id : TypeId) :
  Requests job.graph nothing nothing (job.ownerOf id)
  := by
  unfold ownerOf
  split
  case h_1 => apply Requests.pure
  case h_2 => apply Requests.throw

theorem placeOf_requests (id : TypeId) :
  Requests job.graph nothing nothing (job.placeOf id) :=
  (job.ownerOf_requests id).after job.place_requests

theorem placeOfContainer_requests (container : Container) :
  Requests job.graph nothing nothing (job.placeOfContainer container)
  := by
  cases container with
  | group id => apply place_requests
  | interface id => apply placeOf_requests

theorem declarationName_requests (id : TypeId) :
  Requests job.graph nothing nothing (job.declarationName id)
  := by
  unfold declarationName
  split
  case h_1 => apply Requests.pure
  case h_2 => apply Requests.throw

/-- A declaration that is requested is held, and it is the only new one. -/
theorem request_requests {declaration : DeclarationRef} (h : job.graph.Declares declaration) :
  Requests job.graph (· = .declaration declaration) (· = .declaration declaration)
    (request declaration)
  := by
  intro d a e hd hexec
  have hgrowth := (job.request_steady h).growth hexec
  cases hexec
  refine ⟨hgrowth.consistent hd, hgrowth.later, ?_, ?_⟩
  · rintro target rfl
    apply (Worklist.mem_items_add _ _ _).mpr (Or.inr rfl)
  · intro target htarget
    cases target with
    | declaration other =>
        apply ((Worklist.mem_items_add _ _ _).mp htarget).imp_right
        apply congrArg
    | anonymous id => apply Or.inl htarget
    | subset id base => apply Or.inl htarget

theorem spellScalar_requests (id : TypeId) (span : Option Span) (use : TypeUse) :
  Requests job.graph nothing nothing (job.spellScalar id span use)
  := by
  unfold spellScalar
  split
  case h_1 => apply Requests.pure
  case h_2 => apply (Requests.report _).bind_pure

theorem spellDeclaration_requests {id : TypeId} (hid : job.graph.Declares (.type id))
    (path : ModulePath) :
  Requests job.graph (· = .declaration (.type id)) (· = .declaration (.type id))
    (job.spellDeclaration id path)
  := by
  apply (job.declarationName_requests id).after
  intro name
  apply (job.placeOf_requests id).after
  intro m
  apply (Requests.pathOf m).after
  intro target
  apply (job.request_requests hid).bind_pure

/-- A type without a name is held once it has got one. -/
theorem anonymousName_requests {id : TypeId} (hid : job.graph.Declares (.type id))
    (preferred : String) :
  Requests job.graph (· = .anonymous id) (· = .anonymous id) (anonymousName id preferred)
  := by
  intro d name e hd hexec
  have hgrowth := (job.anonymousName_steady hid preferred).growth hexec
  refine ⟨hgrowth.consistent hd, hgrowth.later, ?_⟩
  rw [anonymousName, exec_get_bind] at hexec
  split at hexec
  case h_1 hknown =>
    cases hexec
    constructor
    · rintro target rfl
      use name
    · intro target htarget
      apply Or.inl htarget
  case h_2 =>
    split at hexec
    case isTrue => cases hexec
    case isFalse =>
      cases hexec
      constructor
      · rintro target rfl
        use (d.nameAnonymous id preferred).1
        apply List.lookup_cons_self
      · intro target htarget
        cases target with
        | declaration declaration => apply Or.inl htarget
        | subset union base => apply Or.inl htarget
        | anonymous other =>
            obtain ⟨name, hname⟩ := htarget
            rcases lookup_cons_eq_some hname with hother | hknown
            · apply Or.inr (congrArg Target.anonymous hother)
            · apply Or.inl ⟨name, hknown⟩

/-- A type that is spelled by a name is held afterwards. -/
theorem spellCore_requests (id : TypeId) (span : Option Span) (use : TypeUse) (path : ModulePath)
    (preferred : String) :
  Requests job.graph (job.graph.Spells id) (job.graph.Spells id)
    (job.spellCore id span use path preferred)
  := by
  unfold spellCore
  split
  case h_1 => apply Requests.throw
  case h_2 kind hkind =>
    have hid := TypeGraph.declares_of_kind? hkind
    have hunnamed (hreference : kind.isReference = false)
        (hpart : ∀ part, kind ≠ .array part ∧ kind ≠ .map part) (target : Target) :
        job.graph.Spells id target ↔ nothing target :=
      iff_of_false (TypeGraph.not_spells hkind hreference hpart) fun h => h
    cases kind with
    | scalar _ =>
        apply (job.spellScalar_requests id span use).congr
        apply hunnamed rfl
        simp
    | record _ | union _ =>
        dsimp only
        split
        case isTrue hname =>
          apply (((job.anonymousName_requests hid preferred).bind_pure _).bind_pure _).congr
          intro target
          apply TypeGraph.spells_anonymous ⟨_, hkind, rfl, Option.isNone_iff_eq_none.mp hname⟩
        case isFalse hname =>
          apply ((job.spellDeclaration_requests hid path).bind_pure _).congr
          intro target
          apply TypeGraph.spells_named ⟨_, hkind, rfl, mt Option.isNone_iff_eq_none.mpr hname⟩
    | enum _ | interface _ =>
        apply ((job.spellDeclaration_requests hid path).bind_pure _).congr
        intro target
        apply TypeGraph.spells_named ⟨_, hkind, rfl, Option.some_ne_none _⟩
    | array _ | map _ | literal _ => apply Requests.throw
    | intrinsic _ =>
        apply (Requests.pure _).congr
        apply hunnamed rfl
        simp

/-- Spelling a type asks for what the type in its middle asks for. -/
theorem spell_requests (id : TypeId) (span : Option Span) (use : TypeUse) (path : ModulePath)
    (preferred : String) :
  Requests job.graph (job.graph.Spells id) (job.graph.Spells id)
    (job.spell id span use path preferred)
  := by
  unfold spell
  split
  case h_1 => apply Requests.throw
  case h_2 core hcore =>
    apply (job.spellCore_requests _ _ _ _ _).congr
    intro target
    apply TypeGraph.spells_of_unwrapWithin hcore
  case h_3 core _ hcore =>
    apply ((job.spellCore_requests _ _ _ _ _).bind_pure _).congr
    intro target
    apply TypeGraph.spells_of_unwrapWithin hcore

end Job

end ServiceBindings
