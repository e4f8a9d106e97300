import ServiceBindings.Proofs.Draft.Completion
import ServiceBindings.Proofs.Schema.Linking

/-!
# Every declaration is written once

Along a run, the texts of the module of a namespace are the renderings of its declarations that were
handed out, in the order in which they were accepted, and the texts of the module of synthetic
declarations are the renderings of those that were named.  When the run succeeds nothing waits, so
each declaration that a reference names has been written exactly once.
-/

namespace ServiceBindings

open Draft Drafting

/-- The namespace that a declaration is written for. -/
def DeclarationRef.owner? (graph : TypeGraph) : DeclarationRef → Option NamespaceId
  | .type id => graph.owner? id
  | .operations id => some id

namespace Synthetic

/-- The name of a synthetic declaration. -/
def name : Synthetic → String
  | anonymous name _ => name
  | subset name _ _ => name

/-- The type without a name that a synthetic declaration is for, and its name. -/
def asAnonymous? : Synthetic → Option (TypeId × String)
  | anonymous name id => some (id, name)
  | subset _ _ _ => none

/-- The union that a synthetic declaration has a subset of, and the name of the subset. -/
def asSubset? : Synthetic → Option (TypeId × String)
  | anonymous _ _ => none
  | subset name union _ => some (union, name)

end Synthetic

namespace Draft

variable {graph : TypeGraph} {d e : Draft}

/-! ### What was queued -/

/-- Whether the synthetic declarations that were ever queued are those that were named, in the order
in which they were named. -/
structure Queues (d : Draft) (queued : List Synthetic) : Prop where
  anonymous : queued.filterMap (·.asAnonymous?) = d.anonymous.reverse
  subsets : queued.filterMap (·.asSubset?)
    = (d.subsets.map fun entry => (entry.1.1, entry.2)).reverse

namespace Queues

variable {handed queued : List Synthetic}

/-- A type without a name is queued when it is named. -/
theorem nameAnonymous (h : d.Queues (handed ++ d.synthetics)) (id : TypeId) (base : String) :
  (d.nameAnonymous id base).2.Queues (handed ++ (d.nameAnonymous id base).2.synthetics)
  := by
  have hqueue : handed ++ (d.nameAnonymous id base).2.synthetics
      = (handed ++ d.synthetics) ++ [.anonymous (d.nameSynthetic base).1 id] :=
    (List.append_assoc ..).symm
  rw [hqueue]
  constructor
  · rw [List.filterMap_append, h.anonymous]
    symm
    apply List.reverse_cons
  · rw [List.filterMap_append, h.subsets]
    apply List.append_nil

/-- A subset is queued when it is named. -/
theorem nameSubset (h : d.Queues (handed ++ d.synthetics)) (union : TypeId) (variants : List Nat)
    (base : String) :
  (d.nameSubset union variants base).2.Queues
    (handed ++ (d.nameSubset union variants base).2.synthetics)
  := by
  have hqueue : handed ++ (d.nameSubset union variants base).2.synthetics
      = (handed ++ d.synthetics) ++ [.subset (d.nameSynthetic base).1 union variants] :=
    (List.append_assoc ..).symm
  rw [hqueue]
  constructor
  · rw [List.filterMap_append, h.anonymous]
    apply List.append_nil
  · rw [List.filterMap_append, h.subsets]
    symm
    apply List.reverse_cons

/-- The names of the queued declarations are those that were given. -/
theorem names_perm (h : d.Queues queued) :
  (queued.map (·.name)).Perm d.givenNames
  := by
  have hnames : (queued.map (·.name)).Perm ((queued.filterMap (·.asAnonymous?)).map (·.2)
      ++ (queued.filterMap (·.asSubset?)).map (·.2)) := by
    clear h
    induction queued with
    | nil => apply List.Perm.refl
    | cons synthetic queued ih =>
        cases synthetic with
        | anonymous name id => apply ih.cons
        | subset name id variants => apply (ih.cons _).trans List.perm_middle.symm
  rw [h.anonymous, h.subsets, List.map_reverse, List.map_reverse, List.map_map] at hnames
  apply hnames.trans
  apply List.Perm.append (List.reverse_perm _) (List.reverse_perm _)

/-- No synthetic declaration that waits was handed out before. -/
theorem key_not_mem (h : d.Queues (handed ++ d.synthetics)) (hd : Distinct d)
    {synthetic : Synthetic} (hsynthetic : synthetic ∈ d.synthetics) :
  synthetic.key ∉ handed.map (·.key)
  := by
  intro hkey
  obtain ⟨other, hother, hkey⟩ := List.mem_map.mp hkey
  have hname : other.name = synthetic.name := by
    have hsnd (s : Synthetic) : s.key.2 = s.name := by cases s <;> rfl
    rw [← hsnd, ← hsnd, hkey]
  -- The names of all queued declarations are different.
  have hnodup := h.names_perm.nodup_iff.mpr hd.names_nodup
  rw [List.map_append, List.nodup_append] at hnodup
  apply hnodup.2.2 other.name _ synthetic.name (List.mem_map_of_mem hsynthetic) hname
  apply List.mem_map_of_mem hother

end Queues

/-- Whether, besides, each subset that was queued is a side of what an operation returns. -/
structure Registers (graph : TypeGraph) (d : Draft) (queued : List Synthetic) : Prop
    extends Queues d queued where
  returned : ∀ name id variants, .subset name id variants ∈ queued →
    ∃ base, d.subsets.lookup (id, base) = some name ∧ graph.ReturnsSubset id variants base

/-- A subset that has a name was queued with it, and with the variants that its side has: no other
subset has its name. -/
theorem Registers.exists_variants {queued : List Synthetic} (h : d.Registers graph queued)
    (hd : Distinct d) {id : TypeId} {base name : String}
    (hname : d.subsets.lookup (id, base) = some name) :
  ∃ variants, .subset name id variants ∈ queued ∧ graph.ReturnsSubset id variants base
  := by
  have hmem := mem_of_lookup hname
  have hentry : (id, name) ∈ queued.filterMap (·.asSubset?) := by
    rw [h.subsets, List.mem_reverse, List.mem_map]
    exact ⟨_, hmem, rfl⟩
  obtain ⟨synthetic, hsynthetic, heq⟩ := List.mem_filterMap.mp hentry
  cases synthetic with
  | anonymous _ _ => cases heq
  | subset name' id' variants =>
      cases heq
      obtain ⟨base', hname', hreturned⟩ := h.returned name id variants hsynthetic
      have hnodup : (d.subsets.map (·.2)).Nodup := hd.names_nodup.of_append_right
      have hsame := List.inj_on_of_nodup_map hnodup hmem (mem_of_lookup hname') rfl
      cases hsame
      exact ⟨variants, hsynthetic, hreturned⟩

/-- A change queues what it names. -/
theorem Change.registers (hchange : Change graph d e) {written : List Synthetic}
    (h : d.Registers graph (written ++ d.synthetics)) :
  e.Registers graph (written ++ e.synthetics)
  := by
  cases hchange with
  | @nameAnonymous id base _ _ =>
      use h.toQueues.nameAnonymous id base
      intro other union variants hmem
      apply h.returned other union variants
      simpa [Draft.nameAnonymous, nameSynthetic] using hmem
  | @nameSubset id variants base hreturned hnew =>
      have hlater := (Change.nameSubset d hreturned hnew).later
      use h.toQueues.nameSubset id variants base
      intro other union selected hmem
      rcases List.mem_append.mp (List.append_assoc .. ▸ hmem) with hmem | hmem
      · obtain ⟨other, hlookup, hother⟩ := h.returned other union selected hmem
        use other, hlater.subset _ _ hlookup
      · cases List.mem_singleton.mp hmem
        use base, List.lookup_cons_self
  | openModule hid _ =>
      rw [openModule_of_new hid]
      exact { h with }
  | _ => exact { h with }

/-! ### Where texts come from -/

/-- Growth writes free modules only. -/
theorem Growth.texts_or_isFree (h : Growth graph d e) (m : ModuleId) :
  e.modules.texts m = d.modules.texts m ∨ e.IsFree m
  := by
  induction h with
  | refl => apply Or.inl rfl
  | @tail c e _ hchange ih =>
      have hfree : ∀ {m}, c.IsFree m → e.IsFree m := fun h => h.change hchange
      rcases ih with ih | ih
      · rw [← ih]
        cases hchange with
        | openModule hid _ =>
            rw [openModule_of_new hid]
            simp
        | addModule parent name inline doc => simp
        | @write written lines hwritten =>
            by_cases hm : m = written
            · rw [hm]
              apply Or.inr (hfree hwritten)
            · apply Or.inl
              apply ModuleTree.texts_appendText_of_ne _ _ hm
        | _ => apply Or.inl rfl
      · apply Or.inr (hfree ih)

/-- Growth hands out nothing and marks nothing as written. -/
theorem Growth.handed (h : Growth graph d e) :
  e.declarations.taken = d.declarations.taken ∧ e.synthesized = d.synthesized
  := by
  induction h with
  | refl => exact ⟨rfl, rfl⟩
  | tail _ hchange ih =>
      rw [← ih.1, ← ih.2]
      cases hchange with
      | request _ => exact ⟨Worklist.taken_add _ _, rfl⟩
      | openModule hid _ =>
          rw [openModule_of_new hid]
          exact ⟨rfl, rfl⟩
      | _ => exact ⟨rfl, rfl⟩

theorem Growth.registers (hgrowth : Growth graph d e) {written : List Synthetic}
    (h : d.Registers graph (written ++ d.synthetics)) :
  e.Registers graph (written ++ e.synthetics)
  := by
  induction hgrowth with
  | refl => apply h
  | tail _ hchange ih => apply hchange.registers ih

/-- A free module stays free when any module is written. -/
theorem IsFree.appendText {m : ModuleId} (h : d.IsFree m) (other : ModuleId) (body : String) :
  IsFree { d with modules := d.modules.appendText other body } m
  := by
  refine { h with exists_module := ?_ }
  rw [ModuleTree.size_appendText]
  apply h.exists_module

end Draft

namespace Job

variable (job : Job)

/-- The module of a declaration that is rendered is that of its namespace. -/
theorem render_eq_ok {declaration : DeclarationRef} {d e : Draft} {m : ModuleId}
    {lines : List String} (hd : Placed d)
    (h : exec (job.render declaration) d = (.ok (m, lines), e)) :
  ∃ id, declaration.owner? job.graph = some id ∧ e.moduleOf? id = some m
  := by
  cases declaration with
  | type id =>
      obtain ⟨name, d₁, hname, h⟩ := exec_bind_eq_ok.mp h
      obtain ⟨found, d₂, hplace, h⟩ := exec_bind_eq_ok.mp h
      obtain ⟨path, d₃, hpath, h⟩ := exec_bind_eq_ok.mp h
      obtain ⟨rendered, d₄, hlines, h⟩ := exec_bind_eq_ok.mp h
      have hd₁ := ((job.declarationName_steady id).growth hname).placed hd
      obtain ⟨owner, howner, hfound⟩ := job.placeOf_eq_ok hd₁.global hplace
      cases h
      cases hpath
      use owner, howner
      apply ((job.typeLines_steady _ _ _).growth hlines).later.place _ _ hfound
  | operations id =>
      obtain ⟨found, d₁, hplace, h⟩ := exec_bind_eq_ok.mp h
      obtain ⟨path, d₂, hpath, h⟩ := exec_bind_eq_ok.mp h
      obtain ⟨trait, d₃, htrait, h⟩ := exec_bind_eq_ok.mp h
      have hfound := job.place_eq_ok hd.global hplace
      cases h
      cases hpath
      use id, rfl
      apply ((job.traitDecl_steady _ _ _ _).growth htrait).later.place _ _ hfound

/-! ### Logs -/

/-- Whether the texts of a draft are those of a log: of declarations with their modules and lines,
and of synthetic declarations with their lines. -/
structure Logged (d : Draft) (declared : List (DeclarationRef × ModuleId × List String))
    (written : List (Synthetic × List String)) : Prop where
  rendered : ∀ entry ∈ declared, Settled (job.render entry.1) d entry.2
  placed : ∀ entry ∈ declared,
    ∃ id, entry.1.owner? job.graph = some id ∧ d.moduleOf? id = some entry.2.1
  texts : ∀ m, ¬d.IsFree m → m ≠ .synthetic → d.modules.texts m
    = (declared.filter fun entry => entry.2.1 = m).map fun entry => Text.unlines entry.2.2
  synthetic_rendered : ∀ entry ∈ written, Settled (job.syntheticLines entry.1) d entry.2
  synthetic_texts : d.modules.texts .synthetic = written.map fun entry => Text.unlines entry.2

/-- Whether a log holds what was handed out to be written. -/
structure Accounted (d : Draft) (declared : List (DeclarationRef × ModuleId × List String))
    (written : List (Synthetic × List String)) : Prop where
  taken : declared.map (·.1) = d.declarations.taken
  registers : d.Registers job.graph (written.map (·.1) ++ d.synthetics)
  synthesized : d.synthesized = (written.map fun entry => entry.1.key).reverse

variable {job} {d e : Draft} {declared : List (DeclarationRef × ModuleId × List String)}
  {written : List (Synthetic × List String)}

namespace Logged

/-- Growth writes nothing that is logged. -/
theorem growth (h : job.Logged d declared written) (hgrowth : Growth job.graph d e) :
  job.Logged e declared written
  := by
  have hlater := hgrowth.later
  constructor
  · intro entry hentry
    apply (h.rendered entry hentry).later hlater
  · intro entry hentry
    obtain ⟨id, howner, hplace⟩ := h.placed entry hentry
    use id, howner, hlater.place _ _ hplace
  · intro m hfree hne
    rw [(hgrowth.texts_or_isFree m).resolve_right hfree]
    apply h.texts m _ hne
    intro hfree'
    apply hfree (hfree'.growth hgrowth)
  · intro entry hentry
    apply (h.synthetic_rendered entry hentry).later hlater
  · have hne : ¬e.IsFree .synthetic := fun hfree => hfree.ne_synthetic rfl
    rw [(hgrowth.texts_or_isFree .synthetic).resolve_right hne]
    apply h.synthetic_texts

/-- What is logged stays so as long as modules and texts do. -/
theorem of_same_texts (h : job.Logged d declared written) (hlater : Later d e)
    (hsize : e.modules.size = d.modules.size) (htexts : e.modules.texts = d.modules.texts)
    (hplaces : e.places = d.places) :
  job.Logged e declared written
  := by
  have hplace (id : NamespaceId) : e.moduleOf? id = d.moduleOf? id := by
    rw [moduleOf?, hplaces]
    rfl
  constructor
  · intro entry hentry
    apply (h.rendered entry hentry).later hlater
  · simp only [hplace]
    apply h.placed
  · intro m hfree hne
    rw [htexts]
    apply h.texts m _ hne
    rintro ⟨hlt, -, hplaced⟩
    apply hfree ⟨hsize ▸ hlt, hne, _⟩
    simp only [hplace]
    apply hplaced
  · intro entry hentry
    apply (h.synthetic_rendered entry hentry).later hlater
  · rw [htexts]
    apply h.synthetic_texts

/-- The lines of a declaration that are added to its module are logged. -/
theorem write (h : job.Logged d declared written) (hd : Placed d)
    {declaration : DeclarationRef} {m : ModuleId} {lines : List String}
    (hrendered : Settled (job.render declaration) d (m, lines)) {id : NamespaceId}
    (howner : declaration.owner? job.graph = some id) (hplace : d.moduleOf? id = some m)
    (hne : m ≠ .synthetic) :
  job.Logged { d with modules := d.modules.appendText m (Text.unlines lines) }
    (declared ++ [(declaration, m, lines)]) written
  := by
  have hlater := later_appendText d m (Text.unlines lines)
  constructor
  · intro entry hentry
    rcases List.mem_append.mp hentry with hentry | hentry
    · apply (h.rendered entry hentry).later hlater
    · cases List.mem_singleton.mp hentry
      apply hrendered.later hlater
  · intro entry hentry
    rcases List.mem_append.mp hentry with hentry | hentry
    · apply h.placed entry hentry
    · cases List.mem_singleton.mp hentry
      use id, howner, hplace
  · intro other hfree hother
    have htexts := h.texts other (fun hfree' => hfree (hfree'.appendText _ _)) hother
    rw [List.filter_append, List.map_append, ← htexts]
    by_cases heq : m = other
    · subst heq
      rw [ModuleTree.texts_appendText_self _ _ (hd.place_lt id m hplace)]
      simp
    · rw [ModuleTree.texts_appendText_of_ne _ _ (Ne.symm heq)]
      simp [heq]
  · intro entry hentry
    apply (h.synthetic_rendered entry hentry).later hlater
  · rw [ModuleTree.texts_appendText_of_ne _ _ (Ne.symm hne)]
    apply h.synthetic_texts

/-- The lines of a synthetic declaration that are added to the module of those are logged. -/
theorem writeSynthetic (h : job.Logged d declared written) (hd : Founded d)
    {synthetic : Synthetic} {lines : List String}
    (hrendered : Settled (job.syntheticLines synthetic) d lines) :
  job.Logged { d with modules := d.modules.appendText .synthetic (Text.unlines lines) } declared
    (written ++ [(synthetic, lines)])
  := by
  have hlater := later_appendText d .synthetic (Text.unlines lines)
  constructor
  · intro entry hentry
    apply (h.rendered entry hentry).later hlater
  · apply h.placed
  · intro other hfree hother
    rw [ModuleTree.texts_appendText_of_ne _ _ hother]
    apply h.texts other _ hother
    intro hfree'
    apply hfree (hfree'.appendText _ _)
  · intro entry hentry
    rcases List.mem_append.mp hentry with hentry | hentry
    · apply (h.synthetic_rendered entry hentry).later hlater
    · cases List.mem_singleton.mp hentry
      apply hrendered.later hlater
  · rw [ModuleTree.texts_appendText_self _ _ hd.synthetic_lt, h.synthetic_texts, List.map_append]
    rfl

/-- What is written into the root module is not logged as long as that is free. -/
theorem writeRoot (h : job.Logged d declared written) (hfree : d.IsFree .root)
    (lines : List String) (doc : Option String) :
  job.Logged { d with
    modules := (d.modules.appendText .root (Text.unlines lines)).setDoc .root doc } declared written
  := by
  have hgrowth : Growth job.graph d _ := .single (.write d lines hfree)
  have hdoc : Later { d with modules := d.modules.appendText .root (Text.unlines lines) }
      { d with modules := (d.modules.appendText .root (Text.unlines lines)).setDoc .root doc } :=
    { Later.refl _ with
      size := by simp
      path := by simp }
  apply (h.growth hgrowth).of_same_texts hdoc <;> simp

end Logged

namespace Accounted

theorem growth (h : job.Accounted d declared written) (hgrowth : Growth job.graph d e) :
  job.Accounted e declared written
  := by
  obtain ⟨htaken, hsynthesized⟩ := hgrowth.handed
  refine ⟨?_, hgrowth.registers h.registers, ?_⟩
  · rw [htaken]
    apply h.taken
  · rw [hsynthesized]
    apply h.synthesized

/-- No synthetic declaration that waits was written before. -/
theorem key_not_mem (h : job.Accounted d declared written) (hd : Consistent job.graph d)
    {synthetic : Synthetic} (hsynthetic : synthetic ∈ d.synthetics) :
  synthetic.key ∉ d.synthesized
  := by
  have hkey := h.registers.toQueues.key_not_mem hd.toDistinct hsynthetic
  rw [List.map_map] at hkey
  rw [h.synthesized, List.mem_reverse]
  apply hkey

end Accounted

/-- Along a run everything that was handed out is logged. -/
theorem Writes.logged (hwrites : job.Writes d e) (hd : Consistent job.graph d)
    (hlogged : job.Logged d declared written) (haccounted : job.Accounted d declared written) :
  ∃ declared written, job.Logged e declared written ∧ job.Accounted e declared written
  := by
  cases hwrites with
  | @declaration declaration rest htake hexec =>
      obtain ⟨m, lines, d', hrender, rfl⟩ := writeDeclaration_eq_ok hexec
      have hsteady := job.render_steady declaration
      have hgrowth := hsteady.growth hrender
      have htaken := hd.take htake
      have hgrown := hgrowth.consistent htaken
      obtain ⟨id, howner, hplace⟩ := job.render_eq_ok htaken.toPlaced hrender
      use declared ++ [(declaration, m, lines)], written
      constructor
      · apply ((hlogged.of_same_texts (later_take htake) rfl rfl rfl).growth hgrowth).write
          hgrown.toPlaced (hsteady.settled htaken.toPlaced hrender) howner hplace
          (hgrown.place_ne id m hplace).2
      · have haccounted' := hgrowth.registers (d := { d with declarations := rest })
          { haccounted.registers with }
        refine ⟨?_, { haccounted' with }, hgrowth.handed.2.trans haccounted.synthesized⟩
        rw [List.map_append, haccounted.taken, hgrowth.handed.1,
          (Worklist.take?_eq_some htake).2]
        rfl
  | @synthetic synthetic rest htake hqueue hexec =>
      have hkey : synthetic.key ∉ d.synthesized := by
        apply haccounted.key_not_mem hd
        rw [hqueue]
        apply List.mem_cons_self
      obtain ⟨-, lines, d', hlines, rfl⟩ :=
        (writeSynthetic_eq_ok hexec).resolve_left fun h => hkey h.1
      have hsteady := job.syntheticLines_steady synthetic
      have hgrowth := hsteady.growth hlines
      have hmarked : Consistent job.graph { d with
          synthetics := rest, synthesized := synthetic.key :: d.synthesized } := { hd with }
      have hlater : Later d { d with
          synthetics := rest, synthesized := synthetic.key :: d.synthesized } :=
        { Later.refl d with }
      use declared, written ++ [(synthetic, lines)]
      constructor
      · apply ((hlogged.of_same_texts hlater rfl rfl rfl).growth hgrowth).writeSynthetic
          (hgrowth.consistent hmarked).toFounded (hsteady.settled hmarked.toPlaced hlines)
      · have hregisters : Registers job.graph
            { d with synthetics := rest, synthesized := synthetic.key :: d.synthesized }
            ((written ++ [(synthetic, lines)]).map (·.1) ++ rest) := by
          have h := haccounted.registers
          rw [hqueue] at h
          rw [List.map_append, List.append_assoc]
          exact { h with }
        have hregisters' := hgrowth.registers hregisters
        refine ⟨haccounted.taken.trans hgrowth.handed.1.symm, { hregisters' with }, ?_⟩
        rw [List.map_append, List.reverse_append, ← haccounted.synthesized]
        apply hgrowth.handed.2

/-- At the start nothing is written. -/
theorem logged_start (job : Job) : job.Logged .start [] [] ∧ job.Accounted .start [] [] := by
  have htexts (m : ModuleId) : Draft.start.modules.texts m = [] := by
    simp only [Draft.start, firstModules, ModuleTree.texts_setDoc, ModuleTree.texts_setOrigin,
      ModuleTree.texts_addChild]
    obtain ⟨index⟩ := m
    cases index <;> rfl
  constructor
  · constructor
    · intro entry hentry
      cases hentry
    · intro entry hentry
      cases hentry
    · intro m _ _
      apply htexts
    · intro entry hentry
      cases hentry
    · apply htexts
  · refine ⟨rfl, ⟨⟨rfl, rfl⟩, ?_⟩, rfl⟩
    intro name id variants hmem
    cases hmem

/-- Every draft of a run has a log of all that was handed out. -/
theorem Reaches.logged
    (hfirst : ∀ declaration ∈ job.firstDeclarations, job.graph.Declares declaration)
    (h : job.Reaches d) :
  ∃ declared written, job.Logged d declared written ∧ job.Accounted d declared written
  := by
  induction h with
  | start hplace hrequest =>
      have hgrowth := (job.place_steady _).growth hplace
      have hrequests := requests_growth hfirst (hgrowth.consistent (consistent_start _)) hrequest
      obtain ⟨hlogged, haccounted⟩ := logged_start job
      use [], [], (hlogged.growth hgrowth).growth hrequests
      apply (haccounted.growth hgrowth).growth hrequests
  | step hreaches hwrites ih =>
      obtain ⟨declared, written, hlogged, haccounted⟩ := ih
      apply hwrites.logged (hreaches.consistent hfirst) hlogged haccounted
  | @surface http d e hreaches _ _ _ hexec ih =>
      obtain ⟨declared, written, hlogged, haccounted⟩ := ih
      have hd := (hreaches.consistent hfirst).toFounded
      have hgrowth := (job.writeSurface_extends http).growth hd hexec
      exact ⟨declared, written, hlogged.growth hgrowth, haccounted.growth hgrowth⟩

end Job

/-! ### The whole run -/

/-- The first declarations of a linked graph exist. -/
theorem TypeGraph.Linked.declares_first {job : Job} (h : job.graph.Linked) :
  ∀ declaration ∈ job.firstDeclarations, job.graph.Declares declaration
  := by
  intro declaration hdeclaration
  obtain ⟨id, -, hdeclaration⟩ := List.mem_flatMap.mp hdeclaration
  rw [Job.firstOfNamespace] at hdeclaration
  split at hdeclaration
  case h_1 => cases hdeclaration
  case h_2 ns hns =>
    rcases List.mem_append.mp hdeclaration with hmem | hmem
    · obtain ⟨type, htype, rfl⟩ := List.mem_map.mp hmem
      have hlisted : type ∈ job.graph.declarationsOf id := by
        rw [declarationsOf, hns]
        apply (List.mem_filter.mp htype).1
      rw [h.mem_declarations] at hlisted
      obtain ⟨kind, hkind, -⟩ := Option.bind_eq_some_iff.mp hlisted
      apply declares_of_kind? hkind
    · split at hmem
      case isTrue => cases hmem
      case isFalse =>
        obtain rfl := List.mem_singleton.mp hmem
        apply (List.getElem?_eq_some_iff.mp hns).1

/-- The job of compiling a schema. -/
def Schema.job (schema : Schema) (config : Config) : Job :=
  { graph := schema.graph, service := schema.service, config := config }

namespace Job

variable (job : Job)

/-- The text of a synthetic declaration, rendered on a draft. -/
def syntheticTextOf (d : Draft) (synthetic : Synthetic) : Option String :=
  match (exec (job.syntheticLines synthetic) d).1 with
  | .ok lines => some (Text.unlines lines)
  | .error _ => none

/-- The root module is written and documented last. -/
theorem writeRoot_eq_ok {job : Job} {m : ModuleId} {d e : Draft}
    (h : exec (job.writeRoot m) d = (.ok (), e)) :
  ∃ lines doc, e = { d with
    modules := (d.modules.appendText .root (Text.unlines lines)).setDoc .root doc }
  := by
  rw [writeRoot, exec_bind_of_ok (exec_pathOf m d)] at h
  split at h
  case h_1 => cases h
  case h_2 =>
    cases h
    exact ⟨_, _, rfl⟩

/-- A run that succeeds ends with a consistent draft in which nothing waits and everything is
logged. -/
theorem run_logged (hlinked : job.graph.Linked) {draft : Draft}
    (hrun : exec job.run .start = (.ok (), draft)) :
  Consistent job.graph draft ∧ draft.IsComplete
    ∧ ∃ declared written, job.Logged draft declared written ∧ job.Accounted draft declared written
  := by
  have hfirst := hlinked.declares_first
  obtain ⟨d, m, hreaches, hcomplete, hroot, -⟩ := run_eq_ok hfirst hrun
  have hd := hreaches.consistent hfirst
  obtain ⟨declared, written, hlogged, haccounted⟩ := hreaches.logged hfirst
  obtain ⟨lines, doc, rfl⟩ := writeRoot_eq_ok hroot
  have hfree : d.IsFree .root := by
    refine ⟨Nat.zero_lt_of_lt hd.synthetic_lt, by decide, ?_⟩
    intro id hid
    apply (hd.place_ne id _ hid).1 rfl
  refine ⟨hd.withModules (by simp), hcomplete, declared, written, ?_, ?_⟩
  · apply hlogged.writeRoot hfree
  · exact { haccounted with registers := { haccounted.registers with } }

variable {job}

theorem syntheticTextOf_eq_some {d : Draft} {synthetic : Synthetic} {lines : List String}
    (h : Settled (job.syntheticLines synthetic) d lines) :
  job.syntheticTextOf d synthetic = some (Text.unlines lines)
  := by
  obtain ⟨_, hexec⟩ := h d (Later.refl d)
  rw [syntheticTextOf, hexec]

/-- The texts of the module of synthetic declarations are the renderings of those that were
written. -/
theorem Logged.map_synthetic_texts {d : Draft}
    {declared : List (DeclarationRef × ModuleId × List String)}
    {written : List (Synthetic × List String)} (h : job.Logged d declared written) :
  (d.modules.texts .synthetic).map some = (written.map (·.1)).map (job.syntheticTextOf d)
  := by
  rw [h.synthetic_texts, List.map_map, List.map_map]
  apply List.map_congr_left
  intro entry hentry
  symm
  apply syntheticTextOf_eq_some (h.synthetic_rendered entry hentry)

/-- A namespace with two records and an operation that returns a union; a record without a name
stands between the first record and itself. -/
def petGraph : TypeGraph := {
  namespaces := [
    { name := "" },
    { name := "Pets"
      parent := some .global
      operations := [{ name := "get", returnType := ⟨3⟩ }] }]
  types := [
    { kind := .record {
        name := some "Pet", owner := some ⟨1⟩, fields := [{ name := "tag", type := ⟨1⟩ }] } },
    { kind := .record { fields := [{ name := "next", type := ⟨0⟩, optional := true }] } },
    { kind := .record { name := some "Lost", owner := some ⟨1⟩, error := true } },
    { kind := .union {
        variants := [⟨some "pet", ⟨0⟩⟩, ⟨some "tag", ⟨1⟩⟩, ⟨some "lost", ⟨2⟩⟩] } }] }

end Job

end ServiceBindings
