import ServiceBindings.Proofs.Draft.Emission
import ServiceBindings.Proofs.Draft.SurfaceDemand

/-!
# A run accepts what is needed

The declarations that a successful run accepts are the roots and whatever they mention.  Nothing
else is accepted: along the run, each new target is asked for by one that is held already, or by the
HTTP surface, or it is a root.  And nothing is missed: at the end every held target was written, so
that the draft holds all that it asks for.
-/

namespace ServiceBindings

open Draft Drafting

/-! ### Targets of synthetic declarations -/

namespace Draft.Registers

variable {graph : TypeGraph} {d : Draft} {queued : List Synthetic}

/-- A synthetic declaration that was queued is that of a target that is held. -/
theorem holds (h : d.Registers graph queued) {synthetic : Synthetic} (hmem : synthetic ∈ queued) :
  ∃ target, synthetic.IsFor graph target ∧ d.Holds target
  := by
  cases synthetic with
  | anonymous name id =>
      have hentry : (id, name) ∈ d.anonymous := by
        rw [← List.mem_reverse, ← h.anonymous, List.mem_filterMap]
        exact ⟨_, hmem, rfl⟩
      use .anonymous id, .anonymous
      cases hlookup : d.anonymous.lookup id with
      | some found => exact ⟨found, hlookup⟩
      | none =>
          have hother := List.lookup_eq_none_iff.mp hlookup (id, name) hentry
          simp at hother
  | subset name id variants =>
      obtain ⟨base, hlookup, hreturned⟩ := h.returned name id variants hmem
      use .subset id base, .subset hreturned, name

/-- A type without a name that is held has its synthetic declaration. -/
theorem exists_anonymous (h : d.Registers graph queued) {id : TypeId}
    (hheld : d.Holds (.anonymous id)) :
  ∃ synthetic ∈ queued, synthetic.IsFor graph (.anonymous id)
  := by
  obtain ⟨name, hname⟩ := hheld
  have hentry : (id, name) ∈ queued.filterMap (·.asAnonymous?) := by
    rw [h.anonymous, List.mem_reverse]
    apply mem_of_lookup hname
  obtain ⟨synthetic, hmem, heq⟩ := List.mem_filterMap.mp hentry
  refine ⟨synthetic, hmem, ?_⟩
  cases synthetic with
  | anonymous name' id' =>
      cases heq
      apply Synthetic.IsFor.anonymous
  | subset _ _ _ => cases heq

/-- A subset that is held has its synthetic declaration. -/
theorem exists_subset (h : d.Registers graph queued) (hd : Distinct d) {id : TypeId}
    {base : String} (hheld : d.Holds (.subset id base)) :
  ∃ synthetic ∈ queued, synthetic.IsFor graph (.subset id base)
  := by
  obtain ⟨name, hname⟩ := hheld
  obtain ⟨variants, hmem, hreturned⟩ := h.exists_variants hd hname
  exact ⟨.subset name id variants, hmem, .subset hreturned⟩

end Draft.Registers

namespace Job

variable {job : Job} {d e : Draft}

/-! ### The first declarations -/

/-- The first declarations of a namespace are some that it lists, and its operations if there are
any. -/
theorem mem_firstOfNamespace (hlinked : job.graph.Linked) {ns : NamespaceId}
    {declaration : DeclarationRef} :
  declaration ∈ job.firstOfNamespace ns
    ↔ (∃ id, declaration = .type id ∧ job.graph.listing? id = some ns ∧ job.isFirst id = true)
      ∨ (declaration = .operations ns ∧ job.graph.operations (.group ns) ≠ [])
  := by
  simp only [← hlinked.mem_declarations, TypeGraph.declarationsOf, TypeGraph.operations]
  rw [firstOfNamespace]
  cases hns : job.graph.namespace? ns with
  | none => simp
  | some found =>
      simp only [Option.map_some, Option.getD_some, List.mem_append, List.mem_map,
        List.mem_filter]
      apply or_congr
      · constructor
        · rintro ⟨id, ⟨hid, hfirst⟩, rfl⟩
          use id
        · rintro ⟨id, rfl, hid, hfirst⟩
          use id
      · cases found.operations with
        | nil => simp
        | cons operation rest => simp

/-- A namespace with first declarations exists. -/
theorem lt_of_mem_firstOfNamespace {ns : NamespaceId} {declaration : DeclarationRef}
    (h : declaration ∈ job.firstOfNamespace ns) :
  ns.index < job.graph.namespaces.length
  := by
  rw [firstOfNamespace] at h
  split at h
  case h_1 => cases h
  case h_2 found hns => apply (List.getElem?_eq_some_iff.mp hns).1

/-- The first declarations are those of the namespaces below the root. -/
theorem mem_firstDeclarations (hlinked : job.graph.Linked) {declaration : DeclarationRef} :
  declaration ∈ job.firstDeclarations
    ↔ ∃ ns, job.graph.Descends job.service.root ns ∧ declaration ∈ job.firstOfNamespace ns
  := by
  rw [firstDeclarations, List.mem_flatMap]
  apply exists_congr
  intro ns
  apply and_congr_left
  intro h
  apply TypeGraph.mem_subtree_iff hlinked (lt_of_mem_firstOfNamespace h)

/-- The first declarations are roots. -/
theorem isRoot_of_mem_firstDeclarations (hlinked : job.graph.Linked)
    {declaration : DeclarationRef} (h : declaration ∈ job.firstDeclarations) :
  job.IsRoot declaration
  := by
  obtain ⟨ns, hns, hmem⟩ := (mem_firstDeclarations hlinked).mp h
  rcases (mem_firstOfNamespace hlinked).mp hmem with
    ⟨id, rfl, hlisting, hfirst⟩ | ⟨rfl, hoperations⟩
  · rw [isFirst] at hfirst
    split at hfirst
    case isTrue homit => apply IsRoot.interface homit hns hlisting hfirst
    case isFalse homit =>
      apply IsRoot.declaration (eq_false_of_ne_true homit) hns hlisting
      simpa using hfirst
  · apply IsRoot.operations hns hoperations

/-! ### Soundness -/

/-- At the start nothing is held. -/
theorem not_holds_start (target : Target) : ¬Draft.start.Holds target := by
  cases target with
  | declaration declaration => simp [Holds, Draft.start]
  | anonymous id => simp [Holds, Draft.start]
  | subset id base => simp [Holds, Draft.start]

/-- The first declarations are held at first, and nothing else. -/
theorem holds_first {m : ModuleId}
    (hfirst : ∀ declaration ∈ job.firstDeclarations, job.graph.Declares declaration)
    (hplace : exec (job.place job.service.root) .start = (.ok m, d))
    (hrequest : exec (job.firstDeclarations.forM request) d = (.ok (), e)) (target : Target) :
  e.Holds target ↔ ∃ declaration ∈ job.firstDeclarations, target = .declaration declaration
  := by
  have hrequests := Requests.forM fun declaration h => job.request_requests (hfirst declaration h)
  obtain ⟨hd, -, -, hnone⟩ := job.place_requests _ (consistent_start _) hplace
  obtain ⟨-, -, hholds, hnew⟩ := hrequests hd hrequest
  constructor
  · intro htarget
    apply (hnew target htarget).resolve_left
    intro hbefore
    rcases hnone target hbefore with hstart | hnothing
    · apply not_holds_start target hstart
    · cases hnothing
  · apply hholds target

/-- What writing one declaration asks for is asked for by a target that is held. -/
theorem Writes.holds (hdistinct : job.graph.DistinctOperations) (h : job.Writes d e)
    (hd : Consistent job.graph d) {declared : List (DeclarationRef × ModuleId × List String)}
    {written : List (Synthetic × List String)} (haccounted : job.Accounted d declared written) :
  ∃ source, d.Holds source
    ∧ ∀ target, e.Holds target → d.Holds target ∨ job.graph.Asks source target
  := by
  cases h with
  | @declaration declaration rest htake hexec =>
      obtain ⟨m, lines, d', hrender, rfl⟩ := writeDeclaration_eq_ok hexec
      obtain ⟨-, -, -, hnew⟩ := job.render_requests hdistinct declaration (hd.take htake) hrender
      refine ⟨.declaration declaration, ?_, ?_⟩
      · rw [Holds, ← Worklist.taken_append_pending, (Worklist.take?_eq_some htake).1]
        simp
      · intro target htarget
        apply (hnew target (htarget.of_kept rfl rfl rfl)).imp_left
        intro hbefore
        apply hbefore.of_kept (Worklist.items_take? htake) rfl rfl
  | @synthetic synthetic rest _ hqueue hexec =>
      have hmem : synthetic ∈ written.map (·.1) ++ d.synthetics := by
        rw [hqueue]
        simp
      obtain ⟨source, hsource, hheld⟩ := haccounted.registers.holds hmem
      refine ⟨source, hheld, ?_⟩
      rcases writeSynthetic_eq_ok hexec with ⟨-, rfl⟩ | ⟨-, lines, d', hlines, rfl⟩
      · intro target htarget
        apply Or.inl (htarget.of_kept rfl rfl rfl)
      · have hmarked : Consistent job.graph { d with
            synthetics := rest, synthesized := synthetic.key :: d.synthesized } := { hd with }
        obtain ⟨-, -, -, hnew⟩ := job.syntheticLines_requests hsource hmarked hlines
        intro target htarget
        apply (hnew target (htarget.of_kept rfl rfl rfl)).imp_left
        intro hbefore
        apply hbefore.of_kept rfl rfl rfl

/-- Whatever a run holds is justified by what is needed. -/
theorem Reaches.justified (hlinked : job.graph.Linked)
    (hdistinct : job.graph.DistinctOperations) (h : job.Reaches d) {target : Target}
    (htarget : d.Holds target) :
  job.graph.Justified job.Needed target
  := by
  have hfirst := hlinked.declares_first
  have hmention (declaration other : DeclarationRef) (h : job.Needed declaration)
      (hmentions : job.graph.Mentions declaration other) : job.Needed other :=
    Needed.mention h hmentions
  induction h generalizing target with
  | start hplace hrequest =>
      obtain ⟨declaration, hdeclaration, rfl⟩ :=
        (holds_first hfirst hplace hrequest target).mp htarget
      apply Needed.root (isRoot_of_mem_firstDeclarations hlinked hdeclaration)
  | step hreaches hwrites ih =>
      obtain ⟨_, _, -, haccounted⟩ := hreaches.logged hfirst
      obtain ⟨source, hsource, hnew⟩ :=
        hwrites.holds hdistinct (hreaches.consistent hfirst) haccounted
      rcases hnew target htarget with hbefore | hasks
      · apply ih hbefore
      · apply (ih hsource).of_asks hmention hasks
  | @surface http d e hreaches _ hhttp hconfig hexec ih =>
      obtain ⟨-, -, -, hnew⟩ :=
        job.writeSurface_requests hdistinct http (hreaches.consistent hfirst) hexec
      rcases hnew target htarget with hbefore | ⟨endpoint, hendpoint, hasks⟩
      · apply ih hbefore
      · obtain ⟨hmem, hoperation⟩ := Endpoint.operation_mem hendpoint
        have hcontainer := Needed.root (IsRoot.container hhttp hconfig hmem hoperation)
        rcases hasks with (rfl | ⟨parameter, hparameter, hspells⟩) | hasks
        · apply hcontainer
        · apply TypeGraph.justified_of_spells _ hspells
          intro other hnames
          apply Needed.root
          apply IsRoot.parameter hhttp hconfig hmem hoperation hparameter
            (TypeGraph.isValue_of_spells hspells) hnames
        · apply TypeGraph.justified_of_operationAsks _ hasks
          intro other hnames
          apply hcontainer.mention
          apply TypeGraph.Mentions.operation (TypeGraph.operation?_eq_some hoperation).1 hnames

/-! ### Completeness -/

/-- A step that is settled on a draft asks for nothing that the draft does not hold. -/
theorem Settled.holds {α : Type} {x : Drafting α} {a : α} {asked : Target → Prop}
    (h : Settled x d a) (hd : Consistent job.graph d) (hx : Requests job.graph asked asked x)
    {target : Target} (htarget : asked target) :
  d.Holds target
  := by
  obtain ⟨diagnostics, hexec⟩ := h d (Later.refl d)
  obtain ⟨-, -, hholds, -⟩ := hx hd hexec
  apply (hholds target htarget).of_kept rfl rfl rfl

/-- A draft in which nothing waits holds all that its targets ask for. -/
theorem closed_of_complete (hdistinct : job.graph.DistinctOperations)
    (hd : Consistent job.graph d) (hcomplete : d.IsComplete)
    {declared : List (DeclarationRef × ModuleId × List String)}
    {written : List (Synthetic × List String)} (hlogged : job.Logged d declared written)
    (haccounted : job.Accounted d declared written) :
  job.graph.Closed d.Holds
  := by
  have hregisters := haccounted.registers
  rw [hcomplete.2, List.append_nil] at hregisters
  -- A target with a synthetic declaration was written.
  have hwritten {target : Target}
      (h : ∃ synthetic ∈ written.map (·.1), synthetic.IsFor job.graph target) (other : Target)
      (hasks : job.graph.Asks target other) : d.Holds other := by
    obtain ⟨synthetic, hmem, hfor⟩ := h
    obtain ⟨entry, hentry, rfl⟩ := List.mem_map.mp hmem
    apply Settled.holds (hlogged.synthetic_rendered entry hentry) hd
      (job.syntheticLines_requests hfor) hasks
  intro target other hheld hasks
  cases target with
  | declaration declaration =>
      rw [Holds, ← Worklist.taken_append_pending, hcomplete.1, List.append_nil,
        ← haccounted.taken] at hheld
      obtain ⟨entry, hentry, rfl⟩ := List.mem_map.mp hheld
      apply Settled.holds (hlogged.rendered entry hentry) hd
        (job.render_requests hdistinct entry.1) hasks
  | anonymous id => apply hwritten (hregisters.exists_anonymous hheld) other hasks
  | subset id base => apply hwritten (hregisters.exists_subset hd.toDistinct hheld) other hasks

/-- The first declarations are held all along. -/
theorem Reaches.holds_first (hlinked : job.graph.Linked)
    (hdistinct : job.graph.DistinctOperations) (h : job.Reaches d) {declaration : DeclarationRef}
    (hdeclaration : declaration ∈ job.firstDeclarations) :
  d.Holds (.declaration declaration)
  := by
  have hfirst := hlinked.declares_first
  induction h with
  | start hplace hrequest =>
      apply (Job.holds_first hfirst hplace hrequest _).mpr ⟨declaration, hdeclaration, rfl⟩
  | step _ hwrites ih => apply hwrites.later.holds ih
  | @surface http d e hreaches _ _ _ hexec ih =>
      obtain ⟨-, hlater, -⟩ :=
        job.writeSurface_requests hdistinct http (hreaches.consistent hfirst) hexec
      apply hlater.holds ih

/-- A draft that is closed and holds the first declarations and what the endpoints need holds all
that is needed. -/
theorem holds_of_needed (hlinked : job.graph.Linked) (hclosed : job.graph.Closed d.Holds)
    (hfirst : ∀ declaration ∈ job.firstDeclarations, d.Holds (.declaration declaration))
    (hserved : ∀ http, job.service.http = some http → job.config.http = true →
      ∀ endpoint ∈ (Endpoint.collect job.graph http).1, ∀ target,
        job.graph.EndpointNeeds endpoint target → d.Holds target)
    {declaration : DeclarationRef} (h : job.Needed declaration) :
  d.Holds (.declaration declaration)
  := by
  have hlisted {ns : NamespaceId} {id : TypeId} (hns : job.graph.Descends job.service.root ns)
      (hlisting : job.graph.listing? id = some ns) (hid : job.isFirst id = true) :
      d.Holds (.declaration (.type id)) := by
    apply hfirst _ ((mem_firstDeclarations hlinked).mpr ⟨ns, hns, ?_⟩)
    apply (mem_firstOfNamespace hlinked).mpr (Or.inl ⟨id, rfl, hlisting, hid⟩)
  induction h with
  | root hroot =>
      cases hroot with
      | declaration homit hns hlisting hscalar =>
          apply hlisted hns hlisting
          simp [isFirst, homit, hscalar]
      | interface homit hns hlisting hinterface =>
          apply hlisted hns hlisting
          simp [isFirst, homit, hinterface]
      | operations hns hoperations =>
          apply hfirst _ ((mem_firstDeclarations hlinked).mpr ⟨_, hns, ?_⟩)
          apply (mem_firstOfNamespace hlinked).mpr (Or.inr ⟨rfl, hoperations⟩)
      | container hhttp hconfig hmem hoperation =>
          obtain ⟨endpoint, hendpoint, rfl⟩ := Endpoint.exists_of_mem hmem hoperation
          apply hserved _ hhttp hconfig endpoint hendpoint _ (Or.inl rfl)
      | @parameter _ _ _ parameter _ hhttp hconfig hmem hoperation hparameter _ hnames =>
          obtain ⟨endpoint, hendpoint, rfl⟩ := Endpoint.exists_of_mem hmem hoperation
          apply hclosed.of_names hnames
          intro other hspells
          apply hserved _ hhttp hconfig endpoint hendpoint other
          apply Or.inr ⟨parameter, hparameter, hspells⟩
  | mention _ hmentions ih =>
      cases hmentions with
      | member hmember hnames =>
          apply hclosed.of_names hnames
          intro other hspells
          apply hclosed _ other ih (.member hmember hspells)
      | operation hoperation hnames =>
          apply hclosed.of_operationNames (TypeGraph.mem_everyOperation hoperation) hnames
          intro other hasks
          apply hclosed _ other ih (.operation hoperation hasks)

/-- The declarations that a successful run accepts are exactly those that are needed: the least set
that contains the roots and whatever its members mention. -/
theorem run_accepts_needed {graph : TypeGraph} {service : Service} {schema : Schema}
    (hschema : Schema.make graph service = .ok schema)
    (hdistinct : schema.graph.DistinctOperations) (config : Config) {draft : Draft}
    (hrun : exec (schema.job config).run .start = (.ok (), draft)) (declaration : DeclarationRef) :
  declaration ∈ draft.declarations.items ↔ (schema.job config).Needed declaration
  := by
  have hlinked : (schema.job config).graph.Linked := (Schema.linked_of_make hschema).1
  have hdeclares := hlinked.declares_first
  obtain ⟨d, m, hreaches, hcomplete, hroot, hsurface⟩ := run_eq_ok hdeclares hrun
  obtain ⟨lines, doc, rfl⟩ := writeRoot_eq_ok hroot
  constructor
  · intro haccepted
    have hheld : d.Holds (.declaration declaration) := haccepted
    apply hreaches.justified hlinked hdistinct hheld
  · intro hneeded
    have hd := hreaches.consistent hdeclares
    obtain ⟨declared, written, hlogged, haccounted⟩ := hreaches.logged hdeclares
    apply holds_of_needed hlinked
      (closed_of_complete hdistinct hd hcomplete hlogged haccounted) _ _ hneeded
    · intro first hfirst
      apply hreaches.holds_first hlinked hdistinct hfirst
    · intro http hhttp hconfig endpoint hendpoint target htarget
      obtain ⟨d₁, d₂, hbefore, hexec, hsteps⟩ := hsurface http hhttp hconfig
      obtain ⟨-, -, hholds, -⟩ := (schema.job config).writeSurface_requests hdistinct http
        (hbefore.consistent hdeclares) hexec
      apply (Writes.later_steps hsteps).holds (hholds target ⟨endpoint, hendpoint, htarget⟩)

/-- A shop with an operation that is exposed over HTTP.  Items lead back to themselves through a
record without a name; only the endpoint mentions the region, and nothing the last record. -/
def shopGraph : TypeGraph := {
  namespaces := [
    { name := "" },
    { name := "Shop"
      parent := some .global
      operations := [{
        name := "find", parameters := [{ name := "filters", type := ⟨6⟩ }], returnType := ⟨3⟩ }] }]
  types := [
    { kind := .record {
        name := some "Item", owner := some ⟨1⟩, fields := [{ name := "part", type := ⟨1⟩ }] } },
    { kind := .record { fields := [{ name := "whole", type := ⟨0⟩, optional := true }] } },
    { kind := .record { name := some "Missing", owner := some ⟨1⟩, error := true } },
    { kind := .union { variants := [⟨some "item", ⟨0⟩⟩, ⟨some "missing", ⟨2⟩⟩] } },
    { kind := .enum { name := "Region", owner := ⟨1⟩, members := [] } },
    { kind := .record { name := some "Filter", owner := some ⟨1⟩ } },
    { kind := .array ⟨5⟩ },
    { kind := .record { name := some "Forgotten", owner := some ⟨1⟩ } }] }

/-- The service of the shop. -/
def shopService : Service := {
  root := ⟨1⟩
  http := some {
    operations := [{
      operation := ⟨.group ⟨1⟩, "find"⟩, verb := .get, path := "/items"
      parameters := [⟨"filters", .query, ⟨6⟩, false⟩, ⟨"region", .header, ⟨4⟩, false⟩] }] } }

/-- The job of the shop, with only what is reachable. -/
def shopJob : Job := Schema.job ⟨shopGraph.link.1, shopService⟩ { omitUnreachable := true }

/-- The shop needs the filters and the region, but not the record that nothing mentions. -/
theorem run_accepts_needed_shop :
  (exec shopJob.run .start).1 = .ok () ∧ shopJob.Needed (.type ⟨5⟩) ∧ shopJob.Needed (.type ⟨4⟩)
    ∧ ¬shopJob.Needed (.type ⟨7⟩)
  := by
  have hschema : Schema.make shopGraph shopService = .ok ⟨shopGraph.link.1, shopService⟩ := by
    decide +kernel
  have hdistinct : shopGraph.link.1.DistinctOperations := by decide +kernel
  have hok : (exec shopJob.run .start).1 = .ok () := by decide +kernel
  have hneeded := run_accepts_needed hschema hdistinct { omitUnreachable := true }
    (exec_eq_of_ok hok)
  refine ⟨hok, (hneeded _).mp ?_, (hneeded _).mp ?_, fun h => absurd ((hneeded _).mpr h) ?_⟩
  · decide +kernel
  · decide +kernel
  · decide +kernel

end Job

end ServiceBindings
