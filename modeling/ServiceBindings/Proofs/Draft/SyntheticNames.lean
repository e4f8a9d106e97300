import ServiceBindings.Proofs.Draft.Emission
import ServiceBindings.Proofs.Draft.History

/-!
# Names of synthetic declarations

In whatever order a session is asked for things, and wherever it fails, synthetic declarations have
different names, which they keep.  What waits to be written and what was written carries the name
that is registered for it.  That is kept by every step of a history, since a step names what it
queues, and hands out what waits first.
-/

namespace ServiceBindings

open Draft Drafting

/-- An entry is found if its key is that of no other entry. -/
theorem lookup_of_mem {α β : Type} [BEq α] [LawfulBEq α] {entries : List (α × β)} {key : α}
    {value : β} (hnodup : (entries.map (·.1)).Nodup) (hmem : (key, value) ∈ entries) :
  entries.lookup key = some value
  := by
  obtain ⟨before, after, rfl⟩ := List.append_of_mem hmem
  rw [List.lookup_eq_some_iff]
  refine ⟨before, after, rfl, ?_⟩
  intro entry hentry
  rw [List.map_append, List.nodup_append] at hnodup
  have hne := hnodup.2.2 entry.1 (List.mem_map_of_mem hentry) key List.mem_cons_self
  simpa using hne.symm

namespace Draft

variable {graph : TypeGraph} {d e : Draft} {handed : List Synthetic}

/-- Whether a synthetic declaration has the name that is registered for it. -/
def Carries (d : Draft) : Synthetic → Prop
  | .anonymous name id => d.anonymous.lookup id = some name
  | .subset name union _ => ∃ base, d.subsets.lookup (union, base) = some name

/-- What was queued carries its name. -/
theorem Queues.carries {queued : List Synthetic} (h : d.Queues queued) (hd : Distinct d) :
  ∀ synthetic ∈ queued, d.Carries synthetic
  := by
  intro synthetic hsynthetic
  cases synthetic with
  | anonymous name id =>
      have hmem : (id, name) ∈ queued.filterMap (·.asAnonymous?) :=
        List.mem_filterMap.mpr ⟨_, hsynthetic, rfl⟩
      rw [h.anonymous, List.mem_reverse] at hmem
      apply lookup_of_mem hd.anonymous_nodup hmem
  | subset name union variants =>
      have hmem : (union, name) ∈ queued.filterMap (·.asSubset?) :=
        List.mem_filterMap.mpr ⟨_, hsynthetic, rfl⟩
      rw [h.subsets, List.mem_reverse] at hmem
      obtain ⟨⟨⟨_, base⟩, _⟩, hentry, heq⟩ := List.mem_map.mp hmem
      cases heq
      use base
      apply lookup_of_mem hd.subsets_nodup hentry

/-! ### What was handed out -/

/-- Whether certain synthetic declarations were handed out, and with those that wait are all that
were named. -/
structure Hands (d : Draft) (handed : List Synthetic) : Prop
    extends Distinct d, Queues d (handed ++ d.synthetics) where
  synthesized : d.synthesized = (handed.map (·.key)).reverse

namespace Hands

theorem start : Hands .start [] where
  toDistinct := (consistent_start ⟨[], []⟩).toDistinct
  anonymous := rfl
  subsets := rfl
  synthesized := rfl

theorem nameSubset (h : d.Hands handed) {union : TypeId} {base : String}
    (hnew : d.subsets.lookup (union, base) = none) (variants : List Nat) :
  (d.nameSubset union variants base).2.Hands handed where
  toDistinct := h.toDistinct.nameSubset hnew variants
  toQueues := h.toQueues.nameSubset union variants base
  synthesized := h.synthesized

/-- What waits was not handed out. -/
theorem key_not_mem (h : d.Hands handed) {synthetic : Synthetic} {rest : List Synthetic}
    (hqueue : d.synthetics = synthetic :: rest) :
  synthetic.key ∉ d.synthesized
  := by
  rw [h.synthesized, List.mem_reverse]
  apply h.toQueues.key_not_mem h.toDistinct
  rw [hqueue]
  apply List.mem_cons_self

/-- What waits first can be handed out. -/
theorem handOut (h : d.Hands handed) {synthetic : Synthetic} {rest : List Synthetic}
    (hqueue : d.synthetics = synthetic :: rest) :
  Hands { d with synthetics := rest, synthesized := synthetic.key :: d.synthesized }
    (handed ++ [synthetic])
  := by
  have hqueues := h.toQueues
  rw [hqueue] at hqueues
  refine { h with toQueues := ?_, synthesized := ?_ }
  · rw [List.append_assoc]
    exact { hqueues with }
  · rw [List.map_append, List.reverse_append, ← h.synthesized]
    rfl

end Hands

/-- A change hands out nothing. -/
theorem Change.hands (hchange : Change graph d e) (h : d.Hands handed) : e.Hands handed := by
  cases hchange with
  | nameAnonymous _ hnew _ =>
      exact ⟨h.toDistinct.nameAnonymous hnew _, h.toQueues.nameAnonymous _ _, h.synthesized⟩
  | nameSubset _ hnew => apply h.nameSubset hnew
  | openModule hid _ =>
      rw [openModule_of_new hid]
      exact { h with }
  | _ => exact { h with }

theorem Growth.hands (hgrowth : Growth graph d e) (h : d.Hands handed) : e.Hands handed := by
  induction hgrowth with
  | refl => apply h
  | tail _ hchange ih => apply hchange.hands ih

/-- Whether a property of a draft and of what was handed out says at least that these are all that
were named, and is kept while the draft grows, is written, and hands out what waits. -/
structure IsAccount (graph : TypeGraph) (K : Draft → List Synthetic → Prop) : Prop where
  hands : ∀ {d handed}, K d handed → d.Hands handed
  growth : ∀ {d e handed}, Growth graph d e → K d handed → K e handed
  declarations : ∀ {d handed} (declarations : Worklist DeclarationRef), K d handed →
    K { d with declarations := declarations } handed
  modules : ∀ {d handed} (modules : ModuleTree), K d handed → K { d with modules := modules } handed
  handOut : ∀ {d handed synthetic rest}, K d handed → d.synthetics = synthetic :: rest →
    K { d with synthetics := rest, synthesized := synthetic.key :: d.synthesized }
      (handed ++ [synthetic])

theorem isAccount_hands (graph : TypeGraph) : IsAccount graph Hands where
  hands h := h
  growth hgrowth h := hgrowth.hands h
  declarations _ h := { h with }
  modules _ h := { h with }
  handOut h hqueue := h.handOut hqueue

end Draft

/-! ### What was written -/

namespace Job

variable (job : Job)

/-- Whether there is an account of what was handed out, and the synthetic declarations that were
written are among those, in the same order. -/
def Renders (K : Draft → List Synthetic → Prop) (d : Draft) : Prop :=
  ∃ handed declared written, K d handed ∧ job.Logged d declared written
    ∧ (written.map (·.1)).Sublist handed

variable {job} {d e : Draft}

/-- No namespace has the module of synthetic declarations. -/
theorem Session.place_ne_synthetic (h : job.Session d) {id : NamespaceId} {m : ModuleId}
    (hm : d.moduleOf? id = some m) :
  m ≠ .synthetic
  := by
  rintro rfl
  have hanchored := Session.anchored h
  have hpath := hanchored.place_path id _ hm
  rw [hanchored.synthetic_path] at hpath
  injection hpath with hparts
  injection hparts with _ hparts
  injection hparts with hall _
  revert hall
  decide

/-- No namespace has the root module. -/
theorem Session.isFree_root (h : job.Session d) : d.IsFree .root := by
  have hanchored := Session.anchored h
  refine ⟨Nat.zero_lt_of_lt hanchored.synthetic_lt, by decide, ?_⟩
  intro id hm
  have hpath := hanchored.place_path id _ hm
  rw [h.later.path .root (by decide)] at hpath
  cases hpath

namespace Renders

variable {K : Draft → List Synthetic → Prop} (hK : IsAccount job.graph K)
include hK

/-- Growth writes no declarations. -/
theorem growth (h : job.Renders K d) (hgrowth : Growth job.graph d e) : job.Renders K e := by
  obtain ⟨handed, declared, written, hkept, hlogged, hsublist⟩ := h
  exact ⟨handed, declared, written, hK.growth hgrowth hkept, hlogged.growth hgrowth, hsublist⟩

/-- A request writes no declarations. -/
theorem request (h : job.Renders K d) (declaration : DeclarationRef) :
  job.Renders K { d with declarations := d.declarations.add declaration }
  := by
  obtain ⟨handed, declared, written, hkept, hlogged, hsublist⟩ := h
  exact ⟨handed, declared, written, hK.declarations _ hkept,
    hlogged.of_same_texts (later_request d declaration) rfl rfl rfl, hsublist⟩

/-- The lines of a declaration are written into the module of its namespace. -/
theorem declaration (h : job.Renders K d) (hd : job.Session d)
    {declaration : DeclarationRef} {rest : Worklist DeclarationRef}
    (htake : d.declarations.take? = some (declaration, rest)) :
  job.Renders K (exec (job.writeDeclaration declaration) { d with declarations := rest }).2
  := by
  obtain ⟨handed, declared, written, hkept, hlogged, hsublist⟩ := h
  have htaken : job.Renders K { d with declarations := rest } :=
    ⟨handed, declared, written, hK.declarations rest hkept,
      hlogged.of_same_texts (later_take htake) rfl rfl rfl, hsublist⟩
  have hsession : job.Session { d with declarations := rest } := hd.tail (.turn (.take htake))
  have hsteady := job.render_steady declaration
  rw [writeDeclaration_eq, exec_bind]
  rcases hexec : exec (job.render declaration) { d with declarations := rest } with ⟨outcome, e⟩
  have hgrowth := hsteady.growth hexec
  cases outcome with
  | error error => apply htaken.growth hK hgrowth
  | ok rendered =>
      obtain ⟨m, lines⟩ := rendered
      have he : job.Session e := hsession.trans hgrowth.moves
      have hplaced := (Session.anchored hsession).toPlaced
      obtain ⟨id, howner, hplace⟩ := job.render_eq_ok hplaced hexec
      obtain ⟨handed, declared, written, hkept, hlogged, hsublist⟩ := htaken.growth hK hgrowth
      refine ⟨handed, declared ++ [(declaration, m, lines)], written,
        hK.modules _ hkept, ?_, hsublist⟩
      apply hlogged.write (hgrowth.placed hplaced) (hsteady.settled hplaced hexec) howner hplace
        (Session.place_ne_synthetic he hplace)

/-- A synthetic declaration that waits first is handed out, and its lines are written unless it
fails. -/
theorem synthetic (h : job.Renders K d) (hd : job.Session d) {synthetic : Synthetic}
    {rest : List Synthetic} (hqueue : d.synthetics = synthetic :: rest) :
  job.Renders K (exec (job.writeSynthetic synthetic) { d with synthetics := rest }).2
  := by
  obtain ⟨handed, declared, written, hkept, hlogged, hsublist⟩ := h
  have hlater : Later d { d with
      synthetics := rest, synthesized := synthetic.key :: d.synthesized } :=
    { Later.refl d with }
  -- It counts as handed out before its lines are found, so also if they are not.
  have hmarked := hK.handOut hkept hqueue
  have hfounded : Founded { d with
      synthetics := rest, synthesized := synthetic.key :: d.synthesized } :=
    { (Session.anchored hd).toFounded with }
  have hsteady := job.syntheticLines_steady synthetic
  rw [writeSynthetic, exec_get_bind, if_neg ((hK.hands hkept).key_not_mem hqueue)]
  change job.Renders K (exec (job.syntheticLines synthetic >>= Drafting.write .synthetic)
    { d with synthetics := rest, synthesized := synthetic.key :: d.synthesized }).2
  rw [exec_bind]
  rcases hexec : exec (job.syntheticLines synthetic)
    { d with synthetics := rest, synthesized := synthetic.key :: d.synthesized } with ⟨outcome, e⟩
  have hgrowth := hsteady.growth hexec
  have hlogged := (hlogged.of_same_texts hlater rfl rfl rfl).growth hgrowth
  cases outcome with
  | error error =>
      exact ⟨handed ++ [synthetic], declared, written, hK.growth hgrowth hmarked, hlogged,
        hsublist.trans (List.sublist_append_left _ _)⟩
  | ok lines =>
      refine ⟨handed ++ [synthetic], declared, written ++ [(synthetic, lines)],
        hK.modules _ (hK.growth hgrowth hmarked), ?_, ?_⟩
      · apply hlogged.writeSynthetic (hgrowth.founded hfounded)
          (hsteady.settled hfounded.toPlaced hexec)
      · rw [List.map_append]
        apply hsublist.append (List.Sublist.refl _)

/-- What is written into the root module is no declaration. -/
theorem root (h : job.Renders K d) (hd : job.Session d) (m : ModuleId) :
  job.Renders K (exec (job.writeRoot m) d).2
  := by
  rw [writeRoot, exec_bind_of_ok (exec_pathOf m d)]
  split
  case h_1 => apply h
  case h_2 =>
    obtain ⟨handed, declared, written, hkept, hlogged, hsublist⟩ := h
    exact ⟨handed, declared, written, hK.modules _ (hK.modules _ hkept),
      hlogged.writeRoot hd.isFree_root _ _, hsublist⟩

end Renders

/-- A step of a session writes what it hands out. -/
theorem Proceeds.renders (hstep : job.Proceeds d e) (hd : job.Session d)
    (h : job.Renders Hands d) :
  job.Renders Hands e
  := by
  have hK := isAccount_hands job.graph
  cases hstep with
  | grow hgrowth => apply h.growth hK hgrowth
  | declaration htake => apply h.declaration hK hd htake
  | synthetic hqueue => apply h.synthetic hK hd hqueue
  | root m => apply h.root hK hd m
  | request declaration => apply h.request hK
  | nameSubset variants hnew =>
      obtain ⟨handed, declared, written, hhands, hlogged, hsublist⟩ := h
      exact ⟨handed, declared, written, hhands.nameSubset hnew variants,
        hlogged.of_same_texts (later_nameSubset hnew variants) rfl rfl rfl, hsublist⟩
  | split split hnew =>
      obtain ⟨handed, declared, written, hhands, hlogged, hsublist⟩ := h
      exact ⟨handed, declared, written, { hhands with },
        hlogged.of_same_texts (later_split hnew split) rfl rfl rfl, hsublist⟩

theorem History.renders (h : job.History .start d) : job.Renders Hands d := by
  induction h with
  | refl =>
      exact ⟨[], [], [], Hands.start, (logged_start job).1, List.Sublist.refl _⟩
  | tail hhistory hstep ih => apply hstep.renders (History.moves hhistory) ih

/-! ### The first name -/

/-- A type without a name that has none yet is named as preferred. -/
theorem exec_anonymousName_of_new {id : TypeId} {preferred : String}
    (hnew : d.anonymous.lookup id = none) (hwords : (Words.parse preferred).isEmpty = false) :
  exec (anonymousName id preferred) d
    = (.ok (d.nameAnonymous id preferred).1, (d.nameAnonymous id preferred).2)
  := by
  rw [anonymousName, exec_get_bind, hnew]
  dsimp only
  rw [if_neg (by simp [hwords])]
  rfl

/-- The first reference to a type without a name names it. -/
theorem exec_spellCore_of_new {id : TypeId} {kind : TypeKind} {preferred : String}
    (hkind : job.graph.kind? id = some kind) (hreference : kind.isReference = true)
    (hname : kind.declaredName = none) (hnew : d.anonymous.lookup id = none)
    (hwords : (Words.parse preferred).isEmpty = false) (span : Option Span) (use : TypeUse)
    (path : ModulePath) :
  ∃ text, exec (job.spellCore id span use path preferred) d
    = (.ok text, (d.nameAnonymous id preferred).2)
  := by
  have hspelled : exec (spellAnonymous id path preferred) d
      = (.ok _, (d.nameAnonymous id preferred).2) :=
    exec_bind_of_ok (exec_anonymousName_of_new hnew hwords) _
  have hcore : job.spellCore id span use path preferred
      = spellAnonymous id path preferred >>= fun text => pure (referenceFor use text) := by
    unfold spellCore
    rw [hkind]
    cases kind with
    | record _ | union _ =>
        dsimp only
        rw [hname]
        rfl
    | enum _ | interface _ => cases hname
    | _ => cases hreference
  rw [hcore, exec_bind_of_ok hspelled]
  exact ⟨_, rfl⟩

/-- The first type around a type without a name decides on its name. -/
theorem lookup_spell_of_new {id core : TypeId} {wrappers : List Wrapper} {kind : TypeKind}
    {preferred : String} (hunwrap : job.graph.unwrap id = some (wrappers, core))
    (hkind : job.graph.kind? core = some kind) (hreference : kind.isReference = true)
    (hname : kind.declaredName = none) (hnew : d.anonymous.lookup core = none)
    (hwords : (Words.parse (wrappers.foldl (fun name wrapper => wrapper.partName name)
      preferred)).isEmpty = false)
    (span : Option Span) (use : TypeUse) (path : ModulePath) :
  (exec (job.spell id span use path preferred) d).2.anonymous.lookup core
    = some (d.syntheticNames.nameFor (Identifier.typeName
        (wrappers.foldl (fun name wrapper => wrapper.partName name) preferred)))
  := by
  unfold spell
  rw [hunwrap]
  cases wrappers with
  | nil =>
      obtain ⟨text, hexec⟩ := exec_spellCore_of_new hkind hreference hname hnew hwords span use path
      rw [List.foldl_nil] at hexec ⊢
      dsimp only
      rw [hexec]
      apply List.lookup_cons_self
  | cons wrapper rest =>
      obtain ⟨text, hexec⟩ :=
        exec_spellCore_of_new hkind hreference hname hnew hwords span .owned path
      dsimp only
      rw [exec_bind_of_ok hexec]
      apply List.lookup_cons_self

/-- Synthetic names never clash: whatever a session was asked for, the names of types without a name
and of subsets are different and taken, and each keeps its name, which for a type without a name is
the one that was asked for first.  What was handed out, in the order of `handed`, and what waits are
the declarations that were named, each with the name that is registered for it; and the texts of the
module of synthetic declarations are the renderings of some that were handed out. -/
theorem synthetic_names_distinct (job : Job) (calls : List Call) {d : Draft}
    (hd : job.replay calls .start = d) :
  (d.anonymous.map (·.2) ++ d.subsets.map (·.2)).Nodup
  ∧ (∀ name ∈ d.anonymous.map (·.2) ++ d.subsets.map (·.2), name ∈ d.syntheticNames.taken)
  ∧ (∀ later,
      (∀ id name, d.anonymous.lookup id = some name →
        (job.replay later d).anonymous.lookup id = some name)
      ∧ ∀ key name, d.subsets.lookup key = some name →
        (job.replay later d).subsets.lookup key = some name)
  ∧ (∀ id wrappers core kind, job.graph.unwrap id = some (wrappers, core) →
      job.graph.kind? core = some kind → kind.isReference = true → kind.declaredName = none →
      d.anonymous.lookup core = none → ∀ span use path preferred name,
      name = wrappers.foldl (fun name wrapper => wrapper.partName name) preferred →
      (Words.parse name).isEmpty = false → ∀ later,
      (job.replay (.spell id span use path preferred :: later) d).anonymous.lookup core
        = some (d.syntheticNames.nameFor (Identifier.typeName name)))
  ∧ ∃ handed : List Synthetic,
      d.synthesized = (handed.map (·.key)).reverse
      ∧ (handed ++ d.synthetics).filterMap (·.asAnonymous?) = d.anonymous.reverse
      ∧ (handed ++ d.synthetics).filterMap (·.asSubset?)
        = (d.subsets.map fun entry => (entry.1.1, entry.2)).reverse
      ∧ (∀ synthetic ∈ handed ++ d.synthetics, d.Carries synthetic)
      ∧ ∃ rendered : List Synthetic, rendered.Sublist handed
        ∧ (d.modules.texts .synthetic).map some = rendered.map (job.syntheticTextOf d)
  := by
  have hhistory : job.History .start d := by
    rw [← hd]
    apply job.history_replay calls founded_start
  have hfounded := hhistory.founded founded_start
  obtain ⟨handed, declared, written, hhands, hlogged, hsublist⟩ := hhistory.renders
  refine ⟨hhands.names_nodup, hhands.names_taken, ?_, ?_, handed, hhands.synthesized,
    hhands.anonymous, hhands.subsets, hhands.toQueues.carries hhands.toDistinct,
    written.map (·.1), hsublist, ?_⟩
  · intro later
    have hlater := (job.history_replay later hfounded).moves.later
    exact ⟨hlater.anonymous, hlater.subset⟩
  · rintro id wrappers core kind hunwrap hkind hreference hname hnew span use path preferred _ rfl
      hwords later
    have hcall : job.replay (.spell id span use path preferred :: later) d
        = job.replay later (exec (Call.perform job (.spell id span use path preferred)) d).2 := rfl
    have hstep := Call.history job (.spell id span use path preferred) d hfounded
    have hlater := (job.history_replay later (hstep.founded hfounded)).moves.later
    rw [hcall]
    apply hlater.anonymous
    rw [Call.perform, exec_bind_pure]
    apply lookup_spell_of_new hunwrap hkind hreference hname hnew hwords span use path
  · rw [hlogged.synthetic_texts, List.map_map, List.map_map]
    apply List.map_congr_left
    intro entry hentry
    symm
    apply syntheticTextOf_eq_some (hlogged.synthetic_rendered entry hentry)

/-- Three records and a union without names, and an array of the last record. -/
def tagGraph : TypeGraph := {
  namespaces := [{ name := "" }]
  types := [
    { kind := .record { fields := [{ name := "next", type := ⟨1⟩ }] } },
    { kind := .record {} },
    { kind := .union { variants := [⟨some "a", ⟨0⟩⟩, ⟨some "b", ⟨1⟩⟩, ⟨some "c", ⟨3⟩⟩] } },
    { kind := .record {} },
    { kind := .array ⟨3⟩ }] }

/-- The job over the graph of records without names. -/
def tagJob : Job := { graph := tagGraph, service := { root := .global }, config := {} }

/-- Two records and a subset ask for the same name, and one of them for another one later.  A type
that does not exist is asked for in between. -/
def tagCalls : List Call := [
  .spell ⟨0⟩ none .owned syntheticPath "tag", .spell ⟨1⟩ none .owned syntheticPath "tag",
  .spell ⟨9⟩ none .owned syntheticPath "tag", .subset ⟨2⟩ [0, 1] syntheticPath "tag",
  .spell ⟨0⟩ none .owned syntheticPath "label", .complete]

/-- The declarations that asked for the same name are numbered, and a record that is first seen in
an array is named after it. -/
theorem synthetic_names_distinct_tags :
  ∃ d, tagJob.replay tagCalls .start = d
    ∧ d.anonymous = [(⟨1⟩, "Tag2"), (⟨0⟩, "Tag")] ∧ d.subsets = [((⟨2⟩, "tag"), "Tag3")]
    ∧ ["Tag2", "Tag", "Tag3"].Nodup
    ∧ (∀ later, (tagJob.replay later d).anonymous.lookup ⟨0⟩ = some "Tag")
    ∧ (∀ later, (tagJob.replay (.spell ⟨4⟩ none .owned syntheticPath "tag" :: later)
        d).anonymous.lookup ⟨3⟩ = some "TagItem")
    ∧ d.synthesized = [(⟨2⟩, "Tag3"), (⟨1⟩, "Tag2"), (⟨0⟩, "Tag")]
  := by
  have hanonymous : (tagJob.replay tagCalls .start).anonymous = [(⟨1⟩, "Tag2"), (⟨0⟩, "Tag")] := by
    decide +kernel
  have hsubsets : (tagJob.replay tagCalls .start).subsets = [((⟨2⟩, "tag"), "Tag3")] := by
    decide +kernel
  have hname : (tagJob.replay tagCalls .start).syntheticNames.nameFor
      (Identifier.typeName (Wrapper.array.partName "tag")) = "TagItem" := by
    decide +kernel
  have hsynthesized : (tagJob.replay tagCalls .start).synthesized
      = [(⟨2⟩, "Tag3"), (⟨1⟩, "Tag2"), (⟨0⟩, "Tag")] := by
    decide +kernel
  generalize hd : tagJob.replay tagCalls .start = d at hanonymous hsubsets hname hsynthesized
  obtain ⟨hnodup, -, hkeep, hfirst, -⟩ := synthetic_names_distinct tagJob tagCalls hd
  rw [hanonymous, hsubsets] at hnodup
  refine ⟨d, rfl, hanonymous, hsubsets, hnodup, ?_, ?_, hsynthesized⟩
  · intro later
    apply (hkeep later).1
    rw [hanonymous]
    decide
  · intro later
    rw [← hname]
    apply hfirst ⟨4⟩ [.array] ⟨3⟩ (.record {})
    · decide +kernel
    · rfl
    · rfl
    · rfl
    · rw [hanonymous]
      decide
    · rfl
    · decide +kernel

end Job

end ServiceBindings
