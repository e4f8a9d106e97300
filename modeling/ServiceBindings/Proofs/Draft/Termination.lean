import ServiceBindings.Proofs.Draft.Emission
import ServiceBindings.Proofs.Draft.Tally
import ServiceBindings.Proofs.Draft.Traversal

/-!
# Every run ends

A run visits the namespaces of the service and then hands out what waits, one item after the other,
until nothing waits or a step fails.  This is stated here as a relation that knows no limits, so a
run that goes on forever is not in it.  A graph has only so many types, namespaces and operations:
what a run has handed out is bounded by their number, and what it may still hand out gets less with
each item.  So there is a run for each schema, and it is the one that is computed with limits.
-/

namespace ServiceBindings

open Draft Drafting

/-! ### What is handed out -/

/-- What waits to be written: a declaration or a synthetic one. -/
abbrev Item := DeclarationRef ⊕ Synthetic

namespace Draft

variable {graph : TypeGraph} {d e : Draft} {item : Item} {items : List Item}

/-- The oldest declaration is handed out, or the oldest synthetic one if no other waits. -/
inductive HandsOut : Draft → Item → Draft → Prop where
  | declaration {d : Draft} {declaration : DeclarationRef} {rest : Worklist DeclarationRef} :
      d.declarations.take? = some (declaration, rest) →
      HandsOut d (.inl declaration) { d with declarations := rest }
  | synthetic {d : Draft} {synthetic : Synthetic} {rest : List Synthetic} :
      d.declarations.take? = none → d.synthetics = synthetic :: rest →
      HandsOut d (.inr synthetic) { d with synthetics := rest }

theorem HandsOut.unique {item' : Item} {e' : Draft} (h : HandsOut d item e)
    (h' : HandsOut d item' e') :
  item = item' ∧ e = e'
  := by
  cases h with
  | declaration htake =>
      cases h' with
      | declaration htake' =>
          rw [htake] at htake'
          cases htake'
          exact ⟨rfl, rfl⟩
      | synthetic hnone _ =>
          rw [htake] at hnone
          cases hnone
  | synthetic hnone hqueue =>
      cases h' with
      | declaration htake =>
          rw [hnone] at htake
          cases htake
      | synthetic _ hqueue' =>
          rw [hqueue] at hqueue'
          cases hqueue'
          exact ⟨rfl, rfl⟩

/-- Nothing is handed out when nothing waits. -/
theorem HandsOut.not_isComplete (h : HandsOut d item e) : ¬d.IsComplete := by
  rintro ⟨hpending, hsynthetics⟩
  cases h with
  | declaration htake =>
      rw [Worklist.take?_eq_none.mpr hpending] at htake
      cases htake
  | synthetic _ hqueue =>
      rw [hsynthetics] at hqueue
      cases hqueue

/-- Something is handed out unless nothing waits. -/
theorem isComplete_or_handsOut (d : Draft) : d.IsComplete ∨ ∃ item e, HandsOut d item e := by
  cases htake : d.declarations.take? with
  | some taken =>
      right
      exact ⟨_, _, .declaration htake⟩
  | none =>
      cases hqueue : d.synthetics with
      | nil =>
          left
          use Worklist.take?_eq_none.mp htake
      | cons synthetic rest =>
          right
          exact ⟨_, _, .synthetic htake hqueue⟩

/-- Whether some items are those that were handed out on the way to a draft. -/
structure Ledger (graph : TypeGraph) (d : Draft) (items : List Item) : Prop where
  consistent : Consistent graph d
  tallied : Tallied graph d
  taken : d.declarations.taken = items.filterMap Sum.getLeft?
  registers : d.Registers graph (items.filterMap Sum.getRight? ++ d.synthetics)

namespace Ledger

theorem start (graph : TypeGraph) : Ledger graph .start [] where
  consistent := consistent_start graph
  tallied := tallied_start graph
  taken := rfl
  registers := ⟨⟨rfl, rfl⟩, fun _ _ _ h => nomatch h⟩

/-- Each type and each namespace is handed out as a declaration once at most. -/
theorem declarations_length_le (h : Ledger graph d items) :
  (items.filterMap Sum.getLeft?).length ≤ graph.types.length + graph.namespaces.length
  := by
  have haccepted := h.consistent.accepted_length_le
  rw [← Worklist.taken_append_pending, List.length_append, h.taken] at haccepted
  omega

/-- Each synthetic declaration that is handed out was named for a type, or for a side of what the
operations of a container and name return. -/
theorem synthetics_length_le (h : Ledger graph d items) :
  (items.filterMap Sum.getRight?).length
    ≤ graph.types.length + 2 * graph.operationRefs.dedup.length
  := by
  have hnames := h.registers.names_perm.length_eq
  have hanonymous := h.consistent.anonymous_length_le
  have hsubsets := h.tallied.subsets_length_le
  simp only [givenNames, List.length_map, List.length_append] at hnames
  omega

/-- Growth hands out nothing. -/
theorem growth (h : Ledger graph d items) (hgrowth : Growth graph d e)
    (htallied : Tallied graph e) :
  Ledger graph e items where
  consistent := hgrowth.consistent h.consistent
  tallied := htallied
  taken := hgrowth.handed.1.trans h.taken
  registers := hgrowth.registers h.registers

/-- Modules may be written as long as none goes away. -/
theorem withModules (h : Ledger graph d items) {modules : ModuleTree}
    (hsize : d.modules.size ≤ modules.size) :
  Ledger graph { d with modules := modules } items where
  consistent := h.consistent.withModules hsize
  tallied := { h.tallied with }
  taken := h.taken
  registers := { h.registers with }

/-- What is handed out is added at the end. -/
theorem handsOut (h : Ledger graph d items) (hout : HandsOut d item e) :
  Ledger graph e (items ++ [item])
  := by
  cases hout with
  | @declaration declaration rest htake =>
      refine ⟨h.consistent.take htake, { h.tallied with }, ?_, ?_⟩
      · rw [List.filterMap_append, ← h.taken]
        apply (Worklist.take?_eq_some htake).2
      · rw [List.filterMap_append]
        change Registers graph _ (_ ++ [] ++ d.synthetics)
        rw [List.append_nil]
        exact { h.registers with }
  | @synthetic synthetic rest _ hqueue =>
      refine ⟨{ h.consistent with }, { h.tallied with }, ?_, ?_⟩
      · rw [List.filterMap_append]
        change d.declarations.taken = _ ++ []
        rw [List.append_nil, h.taken]
      · have hregisters := h.registers
        rw [hqueue] at hregisters
        rw [List.filterMap_append, List.append_assoc]
        exact { hregisters with }

end Ledger

end Draft

/-! ### Courses -/

/-- The courses that a part of a run may take: the draft it begins with, the items it hands out, its
outcome and the draft it leaves. -/
abbrev Course (α : Type) :=
  Draft → List Item → Except CompileError α → Draft → Prop

namespace Course

variable {α β : Type}

/-- A step takes the course that it computes, and hands out nothing. -/
def of (x : Drafting α) : Course α :=
  fun d items outcome e => items = [] ∧ exec x d = (outcome, e)

/-- One part of a run is followed by another one unless it fails. -/
inductive Then (first : Course α) (next : α → Course β) :
    Draft → List Item → Except CompileError β → Draft → Prop where
  | error {d e : Draft} {items : List Item} {error : CompileError} :
      first d items (.error error) e → Then first next d items (.error error) e
  | ok {c d e : Draft} {items more : List Item} {a : α} {outcome : Except CompileError β} :
      first c items (.ok a) d → next a d more outcome e →
      Then first next c (items ++ more) outcome e

/-- Whether there is no choice between courses. -/
def IsSingle (course : Course α) : Prop :=
  ∀ ⦃d items outcome e items' outcome' e'⦄, course d items outcome e →
    course d items' outcome' e' → items = items' ∧ outcome = outcome' ∧ e = e'

theorem isSingle_of (x : Drafting α) : IsSingle (of x) := by
  rintro d items outcome e items' outcome' e' ⟨rfl, hexec⟩ ⟨rfl, hexec'⟩
  rw [hexec] at hexec'
  obtain ⟨houtcome, hdraft⟩ := Prod.mk.inj hexec'
  exact ⟨rfl, houtcome, hdraft⟩

theorem IsSingle.seq {first : Course α} {next : α → Course β} (hfirst : IsSingle first)
    (hnext : ∀ a, IsSingle (next a)) :
  IsSingle (first.Then next)
  := by
  intro d items outcome e items' outcome' e' h h'
  cases h with
  | error herror =>
      cases h' with
      | error herror' =>
          obtain ⟨hitems, houtcome, hdraft⟩ := hfirst herror herror'
          cases houtcome
          exact ⟨hitems, rfl, hdraft⟩
      | ok hok _ => cases (hfirst herror hok).2.1
  | ok hok hrest =>
      cases h' with
      | error herror => cases (hfirst hok herror).2.1
      | ok hok' hrest' =>
          obtain ⟨rfl, houtcome, rfl⟩ := hfirst hok hok'
          cases houtcome
          obtain ⟨rfl, houtcome, hdraft⟩ := hnext _ hrest hrest'
          exact ⟨rfl, houtcome, hdraft⟩

/-- Whether a part of a run, which begins with a draft after some items were handed out, takes a
course to its end, and the ledger is kept as long as it does not fail.  If it fails, the ledger is
that of the draft with which the step began that fails. -/
def Ends (graph : TypeGraph) (course : Course α) (x : Drafting α) (d : Draft)
    (before : List Item) : Prop :=
  ∃ items outcome e last, course d items outcome e ∧ exec x d = (outcome, e)
    ∧ Ledger graph last (before ++ items) ∧ ∀ a, outcome = .ok a → last = e

variable {graph : TypeGraph} {d : Draft} {before : List Item}

/-- A step ends. -/
theorem ends_of {x : Drafting α} (hd : Ledger graph d before)
    (hx : ∀ a e, exec x d = (.ok a, e) → Ledger graph e before) :
  Ends graph (of x) x d before
  := by
  rcases hexec : exec x d with ⟨outcome, e⟩
  cases outcome with
  | error error =>
      refine ⟨[], _, _, d, ⟨rfl, hexec⟩, hexec, ?_, fun _ h => nomatch h⟩
      rw [List.append_nil]
      apply hd
  | ok a =>
      refine ⟨[], _, _, e, ⟨rfl, hexec⟩, hexec, ?_, fun _ _ => rfl⟩
      rw [List.append_nil]
      apply hx a e hexec

/-- A part that ends, followed by one that ends, ends. -/
theorem Ends.seq {first : Course α} {next : α → Course β} {x : Drafting α}
    {f : α → Drafting β} (h : Ends graph first x d before)
    (hnext : ∀ a e items, exec x d = (.ok a, e) → Ledger graph e (before ++ items) →
      Ends graph (next a) (f a) e (before ++ items)) :
  Ends graph (first.Then next) (x >>= f) d before
  := by
  obtain ⟨items, outcome, e, last, hcourse, hexec, hledger, hlast⟩ := h
  cases outcome with
  | error error =>
      refine ⟨items, .error error, e, last, .error hcourse, ?_, hledger, fun _ h => nomatch h⟩
      rw [exec_bind, hexec]
  | ok a =>
      obtain rfl := hlast a rfl
      obtain ⟨more, outcome, e', last', hcourse', hexec', hledger', hlast'⟩ :=
        hnext a last items hexec hledger
      refine ⟨items ++ more, outcome, e', last', .ok hcourse hcourse', ?_, ?_, hlast'⟩
      · rw [exec_bind_of_ok hexec, hexec']
      · rw [← List.append_assoc]
        apply hledger'

end Course

/-! ### Handing out until nothing waits -/

namespace Job

variable (job : Job)

/-- Writes what was handed out. -/
def writeItem : Item → Drafting Unit
  | .inl declaration => job.writeDeclaration declaration
  | .inr synthetic => job.writeSynthetic synthetic

/-- One item after the other is handed out and written until nothing waits or one cannot be
written. -/
inductive Drains : Draft → List Item → Except CompileError Unit → Draft → Prop where
  | done {d : Draft} : d.IsComplete → Drains d [] (.ok ()) d
  | error {c d e : Draft} {item : Item} {error : CompileError} : HandsOut c item d →
      exec (job.writeItem item) d = (.error error, e) → Drains c [item] (.error error) e
  | step {b c d e : Draft} {item : Item} {items : List Item} {outcome : Except CompileError Unit} :
      HandsOut b item c → exec (job.writeItem item) c = (.ok (), d) → Drains d items outcome e →
      Drains b (item :: items) outcome e

variable {job} {d e : Draft} {item : Item} {before : List Item}

theorem isSingle_drains : Course.IsSingle job.Drains := by
  intro d items outcome e items' outcome' e' h
  induction h generalizing items' outcome' e' with
  | done hcomplete =>
      intro h'
      cases h' with
      | done => exact ⟨rfl, rfl, rfl⟩
      | error hout _ => apply absurd hcomplete hout.not_isComplete
      | step hout _ _ => apply absurd hcomplete hout.not_isComplete
  | error hout hexec =>
      intro h'
      cases h' with
      | done hcomplete => apply absurd hcomplete hout.not_isComplete
      | error hout' hexec' =>
          obtain ⟨rfl, rfl⟩ := hout.unique hout'
          rw [hexec] at hexec'
          cases hexec'
          exact ⟨rfl, rfl, rfl⟩
      | step hout' hexec' _ =>
          obtain ⟨rfl, rfl⟩ := hout.unique hout'
          rw [hexec] at hexec'
          cases hexec'
  | step hout hexec _ ih =>
      intro h'
      cases h' with
      | done hcomplete => apply absurd hcomplete hout.not_isComplete
      | error hout' hexec' =>
          obtain ⟨rfl, rfl⟩ := hout.unique hout'
          rw [hexec] at hexec'
          cases hexec'
      | step hout' hexec' hrest =>
          obtain ⟨rfl, rfl⟩ := hout.unique hout'
          rw [hexec] at hexec'
          cases hexec'
          obtain ⟨rfl, houtcome, hdraft⟩ := ih hrest
          exact ⟨rfl, houtcome, hdraft⟩

/-- Within a limit that is left, the item that is handed out is written first. -/
theorem exec_completeWithin_of_handsOut (hout : HandsOut d item e) (limit : Nat) :
  exec (job.completeWithin (limit + 1)) d
    = exec (job.writeItem item >>= fun _ => job.completeWithin limit) e
  := by
  rw [completeWithin, exec_get_bind]
  cases hout with
  | declaration htake =>
      rw [htake]
      rfl
  | synthetic htake hqueue =>
      rw [htake]
      dsimp only
      rw [hqueue]
      rfl

theorem exec_completeWithin_of_isComplete (h : d.IsComplete) (limit : Nat) :
  exec (job.completeWithin (limit + 1)) d = (.ok (), d)
  := by
  rw [completeWithin, exec_get_bind, Worklist.take?_eq_none.mpr h.1]
  dsimp only
  rw [h.2]
  rfl

/-- Handing out an item and writing it is one step of a run. -/
theorem writes_of_handsOut {c : Draft} (hout : HandsOut d item c)
    (hexec : exec (job.writeItem item) c = (.ok (), e)) :
  job.Writes d e
  := by
  cases hout with
  | declaration htake => apply Writes.declaration htake hexec
  | synthetic htake hqueue => apply Writes.synthetic htake hqueue hexec

/-- Writing an item hands out nothing. -/
theorem ledger_writeItem (h : Ledger job.graph d before)
    (hexec : exec (job.writeItem item) d = (.ok (), e)) :
  Ledger job.graph e before
  := by
  cases item with
  | inl declaration =>
      have htallied := (job.writeDeclaration_tallied declaration).exec hexec h.tallied
      obtain ⟨m, lines, d', hrender, rfl⟩ := writeDeclaration_eq_ok hexec
      have hgrowth := (job.render_steady declaration).growth hrender
      apply (h.growth hgrowth { htallied with }).withModules
      simp
  | inr synthetic =>
      have htallied := ((job.writeSynthetic_sameSubsets synthetic).exec hexec).tallied h.tallied
      rcases writeSynthetic_eq_ok hexec with ⟨-, rfl⟩ | ⟨-, lines, d', hlines, rfl⟩
      · apply h
      · have hmarked : Ledger job.graph
            { d with synthesized := synthetic.key :: d.synthesized } before :=
          ⟨{ h.consistent with }, { h.tallied with }, h.taken, { h.registers with }⟩
        have hgrowth := (job.syntheticLines_steady synthetic).growth hlines
        apply (hmarked.growth hgrowth { htallied with }).withModules
        simp

/-- A limit above what there may be to write is not met. -/
theorem ends_completeWithin {limit : Nat} (hd : Ledger job.graph d before)
    (hlimit : d.potential job.graph < limit) :
  Course.Ends job.graph job.Drains (job.completeWithin limit) d before
  := by
  induction limit generalizing d before with
  | zero => apply absurd hlimit (Nat.not_lt_zero _)
  | succ limit ih =>
      rcases d.isComplete_or_handsOut with hcomplete | ⟨item, c, hout⟩
      · refine ⟨[], .ok (), d, d, .done hcomplete, ?_, ?_, fun _ _ => rfl⟩
        · apply exec_completeWithin_of_isComplete hcomplete
        · rw [List.append_nil]
          apply hd
      · have hc := hd.handsOut hout
        have hfirst := job.exec_completeWithin_of_handsOut hout limit
        rcases hexec : exec (job.writeItem item) c with ⟨outcome, e⟩
        cases outcome with
        | error error =>
            refine ⟨[item], .error error, e, c, .error hout hexec, ?_, hc, fun _ h => nomatch h⟩
            rw [hfirst, exec_bind, hexec]
        | ok _ =>
            obtain ⟨-, hless⟩ := (writes_of_handsOut hout hexec).consistent hd.consistent
            obtain ⟨items, outcome, e', last, hdrains, hrest, hledger, hlast⟩ :=
              ih (ledger_writeItem hc hexec) (Nat.lt_of_lt_of_le hless (Nat.le_of_lt_succ hlimit))
            refine ⟨item :: items, outcome, e', last, .step hout hexec hdrains, ?_, ?_, hlast⟩
            · rw [hfirst, exec_bind_of_ok hexec, hrest]
            · rw [List.append_cons]
              apply hledger

theorem ends_complete (hd : Ledger job.graph d before) :
  Course.Ends job.graph job.Drains job.complete d before
  := by
  have hlimit : d.potential job.graph < job.completionBound d := by
    unfold potential completionBound
    omega
  apply ends_completeWithin hd hlimit

/-! ### Whole runs -/

variable (job)

/-- The declarations of the namespaces that are met on a visit of the service are requested. -/
def Requests : Course Unit :=
  fun d items outcome e => ∃ ids, job.graph.Visits [job.service.root] ids
    ∧ Course.of ((ids.flatMap job.firstOfNamespace).forM request) d items outcome e

/-- The courses of a run, without a limit to what is visited and to what is handed out. -/
def Runs : Course Unit :=
  (Course.of (job.place job.service.root)).Then fun m =>
    job.Requests.Then fun _ =>
      Course.Then job.Drains fun _ =>
        match job.service.http with
        | some http =>
          if job.config.http then
            (Course.of (job.writeSurface http)).Then fun _ =>
              Course.Then job.Drains fun _ => Course.of (job.writeRoot m)
          else Course.of (job.writeRoot m)
        | none => Course.of (job.writeRoot m)

variable {job}

theorem isSingle_requests : Course.IsSingle job.Requests := by
  rintro d items outcome e items' outcome' e' ⟨ids, hvisits, h⟩ ⟨ids', hvisits', h'⟩
  obtain rfl := hvisits.unique hvisits'
  apply Course.isSingle_of _ h h'

theorem isSingle_runs : Course.IsSingle job.Runs := by
  apply (Course.isSingle_of _).seq
  intro m
  apply isSingle_requests.seq
  intro _
  apply isSingle_drains.seq
  intro _
  split
  case h_1 =>
    split
    case isTrue =>
      apply (Course.isSingle_of _).seq
      intro _
      apply isSingle_drains.seq
      intro _
      apply Course.isSingle_of
    case isFalse => apply Course.isSingle_of
  case h_2 => apply Course.isSingle_of

/-- A namespace that is placed at the start is below the global one. -/
theorem descends_of_place {id : NamespaceId} {m : ModuleId}
    (h : exec (job.place id) .start = (.ok m, e)) :
  job.graph.Descends .global id
  := by
  rw [place, exec_get_bind] at h
  split at h
  case h_1 hplaced =>
    rw [(moduleOf?_start hplaced).1]
    apply TypeGraph.Descends.root
  case h_2 =>
    split at h
    case h_1 => cases h
    case h_2 hchain => apply TypeGraph.descends_of_chainWithin hchain

/-- Writing the root module hands out nothing. -/
theorem ends_writeRoot (hd : Ledger job.graph d before) (m : ModuleId) :
  Course.Ends job.graph (Course.of (job.writeRoot m)) (job.writeRoot m) d before
  := by
  apply Course.ends_of hd
  intro _ e hexec
  obtain ⟨lines, doc, rfl⟩ := writeRoot_eq_ok hexec
  apply hd.withModules
  simp

/-- Writing the HTTP surface hands out nothing. -/
theorem ends_writeSurface (hd : Ledger job.graph d before) (http : HttpService) :
  Course.Ends job.graph (Course.of (job.writeSurface http)) (job.writeSurface http) d before
  := by
  apply Course.ends_of hd
  intro _ e hexec
  apply hd.growth ((job.writeSurface_extends http).growth hd.consistent.toFounded hexec)
  apply (job.writeSurface_tallied http).exec hexec hd.tallied

/-- The namespaces of a service below the global namespace are visited, and their declarations are
requested. -/
theorem ends_requests (hlinked : job.graph.Linked) (hlength : job.graph.namespaces.length ≠ 0)
    (hglobal : job.graph.parent? .global = none)
    (hroot : job.graph.Descends .global job.service.root) (hd : Ledger job.graph d before) :
  Course.Ends job.graph job.Requests (job.firstDeclarations.forM request) d before
  := by
  have hsame : Stays SameSubsets (job.firstDeclarations.forM request) :=
    composes_sameSubsets.forM fun declaration _ => request_sameSubsets declaration
  have hstep : Course.Ends job.graph (Course.of (job.firstDeclarations.forM request))
      (job.firstDeclarations.forM request) d before := by
    apply Course.ends_of hd
    intro _ e hexec
    apply hd.growth (requests_growth hlinked.declares_first hd.consistent hexec)
    apply (hsame.exec hexec).tallied hd.tallied
  obtain ⟨items, outcome, e, last, hcourse, hrest⟩ := hstep
  use items, outcome, e, last
  refine ⟨⟨job.graph.subtree job.service.root, ?_, hcourse⟩, hrest⟩
  apply TypeGraph.visits_subtree hlinked hlength hglobal hroot

/-- A run ends. -/
theorem ends_run (hlinked : job.graph.Linked) (hlength : job.graph.namespaces.length ≠ 0)
    (hglobal : job.graph.parent? .global = none) :
  Course.Ends job.graph job.Runs job.run .start []
  := by
  have hstart := Ledger.start job.graph
  have hplace : Course.Ends job.graph (Course.of (job.place job.service.root))
      (job.place job.service.root) .start [] := by
    apply Course.ends_of hstart
    intro _ e hexec
    apply hstart.growth ((job.place_steady _).growth hexec)
    apply ((job.place_sameSubsets _).exec hexec).tallied hstart.tallied
  apply hplace.seq
  intro m d₁ items₁ hexec hd₁
  apply (ends_requests hlinked hlength hglobal (descends_of_place hexec) hd₁).seq
  intro _ d₂ items₂ _ hd₂
  apply (ends_complete hd₂).seq
  intro _ d₃ items₃ _ hd₃
  dsimp only
  cases job.service.http with
  | some http =>
      by_cases hconfig : job.config.http = true
      · simp only [if_pos hconfig]
        apply (ends_writeSurface hd₃ http).seq
        intro _ d₄ items₄ _ hd₄
        apply (ends_complete hd₄).seq
        intro _ d₅ items₅ _ hd₅
        apply ends_writeRoot hd₅
      · simp only [if_neg hconfig]
        apply ends_writeRoot hd₃
  | none => apply ends_writeRoot hd₃

/-- For every schema whose arrays and maps do not contain themselves by arrays and maps alone, there
is one run, it ends, and it is what is computed.  It hands out at most one declaration for each type
and each namespace, and at most one synthetic declaration for each type and two for each container
and name of operations.  Every type is looked through to its middle. -/
theorem run_ends {graph : TypeGraph} {service : Service} {schema : Schema}
    (hschema : Schema.make graph service = .ok schema)
    (hwrapped : ∀ id, ¬Relation.TransGen schema.graph.IsElement id id) (config : Config) :
  (∃ items outcome e, (schema.job config).Runs .start items outcome e
      ∧ exec (schema.job config).run .start = (outcome, e)
      ∧ (∀ items' outcome' e', (schema.job config).Runs .start items' outcome' e' →
        items' = items ∧ outcome' = outcome ∧ e' = e)
      ∧ (items.filterMap Sum.getLeft?).length
        ≤ schema.graph.types.length + schema.graph.namespaces.length
      ∧ (items.filterMap Sum.getRight?).length
        ≤ schema.graph.types.length + 2 * schema.graph.operationRefs.dedup.length)
  ∧ ∀ id, ∃ wrappers core, schema.graph.Unwraps id wrappers core
      ∧ schema.graph.unwrap id = some (wrappers, core)
  := by
  have hlink := (Schema.link_of_make hschema).1
  obtain ⟨hlength, hglobal⟩ := TypeGraph.global_of_link hlink
  have hlinked : (schema.job config).graph.Linked := TypeGraph.linked_of_link hlink
  obtain ⟨items, outcome, e, last, hruns, hexec, hledger, -⟩ := ends_run hlinked hlength hglobal
  constructor
  · refine ⟨items, outcome, e, hruns, hexec, ?_, hledger.declarations_length_le,
      hledger.synthetics_length_le⟩
    intro items' outcome' e' hruns'
    apply isSingle_runs hruns' hruns
  · apply TypeGraph.exists_unwraps hwrapped

/-- A namespace with a record that holds an array of itself by way of a record without a name, and
two namespaces that are the parents of each other. -/
def herdGraph : TypeGraph := {
  namespaces := [
    { name := "" },
    { name := "Herd"
      parent := some .global
      operations := [{ name := "get", returnType := ⟨3⟩ }] },
    { name := "Left", parent := some ⟨3⟩ },
    { name := "Right", parent := some ⟨2⟩ }]
  types := [
    { kind := .record {
        name := some "Cow", owner := some ⟨1⟩, fields := [{ name := "tag", type := ⟨1⟩ }] } },
    { kind := .record { fields := [{ name := "calves", type := ⟨4⟩ }] } },
    { kind := .record { name := some "Lost", owner := some ⟨1⟩, error := true } },
    { kind := .union {
        variants := [⟨some "cow", ⟨0⟩⟩, ⟨some "tag", ⟨1⟩⟩, ⟨some "lost", ⟨2⟩⟩] } },
    { kind := .array ⟨0⟩ }] }

/-- The schema of the namespace with a herd. -/
def herdSchema : Schema := ⟨herdGraph.link.1, { root := ⟨1⟩ }⟩

/-- The run for the herd succeeds and hands out no more than the schema allows. -/
theorem run_ends_herd :
  ∃ items e, (herdSchema.job {}).Runs .start items (.ok ()) e
    ∧ (items.filterMap Sum.getLeft?).length ≤ 5 + 4
    ∧ (items.filterMap Sum.getRight?).length ≤ 5 + 2 * 1
  := by
  have hschema : Schema.make herdGraph { root := ⟨1⟩ } = .ok herdSchema := by decide +kernel
  have helement {id part : TypeId} (h : herdSchema.graph.IsElement id part) :
      part.index < id.index := by
    obtain ⟨i⟩ := id
    rcases h with h | h <;> rcases i with _ | _ | _ | _ | _ | i <;> cases h
    decide
  have hwrapped (id : TypeId) : ¬Relation.TransGen herdSchema.graph.IsElement id id := by
    have hless {id part : TypeId} (h : Relation.TransGen herdSchema.graph.IsElement id part) :
        part.index < id.index := by
      induction h with
      | single h => apply helement h
      | tail _ h ih => apply Nat.lt_trans (helement h) ih
    intro h
    apply Nat.lt_irrefl _ (hless h)
  have hrefs : herdSchema.graph.operationRefs.dedup.length = 1 := by decide +kernel
  have hok : (exec (herdSchema.job {}).run .start).1 = .ok () := by decide +kernel
  obtain ⟨⟨items, outcome, e, hruns, hexec, -, hdeclarations, hsynthetics⟩, -⟩ :=
    run_ends hschema hwrapped {}
  rw [hexec] at hok
  obtain rfl := hok
  rw [hrefs] at hsynthetics
  exact ⟨items, e, hruns, hdeclarations, hsynthetics⟩

end Job

end ServiceBindings
