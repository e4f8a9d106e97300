import ServiceBindings.Proofs.Draft.Allowing

/-!
# Sessions

A session starts with the first draft and moves on one change at a time: its draft grows, what waits
is handed out, texts are written, and a subset or a split may be asked for that no operation has.
Whatever is asked of a session, and wherever that stops, the session only makes such moves.

What a session does is followed for any relation of drafts that holds along steady steps and single
turns; the calls of the server stand out, since only they report parameters as unbound.
-/

namespace ServiceBindings

open Draft

/-! ### Moves -/

/-- What a session does to its draft at once, besides steady steps and the calls of the server. -/
inductive Draft.Turn : Draft → Draft → Prop where
  | report (d : Draft) {diagnostic : Diagnostic} : diagnostic.kind ≠ .unboundParameter →
      Turn d { d with diagnostics := d.diagnostics ++ [diagnostic] }
  | request (d : Draft) (declaration : DeclarationRef) :
      Turn d { d with declarations := d.declarations.add declaration }
  | take {d : Draft} {declaration : DeclarationRef} {rest : Worklist DeclarationRef} :
      d.declarations.take? = some (declaration, rest) → Turn d { d with declarations := rest }
  | takeSynthetic {d : Draft} {synthetic : Synthetic} {rest : List Synthetic} :
      d.synthetics = synthetic :: rest → Turn d { d with synthetics := rest }
  | mark (d : Draft) (key : TypeId × String) :
      Turn d { d with synthesized := key :: d.synthesized }
  | nameSubset (d : Draft) {union : TypeId} (variants : List Nat) {base : String} :
      d.subsets.lookup (union, base) = none → Turn d (d.nameSubset union variants base).2
  | split (d : Draft) {reference : OperationRef} (split : ReturnSplit) :
      d.splits.lookup reference = none →
      Turn d { d with splits := (reference, split) :: d.splits }
  | addModule (d : Draft) (parent : ModuleId) (name : String) (inline : Bool) (doc : String) :
      Turn d (Drafting.exec (Drafting.addModule parent name inline doc) d).2
  | write (d : Draft) (m : ModuleId) (body : String) :
      Turn d { d with modules := d.modules.appendText m body }
  | document (d : Draft) (m : ModuleId) (doc : Option String) :
      Turn d { d with modules := d.modules.setDoc m doc }

/-- What a session does to its draft at once. -/
inductive Draft.Move (graph : TypeGraph) : Draft → Draft → Prop where
  | change {d e : Draft} : Change graph d e → Move graph d e
  | turn {d e : Draft} : Turn d e → Move graph d e

/-- Any number of moves. -/
def Draft.Moves (graph : TypeGraph) : Draft → Draft → Prop :=
  Relation.ReflTransGen (Move graph)

namespace Draft

variable {graph : TypeGraph} {d e : Draft}

/-- Another documentation takes back no decision. -/
theorem later_setDoc (d : Draft) (m : ModuleId) (doc : Option String) :
  Later d { d with modules := d.modules.setDoc m doc }
  := by
  refine { Later.refl d with size := ?_, path := ?_ }
  · simp
  · simp

theorem Turn.later (h : Turn d e) : Later d e := by
  cases h with
  | request declaration => apply later_request
  | take htake => apply later_take htake
  | nameSubset variants hnew => apply later_nameSubset hnew
  | split split hnew => apply later_split hnew
  | addModule parent name inline doc => apply (@Change.addModule ⟨[], []⟩ d _ _ _ _).later
  | write m body => apply later_appendText
  | document m doc => apply later_setDoc
  | _ => exact { Later.refl d with }

theorem Turn.mem_texts (h : Turn d e) {m : ModuleId} {text : String}
    (hmem : text ∈ d.modules.texts m) :
  text ∈ e.modules.texts m
  := by
  cases h with
  | addModule parent name inline doc => simpa using hmem
  | write other body => apply ModuleTree.mem_texts_appendText _ _ _ hmem
  | document other doc => simpa using hmem
  | _ => apply hmem

/-- No namespace gets a module in a turn. -/
theorem Turn.places_eq (h : Turn d e) : e.places = d.places := by
  cases h <;> rfl

/-- A move takes back no decision. -/
theorem Move.later (h : Move graph d e) : Later d e := by
  cases h with
  | change hchange => apply hchange.later
  | turn hturn => apply hturn.later

theorem Change.mem_texts (h : Change graph d e) {m : ModuleId} {text : String}
    (hmem : text ∈ d.modules.texts m) :
  text ∈ e.modules.texts m
  := by
  cases h with
  | openModule hid _ =>
      rw [openModule_of_new hid]
      simpa using hmem
  | addModule parent name inline doc => simpa using hmem
  | write lines _ => apply ModuleTree.mem_texts_appendText _ _ _ hmem
  | _ => apply hmem

/-- A draft grows by moves. -/
theorem Growth.moves (h : Growth graph d e) : Moves graph d e := by
  induction h with
  | refl => apply Relation.ReflTransGen.refl
  | tail _ hchange ih => apply ih.tail (.change hchange)

namespace Moves

/-- Moves take back no decision. -/
theorem later (h : Moves graph d e) : Later d e := by
  induction h with
  | refl => apply Later.refl
  | tail _ hmove ih => apply ih.trans hmove.later

/-- What is written stays written. -/
theorem mem_texts (h : Moves graph d e) {m : ModuleId} {text : String}
    (hmem : text ∈ d.modules.texts m) :
  text ∈ e.modules.texts m
  := by
  induction h with
  | refl => apply hmem
  | tail _ hmove ih =>
      cases hmove with
      | change hchange => apply hchange.mem_texts ih
      | turn hturn => apply hturn.mem_texts ih

/-- Moves leave namespaces placed. -/
theorem placed (h : Moves graph d e) (hd : Placed d) : Placed e := by
  induction h with
  | refl => apply hd
  | tail _ hmove ih =>
      cases hmove with
      | change hchange => apply hchange.placed ih
      | turn hturn =>
          apply ih.later hturn.later
          intro id m hm
          rw [moduleOf?, hturn.places_eq] at hm
          apply hm

end Moves

end Draft

/-! ### Relations along a session -/

namespace Drafting

variable {α β : Type} {graph : TypeGraph} {R : Draft → Draft → Prop}

/-- Whether a relation can be followed through a session. -/
structure Follows (graph : TypeGraph) (R : Draft → Draft → Prop) : Prop extends Composes R where
  steady : ∀ {α : Type} {x : Drafting α}, Steady graph x → Stays R x
  turn : ∀ {d e}, Turn d e → R d e

namespace Follows

variable (hR : Follows graph R)
include hR

theorem request (declaration : DeclarationRef) : Stays R (request declaration) :=
  fun d => hR.turn (.request d declaration)

theorem addModule (parent : ModuleId) (name : String) (inline : Bool) (doc : String) :
  Stays R (addModule parent name inline doc) :=
  fun d => hR.turn (.addModule d parent name inline doc)

theorem write (m : ModuleId) (lines : List String) : Stays R (write m lines) :=
  fun d => hR.turn (.write d m _)

/-- If steps over a list succeed, then each of them was taken. -/
theorem exec_forM {f : α → Drafting Unit} {items : List α} (hf : ∀ a ∈ items, Stays R (f a))
    {d e : Draft} (h : exec (items.forM f) d = (.ok (), e)) {a : α} (ha : a ∈ items) :
  ∃ d₁ d₂, R d d₁ ∧ exec (f a) d₁ = (.ok (), d₂) ∧ R d₂ e
  := by
  induction items generalizing d with
  | nil => cases ha
  | cons item items ih =>
      have hrest (b : α) (hb : b ∈ items) := hf b (List.mem_cons_of_mem _ hb)
      obtain ⟨_, d', hitem, hitems⟩ := exec_bind_eq_ok.mp h
      rcases List.mem_cons.mp ha with rfl | ha
      · exact ⟨d, d', hR.refl d, hitem, (hR.forM hrest).exec hitems⟩
      · obtain ⟨d₁, d₂, hbefore, hexec, hafter⟩ := ih hrest hitems ha
        exact ⟨d₁, d₂, hR.trans ((hf item List.mem_cons_self).exec hitem) hbefore, hexec, hafter⟩

/-- If steps over a list succeed, then their results are those of the single steps. -/
theorem exec_mapM {f : α → Drafting β} {items : List α} (hf : ∀ a ∈ items, Stays R (f a))
    {d e : Draft} {results : List β} (h : exec (items.mapM f) d = (.ok results, e)) :
  List.Forall₂ (fun a b => ∃ d₁ d₂, R d d₁ ∧ exec (f a) d₁ = (.ok b, d₂) ∧ R d₂ e) items results
  := by
  induction items generalizing d results with
  | nil =>
      rw [List.mapM_nil] at h
      cases h
      apply List.Forall₂.nil
  | cons item items ih =>
      have hrest (b : α) (hb : b ∈ items) := hf b (List.mem_cons_of_mem _ hb)
      rw [List.mapM_cons] at h
      obtain ⟨result, d', hitem, h⟩ := exec_bind_eq_ok.mp h
      obtain ⟨rest, e', hitems, h⟩ := exec_bind_eq_ok.mp h
      cases h
      apply List.Forall₂.cons
      · exact ⟨d, d', hR.refl d, hitem, (hR.mapM hrest).exec hitems⟩
      · apply (ih hrest hitems).imp
        rintro a b ⟨d₁, d₂, hbefore, hexec, hafter⟩
        exact ⟨d₁, d₂, hR.trans ((hf item List.mem_cons_self).exec hitem) hbefore, hexec, hafter⟩

end Follows

/-- Whether a relation can be followed through what names a subset or records a split. -/
structure Tracks (graph : TypeGraph) (R : Draft → Draft → Prop) : Prop extends Composes R where
  steady : ∀ {α : Type} {x : Drafting α}, Steady graph x → Stays R x
  nameSubset : ∀ (d : Draft) {union : TypeId} (variants : List Nat) {base : String},
    d.subsets.lookup (union, base) = none → R d (d.nameSubset union variants base).2
  split : ∀ (d : Draft) {reference : OperationRef} (split : ReturnSplit),
    d.splits.lookup reference = none → R d { d with splits := (reference, split) :: d.splits }

theorem Follows.tracks (hR : Follows graph R) : Tracks graph R where
  toComposes := hR.toComposes
  steady := hR.steady
  nameSubset d _ variants _ hnew := hR.turn (.nameSubset d variants hnew)
  split d _ split hnew := hR.turn (.split d split hnew)

/-- The moves of a session can be followed. -/
theorem follows_moves (graph : TypeGraph) :
  Follows graph (Moves graph) where
  refl _ := .refl
  trans := Relation.ReflTransGen.trans
  steady h d := (h.grows d).moves
  turn h := .single (.turn h)

end Drafting

/-! ### What can be asked of a session -/

namespace Job

open Drafting

variable {job : Job} {R : Draft → Draft → Prop}

section

variable (hR : Tracks job.graph R)
include hR

theorem subsetName_stays (union : TypeId) (variants : List Nat) (preferred : String) :
  Stays R (subsetName union variants preferred)
  := by
  intro d
  rw [subsetName, exec_get_bind]
  split
  case h_1 => apply hR.refl
  case h_2 hnew => apply hR.nameSubset d variants hnew

theorem spellSubset_stays (union : TypeId) (variants : List Nat) (path : ModulePath)
    (preferred : String) :
  Stays R (spellSubset union variants path preferred) :=
  hR.bind (subsetName_stays hR union variants preferred) fun _ => hR.pure _

theorem returnSide_stays (id : TypeId) (union : UnionType) (variants : List Nat) (name : String) :
  Stays R (returnSide id union variants name)
  := by
  unfold returnSide
  split
  case h_1 => apply hR.pure
  case h_2 => split <;> apply hR.pure
  case h_3 =>
    split
    case isTrue => apply hR.pure
    case isFalse =>
      apply hR.bind (subsetName_stays hR _ _ _)
      intro name
      apply hR.pure

theorem makeSplit_stays (container : Container) (operation : Operation) :
  Stays R (job.makeSplit container operation)
  := by
  unfold makeSplit
  dsimp only
  split
  case h_1 =>
    apply hR.bind (hR.steady (job.placeOfContainer_steady container))
    intro _
    apply hR.bind (returnSide_stays hR _ _ _ _)
    intro success
    apply hR.bind (returnSide_stays hR _ _ _ _)
    intro error
    apply hR.pure
  case h_2 => split <;> apply hR.pure

/-- The split of any operation may be asked for. -/
theorem splitReturn_stays (container : Container) (operation : Operation) :
  Stays R (job.splitReturn container operation)
  := by
  intro d
  rw [splitReturn, exec_get_bind]
  split
  case h_1 => apply hR.refl
  case h_2 hnew =>
    apply exec_bind_rel @hR.trans (makeSplit_stays hR container operation d)
    intro split e hexec
    have hsame := job.makeSplit_sameRecords container operation d
    rw [hexec] at hsame
    apply hR.split e split
    rw [hsame.splits]
    apply hnew

end

variable (hR : Follows job.graph R)
include hR

/-- A relation that can be followed holds along what drafting consists of. -/
theorem allows_of_follows : job.AllowsModules R where
  toComposes := hR.toComposes
  report h d := hR.turn (.report d h)
  request := hR.request
  place id := hR.steady (job.place_steady id)
  anonymousName hid preferred := hR.steady (job.anonymousName_steady hid preferred)
  mark d key := hR.turn (.mark d key)
  write := hR.write
  addModule := hR.addModule

theorem writeDeclaration_stays (declaration : DeclarationRef) :
  Stays R (job.writeDeclaration declaration)
  := by
  have hsplits : job.AllowsSplits R := {
    (allows_of_follows hR).toAllows with
    splitReturn := fun h => hR.steady (job.splitReturn_steady h) }
  apply hsplits.writeDeclaration

theorem writeSynthetic_stays (synthetic : Synthetic) : Stays R (job.writeSynthetic synthetic) :=
  (allows_of_follows hR).writeSynthetic synthetic

/-- So it holds along the handing out and writing of what waits. -/
theorem completes_of_follows : job.Completes R where
  toComposes := hR.toComposes
  declaration htake := hR.trans (hR.turn (.take htake)) (writeDeclaration_stays hR _ _)
  synthetic hqueue := hR.trans (hR.turn (.takeSynthetic hqueue)) (writeSynthetic_stays hR _ _)

theorem complete_stays : Stays R job.complete := (completes_of_follows hR).complete

/-! ### The HTTP surface -/

theorem writeEndpoint_stays (parent : ModuleId) (endpoint : Endpoint) :
  Stays R (job.writeEndpoint parent endpoint) :=
  (allows_of_follows hR).writeEndpoint (fun _ _ => hR.addModule _ _ _ _)
    (splitReturn_stays hR.tracks _ _)

theorem writeEndpoints_stays (parent : ModuleId) (endpoints : List Endpoint) :
  Stays R (job.writeEndpoints parent endpoints) :=
  (allows_of_follows hR).writeEndpoints parent fun _ _ => splitReturn_stays hR.tracks _ _

theorem writeCredential_stays (parent : ModuleId) (schemes : List AuthScheme) :
  Stays R (writeCredential parent schemes) :=
  (allows_of_follows hR).writeCredential (fun _ _ => hR.addModule _ _ _ _)
    schemes

theorem writeRouter_stays (parent : ModuleId) (endpoints : List Endpoint) :
  Stays R (writeRouter parent endpoints) :=
  (allows_of_follows hR).writeRouter parent endpoints

theorem backends_stays (path : ModulePath) (scope : NameScope) (containers : List Container) :
  Stays R (job.backends path scope containers) :=
  (allows_of_follows hR).backends path scope containers

theorem reportProblems_stays (http : HttpService) :
  Stays R ((Endpoint.collect job.graph http).2.forM report) :=
  (allows_of_follows hR).reportProblems http

theorem requestContainers_stays (endpoints : List Endpoint) :
  Stays R (endpoints.forM fun endpoint =>
    request endpoint.http.operation.container.declaration)
  := by
  apply hR.forM
  intro endpoint _
  apply hR.request

theorem writeRoot_stays (m : ModuleId) : Stays R (job.writeRoot m) := by
  apply hR.bind (hR.pathOf m)
  intro path
  split
  case h_1 => apply hR.throw
  case h_2 =>
    apply hR.bind (hR.write _ _)
    intro _ d
    apply hR.turn (.document d _ _)

section

variable (hserve : ∀ host path endpoints served,
  Stays R (job.serveMethod host path endpoints served))
include hserve

theorem writeServer_stays (parent : ModuleId) (endpoints : List Endpoint) :
  Stays R (job.writeServer parent endpoints) :=
  (allows_of_follows hR).writeServer parent fun _ _ _ _ _ _ => hserve _ _ _ _

theorem writeSurface_stays (http : HttpService) : Stays R (job.writeSurface http) :=
  (allows_of_follows hR).writeSurface http (fun _ _ => splitReturn_stays hR.tracks _ _)
    fun _ _ _ _ _ _ => hserve _ _ _ _

theorem run_stays : Stays R job.run := by
  have hdrives : job.Drives R := {
    completes_of_follows hR with
    steady := hR.steady
    request := hR.request
    surface := writeSurface_stays hR hserve
    root := writeRoot_stays hR }
  apply hdrives.run

end

/-! ### The drafts of a session -/

omit hR
variable (job)

/-- The methods of the server are found by moves. -/
theorem serveMethod_moves (host : String) (path endpoints : ModulePath)
    (served : Endpoint × Backend) :
  Stays (Moves job.graph) (job.serveMethod host path endpoints served)
  := by
  have hmoves := follows_moves job.graph
  have haction : Stays (Moves job.graph)
      (job.serveAction host path served.2 served.1) := by
    apply hmoves.bind
    · intro d
      apply ((job.callArguments_settles _ _ _ _).grows d).moves
    · intro arguments
      cases arguments with
      | error parameter => apply hmoves.pure
      | ok arguments =>
          apply hmoves.bind (splitReturn_stays hmoves.tracks _ _)
          intro split
          apply hmoves.pure
  apply hmoves.bind haction
  intro action
  apply hmoves.pure

/-- The drafts that a session can have, also in the middle of what it does. -/
def Session (d : Draft) : Prop :=
  Moves job.graph .start d

/-- What can be asked of a session. -/
inductive Call where
  | spell (id : TypeId) (span : Option Span) (use : TypeUse) (path : ModulePath)
    (preferred : String)
  | subset (union : TypeId) (variants : List Nat) (path : ModulePath) (preferred : String)
  | split (container : Container) (operation : Operation)
  | side (part : ReturnSide) (path : ModulePath)
  | complete
  | run

/-- What a session does when it is asked. -/
def Call.perform (job : Job) : Call → Drafting Unit
  | spell id span use path preferred => do let _ ← job.spell id span use path preferred
  | subset union variants path preferred => do let _ ← spellSubset union variants path preferred
  | split container operation => do let _ ← job.splitReturn container operation
  | side part path => do let _ ← job.spellSide part path
  | complete => job.complete
  | run => job.run

/-- Whatever is asked of a session, and whether it succeeds or not, a session goes on. -/
theorem Session.perform {d : Draft} (h : job.Session d) (call : Call) :
  job.Session (exec (call.perform job) d).2
  := by
  have hmoves := follows_moves job.graph
  have hstays : Stays (Moves job.graph) (call.perform job) := by
    cases call with
    | spell id span use path preferred =>
        apply hmoves.bind (hmoves.steady (job.spell_steady id span use path preferred))
        intro _
        apply hmoves.pure
    | subset union variants path preferred =>
        apply hmoves.bind (spellSubset_stays hmoves.tracks union variants path preferred)
        intro _
        apply hmoves.pure
    | split container operation =>
        apply hmoves.bind (splitReturn_stays hmoves.tracks container operation)
        intro _
        apply hmoves.pure
    | side part path =>
        apply hmoves.bind (hmoves.steady (job.spellSide_steady part path))
        intro _
        apply hmoves.pure
    | complete => apply complete_stays hmoves
    | run => apply run_stays hmoves job.serveMethod_moves
  apply Relation.ReflTransGen.trans h (hstays d)

end Job

end ServiceBindings
