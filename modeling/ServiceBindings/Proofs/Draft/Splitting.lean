import ServiceBindings.Proofs.Draft.SyntheticNames
import ServiceBindings.Proofs.Draft.Target

/-!
# Splits without loss

What an operation returns is split into a side of errors and a side of all else, and no variant of a
union is lost between the two.  A side that is a subset has a synthetic declaration, which selects
the variants of the side and no others.  That is so however subsets are shared between operations,
as long as subsets are named for sides only: two sides with the same name are the same side.
-/

namespace ServiceBindings

open Draft Drafting

/-! ### Parts of a union -/

namespace UnionType

variable (graph : TypeGraph) (union : UnionType)

/-- The variants on a side, with their positions. -/
def part (errors : Bool) : List (UnionVariant × Nat) :=
  union.variants.zipIdx.filter fun entry => graph.isErrorRecord entry.1.type == errors

theorem map_part (errors : Bool) :
  (union.part graph errors).map (·.2) = union.side graph errors :=
  rfl

theorem length_part (errors : Bool) :
  (union.part graph errors).length = (union.side graph errors).length
  := by
  rw [← map_part, List.length_map]

/-- The two sides share out the variants, in order. -/
theorem partition_variants :
  (union.variants.zipIdx.partition fun entry => graph.isErrorRecord entry.1.type)
    = (union.part graph true, union.part graph false)
  := by
  have hfalse : (not ∘ fun entry : UnionVariant × Nat => graph.isErrorRecord entry.1.type)
      = fun entry => graph.isErrorRecord entry.1.type == false := by
    funext entry
    cases h : graph.isErrorRecord entry.1.type <;> simp [h]
  rw [List.partition_eq_filter_filter, hfalse, part, part]
  simp only [beq_true]

end UnionType

/-- Whether one of the synthetic declarations that were queued has a name, and only one, and it
selects the variants of a union at certain positions. -/
def Selects (queued : List Synthetic) (id : TypeId) (name : String) (positions : List Nat) : Prop :=
  .subset name id positions ∈ queued
    ∧ ∀ synthetic ∈ queued, synthetic.name = name → synthetic = .subset name id positions

/-- What a side with some of the variants of a union is, where these are given with their
positions: nothing, a type that has a certain name if it has none of its own, or a subset. -/
inductive Covers (queued : List Synthetic) (id : TypeId) (union : UnionType) (name : String) :
    List (UnionVariant × Nat) → ReturnSide → Prop where
  | nothing : Covers queued id union name [] .nothing
  | single (variant : UnionVariant) (position : Nat) :
      Covers queued id union name [(variant, position)] (.type variant.type name)
  | whole {part : List (UnionVariant × Nat)} : 2 ≤ part.length →
      part.length = union.variants.length → Covers queued id union name part (.type id name)
  | subset {part : List (UnionVariant × Nat)} {item : String} : 2 ≤ part.length →
      part.length ≠ union.variants.length → Selects queued id item (part.map (·.2)) →
      Covers queued id union name part (.union ⟨syntheticPath, item⟩)

/-! ### Names of sides -/

namespace Draft

variable {graph : TypeGraph} {d e : Draft} {handed : List Synthetic}

/-- Whether all subsets that were named are sides of what operations return, and so are those that
the recorded splits name. -/
structure Vouches (graph : TypeGraph) (d : Draft) (handed : List Synthetic) : Prop
    extends Hands d handed, Registers graph d (handed ++ d.synthetics) where
  splits_valid : ∀ reference split, d.splits.lookup reference = some split →
    IsSplit graph d.subsets reference split

/-- A change records splits of operations only. -/
theorem Change.splits_valid (hchange : Change graph d e)
    (h : ∀ reference split, d.splits.lookup reference = some split →
      IsSplit graph d.subsets reference split) :
  ∀ reference split, e.splits.lookup reference = some split →
    IsSplit graph e.subsets reference split
  := by
  intro reference found hfound
  have hlater := hchange.later
  cases hchange with
  | split hnew hsplit => apply isSplit_of_lookup_cons h hsplit hfound
  | openModule hid _ =>
      rw [openModule_of_new hid] at hfound hlater ⊢
      apply hlater.isSplit (h reference found hfound)
  | _ => apply hlater.isSplit (h reference found hfound)

theorem Growth.vouches (hgrowth : Growth graph d e) (h : d.Vouches graph handed) :
  e.Vouches graph handed
  := by
  induction hgrowth with
  | refl => apply h
  | tail _ hchange ih =>
      exact ⟨hchange.hands ih.toHands, (hchange.registers ih.toRegisters).returned,
        hchange.splits_valid ih.splits_valid⟩

theorem isAccount_vouches (graph : TypeGraph) : IsAccount graph (Vouches graph) where
  hands h := h.toHands
  growth hgrowth h := hgrowth.vouches h
  declarations _ h := { h with }
  modules _ h := { h with }
  handOut h hqueue := by
    refine { h with toHands := h.toHands.handOut hqueue, returned := ?_ }
    have hreturned := h.returned
    rw [hqueue] at hreturned
    rw [List.append_assoc]
    apply hreturned

namespace Vouches

/-- The synthetic declaration of a side that is a subset selects the variants of the side. -/
theorem selects (h : d.Vouches graph handed) {id : TypeId} {variants : List Nat}
    {base name : String} (hreturned : graph.ReturnsSubset id variants base)
    (hname : d.subsets.lookup (id, base) = some name) :
  Selects (handed ++ d.synthetics) id name variants
  := by
  obtain ⟨others, hmem, hothers⟩ := h.toRegisters.exists_variants h.toDistinct hname
  obtain rfl := hreturned.unique hothers
  refine ⟨hmem, ?_⟩
  intro synthetic hsynthetic hsame
  have hnodup := h.toQueues.names_perm.nodup_iff.mpr h.names_nodup
  apply List.inj_on_of_nodup_map hnodup hsynthetic hmem hsame

/-- A side of an operation that returns a union covers the variants on that side. -/
theorem covers (h : d.Vouches graph handed) {operation : Operation}
    (hoperation : operation ∈ graph.everyOperation) {union : UnionType}
    (hkind : graph.kind? operation.returnType = some (.union union)) {errors : Bool}
    {side : ReturnSide} (hside : IsSide graph d.subsets operation errors side) :
  Covers (handed ++ d.synthetics) operation.returnType union (operation.sideName graph errors)
    (union.part graph errors) side
  := by
  cases hside with
  | plain hplain _ => apply absurd hkind (hplain union)
  | absent hplain _ => apply absurd hkind (hplain union)
  | empty hkind' hempty =>
      obtain rfl : union = _ := by simpa [hkind] using hkind'
      rw [← union.map_part, List.map_eq_nil_iff] at hempty
      rw [hempty]
      apply Covers.nothing
  | single hkind' hsingle hvariant =>
      obtain rfl : union = _ := by simpa [hkind] using hkind'
      rw [← union.map_part, List.map_eq_singleton_iff] at hsingle
      obtain ⟨⟨other, position⟩, hpart, rfl⟩ := hsingle
      have hmem : (other, position) ∈ union.part graph errors := by
        rw [hpart]
        apply List.mem_singleton_self
      have hother := List.mk_mem_zipIdx_iff_getElem?.mp (List.mem_filter.mp hmem).1
      rw [hvariant] at hother
      cases hother
      rw [hpart]
      apply Covers.single
  | whole hkind' hlength hall =>
      obtain rfl : union = _ := by simpa [hkind] using hkind'
      rw [← union.length_part] at hlength hall
      apply Covers.whole hlength hall
  | subset hkind' hlength hall hname =>
      obtain rfl : union = _ := by simpa [hkind] using hkind'
      have hselects := h.selects
        ⟨operation, hoperation, union, errors, rfl, hkind, rfl, rfl, hlength, hall⟩ hname
      rw [← union.length_part] at hlength hall
      apply Covers.subset hlength hall hselects

end Vouches

end Draft

/-! ### Sessions that are properly asked -/

namespace Job

variable {job : Job} {d e : Draft}

/-- What a session does by itself, it vouches for. -/
theorem drives_vouches (job : Job) :
  job.Drives fun d e => job.History .start d ∧ job.Renders (Vouches job.graph) d →
    job.History .start e ∧ job.Renders (Vouches job.graph) e
  := by
  have hK := isAccount_vouches job.graph
  have hgrow {d e : Draft} (hgrowth : Growth job.graph d e)
      (h : job.History .start d ∧ job.Renders (Vouches job.graph) d) :
      job.History .start e ∧ job.Renders (Vouches job.graph) e :=
    ⟨h.1.tail (.grow hgrowth), h.2.growth hK hgrowth⟩
  exact {
    refl := fun _ h => h
    trans := fun hcd hde h => hde (hcd h)
    steady := fun hx d h => hgrow (hx.grows d) h
    request := fun declaration d h =>
      ⟨h.1.tail (.request d declaration), h.2.request hK declaration⟩
    declaration := fun htake h =>
      ⟨h.1.tail (.declaration htake), h.2.declaration hK h.1.moves htake⟩
    synthetic := fun hqueue h =>
      ⟨h.1.tail (.synthetic hqueue), h.2.synthetic hK h.1.moves hqueue⟩
    surface := fun http d h =>
      hgrow ((job.writeSurface_extends http).growth (h.1.founded founded_start) rfl) h
    root := fun m d h => ⟨h.1.tail (.root d m), h.2.root hK h.1.moves m⟩ }

/-- A session that was properly asked for things vouches for what it named. -/
theorem renders_replay {calls : List Call} (hcalls : ∀ call ∈ calls, call.IsProper job.graph)
    (h : job.History .start d ∧ job.Renders (Vouches job.graph) d) :
  job.History .start (job.replay calls d) ∧ job.Renders (Vouches job.graph) (job.replay calls d)
  := by
  induction calls generalizing d with
  | nil => apply h
  | cons call calls ih =>
      have hcall := job.drives_vouches.call (hcalls call List.mem_cons_self) d h
      apply ih (fun other hother => hcalls other (List.mem_cons_of_mem _ hother)) hcall

theorem renders_start : job.Renders (Vouches job.graph) .start := by
  refine ⟨[], [], [], ?_, (logged_start job).1, List.Sublist.refl _⟩
  refine { Hands.start with returned := ?_, splits_valid := ?_ }
  · intro name id variants hmem
    cases hmem
  · intro reference split hsplit
    cases hsplit

/-- A known split is returned again, whatever happened in between. -/
theorem exec_splitReturn_of_later {container : Container} {operation : Operation}
    {split : ReturnSplit} (h : d.splits.lookup ⟨container, operation.name⟩ = some split)
    (hlater : Later d e) :
  exec (job.splitReturn container operation) e = (.ok split, e)
  := by
  rw [splitReturn, exec_get_bind, hlater.split _ _ h]
  rfl

/-- The two sides of an operation that returns no union. -/
theorem split_eq_of_plain {operation : Operation} {subsets : List ((TypeId × String) × String)}
    (hkind : ∀ union, job.graph.kind? operation.returnType ≠ some (.union union))
    {split : ReturnSplit} (hsuccess : IsSide job.graph subsets operation false split.success)
    (herror : IsSide job.graph subsets operation true split.error) :
  split = if job.graph.isErrorRecord operation.returnType then
      ⟨.nothing, .type operation.returnType (operation.sideName job.graph true)⟩
    else ⟨.type operation.returnType (operation.sideName job.graph false), .nothing⟩
  := by
  obtain ⟨success, error⟩ := split
  dsimp only at hsuccess herror
  cases hsuccess with
  | plain _ hplain =>
      cases herror with
      | plain _ hother => simp [hplain] at hother
      | absent _ _ => simp [hplain]
      | _ hunion => apply absurd hunion (hkind _)
  | absent _ habsent =>
      cases herror with
      | plain _ hplain => simp [hplain]
      | absent _ hother => simp_all
      | _ hunion => apply absurd hunion (hkind _)
  | _ hunion => apply absurd hunion (hkind _)

/-- What an operation returns is split without loss, in any session that names subsets only for
splits of the operations that containers have.  The variants of a union are shared out in order
between the errors and all else, and each side covers its part.  A subset has one synthetic
declaration, which selects the variants of the part: it is among those that wait or that were handed
out, in the order of `handed`, and the texts of the module of synthetic declarations are the
renderings of some that were handed out.  A type that is no union is on the side of errors exactly
if it is an error record.  The split stays the same. -/
theorem split_without_loss (job : Job) {calls : List Call}
    (hcalls : ∀ call ∈ calls, call.IsProper job.graph) {d : Draft}
    (hd : job.replay calls .start = d) {container : Container} {operation : Operation}
    (hoperation : operation ∈ job.graph.operations container)
    (hdistinct : ((job.graph.operations container).map (·.name)).Nodup) {split : ReturnSplit}
    {e : Draft} (h : exec (job.splitReturn container operation) d = (.ok split, e)) :
  (∀ union errors successes, job.graph.kind? operation.returnType = some (.union union) →
    (union.variants.zipIdx.partition fun entry => job.graph.isErrorRecord entry.1.type)
      = (errors, successes) →
    ∃ handed rendered : List Synthetic,
      e.synthesized = (handed.map (·.key)).reverse ∧ rendered.Sublist handed
      ∧ (e.modules.texts .synthetic).map some = rendered.map (job.syntheticTextOf e)
      ∧ Covers (handed ++ e.synthetics) operation.returnType union
        (operation.sideName job.graph true) errors split.error
      ∧ Covers (handed ++ e.synthetics) operation.returnType union
        (operation.sideName job.graph false) successes split.success)
  ∧ ((∀ union, job.graph.kind? operation.returnType ≠ some (.union union)) →
    split = if job.graph.isErrorRecord operation.returnType then
        ⟨.nothing, .type operation.returnType (operation.sideName job.graph true)⟩
      else ⟨.type operation.returnType (operation.sideName job.graph false), .nothing⟩)
  ∧ ∀ later, exec (job.splitReturn container operation) (job.replay later e)
      = (.ok split, job.replay later e)
  := by
  have hreplay := renders_replay hcalls ⟨Relation.ReflTransGen.refl, renders_start⟩
  rw [hd] at hreplay
  have hsteady := job.splitReturn_steady hoperation
  obtain ⟨hhistory, handed, declared, written, hvouches, hlogged, hsublist⟩ :=
    (job.drives_vouches.steady hsteady).exec h hreplay
  have hlookup := job.splitReturn_eq_ok h
  obtain ⟨other, hother, hname, hsuccess, herror⟩ := hvouches.splits_valid _ _ hlookup
  obtain rfl : operation = other :=
    List.inj_on_of_nodup_map hdistinct hoperation hother hname.symm
  have hevery := TypeGraph.mem_everyOperation hoperation
  refine ⟨?_, fun hkind => split_eq_of_plain hkind hsuccess herror, ?_⟩
  · intro union errors successes hkind hpartition
    rw [union.partition_variants] at hpartition
    cases hpartition
    refine ⟨handed, written.map (·.1), hvouches.synthesized, hsublist, ?_,
      hvouches.covers hevery hkind herror, hvouches.covers hevery hkind hsuccess⟩
    apply hlogged.map_synthetic_texts
  · intro later
    have hlater := (job.history_replay later (hhistory.founded founded_start)).moves.later
    apply exec_splitReturn_of_later hlookup hlater

/-- An operation that returns one of four records, two of which are errors. -/
def loadOperation : Operation := { name := "load", parameters := [], returnType := ⟨0⟩ }

/-- Another operation that returns one of the four records. -/
def storeOperation : Operation := { name := "store", parameters := [], returnType := ⟨0⟩ }

/-- A union of four records, in which records and errors take turns. -/
def loadGraph : TypeGraph := {
  namespaces := [{ name := "", operations := [loadOperation, storeOperation] }]
  types := [
    { kind := .union { variants :=
        [⟨some "a", ⟨1⟩⟩, ⟨some "b", ⟨2⟩⟩, ⟨some "c", ⟨3⟩⟩, ⟨some "d", ⟨4⟩⟩] } },
    { kind := .record {} }, { kind := .record { error := true } },
    { kind := .record {} }, { kind := .record { error := true } }] }

/-- The job over the graph of two operations. -/
def loadJob : Job := { graph := loadGraph, service := { root := .global }, config := {} }

/-- The sides of both operations are asked for, and the first are written before the last. -/
def loadCalls : List Call :=
  [.split (.group .global) loadOperation, .complete, .split (.group .global) storeOperation]

/-- Each side of an operation selects its own two variants. -/
theorem split_without_loss_load :
  ∃ e, exec (loadJob.splitReturn (.group .global) loadOperation)
      (loadJob.replay loadCalls .start)
    = (.ok ⟨.union ⟨syntheticPath, "LoadSuccessResponse"⟩,
        .union ⟨syntheticPath, "LoadErrorResponse"⟩⟩, e)
    ∧ ∃ handed, e.synthesized = (handed.map (·.key)).reverse
      ∧ Selects (handed ++ e.synthetics) ⟨0⟩ "LoadSuccessResponse" [0, 2]
      ∧ Selects (handed ++ e.synthetics) ⟨0⟩ "LoadErrorResponse" [1, 3]
  := by
  have hsplit : (exec (loadJob.splitReturn (.group .global) loadOperation)
      (loadJob.replay loadCalls .start)).1
      = .ok ⟨.union ⟨syntheticPath, "LoadSuccessResponse"⟩,
        .union ⟨syntheticPath, "LoadErrorResponse"⟩⟩ := by
    decide +kernel
  have hproper : ∀ call ∈ loadCalls, call.IsProper loadJob.graph := by
    simp [loadCalls, Call.IsProper, loadJob, loadGraph, TypeGraph.operations,
      TypeGraph.namespace?, NamespaceId.global]
  have hoperation : loadOperation ∈ loadJob.graph.operations (.group .global) :=
    List.mem_cons_self
  generalize hd : loadJob.replay loadCalls .start = d at hsplit ⊢
  rcases hexec : exec (loadJob.splitReturn (.group .global) loadOperation) d with ⟨outcome, e⟩
  rw [hexec] at hsplit
  cases hsplit
  obtain ⟨hunion, -, -⟩ := split_without_loss loadJob hproper hd hoperation (by decide) hexec
  obtain ⟨handed, rendered, hhanded, -, -, herror, hsuccess⟩ :=
    hunion _ [(⟨some "b", ⟨2⟩⟩, 1), (⟨some "d", ⟨4⟩⟩, 3)]
      [(⟨some "a", ⟨1⟩⟩, 0), (⟨some "c", ⟨3⟩⟩, 2)] rfl rfl
  refine ⟨e, rfl, handed, hhanded, ?_, ?_⟩
  · cases hsuccess with
    | subset _ _ hselects => apply hselects
  · cases herror with
    | subset _ _ hselects => apply hselects

end Job

end ServiceBindings
