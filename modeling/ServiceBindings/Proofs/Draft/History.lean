import ServiceBindings.Proofs.Draft.Anchoring

/-!
# Histories of a session

A session can be asked for one thing after another, and it goes on when something fails.  Between
two points where it may stop it does one of a few things: its draft grows, a declaration is
requested, a subset is named, a split is recorded, the first declaration that waits is handed out
and written, or the root module is written.  A history is a sequence of these, and whatever is asked
of a session only makes its history longer.

What a session does by itself holds to no subset and no split that no operation has.
-/

namespace ServiceBindings

open Draft Drafting

namespace Job

variable (job : Job)

/-! ### Steps -/

/-- What a session does to its draft between two points where it may stop. -/
inductive Proceeds : Draft → Draft → Prop where
  | grow {d e : Draft} : Growth job.graph d e → Proceeds d e
  | request (d : Draft) (declaration : DeclarationRef) :
      Proceeds d { d with declarations := d.declarations.add declaration }
  | nameSubset (d : Draft) {union : TypeId} (variants : List Nat) {base : String} :
      d.subsets.lookup (union, base) = none → Proceeds d (d.nameSubset union variants base).2
  | split (d : Draft) {reference : OperationRef} (split : ReturnSplit) :
      d.splits.lookup reference = none →
      Proceeds d { d with splits := (reference, split) :: d.splits }
  | declaration {d : Draft} {declaration : DeclarationRef} {rest : Worklist DeclarationRef} :
      d.declarations.take? = some (declaration, rest) →
      Proceeds d (exec (job.writeDeclaration declaration) { d with declarations := rest }).2
  | synthetic {d : Draft} {synthetic : Synthetic} {rest : List Synthetic} :
      d.synthetics = synthetic :: rest →
      Proceeds d (exec (job.writeSynthetic synthetic) { d with synthetics := rest }).2
  | root (d : Draft) (m : ModuleId) : Proceeds d (exec (job.writeRoot m) d).2

/-- Any number of steps. -/
def History : Draft → Draft → Prop :=
  Relation.ReflTransGen job.Proceeds

variable {job} {d e : Draft}

/-- A step consists of moves. -/
theorem Proceeds.moves (h : job.Proceeds d e) : Moves job.graph d e := by
  have hmoves := follows_moves job.graph
  cases h with
  | grow hgrowth => apply hgrowth.moves
  | request declaration => apply hmoves.turn (.request d declaration)
  | nameSubset variants hnew => apply hmoves.turn (.nameSubset d variants hnew)
  | split split hnew => apply hmoves.turn (.split d split hnew)
  | declaration htake =>
      apply hmoves.trans (hmoves.turn (.take htake))
      apply writeDeclaration_stays hmoves
  | synthetic hqueue =>
      apply hmoves.trans (hmoves.turn (.takeSynthetic hqueue))
      apply writeSynthetic_stays hmoves
  | root m => apply writeRoot_stays hmoves

namespace History

theorem moves (h : job.History d e) : Moves job.graph d e := by
  induction h with
  | refl => apply Relation.ReflTransGen.refl
  | tail _ hstep ih => apply ih.trans hstep.moves

/-- A draft stays founded. -/
theorem founded (h : job.History d e) (hd : Founded d) : Founded e where
  toPlaced := h.moves.placed hd.toPlaced
  synthetic_lt := Nat.lt_of_lt_of_le hd.synthetic_lt h.moves.later.size

end History

/-! ### What a session does by itself -/

variable (job)

/-- Whether a call asks for no subset, and for a split only of an operation that its container
has. -/
def Call.IsProper (graph : TypeGraph) : Call → Prop
  | .subset .. => False
  | .split container operation => operation ∈ graph.operations container
  | _ => True

namespace Drives

variable {job} {R : Draft → Draft → Prop} (hR : job.Drives R)
include hR

/-- What a session is properly asked for it does by itself. -/
theorem call {call : Call} (hcall : call.IsProper job.graph) : Stays R (call.perform job) := by
  cases call with
  | spell id span use path preferred =>
      apply hR.bind_pure (hR.steady (job.spell_steady id span use path preferred))
  | subset => apply hcall.elim
  | split container operation => apply hR.bind_pure (hR.steady (job.splitReturn_steady hcall))
  | side part path => apply hR.bind_pure (hR.steady (job.spellSide_steady part path))
  | complete => apply hR.complete
  | run => apply hR.run

end Drives

/-! ### What is asked of a session -/

/-- What a session does by itself is a history. -/
theorem drives_history :
  job.Drives fun d e => Founded d → job.History d e where
  refl _ _ := .refl
  trans hcd hde hc := (hcd hc).trans (hde ((hcd hc).founded hc))
  steady hx d _ := .single (.grow (hx.grows d))
  request declaration d _ := .single (.request d declaration)
  declaration htake _ := .single (.declaration htake)
  synthetic hqueue _ := .single (.synthetic hqueue)
  surface http _ hd := .single (.grow ((job.writeSurface_extends http).growth hd rfl))
  root m d _ := .single (.root d m)

/-- The histories that start with a founded draft can be followed. -/
theorem tracks_history :
  Tracks job.graph fun d e => Founded d → job.History d e where
  toComposes := job.drives_history.toComposes
  steady := job.drives_history.steady
  nameSubset d _ variants _ hnew _ := .single (.nameSubset d variants hnew)
  split d _ split hnew _ := .single (.split d split hnew)

/-- Whatever is asked of a session, and whether it succeeds or not, the session proceeds. -/
theorem Call.history (call : Call) :
  Stays (fun d e => Founded d → job.History d e) (call.perform job)
  := by
  have hR := job.tracks_history
  cases call with
  | subset union variants path preferred =>
      apply hR.bind_pure (spellSubset_stays hR union variants path preferred)
  | split container operation => apply hR.bind_pure (splitReturn_stays hR container operation)
  | _ =>
      apply job.drives_history.call
      trivial

/-- The draft after a session was asked for some things, one after another. -/
def replay (calls : List Call) (draft : Draft) : Draft :=
  calls.foldl (fun draft call => (exec (call.perform job) draft).2) draft

theorem history_replay (calls : List Call) (hd : Founded d) :
  job.History d (job.replay calls d)
  := by
  induction calls generalizing d with
  | nil => apply Relation.ReflTransGen.refl
  | cons call calls ih =>
      have hcall := call.history job d hd
      apply hcall.trans (ih (hcall.founded hd))

theorem founded_start : Founded .start := (consistent_start ⟨[], []⟩).toFounded

/-- A session that was asked for some things is one. -/
theorem session_replay (calls : List Call) : job.Session (job.replay calls .start) :=
  (job.history_replay calls founded_start).moves

end Job

end ServiceBindings
