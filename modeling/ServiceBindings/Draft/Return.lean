import ServiceBindings.Code.Lines
import ServiceBindings.Draft.Reference

/-!
# What operations return

The type that an operation returns has a success side and an error side. Error records belong to the
error side; a union is split variant by variant. The split of an operation is made once.
-/

namespace ServiceBindings

/-- The positions of the variants that are error records, or of the others. -/
def UnionType.side (graph : TypeGraph) (union : UnionType) (errors : Bool) : List Nat :=
  (union.variants.zipIdx.filter fun (variant, _) => graph.isErrorRecord variant.type == errors).map
    (·.2)

namespace Job

/-- The side of a union with given variants: nothing, a single variant, the whole union, or a subset
that gets a declaration of its own. -/
def returnSide (id : TypeId) (union : UnionType) (variants : List Nat) (name : String) :
    Drafting ReturnSide := do
  match variants with
  | [] => return .nothing
  | [single] =>
    match union.variants[single]? with
    | some variant => return .type variant.type name
    | none => return .nothing
  | _ =>
    if variants.length = union.variants.length then return .type id name
    else return .union ⟨syntheticPath, ← subsetName id variants name⟩

/-- The two sides of what an operation returns, made anew. -/
def makeSplit (job : Job) (container : Container) (operation : Operation) :
    Drafting ReturnSplit := do
  let name := pascalCase operation.name
  let id := operation.returnType
  match job.graph.kind? id with
  | some (.union union) =>
    let errors := union.side job.graph true
    let successName := name ++ if errors.isEmpty then "Response" else "SuccessResponse"
    -- A container without a module has no split.
    let _ ← job.placeOfContainer container
    let success ← returnSide id union (union.side job.graph false) successName
    let error ← returnSide id union errors (name ++ "ErrorResponse")
    return ⟨success, error⟩
  | _ =>
    if job.graph.isErrorRecord id then return ⟨.nothing, .type id (name ++ "ErrorResponse")⟩
    else return ⟨.type id (name ++ "Response"), .nothing⟩

/-- The two sides of what an operation returns. -/
def splitReturn (job : Job) (container : Container) (operation : Operation) :
    Drafting ReturnSplit := do
  let reference : OperationRef := ⟨container, operation.name⟩
  match (← get).splits.lookup reference with
  | some split => return split
  | none =>
    let split ← job.makeSplit container operation
    modify fun draft => { draft with splits := (reference, split) :: draft.splits }
    return split

/-- The spelling of a side as seen from the module at `path`. -/
def spellSide (job : Job) (side : ReturnSide) (path : ModulePath) : Drafting String := do
  match side with
  | .nothing => return Code.emptyType
  | .type id name => job.spell id none .owned path name
  | .union item => return item.relativeTo path

end Job

end ServiceBindings
