import ServiceBindings.Proofs.Draft.Variants
import ServiceBindings.Proofs.Schema.Containment

/-!
# Boxes break every cycle

A struct or an enum that holds itself without a box has no finite size.  The lines of a struct
declare its fields and those of an enum its payloads, with a box around the types of exactly the
recursive members of the record or the union.  So whatever is held without a box, be it inside of
arrays and maps, never leads back to where it is held.
-/

namespace ServiceBindings

namespace TypeGraph

instance (graph : TypeGraph) (id : TypeId) (member : Member) :
    Decidable (graph.Recursive id member) :=
  match member with
  | .field name => inferInstanceAs (Decidable (name ∈ graph.recursiveFields id))
  | .variant index => inferInstanceAs (Decidable (index ∈ graph.recursiveVariants id))

/-- How a member holds a type: in a box if the member is recursive. -/
def heldText (graph : TypeGraph) (id : TypeId) (member : Member) (type : String) : String :=
  if graph.Recursive id member then "Box<" ++ type ++ ">" else type

end TypeGraph

namespace Code.RecordField

/-- What stands in front of a field. -/
theorem exists_header (field : RecordField) :
  ∃ header, field.lines = header ++ ["pub " ++ field.ident ++ ": " ++ field.declaredType ++ ","]
    ∧ ∀ line ∈ header, IsHeader line
  := by
  refine ⟨_, rfl, ?_⟩
  simp only [List.forall_mem_append]
  refine ⟨⟨⟨?_, ?_⟩, ?_⟩, ?_⟩
  · intro line hline
    apply Or.inl (isDoc_docComment field.doc line hline)
  · intro line hline
    right
    split at hline
    case isTrue =>
      obtain rfl := List.mem_singleton.mp hline
      exact ⟨"serde(default, skip_serializing_if = \"Option::is_none\")", rfl⟩
    case isFalse => cases hline
  · intro line hline
    obtain ⟨adapter, -, rfl⟩ := List.mem_map.mp hline
    apply Or.inr (isAttribute_append "serde_as(as = \"" "\")" ⟨rfl, rfl⟩ _)
  · intro line hline
    obtain ⟨wire, -, rfl⟩ := List.mem_map.mp hline
    apply Or.inr (isAttribute_append "serde(rename = " ")" ⟨rfl, rfl⟩ _)

end Code.RecordField

/-- What stands in front of a struct and after it. -/
theorem Code.RecordDecl.exists_header (config : Config) (record : RecordDecl) :
  ∃ header footer, record.lines config
      = header ++ blockOrBraces ("pub struct " ++ record.name)
          (record.fields.map RecordField.lines).flatten ++ footer
    ∧ (∀ line ∈ header, IsHeader line)
    ∧ (footer = [] ∨ ∃ constants, footer = "" :: block ("impl " ++ record.name) constants)
  := by
  refine ⟨_, _, rfl, ?_, ?_⟩
  · rw [List.append_assoc, List.forall_mem_append, List.forall_mem_append]
    refine ⟨?_, ?_, ?_⟩
    · intro line hline
      apply Or.inl (isDoc_docComment record.doc line hline)
    · intro line hline
      split at hline
      case isTrue =>
        obtain rfl := List.mem_singleton.mp hline
        right
        refine ⟨config.reexported "serde_with" ++ "::serde_as(crate = \""
          ++ config.reexported "serde_with" ++ "\")", ?_⟩
        simp only [String.append_assoc]
        rfl
      case isFalse => cases hline
    · intro line hline
      apply Or.inr (isAttribute_serialized config _ line hline)
  · split
    case isTrue => apply Or.inl rfl
    case isFalse => exact Or.inr ⟨_, rfl⟩

namespace Job

open Drafting Relation

variable {job : Job} {id : TypeId} {d e : Draft}

/-! ### How members are held -/

/-- Whether lines declare a field of a struct: what stands in front of it, its name, and the type
that is spelled for it, held as the field holds it. -/
structure HoldsField (job : Job) (id : TypeId) (name : String) (path : ModulePath) (field : Field)
    (lines : List String) : Prop where
  exists_lines : ∃ d e type header,
    exec (job.spell field.type field.span .owned path (name ++ pascalCase field.name)) d
      = (.ok type, e)
    ∧ (∀ line ∈ header, Code.IsHeader line)
    ∧ lines = header ++ ["pub " ++ Identifier.valueName field.name ++ ": "
        ++ (if field.optional then
            "Option<" ++ job.graph.heldText id (.field field.name) type ++ ">"
          else job.graph.heldText id (.field field.name) type) ++ ","]

/-- Whether lines declare a struct with some fields. -/
structure HoldsFields (job : Job) (id : TypeId) (name : String) (path : ModulePath)
    (fields : List Field) (lines : List String) : Prop where
  exists_lines : ∃ header groups footer,
    lines = header ++ Code.blockOrBraces ("pub struct " ++ name) groups.flatten ++ footer
    ∧ (∀ line ∈ header, Code.IsHeader line)
    ∧ (footer = [] ∨ ∃ constants, footer = "" :: Code.block ("impl " ++ name) constants)
    ∧ List.Forall₂ (job.HoldsField id name path) fields groups

/-- Whether lines declare a variant of an enum: its attributes, its identifier, and the type that is
spelled for it, held as the variant holds it.  A variant that is a single value holds nothing. -/
structure HoldsVariant (job : Job) (id : TypeId) (name : String) (path : ModulePath)
    (variant : Nat × UnionVariant) (lines : List String) : Prop where
  exists_lines : ∃ attributes ident payload,
    lines = attributes ++ [ident ++ payload ++ ","]
    ∧ (∀ line ∈ attributes, Code.IsAttribute line)
    ∧ (payload = ""
        ∧ (job.graph.kind? variant.2.type = some (.intrinsic .null)
          ∨ ∃ value, job.graph.kind? variant.2.type = some (.literal value))
      ∨ ∃ d e type,
        exec (job.spell variant.2.type none .owned path (name ++ Identifier.dropRaw ident)) d
          = (.ok type, e)
        ∧ payload = "(" ++ job.graph.heldText id (.variant variant.1) type ++ ")")

/-- Whether lines declare an enum with some variants. -/
structure HoldsVariants (job : Job) (id : TypeId) (name : String) (path : ModulePath)
    (variants : List (Nat × UnionVariant)) (lines : List String) : Prop where
  exists_lines : ∃ header groups,
    lines = header ++ Code.block ("pub enum " ++ name) groups.flatten
    ∧ (∀ line ∈ header, Code.IsHeader line)
    ∧ List.Forall₂ (job.HoldsVariant id name path) variants groups

theorem recordField_holds {name : String} {path : ModulePath} {field : Field}
    {code : Code.RecordField} (h : exec (job.recordField id name path field) d = (.ok code, e)) :
  job.HoldsField id name path field code.lines
  := by
  obtain ⟨type, d', htype, h⟩ := exec_bind_eq_ok.mp h
  obtain ⟨adapter, e', -, h⟩ := exec_bind_eq_ok.mp h
  cases h
  obtain ⟨header, hlines, hheader⟩ := Code.RecordField.exists_header _
  refine ⟨d, d', type, header, htype, hheader, ?_⟩
  rw [hlines, Code.RecordField.declaredType, TypeGraph.heldText]
  simp only [decide_eq_true_eq, TypeGraph.Recursive]
  rfl

/-- The lines of a struct declare the fields of the record that have more than one value. -/
theorem recordDecl_holds {record : RecordType} {name : String} {path : ModulePath}
    {decl : Code.RecordDecl} (h : exec (job.recordDecl id record name path) d = (.ok decl, e)) :
  job.HoldsFields id name path (record.fields.filter fun field => !job.graph.isValue field.type)
    (decl.lines job.config)
  := by
  obtain ⟨fields, e', hfields, h⟩ := exec_bind_eq_ok.mp h
  cases h
  obtain ⟨header, footer, hlines, hheader, hfooter⟩ :=
    Code.RecordDecl.exists_header job.config _
  refine ⟨header, fields.map Code.RecordField.lines, footer, hlines, hheader, hfooter, ?_⟩
  rw [List.forall₂_map_right_iff]
  apply (forall₂_of_mapM hfields).imp
  rintro field code ⟨d, e, hfield⟩
  apply recordField_holds hfield

theorem payload_holds {name : String} {path : ModulePath} {ident : String} {index : Nat}
    {variant : UnionVariant} {payload : Code.Payload} {rename : Option String}
    (h : exec (job.payload id path (name ++ Identifier.dropRaw ident) index variant) d
      = (.ok payload, e)) :
  job.HoldsVariant id name path (index, variant)
    (Code.UnionMember.lines job.config ⟨ident, rename, payload⟩)
  := by
  obtain ⟨others, hlines, hothers⟩ :=
    Code.UnionMember.exists_attributes job.config ⟨ident, rename, payload⟩
  refine ⟨rename.toList.map Code.renameAttribute ++ others, ident, payload.text, hlines, ?_, ?_⟩
  · rw [List.forall_mem_append]
    refine ⟨?_, fun line hline => (hothers line hline).1⟩
    intro line hline
    obtain ⟨wire, -, rfl⟩ := List.mem_map.mp hline
    apply Code.isAttribute_append "serde(rename = " ")" ⟨rfl, rfl⟩
  unfold Job.payload at h
  split at h
  case h_1 hkind =>
    cases h
    exact Or.inl ⟨rfl, Or.inl hkind⟩
  case h_2 value hkind =>
    cases h
    exact Or.inl ⟨rfl, Or.inr ⟨value, hkind⟩⟩
  case h_3 =>
    obtain ⟨type, _, htype, h⟩ := exec_bind_eq_ok.mp h
    cases h
    right
    refine ⟨d, _, type, htype, ?_⟩
    simp only [Code.Payload.text, decide_eq_true_eq, TypeGraph.heldText, TypeGraph.Recursive]
    rfl

/-- The lines of an enum declare the selected variants of the union. -/
theorem unionDecl_holds {union : UnionType} {selected : List Nat} {doc : Option String}
    {name : String} {path : ModulePath} {decl : Code.UnionDecl}
    (h : exec (job.unionDecl id union selected doc name path) d = (.ok decl, e)) :
  job.HoldsVariants id name path (Code.selectVariants union selected) (decl.lines job.config)
  := by
  have hlength := Code.length_variantIdents job.graph (Code.selectVariants union selected)
  obtain ⟨members, e', hmembers, h⟩ := exec_bind_eq_ok.mp h
  cases h
  obtain ⟨header, hlines, hheader, -⟩ := Code.UnionDecl.exists_header job.config _
  refine ⟨header, members.map (Code.UnionMember.lines job.config), hlines, hheader, ?_⟩
  rw [← List.map_snd_zip (Nat.le_of_eq hlength.symm), List.forall₂_map_left_iff,
    List.forall₂_map_right_iff]
  apply (forall₂_of_mapM hmembers).imp
  rintro ⟨ident, index, variant⟩ member ⟨d, e, hmember⟩
  obtain ⟨payload, e', hpayload, hmember⟩ := exec_bind_eq_ok.mp hmember
  cases hmember
  apply payload_holds hpayload

/-! ### Finite types -/

/-- Every emitted type is finite.  A struct declares the fields of its record and an enum the
payloads of its union with their types, in a box exactly if the field or the variant is recursive.
Held without a box, by members that are not recursive, no record and no union holds itself along a
chain of such steps; and each field or variant that lies on a cycle of containment, because its type
leads back to where it belongs, is recursive. -/
theorem boxes_break_cycles (job : Job) :
  (∀ id record name path d decl e, exec (job.recordDecl id record name path) d = (.ok decl, e) →
    job.HoldsFields id name path (record.fields.filter fun field => !job.graph.isValue field.type)
      (decl.lines job.config))
  ∧ (∀ id union selected doc name path d decl e,
    exec (job.unionDecl id union selected doc name path) d = (.ok decl, e) →
    job.HoldsVariants id name path (Code.selectVariants union selected) (decl.lines job.config))
  ∧ (∀ id, ¬TransGen job.graph.HoldsInline id id)
  ∧ ∀ id member type, job.graph.HasMember id member type →
      ReflTransGen job.graph.Contains type id → job.graph.Recursive id member
  := by
  refine ⟨?_, ?_, ?_, ?_⟩
  · intro id record name path d decl e h
    apply recordDecl_holds h
  · intro id union selected doc name path d decl e h
    apply unionDecl_holds h
  · apply job.graph.holdsInline_acyclic
  · intro id member type hmember hreach
    apply TypeGraph.recursive_iff.mpr ⟨type, hmember, hreach⟩

/-- The field of a tree that holds a record of its own. -/
def labelField : Field := { name := "label", type := ⟨1⟩ }

/-- The field of a tree that holds an array of trees. -/
def childrenField : Field := { name := "children", type := ⟨2⟩ }

/-- A record of trees. -/
def treeRecord : RecordType :=
  { name := some "Tree", owner := some .global, fields := [labelField, childrenField] }

/-- The compilation of trees, their labels and arrays of trees. -/
def treeJob : Job :=
  { graph := {
      namespaces := [{ name := "", declarations := [⟨0⟩, ⟨1⟩] }]
      types := [
        { kind := .record treeRecord },
        { kind := .record { name := some "Label", owner := some .global } },
        { kind := .array ⟨0⟩ }] }
    service := { root := .global }
    config := {} }

/-- The struct of trees holds its label without a box and its subtrees in one. -/
theorem boxes_break_cycles_tree :
  ∃ decl e, exec (treeJob.recordDecl ⟨0⟩ treeRecord "Tree" ⟨["models"]⟩) .start = (.ok decl, e)
    ∧ treeJob.HoldsFields ⟨0⟩ "Tree" ⟨["models"]⟩ [labelField, childrenField]
      (decl.lines treeJob.config)
    ∧ (∀ type, treeJob.graph.heldText ⟨0⟩ (.field "label") type = type)
    ∧ (∀ type, treeJob.graph.heldText ⟨0⟩ (.field "children") type = "Box<" ++ type ++ ">")
    ∧ treeJob.graph.HoldsInline ⟨0⟩ ⟨1⟩ ∧ ¬TransGen treeJob.graph.HoldsInline ⟨0⟩ ⟨0⟩
  := by
  obtain ⟨hrecord, -, hacyclic, hcycle⟩ := boxes_break_cycles treeJob
  have hrecursive : treeJob.graph.recursiveFields ⟨0⟩ = ["children"] := by
    have hids : treeJob.graph.typeIds = [⟨0⟩, ⟨1⟩, ⟨2⟩] := rfl
    have hparts : treeJob.graph.parts ⟨1⟩ = [] ∧ treeJob.graph.parts ⟨2⟩ = [⟨0⟩] := ⟨rfl, rfl⟩
    have hkind : treeJob.graph.kind? ⟨0⟩ = some (.record treeRecord) := rfl
    simp [TypeGraph.recursiveFields, TypeGraph.reaches, TypeGraph.search, hids, hparts, hkind,
      treeRecord, labelField, childrenField, List.eraseDups_cons]
  have hlabel : ¬treeJob.graph.Recursive ⟨0⟩ (.field "label") := by
    rw [TypeGraph.Recursive, hrecursive]
    decide
  have hchildren : treeJob.graph.Recursive ⟨0⟩ (.field "children") := by
    have hfield : childrenField ∈ treeRecord.fields := by decide
    apply hcycle _ _ _ (TypeGraph.HasMember.field rfl hfield)
    apply ReflTransGen.single (List.mem_singleton_self _)
  have hok : (exec (treeJob.recordDecl ⟨0⟩ treeRecord "Tree" ⟨["models"]⟩) .start).1.isOk := by
    decide +kernel
  rcases hexec : exec (treeJob.recordDecl ⟨0⟩ treeRecord "Tree" ⟨["models"]⟩) .start
    with ⟨outcome, e⟩
  rw [hexec] at hok
  cases outcome with
  | error error => cases hok
  | ok decl =>
      refine ⟨decl, e, rfl, hrecord _ _ _ _ _ _ _ hexec, ?_, ?_, ?_, hacyclic _⟩
      · intro type
        apply if_neg hlabel
      · intro type
        apply if_pos hchildren
      · have hfield : labelField ∈ treeRecord.fields := by decide
        use .field labelField.name, ⟨1⟩, TypeGraph.HasMember.field rfl hfield, hlabel
        use ReflTransGen.refl
        left
        use { name := some "Label", owner := some .global }
        rfl

end Job

end ServiceBindings
