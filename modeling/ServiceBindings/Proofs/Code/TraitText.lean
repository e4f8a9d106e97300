import ServiceBindings.Code.Trait
import ServiceBindings.Proofs.Code.Lines

/-!
# The text of a trait

The lines of a trait have a signature for each of its methods.  If a method has optional parameters,
then a second signature takes a struct of them, and that struct stands in front of the trait.  Its
fields are read back from its block.
-/

namespace ServiceBindings.Code

open Text

/-! ### Signatures -/

/-- The line that declares a method with parameters after the receiver. -/
def signatureLine (name : String) (parameters : List (String × String)) (result : String) :
    String :=
  "    fn " ++ name ++ "(&mut self"
    ++ String.join (parameters.map fun (label, type) => ", " ++ label ++ ": " ++ type)
    ++ ") -> " ++ result ++ ";"

namespace Method

/-- Whether what a method is put together from stands on one line. -/
structure IsLegible (method : Method) : Prop where
  name : '\n' ∉ method.name.toList
  required : ∀ parameter ∈ method.required,
    '\n' ∉ parameter.1.toList ∧ '\n' ∉ parameter.2.toList
  optional : ∀ parameter ∈ method.optional,
    '\n' ∉ parameter.ident.toList ∧ ':' ∉ parameter.ident.toList ∧ '\n' ∉ parameter.type.toList
  result : '\n' ∉ method.result.toList
  optionsMethod : '\n' ∉ method.optionsMethod.toList
  optionsType : '\n' ∉ method.optionsType.toList

/-- The name of the method that takes all parameters. -/
def fullName (method : Method) : String :=
  if method.optional = [] then method.name else method.optionsMethod

/-- All parameters of a method; the optional ones are one struct. -/
def fullParameters (method : Method) : List (String × String) :=
  method.required ++ if method.optional = [] then [] else [("options", method.optionsType)]

variable {method : Method}

/-- The method that takes all parameters is declared. -/
theorem signatureLine_mem_indent (method : Method) :
  signatureLine method.fullName method.fullParameters method.result ∈ indent method.lines
  := by
  have hindent {name rest : String} (h : "fn " ++ name ++ rest ∈ method.lines) :
      "    fn " ++ name ++ rest ∈ indent method.lines := by
    have hmargin : "    fn " = "    " ++ "fn " := rfl
    have hindent := mem_indent h (by simp)
    rw [hmargin]
    simpa only [String.append_assoc] using hindent
  have hparameters : method.required.map parameterText
      = method.required.map fun (label, type) => ", " ++ label ++ ": " ++ type := rfl
  unfold signatureLine fullName fullParameters
  simp only [String.append_assoc] at hindent ⊢
  apply hindent
  rw [lines]
  apply List.mem_append_right
  by_cases hoptional : method.optional = []
  · rw [if_pos hoptional, if_pos hoptional, hoptional, if_pos (by rfl), List.append_nil,
      List.mem_singleton, head, hparameters]
    simp only [String.append_assoc]
  · rw [if_neg hoptional, if_neg hoptional, if_neg (by simpa using hoptional)]
    apply List.mem_append_right
    apply List.mem_cons_of_mem
    have hlabel : ", options: " = ", " ++ "options" ++ ": " := rfl
    rw [List.mem_singleton, head, hparameters, List.map_append, String.join_append, hlabel]
    simp only [List.map_cons, List.map_nil, String.join_cons, String.join_nil,
      String.append_empty, String.append_assoc]

theorem IsLegible.isLine_signatureLine (h : method.IsLegible) :
  IsLine (signatureLine method.fullName method.fullParameters method.result)
  := by
  have hname : '\n' ∉ method.fullName.toList := by
    unfold fullName
    split
    case isTrue => apply h.name
    case isFalse => apply h.optionsMethod
  have hparameter : ∀ parameter ∈ method.fullParameters,
      '\n' ∉ parameter.1.toList ∧ '\n' ∉ parameter.2.toList := by
    rw [fullParameters, List.forall_mem_append]
    refine ⟨h.required, ?_⟩
    split
    case isTrue => apply List.forall_mem_nil
    case isFalse =>
      have hlabel : '\n' ∉ "options".toList := by decide
      rw [List.forall_mem_singleton]
      exact ⟨hlabel, h.optionsType⟩
  have hparameters : ∀ text ∈ method.fullParameters.map
      fun (label, type) => ", " ++ label ++ ": " ++ type, '\n' ∉ text.toList := by
    intro text htext
    obtain ⟨parameter, hmem, rfl⟩ := List.mem_map.mp htext
    simp [hparameter parameter hmem]
  apply isLine_append _ (by decide) (by decide)
  simp only [String.toList_append, List.mem_append, not_or]
  exact ⟨⟨⟨⟨⟨by decide, hname⟩, by decide⟩, feed_not_mem_join hparameters⟩, by decide⟩, h.result⟩

/-! ### Structs of optional parameters -/

/-- The line of a field of the struct of optional parameters, after its documentation. -/
def fieldLines (parameter : OptionalParameter) : List String :=
  docComment parameter.doc
    ++ ["pub " ++ parameter.ident ++ ": " ++ optionOf parameter.type ++ ","]

/-- The block of the struct of optional parameters. -/
def optionsBlock (method : Method) : List String :=
  block ("pub struct " ++ method.optionsType) (method.optional.flatMap fieldLines)

end Method

/-- The fields of the struct of a name, from its block; a field may have documentation. -/
def readStruct? (name : String) (lines : List String) : Option (List String) :=
  (readBlock? lines).bind fun (head, body) =>
    if head = "pub struct " ++ name then
      (body.filter fun line => (after? "///" line).isNone).mapM fun line =>
        (after? "pub " line).bind readFieldName?
    else none

namespace Method

variable {method : Method}

theorem filter_fieldLines (parameter : OptionalParameter) :
  (fieldLines parameter).filter (fun line => (after? "///" line).isNone)
    = ["pub " ++ parameter.ident ++ ": " ++ optionOf parameter.type ++ ","]
  := by
  have hdocs : (docComment parameter.doc).filter (fun line => (after? "///" line).isNone) = [] := by
    rw [List.filter_eq_nil_iff]
    intro line hline
    obtain ⟨text, rfl⟩ := isDoc_docComment parameter.doc line hline
    simp
  have hfield (rest : String) : (after? "///" ("pub " ++ rest)).isNone = true := by
    rw [after?_append_of_clash (by decide), Option.isNone_none]
  rw [fieldLines, List.filter_append, hdocs, List.nil_append, List.filter_cons_of_pos,
    List.filter_nil]
  simpa only [String.append_assoc] using hfield _

/-- The fields of a struct of optional parameters are read back. -/
theorem IsLegible.readStruct?_optionsBlock (h : method.IsLegible) :
  readStruct? method.optionsType method.optionsBlock = some (method.optional.map (·.ident))
  := by
  have hfield {parameter : OptionalParameter} (hparameter : parameter ∈ method.optional) :
      (after? "pub " ("pub " ++ parameter.ident ++ ": " ++ optionOf parameter.type ++ ",")).bind
        readFieldName? = some parameter.ident := by
    obtain ⟨-, hcolon, -⟩ := h.optional parameter hparameter
    simp only [String.append_assoc, after?_append, Option.bind_some]
    rw [← String.append_assoc]
    apply readFieldName?_append hcolon
  rw [optionsBlock, readStruct?, readBlock?_block, Option.bind_some]
  dsimp only
  rw [if_pos rfl, List.filter_flatMap]
  simp only [filter_fieldLines]
  generalize method.optional = parameters at hfield
  induction parameters with
  | nil => rfl
  | cons parameter parameters ih =>
      rw [List.flatMap_cons, List.singleton_append, List.mapM_cons,
        hfield List.mem_cons_self, ih fun hmem => hfield (List.mem_cons_of_mem _ hmem)]
      rfl

theorem IsLegible.isLine_optionsBlock (h : method.IsLegible) :
  ∀ line ∈ method.optionsBlock, IsLine line
  := by
  apply isLine_block
  · simp [h.optionsType]
  · intro line hline
    obtain ⟨parameter, hparameter, hline⟩ := List.mem_flatMap.mp hline
    obtain ⟨hident, -, htype⟩ := h.optional parameter hparameter
    rcases List.mem_append.mp hline with hline | hline
    · apply isLine_docComment _ line hline
    · rw [List.mem_singleton.mp hline]
      apply isLine_append _ (by decide) (by decide)
      simp [optionOf, hident, htype]

end Method

/-! ### Traits -/

namespace TraitDecl

variable {container : TraitDecl} {method : Method}

theorem head_mem_lines (container : TraitDecl) :
  ("pub trait " ++ container.name ++ " \x7b") ∈ container.lines
  := by
  rw [lines, block, List.cons_append]
  apply List.mem_append_right _ List.mem_cons_self

theorem signatureLine_mem_lines (h : method ∈ container.methods) :
  signatureLine method.fullName method.fullParameters method.result ∈ container.lines
  := by
  have hlines : method.lines <:+: separated
      (["type Error<OperationError>: ::std::error::Error + Send + Sync + 'static;"]
        :: container.methods.map Method.lines) :=
    isInfix_separated (List.mem_cons_of_mem _ (List.mem_map_of_mem h))
  have hindent : indent method.lines <:+: _ := hlines.map _
  rw [lines, block]
  apply List.mem_append_right
  apply List.mem_append_left
  apply List.mem_cons_of_mem _ (hindent.subset method.signatureLine_mem_indent)

/-- The block of a struct of optional parameters stands in front of the trait. -/
theorem isInfix_optionsBlock (h : method ∈ container.methods) (hoptional : method.optional ≠ []) :
  method.optionsBlock <:+: container.lines
  := by
  have hmem : method ∈ container.methods.filter fun method => !method.optional.isEmpty := by
    rw [List.mem_filter]
    exact ⟨h, by simpa using hoptional⟩
  have hblock : method.optionsBlock <:+: method.optionsLines ++ [""] :=
    ⟨_ :: [_], [""], rfl⟩
  rw [lines, List.append_assoc]
  refine hblock.trans (List.IsInfix.trans ?_ (List.prefix_append _ _).isInfix)
  rw [List.flatMap_def]
  apply List.infix_of_mem_flatten (List.mem_map_of_mem hmem)

end TraitDecl

end ServiceBindings.Code
