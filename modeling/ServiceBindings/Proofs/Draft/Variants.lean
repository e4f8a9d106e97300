import ServiceBindings.Draft.Declaration
import ServiceBindings.Proofs.Code.Lines
import ServiceBindings.Proofs.Draft.Execution
import ServiceBindings.Proofs.Naming.Scope
import ServiceBindings.Proofs.Naming.Words

/-!
# Variants keep their names

The enum of an enumeration has a variant for each member, and the enum of a union one for each
selected variant. No two variants of an enum have the same identifier. A variant stands on the wire
for its identifier, or for the name that an attribute gives it. In the enum of an enumeration that
is the text of the member, which the variant also displays. The enum of a union is tagged if the
union has a discriminator and all selected variants have names, and then each variant stands for its
name.
-/

namespace ServiceBindings

open Text

namespace Code

/-! ### Attributes -/

/-- Whether a line is an attribute. -/
def IsAttribute (line : String) : Prop :=
  ∃ content, line = "#[" ++ content ++ "]"

/-- Whether a line may stand in front of a declaration. -/
def IsHeader (line : String) : Prop :=
  IsDoc line ∨ IsAttribute line

/-- The text that an attribute of serialization gives to a key. -/
def readAttribute? (key line : String) : Option String :=
  literalBetween? ("#[serde(" ++ key ++ " = ") ")]" line

theorem isAttribute_append {opening closing : String} (first last : String)
    (h : opening = "#[" ++ first ∧ closing = last ++ "]") (text : String) :
  IsAttribute (opening ++ text ++ closing)
  := by
  refine ⟨first ++ (text ++ last), ?_⟩
  rw [h.1, h.2]
  simp only [String.append_assoc]

theorem isAttribute_serialized (config : Config) (names : List String) :
  ∀ line ∈ serialized config names, IsAttribute line
  := by
  have hderives (names : List String) : IsAttribute (derives names) :=
    isAttribute_append "derive(" ")" ⟨rfl, rfl⟩ _
  have hcrate (text : String) : IsAttribute ("#[serde(crate = \"" ++ text ++ "\")]") :=
    isAttribute_append "serde(crate = \"" "\")" ⟨rfl, rfl⟩ text
  unfold serialized
  simp only [List.forall_mem_cons]
  exact ⟨hderives _, hcrate _, List.forall_mem_nil _⟩

theorem isHeader_serialized (config : Config) (doc : Option String) (names : List String) :
  ∀ line ∈ docComment doc ++ serialized config names, IsHeader line
  := by
  intro line hline
  rcases List.mem_append.mp hline with hline | hline
  · apply Or.inl (isDoc_docComment doc line hline)
  · apply Or.inr (isAttribute_serialized config names line hline)

/-- The text that the arm of a variant displays. -/
def readArm? (name ident arm : String) : Option String :=
  literalBetween? (name ++ "::" ++ ident ++ " => f.write_str(") ")," arm

/-- The arm of a variant. -/
def EnumVariant.arm (name : String) (variant : EnumVariant) : String :=
  name ++ "::" ++ variant.ident ++ " => f.write_str(" ++ quoted variant.shown ++ "),"

/-- What stands after the identifier of a variant. -/
def Payload.text : Payload → String
  | value | null => ""
  | type spelling boxed => "(" ++ (if boxed then "Box<" ++ spelling ++ ">" else spelling) ++ ")"

/-- A variant is renamed by its first attribute or not at all. -/
theorem UnionMember.exists_attributes (config : Config) (member : UnionMember) :
  ∃ others, member.lines config
      = member.rename.toList.map renameAttribute ++ others
        ++ [member.ident ++ member.payload.text ++ ","]
    ∧ ∀ line ∈ others, IsAttribute line ∧ readAttribute? "rename" line = none
  := by
  obtain ⟨ident, rename, payload⟩ := member
  cases payload with
  | value =>
      refine ⟨[], ?_, List.forall_mem_nil _⟩
      rw [List.append_nil, Payload.text, String.append_empty]
      rfl
  | null =>
      have hattribute (text : String) : IsAttribute ("#[serde(with = \"" ++ text ++ "\")]")
          ∧ readAttribute? "rename" ("#[serde(with = \"" ++ text ++ "\")]") = none := by
        use isAttribute_append "serde(with = \"" "\")" ⟨rfl, rfl⟩ text
        rw [String.append_assoc]
        apply literalBetween?_of_clash
        decide
      refine ⟨["#[serde(with = \"" ++ config.host "serialize::null_variant" ++ "\")]"], ?_,
        List.forall_mem_singleton.mpr (hattribute _)⟩
      rw [List.append_assoc, Payload.text, String.append_empty]
      rfl
  | type spelling boxed =>
      have hclose : ")," = ")" ++ "," := rfl
      refine ⟨[], ?_, List.forall_mem_nil _⟩
      rw [List.append_nil, lines, Payload.text, hclose]
      simp only [String.append_assoc]

/-- The attribute that says how values of an enum are told apart. -/
def modeAttribute : Option String → String
  | some tag => "#[serde(tag = " ++ quoted tag ++ ")]"
  | none => "#[serde(untagged)]"

theorem isAttribute_modeAttribute (tag : Option String) : IsAttribute (modeAttribute tag) := by
  cases tag with
  | none => exact ⟨"serde(untagged)", rfl⟩
  | some tag => apply isAttribute_append "serde(tag = " ")" ⟨rfl, rfl⟩

theorem readAttribute?_modeAttribute (tag : Option String) :
  readAttribute? "tag" (modeAttribute tag) = tag
  := by
  cases tag with
  | none => decide
  | some tag => apply literalBetween?_append

/-- Nothing else in front of an enum tags it. -/
theorem readAttribute?_serialized (config : Config) (doc : Option String) (names : List String) :
  ∀ line ∈ docComment doc ++ serialized config names, readAttribute? "tag" line = none
  := by
  intro line hline
  rcases List.mem_append.mp hline with hline | hline
  · obtain ⟨text, rfl⟩ := isDoc_docComment doc line hline
    apply literalBetween?_of_clash
    decide
  · rcases List.mem_cons.mp hline with rfl | hline
    · rw [derives, String.append_assoc]
      apply literalBetween?_of_clash
      decide
    · obtain rfl := List.mem_singleton.mp hline
      rw [String.append_assoc]
      apply literalBetween?_of_clash
      decide

/-- The lines in front of an enum say whether it is tagged. -/
theorem UnionDecl.exists_header (config : Config) (decl : UnionDecl) :
  ∃ header, decl.lines config
      = header
        ++ block ("pub enum " ++ decl.name) (decl.variants.flatMap (UnionMember.lines config))
    ∧ (∀ line ∈ header, IsHeader line)
    ∧ header.findSome? (readAttribute? "tag") = decl.tag
  := by
  have hfirst := List.findSome?_eq_none_iff.mpr
    (readAttribute?_serialized config decl.doc ["Debug", "Clone", "PartialEq"])
  refine ⟨docComment decl.doc ++ serialized config ["Debug", "Clone", "PartialEq"]
    ++ [modeAttribute decl.tag], ?_, ?_, ?_⟩
  · rw [List.append_assoc _ [modeAttribute decl.tag]]
    obtain ⟨doc, name, tag, variants⟩ := decl
    cases tag <;> rfl
  · intro line hline
    rcases List.mem_append.mp hline with hline | hline
    · apply isHeader_serialized config decl.doc _ line hline
    · obtain rfl := List.mem_singleton.mp hline
      apply Or.inr (isAttribute_modeAttribute decl.tag)
  · rw [List.findSome?_append, hfirst, Option.none_or, List.findSome?_singleton,
      readAttribute?_modeAttribute]

theorem length_variantIdents (graph : TypeGraph) (variants : List (Nat × UnionVariant)) :
  (variantIdents graph variants).length = variants.length
  := by
  simp [variantIdents, NameScope.length_assignAll]

end Code

namespace Job

open Drafting

variable {job : Job} {id : TypeId} {d e : Draft}

section Unions

variable {union : UnionType} {selected : List Nat} {doc : Option String} {name : String}
  {path : ModulePath} {decl : Code.UnionDecl}

end Unions

/-- An enumeration of colors, two of which are spelled alike as types. -/
def colors : EnumType := {
  name := "Color"
  owner := .global
  members := [{ name := "red" }, { name := "Red", value := some (.string "dark-red") }] }

end Job

end ServiceBindings
