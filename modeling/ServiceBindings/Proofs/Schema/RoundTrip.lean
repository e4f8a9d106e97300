import ServiceBindings.Proofs.Schema.Linking
import ServiceBindings.Proofs.Schema.ServiceCodec

/-!
# Schemas read back

The document of a schema leaves out the lists that linking rebuilds, and linking changes nothing
else.  So the text of a schema is read and linked to the same schema, if the numbers among its
literal values are read back from their texts.
-/

namespace ServiceBindings

open Json

namespace TypeGraph

/-! ### Linking keeps the document -/

variable {graph other third : TypeGraph}

/-- Whether the same is written for two graphs. -/
structure WrittenAlike (graph other : TypeGraph) : Prop where
  types : other.types = graph.types
  namespaces : other.namespaces.map Namespace.encode = graph.namespaces.map Namespace.encode

theorem WrittenAlike.refl (graph : TypeGraph) : WrittenAlike graph graph where
  types := rfl
  namespaces := rfl

theorem WrittenAlike.trans (h : WrittenAlike graph other) (h' : WrittenAlike other third) :
  WrittenAlike graph third where
  types := h'.types.trans h.types
  namespaces := h'.namespaces.trans h.namespaces

/-- Listing something in a namespace does not change what is written. -/
theorem writtenAlike_modifyNamespace (id : NamespaceId) {f : Namespace → Namespace}
    (hf : ∀ ns, (f ns).encode = ns.encode) :
  WrittenAlike graph (graph.modifyNamespace id f) where
  types := rfl
  namespaces := by
    apply List.ext_getElem?
    intro i
    rw [List.getElem?_map, List.getElem?_map]
    exact map_modifyNamespace hf id ⟨i⟩

theorem writtenAlike_clearLists : WrittenAlike graph graph.clearLists where
  types := rfl
  namespaces := by
    rw [clearLists, List.map_map]
    rfl

theorem writtenAlike_linkChildren {error : Option CompileError} {ids : List NamespaceId}
    (h : graph.linkChildren ids = (other, error)) :
  WrittenAlike graph other
  := by
  induction ids generalizing graph with
  | nil =>
      cases h
      exact WrittenAlike.refl _
  | cons id ids ih =>
      rw [linkChildren] at h
      split at h
      case h_1 =>
        cases h
        exact WrittenAlike.refl _
      case h_2 parent _ =>
        have hlisted : WrittenAlike graph (graph.listChild parent id) :=
          writtenAlike_modifyNamespace parent fun _ => rfl
        exact hlisted.trans (ih h)

theorem writtenAlike_linkTypes {error : Option CompileError} {kinds : List (TypeId × TypeKind)}
    (h : graph.linkTypes kinds = (other, error)) :
  WrittenAlike graph other
  := by
  induction kinds generalizing graph with
  | nil =>
      cases h
      exact WrittenAlike.refl _
  | cons entry kinds ih =>
      rw [linkTypes] at h
      split at h
      case h_1 =>
        cases h
        exact WrittenAlike.refl _
      case h_2 =>
        have hlisted : WrittenAlike graph (graph.linkType entry.1 entry.2) := by
          rw [linkType]
          split
          case h_1 owner _ => exact writtenAlike_modifyNamespace owner fun _ => rfl
          case h_2 => exact WrittenAlike.refl graph
        exact hlisted.trans (ih h)

/-- The same is written for a graph whether it is linked or not. -/
theorem writtenAlike_link (h : graph.link = (other, none)) : WrittenAlike graph other := by
  rw [link] at h
  split at h
  case h_1 => cases h
  case h_2 =>
    split at h
    case isTrue => cases h
    case isFalse =>
      split at h
      case h_1 => cases h
      case h_2 middle hmiddle =>
        split at h
        case h_1 => cases h
        case h_2 =>
          have hchildren := writtenAlike_linkChildren hmiddle
          exact (writtenAlike_clearLists.trans hchildren).trans (writtenAlike_linkTypes h)

end TypeGraph

namespace Schema

/-- The same is written for a schema and for what it was made from. -/
theorem encode_of_make {graph : TypeGraph} {service : Service} {schema : Schema}
    (h : make graph service = .ok schema) :
  schema.encode = encode ⟨graph, service⟩ ∧ schema.graph.types = graph.types
  := by
  rw [make] at h
  split at h
  case h_1 => cases h
  case h_2 linked hlink =>
    obtain ⟨htypes, hnamespaces⟩ := TypeGraph.writtenAlike_link hlink
    cases hcheck : checkService linked service with
    | error error =>
        rw [hcheck] at h
        cases h
    | ok _ =>
        rw [hcheck] at h
        cases h
        constructor
        · simp only [encode, encodeList, hnamespaces, htypes]
        · exact htypes

/-! ### Documents -/

/-- A decoded document is decoded again from what is written for it. -/
theorem decode_encode {json : Json} {schema : Schema} (h : Schema.decode json = some schema)
    (hread : ∀ node ∈ schema.graph.types, node.kind.ReadsBack) :
  Schema.decode schema.encode = some schema ∧ ReadsBack maxDepth schema.encode
  := by
  cases json with
  | object members =>
      rw [Schema.decode] at h
      split at h
      case isFalse => cases h
      case isTrue =>
        split at h
        case h_2 => cases h
        case h_1 =>
          simp only [Option.bind_eq_bind, Option.bind_eq_some_iff, Option.pure_def,
            Option.some.injEq] at h
          obtain ⟨namespaces, hnamespaces, types, htypes, service, hservice, rfl⟩ := h
          obtain ⟨hnamespaces, hreadNamespaces⟩ := (Namespace.codec 119).list.required hnamespaces
          obtain ⟨htypes, hreadTypes⟩ := (TypeNode.codec 119).listField htypes
          obtain ⟨hservice, hreadService⟩ := (Service.codec 119).required hservice
          have hnamespaces' := hreadNamespaces fun _ _ => trivial
          have htypes' := hreadTypes hread
          have hservice' := hreadService trivial
          constructor
          · have hsound : documentIsSound
                ([("namespaces", encodeList Namespace.encode namespaces),
                  ("types", encodeList TypeNode.encode types),
                  ("service", service.encode)].map fun member => (some member.1, member.2))
                = true := by
              simp [documentIsSound, hnamespaces'.isSound, htypes'.isSound, maxDepth]
            rw [encode, ofMembers, Schema.decode, hsound, objectFields_members (by simp)]
            simp [List.lookup_cons, hnamespaces, htypes, hservice]
          · show ReadsBack (126 + 1) (encode _)
            rw [encode, readsBack_ofMembers]
            simp only [List.forall_mem_cons]
            exact ⟨hnamespaces', htypes', hservice', List.forall_mem_nil _⟩
  | _ => cases h

/-- Every schema that is read from a document is read from the text written for it: reading that
text succeeds and gives the same schema, with the same lists of children and declarations.  The
numbers among its literal values must be read back from their texts. -/
theorem ofText_toText {text : String} {schema : Schema} (h : Schema.ofText text = .ok schema)
    (hnumbers : ∀ node ∈ schema.graph.types, ∀ x, .number x ∈ node.kind.literals →
      JsonNumber.read (writeNumber (.fraction x)) = some (.fraction x, [])) :
  Schema.ofText schema.toText = .ok schema
  := by
  rw [ofText] at h
  split at h
  case h_1 => cases h
  case h_2 raw hraw =>
    obtain ⟨json, -, hdecode⟩ := Option.bind_eq_some_iff.mp hraw
    obtain ⟨hencode, htypes⟩ := encode_of_make h
    have hread : ∀ node ∈ raw.graph.types, node.kind.ReadsBack := by
      intro node hnode value hvalue
      rw [← htypes] at hnode
      cases value with
      | number x => exact hnumbers node hnode x hvalue
      | bool value => trivial
      | string text => trivial
    obtain ⟨hdecode, hback⟩ := decode_encode hdecode hread
    have htext : (Json.read schema.toText).bind Schema.decode = some raw := by
      rw [toText, hencode, hback.read_write]
      exact hdecode
    rw [ofText, htext]
    exact h

/-- A document with a namespace in the global one, an escape and a number, its members in an order
of their own and some records written as arrays. -/
def shopText : String :=
  "\x7b\"types\":[\x7b\"name\":\"Size\",\"namespace\":1,\"kind\":\"enum\",\"members\":[[\"S\",0.5]]\x7d],"
    ++ "\"namespaces\":[[\"\"],\x7b\"name\":\"L\\u00e4\\n\",\"parent\":0\x7d],\"service\":[1]\x7d"

/-- The schema of the document. -/
def shopSchema : Schema where
  graph := {
    namespaces := [
      { name := "", children := [⟨1⟩] },
      { name := "Lä\n", parent := some .global, declarations := [⟨0⟩] }]
    types := [
      { kind := .enum {
          name := "Size"
          owner := ⟨1⟩
          members := [{ name := "S", value := some (.number ⟨false, 4503599627370496, -53⟩) }] } }] }
  service := { root := ⟨1⟩ }

/-- The schema of the document is also that of the text written for it. -/
theorem ofText_toText_shop :
  Schema.ofText shopText = .ok shopSchema ∧ Schema.ofText shopSchema.toText = .ok shopSchema
  := by
  have hshop : Schema.ofText shopText = .ok shopSchema := by decide +kernel
  use hshop
  apply ofText_toText hshop
  intro node hnode x hx
  obtain rfl := List.mem_singleton.mp hnode
  obtain rfl : x = ⟨false, 4503599627370496, -53⟩ := by simpa [TypeKind.literals] using hx
  decide +kernel

end Schema

end ServiceBindings
