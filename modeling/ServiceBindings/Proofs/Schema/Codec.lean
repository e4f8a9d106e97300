import ServiceBindings.Proofs.Json.Codec

/-!
# Codecs of schemas

Every part of a schema is decoded again from what is written for it.  All of it reads back as JSON
but for numbers, which only read back if their text does.
-/

namespace ServiceBindings

open Json

/-! ### Types -/

theorem position_codec (room : Nat) : Codec room (fun _ => True) (asNatBelow positionBound) ofNat :=
  Codec.natBelow (by decide) room

theorem TypeId.codec (room : Nat) : Codec room (fun _ => True) TypeId.decode TypeId.encode :=
  (position_codec room).wrap (fun _ => rfl) (fun _ _ => trivial)

theorem NamespaceId.codec (room : Nat) :
  Codec room (fun _ => True) NamespaceId.decode NamespaceId.encode :=
  (position_codec room).wrap (fun _ => rfl) (fun _ _ => trivial)

theorem Span.codec (room : Nat) : Codec (room + 1) (fun _ => True) Span.decode Span.encode where
  null := rfl
  decoded {json span} h := by
    unfold Span.decode at h
    split at h
    case h_1 =>
      simp only [Option.bind_eq_bind, Option.bind_eq_some_iff, Option.pure_def,
        Option.some.injEq] at h
      obtain ⟨start, hstart, stop, hstop, rfl⟩ := h
      have hstart := (position_codec room).required hstart
      have hstop := (position_codec room).required hstop
      simp [Span.decode, Span.encode, List.lookup_cons, hstart, hstop]
    case h_2 => cases h

theorem Encoding.codec (room : Nat) :
  Codec (room + 1) (fun _ => True) Encoding.decode Encoding.encode where
  null := rfl
  decoded {json encoding} h := by
    unfold Encoding.decode at h
    split at h
    case h_1 =>
      simp only [Option.bind_eq_bind, Option.bind_eq_some_iff, Option.pure_def,
        Option.some.injEq] at h
      obtain ⟨name, hname, type, htype, rfl⟩ := h
      have hname := (Codec.text room).required hname
      have htype := (TypeId.codec room).required htype
      simp [Encoding.decode, Encoding.encode, List.lookup_cons, hname, htype]
    case h_2 => cases h

theorem Field.codec (room : Nat) : Codec (room + 2) (fun _ => True) Field.decode Field.encode where
  null := rfl
  decoded {json field} h := by
    unfold Field.decode at h
    split at h
    case h_1 =>
      simp only [Option.bind_eq_bind, Option.bind_eq_some_iff, Option.pure_def,
        Option.some.injEq] at h
      obtain ⟨name, hname, type, htype, opt, hopt,
        wireName, hwireName, encoding, hencoding, doc, hdoc, span, hspan, rfl⟩ := h
      have hname := (Codec.text (room + 1)).required hname
      have htype := (TypeId.codec (room + 1)).required htype
      have hopt := Codec.flagField (room + 1) hopt
      have hwireName := (Codec.text (room + 1)).optional hwireName
      have hencoding := (Encoding.codec room).optional hencoding
      have hdoc := (Codec.text (room + 1)).optional hdoc
      have hspan := (Span.codec room).optional hspan
      simp [Field.decode, Field.encode, List.lookup_cons,
        hname, htype, hopt, hwireName, hencoding, hdoc, hspan]
    case h_2 => cases h

theorem Operation.codec (room : Nat) :
  Codec (room + 4) (fun _ => True) Operation.decode Operation.encode where
  null := rfl
  decoded {json operation} h := by
    unfold Operation.decode at h
    split at h
    case h_1 =>
      simp only [Option.bind_eq_bind, Option.bind_eq_some_iff, Option.pure_def,
        Option.some.injEq] at h
      obtain ⟨name, hname, parameters, hparameters,
        returnType, hreturnType, doc, hdoc, span, hspan, rfl⟩ := h
      have hname := (Codec.text (room + 3)).required hname
      have hparameters := (Field.codec room).listField hparameters
      have hreturnType := (TypeId.codec (room + 3)).required hreturnType
      have hdoc := (Codec.text (room + 3)).optional hdoc
      have hspan := (Span.codec (room + 2)).optional hspan
      simp [Operation.decode, Operation.encode, List.lookup_cons,
        hname, hparameters, hreturnType, hdoc, hspan]
    case h_2 => cases h

/-- Whether a literal value is read back: a number is if its text is. -/
def LiteralValue.ReadsBack : LiteralValue → Prop
  | .number x => (JsonNumber.fraction x).ReadsBack
  | _ => True

theorem LiteralValue.codec (room : Nat) :
  Codec room LiteralValue.ReadsBack LiteralValue.decode LiteralValue.encode where
  null := rfl
  decoded {json value} _ := by
    cases value with
    | bool value => exact ⟨rfl, fun _ => Json.ReadsBack.bool⟩
    | number x => exact ⟨rfl, Json.ReadsBack.number⟩
    | string text => exact ⟨rfl, fun _ => Json.ReadsBack.string⟩

theorem EnumMember.codec (room : Nat) :
  Codec (room + 1) (fun member => ∀ value ∈ member.value, value.ReadsBack) EnumMember.decode
    EnumMember.encode where
  null := rfl
  decoded {json member} h := by
    unfold EnumMember.decode at h
    split at h
    case h_1 =>
      simp only [Option.bind_eq_bind, Option.bind_eq_some_iff, Option.pure_def,
        Option.some.injEq] at h
      obtain ⟨name, hname, value, hvalue, doc, hdoc, rfl⟩ := h
      have hname := (Codec.text room).required hname
      have hvalue := (LiteralValue.codec room).optional hvalue
      have hdoc := (Codec.text room).optional hdoc
      simpa [EnumMember.decode, EnumMember.encode, List.lookup_cons, hname, hvalue.1, hdoc]
        using hvalue.2
    case h_2 => cases h

theorem UnionVariant.codec (room : Nat) :
  Codec (room + 1) (fun _ => True) UnionVariant.decode UnionVariant.encode where
  null := rfl
  decoded {json variant} h := by
    unfold UnionVariant.decode at h
    split at h
    case h_1 =>
      simp only [Option.bind_eq_bind, Option.bind_eq_some_iff, Option.pure_def,
        Option.some.injEq] at h
      obtain ⟨name, hname, type, htype, rfl⟩ := h
      have hname := (Codec.text room).optional hname
      have htype := (TypeId.codec room).required htype
      simp [UnionVariant.decode, UnionVariant.encode, List.lookup_cons, hname, htype]
    case h_2 => cases h

/-- The members of a type but for its tag. -/
def TypeKind.details (kind : TypeKind) : List (String × Json) :=
  kind.members.tail

theorem ScalarType.codec (room : Nat) :
  Codec (room + 1) (fun _ => True) ScalarType.decode
    (fun scalar => ofMembers (TypeKind.scalar scalar).details) where
  null := rfl
  decoded {json scalar} h := by
    unfold ScalarType.decode at h
    split at h
    case h_1 =>
      simp only [Option.bind_eq_bind, Option.bind_eq_some_iff, Option.pure_def,
        Option.some.injEq] at h
      obtain ⟨name, hname, owner, howner, base, hbase, rfl⟩ := h
      have hname := (Codec.text room).required hname
      have howner := (NamespaceId.codec room).required howner
      have hbase := (TypeId.codec room).optional hbase
      simp [ScalarType.decode, TypeKind.details, TypeKind.members, List.lookup_cons,
        hname, howner, hbase]
    case h_2 => cases h

theorem RecordType.codec (room : Nat) :
  Codec (room + 4) (fun _ => True) RecordType.decode
    (fun record => ofMembers (TypeKind.record record).details) where
  null := rfl
  decoded {json record} h := by
    unfold RecordType.decode at h
    split at h
    case h_1 =>
      simp only [Option.bind_eq_bind, Option.bind_eq_some_iff, Option.pure_def,
        Option.some.injEq] at h
      obtain ⟨name, hname, owner, howner, templateArgs, htemplateArgs,
        friendlyName, hfriendlyName, fields, hfields, error, herror, rfl⟩ := h
      have hname := (Codec.text (room + 3)).optional hname
      have howner := (NamespaceId.codec (room + 3)).optional howner
      have htemplateArgs := (Codec.text (room + 2)).listField htemplateArgs
      have hfriendlyName := (Codec.text (room + 3)).optional hfriendlyName
      have hfields := (Field.codec room).listField hfields
      have herror := Codec.flagField (room + 3) herror
      simp [RecordType.decode, TypeKind.details, TypeKind.members, List.lookup_cons,
        hname, howner, htemplateArgs, hfriendlyName, hfields, herror]
    case h_2 => cases h

theorem EnumType.codec (room : Nat) :
  Codec (room + 3)
    (fun enumeration => ∀ member ∈ enumeration.members, ∀ value ∈ member.value, value.ReadsBack)
    EnumType.decode (fun enumeration => ofMembers (TypeKind.enum enumeration).details) where
  null := rfl
  decoded {json enumeration} h := by
    unfold EnumType.decode at h
    split at h
    case h_1 =>
      simp only [Option.bind_eq_bind, Option.bind_eq_some_iff, Option.pure_def,
        Option.some.injEq] at h
      obtain ⟨name, hname, owner, howner, members, hmembers, rfl⟩ := h
      have hname := (Codec.text (room + 2)).required hname
      have howner := (NamespaceId.codec (room + 2)).required howner
      have hmembers := (EnumMember.codec room).list.required hmembers
      simpa [EnumType.decode, TypeKind.details, TypeKind.members, List.lookup_cons, hname, howner,
        hmembers.1] using hmembers.2
    case h_2 => cases h

theorem UnionType.codec (room : Nat) :
  Codec (room + 3) (fun _ => True) UnionType.decode
    (fun union => ofMembers (TypeKind.union union).details) where
  null := rfl
  decoded {json union} h := by
    unfold UnionType.decode at h
    split at h
    case h_1 =>
      simp only [Option.bind_eq_bind, Option.bind_eq_some_iff, Option.pure_def,
        Option.some.injEq] at h
      obtain ⟨name, hname, owner, howner,
        variants, hvariants, discriminator, hdiscriminator, rfl⟩ := h
      have hname := (Codec.text (room + 2)).optional hname
      have howner := (NamespaceId.codec (room + 2)).optional howner
      have hvariants := (UnionVariant.codec room).list.required hvariants
      have hdiscriminator := (Codec.text (room + 2)).optional hdiscriminator
      simp [UnionType.decode, TypeKind.details, TypeKind.members, List.lookup_cons,
        hname, howner, hvariants, hdiscriminator]
    case h_2 => cases h

theorem InterfaceType.codec (room : Nat) :
  Codec (room + 6) (fun _ => True) InterfaceType.decode
    (fun interface => ofMembers (TypeKind.interface interface).details) where
  null := rfl
  decoded {json interface} h := by
    unfold InterfaceType.decode at h
    split at h
    case h_1 =>
      simp only [Option.bind_eq_bind, Option.bind_eq_some_iff, Option.pure_def,
        Option.some.injEq] at h
      obtain ⟨name, hname, owner, howner, operations, hoperations, rfl⟩ := h
      have hname := (Codec.text (room + 5)).required hname
      have howner := (NamespaceId.codec (room + 5)).required howner
      have hoperations := (Operation.codec room).listField hoperations
      simp [InterfaceType.decode, TypeKind.details, TypeKind.members, List.lookup_cons,
        hname, howner, hoperations]
    case h_2 => cases h

theorem Namespace.codec (room : Nat) :
  Codec (room + 6) (fun _ => True) Namespace.decode Namespace.encode where
  null := rfl
  decoded {json ns} h := by
    unfold Namespace.decode at h
    split at h
    case h_1 =>
      simp only [Option.bind_eq_bind, Option.bind_eq_some_iff, Option.pure_def,
        Option.some.injEq] at h
      obtain ⟨name, hname, parent, hparent, doc, hdoc, operations, hoperations, rfl⟩ := h
      have hname := (Codec.text (room + 5)).required hname
      have hparent := (NamespaceId.codec (room + 5)).optional hparent
      have hdoc := (Codec.text (room + 5)).optional hdoc
      have hoperations := (Operation.codec room).listField hoperations
      simp [Namespace.decode, Namespace.encode, List.lookup_cons, hname, hparent, hdoc, hoperations]
    case h_2 => cases h

/-! ### Kinds of types -/

/-- The literal values that a type holds. -/
def TypeKind.literals : TypeKind → List LiteralValue
  | .enum enumeration => enumeration.members.filterMap (·.value)
  | .literal value => [value]
  | _ => []

/-- Whether the literal values that a type holds are read back. -/
def TypeKind.ReadsBack (kind : TypeKind) : Prop :=
  ∀ value ∈ kind.literals, value.ReadsBack

theorem Intrinsic.codec (room : Nat) :
  Codec room (fun _ => True) (asChoice isNullOrEmpty Intrinsic.names)
    (fun name => ofString name.text) :=
  Codec.ofName room fun name => by cases name <;> rfl

theorem TypeKind.mem_decoders {name : String} {decode : Json → Option TypeKind}
    (h : (name, decode) ∈ TypeKind.decoders) {json : Json} {kind : TypeKind}
    (hkind : decode json = some kind) :
  kind.shortName = name
  := by
  simp only [TypeKind.decoders, Codec.singleField_map, List.mem_cons, Prod.mk.injEq,
    List.not_mem_nil, or_false] at h
  rcases h with ⟨rfl, rfl⟩ | ⟨rfl, rfl⟩ | ⟨rfl, rfl⟩ | ⟨rfl, rfl⟩ | ⟨rfl, rfl⟩ | ⟨rfl, rfl⟩
    | ⟨rfl, rfl⟩ | ⟨rfl, rfl⟩ | ⟨rfl, rfl⟩
  all_goals
    obtain ⟨_, -, rfl⟩ := Option.map_eq_some_iff.mp hkind
    rfl

/-- The decoder of a tag fits the members that are written beside the tag. -/
theorem TypeKind.codec_of_mem_decoders (room : Nat) {name : String}
    {decode : Json → Option TypeKind} (h : (name, decode) ∈ TypeKind.decoders) :
  Codec (room + 6) TypeKind.ReadsBack decode (fun kind => ofMembers kind.details)
  := by
  simp only [TypeKind.decoders, Codec.singleField_map, List.mem_cons, Prod.mk.injEq,
    List.not_mem_nil, or_false] at h
  rcases h with ⟨rfl, rfl⟩ | ⟨rfl, rfl⟩ | ⟨rfl, rfl⟩ | ⟨rfl, rfl⟩ | ⟨rfl, rfl⟩ | ⟨rfl, rfl⟩
    | ⟨rfl, rfl⟩ | ⟨rfl, rfl⟩ | ⟨rfl, rfl⟩
  · exact (ScalarType.codec (room + 5)).wrap (fun _ => rfl) (fun _ _ => trivial)
  · exact (RecordType.codec (room + 2)).wrap (fun _ => rfl) (fun _ _ => trivial)
  · refine (EnumType.codec (room + 3)).wrap (fun _ => rfl) ?_
    intro enumeration hread member hmember value hvalue
    apply hread
    rw [TypeKind.literals, List.mem_filterMap]
    exact ⟨member, hmember, hvalue⟩
  · exact (UnionType.codec (room + 3)).wrap (fun _ => rfl) (fun _ _ => trivial)
  · exact (InterfaceType.codec room).wrap (fun _ => rfl) (fun _ _ => trivial)
  · exact ((TypeId.codec (room + 5)).singleField "element").wrap (fun _ => rfl) (fun _ _ => trivial)
  · exact ((TypeId.codec (room + 5)).singleField "value").wrap (fun _ => rfl) (fun _ _ => trivial)
  · refine ((LiteralValue.codec (room + 5)).singleField "value").wrap (fun _ => rfl) ?_
    intro value hread
    exact hread value (List.mem_singleton_self value)
  · exact ((Intrinsic.codec (room + 5)).singleField "name").wrap (fun _ => rfl) (fun _ _ => trivial)

/-- The decoder of a tag does not look at documentation and spans. -/
theorem TypeKind.decode_append {name : String} {decode : Json → Option TypeKind}
    (h : (name, decode) ∈ TypeKind.decoders) {members others : List (String × Json)}
    (hkeys : ((members ++ others).map (·.1)).Nodup)
    (hothers : ∀ other ∈ others, other.1 = "doc" ∨ other.1 = "span") :
  decode (ofMembers (members ++ others)) = decode (ofMembers members)
  := by
  have hfields : ∀ keys : List String, "doc" ∉ keys → "span" ∉ keys →
      fields keys (ofMembers (members ++ others)) = fields keys (ofMembers members) := by
    intro keys hdoc hspan
    have hkeys' : (members.map (·.1)).Nodup :=
      hkeys.sublist ((List.sublist_append_left members others).map _)
    apply fields_ofMembers_congr hkeys' hkeys
    intro key hkey
    have hnone : others.lookup key = none := by
      rw [List.lookup_eq_none_iff]
      intro other hother
      rw [bne_iff_ne]
      rintro rfl
      rcases hothers other hother with heq | heq
      · rw [heq] at hkey
        contradiction
      · rw [heq] at hkey
        contradiction
    rw [List.lookup_append, hnone, Option.or_none]
  simp only [TypeKind.decoders, List.mem_cons, Prod.mk.injEq, List.not_mem_nil, or_false] at h
  rcases h with ⟨rfl, rfl⟩ | ⟨rfl, rfl⟩ | ⟨rfl, rfl⟩ | ⟨rfl, rfl⟩ | ⟨rfl, rfl⟩ | ⟨rfl, rfl⟩
    | ⟨rfl, rfl⟩ | ⟨rfl, rfl⟩ | ⟨rfl, rfl⟩
  · simp [ScalarType.decode, hfields]
  · simp [RecordType.decode, hfields]
  · simp [EnumType.decode, hfields]
  · simp [UnionType.decode, hfields]
  · simp [InterfaceType.decode, hfields]
  all_goals simp [singleField, hfields]

/-- The documentation and the span of a type as members. -/
def TypeNode.notes (node : TypeNode) : List (String × Json) :=
  node.doc.toList.map (fun doc => ("doc", .ofString doc))
    ++ node.span.toList.map (fun span => ("span", span.encode))

/-- The members of a type: its tag, what its kind is written with, and its notes. -/
def TypeNode.members (node : TypeNode) : List (String × Json) :=
  ("kind", .ofString node.kind.shortName) :: (node.kind.details ++ node.notes)

theorem TypeNode.encode_eq (node : TypeNode) : node.encode = ofMembers node.members := by
  rw [TypeNode.encode, List.append_assoc]
  rfl

theorem TypeNode.mem_notes {node : TypeNode} {note : String × Json} (h : note ∈ node.notes) :
  note.1 = "doc" ∨ note.1 = "span"
  := by
  rcases List.mem_append.mp h with h | h
  · obtain ⟨doc, -, rfl⟩ := List.mem_map.mp h
    exact Or.inl rfl
  · obtain ⟨span, -, rfl⟩ := List.mem_map.mp h
    exact Or.inr rfl

theorem TypeNode.nodup_keys (node : TypeNode) : (node.members.map (·.1)).Nodup := by
  have hnotes : (node.notes.map (·.1)).Sublist ["doc", "span"] := by
    obtain ⟨kind, doc, span⟩ := node
    cases doc with
    | none => cases span <;> simp [TypeNode.notes]
    | some doc => cases span <;> simp [TypeNode.notes]
  have hkeys : ("kind" :: (node.kind.details.map (·.1) ++ ["doc", "span"])).Nodup := by
    cases node.kind <;> simp [TypeKind.details, TypeKind.members]
  rw [TypeNode.members, List.map_cons, List.map_append]
  exact hkeys.sublist ((hnotes.append_left _).cons_cons _)

theorem TypeNode.lookup_notes (node : TypeNode) :
  node.members.lookup "doc" = node.doc.map ofString
    ∧ node.members.lookup "span" = node.span.map Span.encode
  := by
  have hdoc : (("kind", Json.ofString node.kind.shortName) :: node.kind.details).lookup "doc"
      = none := by
    cases node.kind <;> simp [TypeKind.details, TypeKind.members, List.lookup_cons]
  have hspan : (("kind", Json.ofString node.kind.shortName) :: node.kind.details).lookup "span"
      = none := by
    cases node.kind <;> simp [TypeKind.details, TypeKind.members, List.lookup_cons]
  rw [TypeNode.members, ← List.cons_append, List.lookup_append, List.lookup_append, hdoc, hspan]
  obtain ⟨kind, doc, span⟩ := node
  cases doc with
  | none => cases span <;> simp [TypeNode.notes, List.lookup_cons]
  | some doc => cases span <;> simp [TypeNode.notes, List.lookup_cons]

/-- Decoding the members of a type gives its kind, and all of them read back. -/
theorem TypeKind.decode_members (room : Nat) (node : TypeNode)
    {members : List (Option String × Json)} (h : TypeKind.decode members = some node.kind) :
  TypeKind.decode (node.members.map fun member => (some member.1, member.2)) = some node.kind
    ∧ (node.kind.ReadsBack → Json.ReadsBack (room + 6) (ofMembers node.kind.details))
  := by
  obtain ⟨⟨tag, rest⟩, htagged, h⟩ := Option.bind_eq_some_iff.mp h
  obtain ⟨decode, hdecode, h⟩ := Option.bind_eq_some_iff.mp h
  obtain ⟨name, hmem⟩ := mem_of_tagChoice hdecode
  obtain rfl := TypeKind.mem_decoders hmem h
  obtain ⟨hdetails, hread⟩ := (TypeKind.codec_of_mem_decoders room hmem).decoded h
  refine ⟨?_, hread⟩
  have hkeys := node.nodup_keys
  have hothers : ∀ note ∈ node.notes, note.1 = "doc" ∨ note.1 = "span" := fun _ =>
    TypeNode.mem_notes
  have hnames : namedChoice TypeKind.decoders node.kind.shortName = some decode :=
    namedChoice_of_mem (by decide) hmem
  rw [TypeNode.members] at hkeys ⊢
  rw [TypeKind.decode, taggedObject_cons hkeys]
  rw [List.map_cons, List.nodup_cons] at hkeys
  rw [← hdetails, ← TypeKind.decode_append hmem hkeys.2 hothers]
  show (tagChoice TypeKind.decoders (.string (some node.kind.shortName))).bind _ = _
  rw [tagChoice, hnames]
  rfl

theorem TypeNode.codec (room : Nat) :
  Codec (room + 6) (fun node => node.kind.ReadsBack) TypeNode.decode TypeNode.encode where
  null := rfl
  decoded {json node} h := by
    cases json with
    | object members =>
        rw [TypeNode.decode] at h
        split at h
        case h_1 =>
          simp only [Option.bind_eq_bind, Option.bind_eq_some_iff, Option.pure_def,
            Option.some.injEq] at h
          obtain ⟨doc, hdoc, span, hspan, kind, hkind, rfl⟩ := h
          obtain ⟨hdoc, -⟩ := (Codec.text room).optional_map hdoc
          obtain ⟨hspan, hreadSpan⟩ := (Span.codec (room + 4)).optional_map hspan
          obtain ⟨hlookupDoc, hlookupSpan⟩ := TypeNode.lookup_notes ⟨kind, doc, span⟩
          have hkeys := TypeNode.nodup_keys ⟨kind, doc, span⟩
          obtain ⟨hkind, hreadKind⟩ := TypeKind.decode_members room ⟨kind, doc, span⟩ hkind
          rw [TypeNode.encode_eq]
          constructor
          · rw [ofMembers, TypeNode.decode, objectFields_members hkeys]
            simp [hlookupDoc, hlookupSpan, hdoc, hspan, hkind]
          · intro hreadable
            rw [readsBack_ofMembers, TypeNode.members, List.forall_mem_cons, List.forall_mem_append]
            refine ⟨Json.ReadsBack.string, readsBack_ofMembers.mp (hreadKind hreadable), ?_⟩
            intro note hnote
            rcases List.mem_append.mp hnote with hnote | hnote
            · obtain ⟨text, -, rfl⟩ := List.mem_map.mp hnote
              exact Json.ReadsBack.string
            · obtain ⟨found, hfound, rfl⟩ := List.mem_map.mp hnote
              exact hreadSpan found (Option.mem_toList.mp hfound) trivial
        case h_2 => cases h
    | _ => cases h

end ServiceBindings
