import ServiceBindings.Proofs.Json.ReadBack
import ServiceBindings.Schema.Decode
import ServiceBindings.Schema.Encode

/-!
# Decoders and their encoders

A decoder accepts many values for the same thing: members in any order, arrays in place of objects,
members left out.  Its encoder writes one of them.  The two fit when whatever was decoded is decoded
again from what the encoder writes, and when that reads back as JSON.
-/

namespace ServiceBindings

open Json

/-- Whether an encoder fits a decoder.  What it writes is decoded again, and reads back, nested at
most `room` deep, as far as the decoded thing is `readable`. -/
structure Codec {α : Type} (room : Nat) (readable : α → Prop) (decode : Json → Option α)
    (encode : α → Json) : Prop where
  null : decode .null = none
  decoded : ∀ {json x}, decode json = some x →
    decode (encode x) = some x ∧ (readable x → ReadsBack room (encode x))

/-- Whether an encoder fits the decoder of a field that may be absent. -/
def FieldCodec {α : Type} (room : Nat) (readable : α → Prop) (decode : Option Json → Option α)
    (encode : α → Json) : Prop :=
  ∀ {given x}, decode given = some x →
    decode (some (encode x)) = some x ∧ (readable x → ReadsBack room (encode x))

namespace Codec

variable {α : Type} {room : Nat} {readable : α → Prop} {decode : Json → Option α}
  {encode : α → Json}

/-! ### Plain values -/

theorem text (room : Nat) : Codec room (fun _ => True) asText ofString where
  null := rfl
  decoded _ := ⟨rfl, fun _ => ReadsBack.string⟩

theorem bool (room : Nat) : Codec room (fun _ => True) asBool Json.bool where
  null := rfl
  decoded _ := ⟨rfl, fun _ => ReadsBack.bool⟩

/-- Numbers below a bound are written as whole numbers of at most 64 bits. -/
theorem natBelow {bound : Nat} (hbound : bound ≤ JsonNumber.maxNatural) (room : Nat) :
  Codec room (fun _ => True) (asNatBelow bound) ofNat where
  null := rfl
  decoded {json n} h := by
    have hn : n < bound := by
      unfold asNatBelow at h
      split at h
      case h_1 m =>
        split at h
        case isTrue hm =>
          cases h
          exact hm
        case isFalse => cases h
      case h_2 => cases h
    constructor
    · rw [ofNat, asNatBelow, if_pos hn]
    · intro _
      apply ReadsBack.number
      apply JsonNumber.readsBack_natural
      omega

/-- The decoder of a choice has the codec of what the choice holds. -/
theorem wrap {β : Type} {wrap : α → β} {readable' : β → Prop} {encode' : β → Json}
    (h : Codec room readable decode encode) (hencode : ∀ x, encode' (wrap x) = encode x)
    (hreadable : ∀ x, readable' (wrap x) → readable x) :
  Codec room readable' (fun json => (decode json).map wrap) encode' where
  null := by rw [h.null, Option.map_none]
  decoded {json y} hy := by
    obtain ⟨x, hx, rfl⟩ := Option.map_eq_some_iff.mp hy
    obtain ⟨hdecode, hread⟩ := h.decoded hx
    rw [hencode]
    constructor
    · rw [hdecode, Option.map_some]
    · intro hx
      exact hread (hreadable x hx)

/-! ### Fields -/

theorem required (h : Codec room readable decode encode) :
  FieldCodec room readable (Json.required decode) encode
  := by
  intro given x hx
  cases given with
  | none => cases hx
  | some json => exact h.decoded hx

theorem optional (h : Codec room readable decode encode) :
  FieldCodec room (fun found => ∀ x ∈ found, readable x) (Json.optional decode)
    (encodeOption encode)
  := by
  intro given found hfound
  unfold Json.optional at hfound
  split at hfound
  case h_1 =>
    cases hfound
    use rfl, fun _ => ReadsBack.null
  case h_2 =>
    cases hfound
    use rfl, fun _ => ReadsBack.null
  case h_3 json _ =>
    obtain ⟨x, hx, rfl⟩ := Option.map_eq_some_iff.mp hfound
    obtain ⟨hdecode, hread⟩ := h.decoded hx
    have hnull : encode x ≠ .null := by
      intro hnull
      rw [hnull, h.null] at hdecode
      cases hdecode
    constructor
    · rw [encodeOption, Json.optional, hdecode]
      · rfl
      · exact hnull
    · intro hreadable
      exact hread (hreadable x rfl)

/-- A field may be left out instead of being written as null. -/
theorem optional_map {given : Option Json} {found : Option α}
    (h : Codec room readable decode encode) (hfound : Json.optional decode given = some found) :
  Json.optional decode (found.map encode) = some found
    ∧ ∀ x ∈ found, readable x → ReadsBack room (encode x)
  := by
  obtain ⟨hdecode, hread⟩ := h.optional hfound
  cases found with
  | none => exact ⟨rfl, nofun⟩
  | some x =>
      use hdecode
      rintro _ ⟨⟩ hreadable
      apply hread
      rintro _ ⟨⟩
      exact hreadable

theorem withDefault {default : α} (h : Codec room readable decode encode)
    (hdefault : ∃ json, decode json = some default) :
  FieldCodec room readable (Json.withDefault default decode) encode
  := by
  intro given x hx
  cases given with
  | none =>
      cases hx
      obtain ⟨json, hjson⟩ := hdefault
      exact h.decoded hjson
  | some json => exact h.decoded hx

/-! ### Lists -/

theorem mapM_encode (h : Codec room readable decode encode) {items : List Json} {xs : List α}
    (hxs : items.mapM decode = some xs) :
  (xs.map encode).mapM decode = some xs
    ∧ ((∀ x ∈ xs, readable x) → ∀ item ∈ xs.map encode, ReadsBack room item)
  := by
  induction items generalizing xs with
  | nil =>
      cases hxs
      use rfl
      nofun
  | cons item items ih =>
      rw [List.mapM_cons] at hxs
      obtain ⟨x, hx, hxs⟩ := Option.bind_eq_some_iff.mp hxs
      obtain ⟨rest, hrest, hxs⟩ := Option.bind_eq_some_iff.mp hxs
      cases hxs
      obtain ⟨hdecode, hread⟩ := h.decoded hx
      obtain ⟨hdecodes, hreads⟩ := ih hrest
      constructor
      · rw [List.map_cons, List.mapM_cons, hdecode, hdecodes]
        rfl
      · intro hreadable
        rw [List.forall_mem_cons] at hreadable
        rw [List.map_cons, List.forall_mem_cons]
        exact ⟨hread hreadable.1, hreads hreadable.2⟩

theorem list (h : Codec room readable decode encode) :
  Codec (room + 1) (fun xs => ∀ x ∈ xs, readable x) (asList decode) (encodeList encode) where
  null := rfl
  decoded {json xs} hxs := by
    unfold asList at hxs
    split at hxs
    case h_1 items =>
      obtain ⟨hdecode, hread⟩ := h.mapM_encode hxs
      use hdecode
      intro hreadable
      exact ReadsBack.array (hread hreadable)
    case h_2 => cases hxs

/-- A list that may be absent. -/
theorem listField (h : Codec room readable decode encode) :
  FieldCodec (room + 1) (fun xs => ∀ x ∈ xs, readable x) (Json.withDefault [] (asList decode))
    (encodeList encode) :=
  h.list.withDefault ⟨.array [], rfl⟩

/-- A flag that may be absent. -/
theorem flagField (room : Nat) :
  FieldCodec room (fun _ => True) (Json.withDefault false asBool) Json.bool :=
  (bool room).withDefault ⟨.bool false, rfl⟩

/-! ### Depth -/

/-- A decoder that also checks soundness has the same codec, if there is room enough. -/
theorem soundAt {depth : Nat} (h : Codec room readable decode encode)
    (hsound : Codec (maxDepth - depth) (fun _ => True) decode encode) :
  Codec room readable (ServiceBindings.soundAt depth decode) encode where
  null := by
    rw [ServiceBindings.soundAt, h.null, ite_self]
  decoded {json x} hx := by
    unfold ServiceBindings.soundAt at hx
    split at hx
    case isTrue =>
      obtain ⟨-, hread⟩ := hsound.decoded hx
      rw [ServiceBindings.soundAt, if_pos (hread trivial).isSound]
      exact h.decoded hx
    case isFalse => cases hx

end Codec

/-! ### Objects -/

namespace Json

variable {room : Nat} {keys : List String} {members : List (String × Json)}

@[simp]
theorem readsBack_ofMembers :
  ReadsBack (room + 1) (ofMembers members) ↔ ∀ member ∈ members, ReadsBack room member.2
  := by
  constructor
  · intro h member hmember
    cases h with
    | object _ h => exact h _ (List.mem_map_of_mem hmember)
  · intro h
    apply ReadsBack.object
    · intro member hmember
      obtain ⟨entry, -, rfl⟩ := List.mem_map.mp hmember
      rfl
    · intro member hmember
      obtain ⟨entry, hentry, rfl⟩ := List.mem_map.mp hmember
      exact h entry hentry

theorem keysAreText_members :
  keysAreText (members.map fun member => (some member.1, member.2)) = true
  := by
  simp [keysAreText]

/-- A key that does not repeat has the value that the members give it. -/
theorem valuesOf_members (hkeys : (members.map (·.1)).Nodup) (key : String) :
  valuesOf key (members.map fun member => (some member.1, member.2)) = (members.lookup key).toList
  := by
  induction members with
  | nil => rfl
  | cons member members ih =>
      obtain ⟨name, value⟩ := member
      rw [List.map_cons, List.nodup_cons] at hkeys
      rw [List.map_cons, valuesOf, List.filterMap_cons, ← valuesOf, ih hkeys.2]
      by_cases hname : name = key
      · subst hname
        have hnone : members.lookup name = none := by
          rw [List.lookup_eq_none_iff]
          intro entry hentry
          rw [bne_iff_ne]
          rintro rfl
          exact hkeys.1 (List.mem_map.mpr ⟨entry, hentry, rfl⟩)
        simp [hnone]
      · have hbeq : (key == name) = false := beq_false_of_ne (Ne.symm hname)
        simp [hname, List.lookup_cons, hbeq]

theorem objectFields_members (hkeys : (members.map (·.1)).Nodup) (keys : List String) :
  objectFields keys (members.map fun member => (some member.1, member.2))
    = some (keys.map fun key => members.lookup key)
  := by
  have hvalue : ∀ key, onlyValue (members.map fun member => (some member.1, member.2)) key
      = some (members.lookup key) := by
    intro key
    rw [onlyValue, valuesOf_members hkeys]
    cases members.lookup key with
    | none => rfl
    | some value => rfl
  rw [objectFields, keysAreText_members, if_pos rfl]
  induction keys with
  | nil => rfl
  | cons key keys ih =>
      rw [List.mapM_cons, hvalue, ih]
      rfl

@[simp]
theorem fields_ofMembers (hkeys : (members.map (·.1)).Nodup) (keys : List String) :
  fields keys (ofMembers members) = some (keys.map fun key => members.lookup key) :=
  objectFields_members hkeys keys

theorem taggedObject_members (hkeys : (members.map (·.1)).Nodup) {key : String} {tag : Json}
    (htag : members.lookup key = some tag) :
  taggedObject key (members.map fun member => (some member.1, member.2))
    = some (tag, ofMembers (members.filter fun member => member.1 ≠ key))
  := by
  rw [taggedObject, keysAreText_members, if_pos rfl, valuesOf_members hkeys, htag]
  simp [ofMembers, List.filter_map, Function.comp_def]

theorem taggedObject_cons {key : String} {tag : Json}
    (hkeys : (((key, tag) :: members).map (·.1)).Nodup) :
  taggedObject key (((key, tag) :: members).map fun member => (some member.1, member.2))
    = some (tag, ofMembers members)
  := by
  have hrest : ((key, tag) :: members).filter (fun member => member.1 ≠ key) = members := by
    rw [List.map_cons, List.nodup_cons] at hkeys
    rw [List.filter_cons_of_neg (by simp), List.filter_eq_self]
    intro member hmember
    rw [decide_eq_true_iff]
    rintro rfl
    exact hkeys.1 (List.mem_map.mpr ⟨member, hmember, rfl⟩)
  rw [taggedObject_members hkeys List.lookup_cons_self, hrest]

/-- Of members, a record is given by the values of its keys. -/
theorem fields_ofMembers_congr {others : List (String × Json)}
    (hkeys : (members.map (·.1)).Nodup) (hothers : (others.map (·.1)).Nodup)
    (h : ∀ key ∈ keys, others.lookup key = members.lookup key) :
  fields keys (ofMembers others) = fields keys (ofMembers members)
  := by
  rw [fields_ofMembers hkeys, fields_ofMembers hothers]
  congr 1
  exact List.map_congr_left h

end Json

namespace Codec

variable {α : Type} {room : Nat} {readable : α → Prop} {decode : Json → Option α}
  {encode : α → Json}

theorem singleField_map {β : Type} {wrap : α → β} (key : String) :
  ServiceBindings.singleField key (fun json => (decode json).map wrap)
    = fun json => (ServiceBindings.singleField key decode json).map wrap
  := by
  funext json
  unfold ServiceBindings.singleField
  split
  case h_1 value _ =>
    cases value with
    | none => rfl
    | some value => rfl
  case h_2 => rfl

/-- A record with a single field has the codec of the field. -/
theorem singleField (h : Codec room readable decode encode) (key : String) :
  Codec (room + 1) readable (ServiceBindings.singleField key decode)
    (fun x => ofMembers [(key, encode x)]) where
  null := rfl
  decoded {json x} hx := by
    unfold ServiceBindings.singleField at hx
    split at hx
    case h_1 value hvalue =>
      simpa [ServiceBindings.singleField] using h.required hx
    case h_2 => cases hx

end Codec

/-! ### Choices -/

section Choices

variable {α : Type} {choices : List (String × α)} {choice : α}

theorem namedChoice_of_mem {name : String} (hnames : (choices.map (·.1)).Nodup)
    (h : (name, choice) ∈ choices) :
  namedChoice choices name = some choice
  := by
  induction choices with
  | nil => cases h
  | cons entry choices ih =>
      rw [List.map_cons, List.nodup_cons] at hnames
      rcases List.mem_cons.mp h with rfl | h
      · exact List.lookup_cons_self
      · have hne : (name == entry.1) = false := by
          rw [beq_eq_false_iff_ne]
          rintro rfl
          exact hnames.1 (List.mem_map.mpr ⟨_, h, rfl⟩)
        rw [namedChoice, List.lookup_cons, hne]
        exact ih hnames.2 h

theorem mem_of_namedChoice {name : String} (h : namedChoice choices name = some choice) :
  (name, choice) ∈ choices
  := by
  induction choices with
  | nil => cases h
  | cons entry choices ih =>
      rw [namedChoice, List.lookup_cons] at h
      split at h
      case h_1 heq =>
        cases h
        rw [eq_of_beq heq]
        exact List.mem_cons_self
      case h_2 => exact List.mem_cons_of_mem _ (ih h)

theorem mem_of_tagChoice {tag : Json} (h : tagChoice choices tag = some choice) :
  ∃ name, (name, choice) ∈ choices
  := by
  unfold tagChoice at h
  split at h
  case h_1 name => exact ⟨name, mem_of_namedChoice h⟩
  case h_2 n =>
    obtain ⟨entry, hentry, rfl⟩ := Option.map_eq_some_iff.mp h
    exact ⟨entry.1, List.mem_of_getElem? hentry⟩
  case h_3 => cases h

/-- The decoder of a tag gets the members beside the tag. -/
theorem decode_tagged {decoders : List (String × (Json → Option α))} {key name : String}
    {decode : Json → Option α} {details : List (String × Json)}
    (hkeys : (key :: details.map (·.1)).Nodup) (hname : namedChoice decoders name = some decode) :
  (do
    let (tag, rest) ← tagged key (ofMembers ((key, ofString name) :: details))
    let name ← asText tag
    let decode ← namedChoice decoders name
    decode rest) = decode (ofMembers details)
  := by
  have htagged : tagged key (ofMembers ((key, ofString name) :: details))
      = some (ofString name, ofMembers details) := taggedObject_cons hkeys
  rw [htagged]
  show (namedChoice decoders name).bind _ = _
  rw [hname]
  rfl

theorem eq_of_noFields {value found : α} {json : Json} (h : noFields value json = some found) :
  found = value
  := by
  unfold noFields at h
  split at h
  case h_1 =>
    cases h
    rfl
  case h_2 =>
    cases h
    rfl
  case h_3 => cases h

/-- A choice without fields is written as its name. -/
theorem Codec.ofName {text : α → String} {isEmptyValue : Json → Bool} (room : Nat)
    (h : ∀ x, namedChoice choices (text x) = some x) :
  Codec room (fun _ => True) (asChoice isEmptyValue choices) (fun x => ofString (text x)) where
  null := rfl
  decoded _ := ⟨h _, fun _ => ReadsBack.string⟩

end Choices

end ServiceBindings
