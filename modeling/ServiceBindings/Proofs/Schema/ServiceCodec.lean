import ServiceBindings.Proofs.Schema.Codec

/-!
# Codecs of services

Endpoints and schemes of authentication are decoded again from what is written for them, also where
the decoder checks that nothing is nested too deep.
-/

namespace ServiceBindings

open Json

/-! ### Operations and statuses -/

theorem status_codec (room : Nat) : Codec room (fun _ => True) (asNatBelow statusBound) ofNat :=
  Codec.natBelow (by decide) room

theorem Container.codec (room : Nat) :
  Codec (room + 1) (fun _ => True) Container.decode Container.encode where
  null := rfl
  decoded {json container} h := by
    obtain ⟨⟨tag, rest⟩, -, h⟩ := Option.bind_eq_some_iff.mp h
    obtain ⟨name, -, h⟩ := Option.bind_eq_some_iff.mp h
    obtain ⟨decode, hdecode, h⟩ := Option.bind_eq_some_iff.mp h
    have hmem := mem_of_namedChoice hdecode
    simp only [Container.decoders, Codec.singleField_map, List.mem_cons, Prod.mk.injEq,
      List.not_mem_nil, or_false] at hmem
    rcases hmem with ⟨rfl, rfl⟩ | ⟨rfl, rfl⟩
    · obtain ⟨id, hid, rfl⟩ := Option.map_eq_some_iff.mp h
      have hid := ((NamespaceId.codec room).singleField "id").decoded hid
      constructor
      · rw [Container.encode, Container.decode, decode_tagged (by simp) hdecode, hid.1]
        rfl
      · intro _
        simpa [Container.encode, ofString, Json.ReadsBack.string] using hid.2
    · obtain ⟨id, hid, rfl⟩ := Option.map_eq_some_iff.mp h
      have hid := ((TypeId.codec room).singleField "id").decoded hid
      constructor
      · rw [Container.encode, Container.decode, decode_tagged (by simp) hdecode, hid.1]
        rfl
      · intro _
        simpa [Container.encode, ofString, Json.ReadsBack.string] using hid.2

theorem OperationRef.codec (room : Nat) :
  Codec (room + 2) (fun _ => True) OperationRef.decode OperationRef.encode where
  null := rfl
  decoded {json reference} h := by
    unfold OperationRef.decode at h
    split at h
    case h_1 =>
      simp only [Option.bind_eq_bind, Option.bind_eq_some_iff, Option.pure_def,
        Option.some.injEq] at h
      obtain ⟨container, hcontainer, name, hname, rfl⟩ := h
      have hcontainer := ((Container.codec room).soundAt (Container.codec 120)).required hcontainer
      have hname := (Codec.text (room + 1)).required hname
      simp [OperationRef.decode, OperationRef.encode, List.lookup_cons, hcontainer, hname]
    case h_2 => cases h

theorem StatusCode.codec (room : Nat) :
  Codec (room + 1) (fun _ => True) StatusCode.decode StatusCode.encode where
  null := rfl
  decoded {json status} h := by
    obtain ⟨⟨tag, rest⟩, -, h⟩ := Option.bind_eq_some_iff.mp h
    obtain ⟨name, -, h⟩ := Option.bind_eq_some_iff.mp h
    obtain ⟨decode, hdecode, h⟩ := Option.bind_eq_some_iff.mp h
    have hmem := mem_of_namedChoice hdecode
    simp only [StatusCode.decoders, Codec.singleField_map, List.mem_cons, Prod.mk.injEq,
      List.not_mem_nil, or_false] at hmem
    rcases hmem with ⟨rfl, rfl⟩ | ⟨rfl, rfl⟩ | ⟨rfl, rfl⟩
    · obtain ⟨code, hcode, rfl⟩ := Option.map_eq_some_iff.mp h
      have hcode := ((status_codec room).singleField "code").decoded hcode
      constructor
      · rw [StatusCode.encode, StatusCode.decode, decode_tagged (by simp) hdecode, hcode.1]
        rfl
      · intro _
        simpa [StatusCode.encode, ofString, Json.ReadsBack.string] using hcode.2
    · unfold StatusCode.decodeRange at h
      split at h
      case h_1 =>
        simp only [Option.bind_eq_bind, Option.bind_eq_some_iff, Option.pure_def,
          Option.some.injEq] at h
        obtain ⟨start, hstart, stop, hstop, rfl⟩ := h
        have hstart := (status_codec room).required hstart
        have hstop := (status_codec room).required hstop
        constructor
        · rw [StatusCode.encode, StatusCode.decode, decode_tagged (by simp) hdecode]
          simp [StatusCode.decodeRange, List.lookup_cons, hstart, hstop]
        · intro _
          simp [StatusCode.encode, ofString, Json.ReadsBack.string, hstart, hstop]
      case h_2 => cases h
    · obtain rfl := eq_of_noFields h
      constructor
      · rw [StatusCode.encode, StatusCode.decode, decode_tagged (by simp) hdecode]
        rfl
      · intro _
        simp [StatusCode.encode, ofString, Json.ReadsBack.string]

/-! ### Endpoints -/

theorem Verb.codec (room : Nat) :
  Codec room (fun _ => True) Verb.decode (fun verb => ofString verb.lowerText) :=
  Codec.ofName room fun verb => by cases verb <;> rfl

theorem ParameterLocation.codec (room : Nat) :
  Codec room (fun _ => True) (asChoice isNull ParameterLocation.names)
    (fun location => ofString location.text) :=
  Codec.ofName room fun location => by cases location <;> rfl

theorem HttpParameter.codec (room : Nat) :
  Codec (room + 1) (fun _ => True) HttpParameter.decode HttpParameter.encode where
  null := rfl
  decoded {json parameter} h := by
    unfold HttpParameter.decode at h
    split at h
    case h_1 =>
      simp only [Option.bind_eq_bind, Option.bind_eq_some_iff, Option.pure_def,
        Option.some.injEq] at h
      obtain ⟨name, hname, location, hlocation, type, htype, opt, hopt, rfl⟩ := h
      have hname := (Codec.text room).required hname
      have hlocation := (ParameterLocation.codec room).required hlocation
      have htype := (TypeId.codec room).required htype
      have hopt := Codec.flagField room hopt
      simp [HttpParameter.decode, HttpParameter.encode, List.lookup_cons,
        hname, hlocation, htype, hopt]
    case h_2 => cases h

theorem HttpResponse.codec (room : Nat) :
  Codec (room + 2) (fun _ => True) HttpResponse.decode HttpResponse.encode where
  null := rfl
  decoded {json response} h := by
    unfold HttpResponse.decode at h
    split at h
    case h_1 =>
      simp only [Option.bind_eq_bind, Option.bind_eq_some_iff, Option.pure_def,
        Option.some.injEq] at h
      obtain ⟨status, hstatus, body, hbody, span, hspan, rfl⟩ := h
      have hstatus := ((StatusCode.codec room).soundAt (StatusCode.codec 119)).required hstatus
      have hbody := (TypeId.codec (room + 1)).optional hbody
      have hspan := (Span.codec room).optional hspan
      simp [HttpResponse.decode, HttpResponse.encode, List.lookup_cons, hstatus, hbody, hspan]
    case h_2 => cases h

theorem HttpOperation.codec (room : Nat) :
  Codec (room + 4) (fun _ => True) HttpOperation.decode HttpOperation.encode where
  null := rfl
  decoded {json endpoint} h := by
    unfold HttpOperation.decode at h
    split at h
    case h_1 =>
      simp only [Option.bind_eq_bind, Option.bind_eq_some_iff, Option.pure_def,
        Option.some.injEq] at h
      obtain ⟨operation, hoperation, verb, hverb, path, hpath,
        parameters, hparameters, responses, hresponses, span, hspan, rfl⟩ := h
      have hoperation := (OperationRef.codec (room + 1)).required hoperation
      have hverb := (Verb.codec (room + 3)).required hverb
      have hpath := (Codec.text (room + 3)).required hpath
      have hparameters := (HttpParameter.codec (room + 1)).listField hparameters
      have hresponses := (HttpResponse.codec room).listField hresponses
      have hspan := (Span.codec (room + 2)).optional hspan
      simp [HttpOperation.decode, HttpOperation.encode, List.lookup_cons,
        hoperation, hverb, hpath, hparameters, hresponses, hspan]
    case h_2 => cases h

/-! ### Authentication -/

theorem AuthScheme.decode_encode (scheme : AuthScheme) :
  AuthScheme.decode scheme.encode = some scheme
  := by
  obtain ⟨id, kind⟩ := scheme
  cases kind with
  | apiKey location name => cases location <;> rfl
  | http scheme => rfl
  | oauth2 => rfl
  | openIdConnect => rfl

theorem AuthScheme.codec (room : Nat) :
  Codec (room + 1) (fun _ => True) AuthScheme.decode AuthScheme.encode where
  null := rfl
  decoded {_ scheme} _ := by
    use scheme.decode_encode
    intro _
    obtain ⟨id, kind⟩ := scheme
    cases kind <;> simp [AuthScheme.encode, AuthKind.members, ofString, Json.ReadsBack.string]

/-! ### Services -/

theorem HttpService.codec (room : Nat) :
  Codec (room + 6) (fun _ => True) HttpService.decode HttpService.encode where
  null := rfl
  decoded {json http} h := by
    unfold HttpService.decode at h
    split at h
    case h_1 =>
      simp only [Option.bind_eq_bind, Option.bind_eq_some_iff, Option.pure_def,
        Option.some.injEq] at h
      obtain ⟨operations, hoperations, auth, hauth, rfl⟩ := h
      have hoperations := (HttpOperation.codec room).listField hoperations
      have hauth := ((AuthScheme.codec (room + 3)).soundAt (AuthScheme.codec 122)).listField hauth
      simp [HttpService.decode, HttpService.encode, List.lookup_cons, hoperations, hauth]
    case h_2 => cases h

theorem Service.codec (room : Nat) :
  Codec (room + 7) (fun _ => True) Service.decode Service.encode where
  null := rfl
  decoded {json service} h := by
    unfold Service.decode at h
    split at h
    case h_1 =>
      simp only [Option.bind_eq_bind, Option.bind_eq_some_iff, Option.pure_def,
        Option.some.injEq] at h
      obtain ⟨root, hroot, title, htitle, version, hversion, http, hhttp, rfl⟩ := h
      have hroot := (NamespaceId.codec (room + 6)).required hroot
      have htitle := (Codec.text (room + 6)).optional htitle
      have hversion := (Codec.text (room + 6)).optional hversion
      have hhttp := (HttpService.codec room).optional hhttp
      simp [Service.decode, Service.encode, List.lookup_cons, hroot, htitle, hversion, hhttp]
    case h_2 => cases h

end ServiceBindings
