import ServiceBindings.Proofs.Draft.Return

/-!
# Rendering declarations

The lines of a declaration are put together by steady steps.  So the text of a declaration is the
same whenever it is rendered again on a later draft.
-/

namespace ServiceBindings

namespace Job

open Draft Drafting

variable (job : Job)

/-! ### Records and unions -/

theorem adapterOf_steady (field : Field) : Steady job.graph (job.adapterOf field) := by
  unfold adapterOf
  split
  case h_1 => apply Steady.pure
  case h_2 =>
    split
    case isTrue => apply Steady.pure
    case isFalse => apply (Steady.report (List.mem_cons_of_mem _ List.mem_cons_self)).bind_pure

theorem recordField_steady (id : TypeId) (name : String) (path : ModulePath) (field : Field) :
  Steady job.graph (job.recordField id name path field)
  := by
  apply (job.spell_steady _ _ _ _ _).bind
  intro type
  apply (job.adapterOf_steady field).bind_pure

theorem recordDecl_steady (id : TypeId) (record : RecordType) (name : String) (path : ModulePath) :
  Steady job.graph (job.recordDecl id record name path)
  := by
  apply Steady.bind_pure
  apply Steady.mapM
  intro field _
  apply recordField_steady

theorem payload_steady (id : TypeId) (path : ModulePath) (preferred : String) (index : Nat)
    (variant : UnionVariant) :
  Steady job.graph (job.payload id path preferred index variant)
  := by
  unfold payload
  split
  case h_1 => apply Steady.pure
  case h_2 => apply Steady.pure
  case h_3 => apply (job.spell_steady _ _ _ _ _).bind_pure

theorem unionDecl_steady (id : TypeId) (union : UnionType) (selected : List Nat)
    (doc : Option String) (name : String) (path : ModulePath) :
  Steady job.graph (job.unionDecl id union selected doc name path)
  := by
  apply Steady.bind_pure
  apply Steady.mapM
  rintro ⟨ident, index, variant⟩ _
  apply (job.payload_steady _ _ _ _ _).bind_pure

/-! ### Traits -/

theorem spellSide_steady (side : ReturnSide) (path : ModulePath) :
  Steady job.graph (job.spellSide side path)
  := by
  cases side with
  | nothing => apply Steady.pure
  | type id name => apply spell_steady
  | union item => apply Steady.pure

theorem methodParameter_steady (operation : String) (path : ModulePath) (parameter : Field) :
  Steady job.graph (job.methodParameter operation path parameter) :=
  (job.spell_steady _ _ _ _ _).bind_pure _

theorem method_steady {container : Container} (trait : String) (path : ModulePath)
    {operation : Operation} (hoperation : operation ∈ job.graph.operations container) :
  Steady job.graph (job.method container trait path operation)
  := by
  apply (job.splitReturn_steady hoperation).bind
  intro split
  apply (job.spellSide_steady _ _).bind
  intro success
  apply (job.spellSide_steady _ _).bind
  intro error
  apply Steady.bind_pure
  apply Steady.mapM
  intro parameter _
  apply methodParameter_steady

theorem traitDecl_steady (container : Container) (name : String) (doc : Option String)
    (path : ModulePath) :
  Steady job.graph (job.traitDecl container name doc path)
  := by
  apply Steady.bind_pure
  apply Steady.mapM
  intro operation hoperation
  apply job.method_steady name path hoperation

/-! ### Declarations -/

theorem typeLines_steady (id : TypeId) (name : String) (path : ModulePath) :
  Steady job.graph (job.typeLines id name path)
  := by
  unfold typeLines
  dsimp only
  split
  case h_1 => apply (job.recordDecl_steady _ _ _ _).bind_pure
  case h_2 => apply Steady.pure
  case h_3 => apply (job.unionDecl_steady _ _ _ _ _ _).bind_pure
  case h_4 => apply (job.traitDecl_steady _ _ _ _).bind_pure
  case h_5 => apply (job.spellScalar_steady _ _ _).bind_pure
  case h_6 => apply Steady.throw

theorem syntheticLines_steady (synthetic : Synthetic) :
  Steady job.graph (job.syntheticLines synthetic)
  := by
  cases synthetic with
  | anonymous name id =>
      unfold syntheticLines
      dsimp only
      split
      case h_1 => apply (job.recordDecl_steady _ _ _ _).bind_pure
      case h_2 => apply (job.unionDecl_steady _ _ _ _ _ _).bind_pure
      case h_3 => apply Steady.throw
  | subset name id variants =>
      unfold syntheticLines
      dsimp only
      split
      case h_1 => apply (job.unionDecl_steady _ _ _ _ _ _).bind_pure
      case h_2 => apply Steady.throw

/-- The module of a declaration, and the lines that are written there. -/
def render : DeclarationRef → Drafting (ModuleId × List String)
  | .type id => do
    let name ← job.declarationName id
    let m ← job.placeOf id
    return (m, ← job.typeLines id name (← pathOf m))
  | .operations id => do
    let m ← job.place id
    let trait ← job.traitDecl (.group id) (job.groupTraitName id) none (← pathOf m)
    return (m, trait.lines)

theorem render_steady (declaration : DeclarationRef) :
  Steady job.graph (job.render declaration)
  := by
  cases declaration with
  | type id =>
      apply (job.declarationName_steady id).bind
      intro name
      apply job.placeOf_pathOf_steady
      intro m path
      apply (job.typeLines_steady id name path).bind_pure
  | operations id =>
      apply job.place_pathOf_steady
      intro m path
      apply (job.traitDecl_steady _ _ _ _).bind_pure

/-- Writing a declaration is rendering it and writing the lines. -/
theorem writeDeclaration_eq (declaration : DeclarationRef) :
  job.writeDeclaration declaration
    = job.render declaration >>= fun rendered => write rendered.1 rendered.2
  := by
  cases declaration with
  | type id => simp [writeDeclaration, render]
  | operations id => simp [writeDeclaration, render]

variable {job}

/-- A declaration that is written is rendered, and its lines are added to a module. -/
theorem writeDeclaration_eq_ok {declaration : DeclarationRef} {d e : Draft}
    (h : exec (job.writeDeclaration declaration) d = (.ok (), e)) :
  ∃ m lines d', exec (job.render declaration) d = (.ok (m, lines), d')
    ∧ e = { d' with modules := d'.modules.appendText m (Text.unlines lines) }
  := by
  rw [writeDeclaration_eq, exec_bind_eq_ok] at h
  obtain ⟨⟨m, lines⟩, d', hrender, hwrite⟩ := h
  use m, lines, d', hrender
  cases hwrite
  rfl

/-- A synthetic declaration is skipped if it was written before, or else its lines are added to the
module of synthetic declarations. -/
theorem writeSynthetic_eq_ok {synthetic : Synthetic} {d e : Draft}
    (h : exec (job.writeSynthetic synthetic) d = (.ok (), e)) :
  (synthetic.key ∈ d.synthesized ∧ e = d)
    ∨ (synthetic.key ∉ d.synthesized ∧ ∃ lines d',
      exec (job.syntheticLines synthetic) { d with synthesized := synthetic.key :: d.synthesized }
        = (.ok lines, d')
      ∧ e = { d' with modules := d'.modules.appendText .synthetic (Text.unlines lines) })
  := by
  rw [writeSynthetic, exec_get_bind] at h
  split at h
  case isTrue hkey =>
    cases h
    exact Or.inl ⟨hkey, rfl⟩
  case isFalse hkey =>
    obtain ⟨_, d', hmark, h⟩ := exec_bind_eq_ok.mp h
    obtain ⟨lines, d'', hlines, hwrite⟩ := exec_bind_eq_ok.mp h
    cases hmark
    cases hwrite
    exact Or.inr ⟨hkey, lines, d'', hlines, rfl⟩

end Job

end ServiceBindings
