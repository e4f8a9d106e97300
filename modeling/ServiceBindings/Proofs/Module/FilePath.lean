import ServiceBindings.Files.Store
import ServiceBindings.Module.Layout
import ServiceBindings.Proofs.Naming.Identifier
import ServiceBindings.Proofs.Naming.Words

/-!
# Paths of files

The path of the file of a module has the parts of its module path, and one more or a longer last one
depending on whether other files lie below it.  It reads back as these parts, since no part holds a
slash, and two modules with different paths have different files, since no module is called like the
file of a directory.
-/

namespace ServiceBindings

/-! ### Pieces -/

/-- Cutting a text at a character is the same as splitting it there. -/
theorem Text.pieces_eq_splitOn (separator : Char) (cs : List Char) :
  pieces separator cs = cs.splitOn separator
  := by
  induction cs with
  | nil => rfl
  | cons c cs ih =>
      have hsplit : (c :: cs).splitOn separator
          = if c == separator then [] :: cs.splitOn separator
            else (cs.splitOn separator).modifyHead (List.cons c) :=
        List.splitOnP_cons_eq_if_modifyHead c cs
      rw [pieces, ih, hsplit]
      by_cases hc : c = separator
      · rw [if_pos hc, if_pos (beq_iff_eq.mpr hc)]
      · rw [if_neg hc, if_neg (by simpa using hc)]
        cases hrest : cs.splitOn separator with
        | nil => apply absurd hrest (List.splitOnP_ne_nil _ _)
        | cons piece rest => rfl

/-- A joined path has the pieces that it was joined from. -/
theorem PathText.pieces_intercalate {parts : List String} (hne : parts ≠ [])
    (h : ∀ part ∈ parts, '/' ∉ part.toList) :
  pieces ("/".intercalate parts) = parts
  := by
  have hslash : ∀ piece ∈ parts.map String.toList, '/' ∉ piece := by
    intro piece hpiece
    obtain ⟨part, hpart, rfl⟩ := List.mem_map.mp hpiece
    apply h part hpart
  rw [pieces, Text.pieces_eq_splitOn, String.toList_intercalate]
  change (([('/' : Char)].intercalate _).splitOn '/').map _ = _
  rw [List.splitOn_intercalate '/' hslash (by simpa using hne), List.map_map]
  simp

namespace ModulePath

/-! ### Parts of files -/

/-- Whether a text can be a part of the path of a file. -/
structure IsFilePart (part : String) : Prop where
  no_slash : '/' ∉ part.toList
  ne_mod : part ≠ "mod"

instance (part : String) : Decidable (IsFilePart part) :=
  decidable_of_iff ('/' ∉ part.toList ∧ part ≠ "mod")
    ⟨fun ⟨hslash, hmod⟩ => ⟨hslash, hmod⟩, fun ⟨hslash, hmod⟩ => ⟨hslash, hmod⟩⟩

/-- The parts of the path of the file of a module; the file of a directory is called `mod`. -/
def fileParts (path : ModulePath) (isDirectory : Bool) : List String :=
  if isDirectory then path.parts ++ ["mod.rs"]
  else path.parts.dropLast ++ [path.parts.getLastD "" ++ ".rs"]

theorem fileParts_concat (front : List String) (last : String) :
  fileParts ⟨front ++ [last]⟩ false = front ++ [last ++ ".rs"]
  := by
  rw [fileParts, if_neg Bool.false_ne_true, List.dropLast_concat, List.getLastD_concat]

variable {first second : ModulePath} {isDirectory other : Bool}

/-- Only a directory can have no parts. -/
theorem eq_concat_of_file (h : first.parts = [] → isDirectory = true) :
  isDirectory = true ∨ isDirectory = false ∧ ∃ front last, first = ⟨front ++ [last]⟩
  := by
  obtain ⟨parts⟩ := first
  rcases List.eq_nil_or_concat parts with rfl | ⟨front, last, rfl⟩
  · apply Or.inl (h rfl)
  · cases isDirectory with
    | true => exact Or.inl rfl
    | false => exact Or.inr ⟨rfl, front, last, List.concat_eq_append .. ▸ rfl⟩

/-- What the parts of a module have, and texts that end like names of files, the parts of its file
have. -/
theorem forall_fileParts {property : String → Prop} (hroot : first.parts = [] → isDirectory = true)
    (hmod : property "mod.rs") (hending : ∀ last, property last → property (last ++ ".rs"))
    (h : ∀ part ∈ first.parts, property part) :
  ∀ part ∈ first.fileParts isDirectory, property part
  := by
  intro part hpart
  rcases eq_concat_of_file hroot with rfl | ⟨rfl, front, last, rfl⟩
  · rcases List.mem_append.mp hpart with hpart | hpart
    · apply h part hpart
    · cases List.mem_singleton.mp hpart
      apply hmod
  · rw [fileParts_concat] at hpart
    rcases List.mem_append.mp hpart with hpart | hpart
    · apply h part (List.mem_append_left _ hpart)
    · cases List.mem_singleton.mp hpart
      apply hending last (h last (List.mem_append_right _ List.mem_cons_self))

/-- The last part of a file is not empty. -/
theorem getLast?_fileParts (hroot : first.parts = [] → isDirectory = true) :
  ∃ last, (first.fileParts isDirectory).getLast? = some (last ++ ".rs")
  := by
  rcases eq_concat_of_file hroot with rfl | ⟨rfl, front, last, rfl⟩
  · exact ⟨"mod", List.getLast?_concat⟩
  · use last
    rw [fileParts_concat, List.getLast?_concat]

/-- Two modules have different files, if none is called like the file of a directory. -/
theorem fileParts_inj (hfirst : first.parts = [] → isDirectory = true)
    (hsecond : second.parts = [] → other = true) (hparts : ∀ part ∈ first.parts, IsFilePart part)
    (hparts' : ∀ part ∈ second.parts, IsFilePart part)
    (h : first.fileParts isDirectory = second.fileParts other) :
  first = second
  := by
  have hending {last last' : String} (heq : last ++ ".rs" = last' ++ ".rs") : last = last' :=
    (String.append_left_inj ".rs").mp heq
  have hne {path : ModulePath} {front : List String} {last : String}
      (hpart : ∀ part ∈ front ++ [last], IsFilePart part) :
      path.parts ++ ["mod.rs"] ≠ front ++ [last ++ ".rs"] := by
    intro heq
    have hlast : "mod" ++ ".rs" = last ++ ".rs" :=
      List.head_eq_of_cons_eq (List.append_inj' heq rfl).2
    apply (hpart last (List.mem_append_right _ List.mem_cons_self)).ne_mod
    rw [hending hlast]
  rcases eq_concat_of_file hfirst with rfl | ⟨rfl, front, last, rfl⟩
  · rcases eq_concat_of_file hsecond with rfl | ⟨rfl, front', last', rfl⟩
    · exact congrArg mk (List.append_inj' h rfl).1
    · rw [fileParts_concat] at h
      apply absurd h (hne hparts')
  · rcases eq_concat_of_file hsecond with rfl | ⟨rfl, front', last', rfl⟩
    · rw [fileParts_concat] at h
      apply absurd h.symm (hne hparts)
    · rw [fileParts_concat, fileParts_concat] at h
      obtain ⟨rfl, hlast⟩ := List.append_inj' h rfl
      rw [hending (List.head_eq_of_cons_eq hlast)]

end ModulePath

/-- The module of a namespace can have a file. -/
theorem Identifier.isFilePart_valueName (name : String) :
  ModulePath.IsFilePart (valueName name)
  := by
  have hslash : '/' ∉ (ServiceBindings.snakeCase name).toList :=
    Words.isForeign_slash.not_mem_snake (by decide) name
  constructor
  · unfold valueName escape
    split
    case isTrue => simpa using hslash
    case isFalse =>
      split
      case isTrue => simpa using hslash
      case isFalse =>
        split
        case isTrue => simpa using hslash
        case isFalse => apply hslash
  · intro hmod
    apply escape_not_mem_keywords (ServiceBindings.snakeCase name)
    rw [valueName] at hmod
    rw [hmod]
    decide

/-! ### Files -/

namespace ModuleTree

variable {tree : ModuleTree} {mode : OutputMode} {m : ModuleId}

/-- Whether the file of a module is that of a directory. -/
def isDirectory (tree : ModuleTree) (mode : OutputMode) (id : ModuleId) : Bool :=
  (tree.path id).isRoot || (mode = .directory && tree.hasFileChildren id)

theorem isDirectory_of_root (h : (tree.path m).parts = []) : tree.isDirectory mode m = true := by
  rw [isDirectory, ModulePath.isRoot, h]
  rfl

/-- A text after a joined path belongs to its last part. -/
theorem intercalate_concat_append (separator : String) (front : List String) (last ending : String) :
  separator.intercalate (front ++ [last]) ++ ending
    = separator.intercalate (front ++ [last ++ ending])
  := by
  cases front with
  | nil => simp
  | cons part rest =>
      have hne : part :: rest ≠ [] := List.cons_ne_nil _ _
      rw [String.intercalate_append_of_ne_nil hne (List.cons_ne_nil _ _),
        String.intercalate_append_of_ne_nil hne (List.cons_ne_nil _ _), String.append_assoc]
      simp

/-- The path of a file is joined from its parts. -/
theorem filePath_eq (tree : ModuleTree) (mode : OutputMode) (id : ModuleId) :
  tree.filePath mode id = "/".intercalate ((tree.path id).fileParts (tree.isDirectory mode id))
  := by
  rw [filePath, isDirectory]
  generalize tree.path id = path
  generalize (mode = .directory && tree.hasFileChildren id) = nested
  obtain ⟨parts⟩ := path
  rcases List.eq_nil_or_concat parts with rfl | ⟨front, last, hparts⟩
  · rfl
  · rw [List.concat_eq_append] at hparts
    subst hparts
    have hroot : ModulePath.isRoot ⟨front ++ [last]⟩ = false := by simp [ModulePath.isRoot]
    rw [hroot, Bool.false_or]
    cases nested with
    | true =>
        have hne : front ++ [last] ≠ [] := by simp
        change "/".intercalate (front ++ [last]) ++ "/mod.rs"
          = "/".intercalate (front ++ [last] ++ ["mod.rs"])
        rw [String.intercalate_append_of_ne_nil hne (List.cons_ne_nil _ _), String.append_assoc]
        rfl
    | false =>
        rw [ModulePath.fileParts_concat]
        apply intercalate_concat_append

/-- The path of a file has its parts for pieces. -/
theorem pieces_filePath (h : ∀ part ∈ (tree.path m).parts, ModulePath.IsFilePart part) :
  PathText.pieces (tree.filePath mode m) = (tree.path m).fileParts (tree.isDirectory mode m)
  := by
  rw [filePath_eq]
  obtain ⟨last, hlast⟩ := ModulePath.getLast?_fileParts (@isDirectory_of_root tree mode m)
  apply PathText.pieces_intercalate
  · intro hnil
    rw [hnil] at hlast
    cases hlast
  · apply ModulePath.forall_fileParts isDirectory_of_root _ _ fun part hpart =>
      (h part hpart).no_slash
    · decide
    · intro last hlast
      simpa using hlast

/-- The names on the path of a file are its parts, if no module on the way has an empty name. -/
theorem names_filePath (h : ∀ part ∈ (tree.path m).parts, ModulePath.IsFilePart part)
    (hempty : ∀ part ∈ (tree.path m).parts, part ≠ "") :
  PathText.names (tree.filePath mode m) = (tree.path m).fileParts (tree.isDirectory mode m)
  := by
  obtain ⟨last, hlast⟩ := ModulePath.getLast?_fileParts (@isDirectory_of_root tree mode m)
  rw [PathText.names, pieces_filePath h, hlast, if_neg (by simp)]
  apply List.filter_eq_self.mpr
  have hne := ModulePath.forall_fileParts (@isDirectory_of_root tree mode m) (by decide)
    (fun last _ => by simp) hempty
  intro part hpart
  simpa using hne part hpart

end ModuleTree

end ServiceBindings
