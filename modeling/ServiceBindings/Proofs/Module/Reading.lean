import Mathlib.Logic.Function.Iterate
import ServiceBindings.Proofs.Module.Filing
import ServiceBindings.Proofs.Text.Lines

/-!
# Reading files

A file is a head and, after it, a sequence of texts, of declarations of modules, and of blocks that
are opened and closed again, with gaps between them.  What the lines of each of these are is said
here apart from how they are written.  Along a file it is known in which module one is: that of the
file, or that of the innermost block that is open; lines are as deep as there are open blocks.

Texts can be anything, also what looks like a block, so that a file alone does not tell how it is to
be read.  There is a reading of the files of a module tree in which each item of each module occurs
exactly once, in that module.
-/

namespace ServiceBindings

/-! ### Texts and lines -/

namespace Text

/-- White space. -/
def whiteSpace : List Nat :=
  [0x9, 0xa, 0xb, 0xc, 0xd, 0x20, 0x85, 0xa0, 0x1680, 0x2000, 0x2001, 0x2002, 0x2003, 0x2004, 0x2005,
    0x2006, 0x2007, 0x2008, 0x2009, 0x200a, 0x2028, 0x2029, 0x202f, 0x205f, 0x3000]

theorem isBlank_iff (c : Char) : isBlank c = true ↔ c.toNat ∈ whiteSpace := by
  simp only [isBlank, whiteSpace, Bool.or_eq_true, Bool.and_eq_true, decide_eq_true_eq, beq_iff_eq,
    List.mem_cons, List.not_mem_nil, or_false]
  omega

/-- Whether lines are those of a text, but for the white space that it ends with. -/
def IsTrimmed (text : String) (all : List String) : Prop :=
  ∃ kept white, text.toList = kept ++ white
    ∧ (∀ c ∈ white, c.toNat ∈ whiteSpace)
    ∧ (∀ c ∈ kept.getLast?, c.toNat ∉ whiteSpace)
    ∧ IsCut kept all

/-- Whether a line is a content behind four blanks for each level; no content is an empty line. -/
def IsDeep (depth : Nat) (line content : String) : Prop :=
  if content = "" then line = ""
  else line.toList = List.replicate (4 * depth) ' ' ++ content.toList

end Text

/-! ### Marks -/

/-- What follows the head of a file. -/
inductive Mark where
  /-- An empty line. -/
  | gap
  | text (body : String)
  /-- The declaration of a module that has a file of its own. -/
  | declaration (id : ModuleId)
  /-- The documentation and the first line of a block. -/
  | opening (id : ModuleId)
  | closing
  deriving DecidableEq, Repr

/-- A place in a file: the module that it is in, and the modules around that one, from the innermost
one. -/
structure Spot where
  inside : ModuleId
  outer : List ModuleId := []
  deriving DecidableEq, Repr

namespace Spot

/-- The place behind a mark. -/
def after (spot : Spot) : Mark → Spot
  | .opening id => ⟨id, spot.inside :: spot.outer⟩
  | .closing =>
    match spot.outer with
    | [] => spot
    | id :: outer => ⟨id, outer⟩
  | _ => spot

/-- The place that a mark belongs to; the end of a block belongs where its beginning does. -/
def holding (spot : Spot) (mark : Mark) : Spot :=
  if mark = .closing then spot.after .closing else spot

end Spot

/-- What stands before the declaration of a module that can be seen from somewhere. -/
def qualifiers : List (Visibility × String) :=
  [(.everywhere, "pub "), (.crate, "pub(crate) "), (.parent, "pub(super) "), (.hidden, "")]

/-- Whether lines are those of a documentation, each behind a marker. -/
def IsDocumentation (marker : String) (doc : Option String) (lines : List String) : Prop :=
  match doc with
  | none => lines = []
  | some text => ∃ contents, Text.IsCut text.toList contents
      ∧ lines = contents.map fun content =>
        if content = "" then marker else marker ++ " " ++ content

namespace Mark

/-- Whether lines stand for a mark, but for indentation. -/
inductive Shows (tree : ModuleTree) : Mark → List String → Prop
  | gap : Shows tree .gap [""]
  | text {body : String} {lines : List String} (hlines : Text.IsTrimmed body lines) :
      Shows tree (.text body) lines
  | declaration {id : ModuleId} {m : Module} {words : String} (hm : tree.get? id = some m)
      (hwords : (m.visibility, words) ∈ qualifiers) :
      Shows tree (.declaration id) [words ++ "mod " ++ m.name ++ ";"]
  | opening {id : ModuleId} {m : Module} {words : String} {doc : List String}
      (hm : tree.get? id = some m) (hwords : (m.visibility, words) ∈ qualifiers)
      (hdoc : IsDocumentation "///" m.doc doc) :
      Shows tree (.opening id) (doc ++ [words ++ "mod " ++ m.name ++ " \x7b"])
  | closing : Shows tree .closing ["\x7d"]

/-- The item of a module that a mark introduces. -/
def item? : Mark → Option ModuleItem
  | gap => none
  | text body => some (.text body)
  | declaration id => some (.child id)
  | opening id => some (.child id)
  | closing => none

/-- The places of marks that are read one after another. -/
def reading : Spot → List Mark → List (Spot × Mark)
  | _, [] => []
  | spot, mark :: rest => (spot.holding mark, mark) :: reading (spot.after mark) rest

/-- The items that marks introduce, each with the module that it is in. -/
def itemsRead (spot : Spot) (marks : List Mark) : List (ModuleId × ModuleItem) :=
  (reading spot marks).filterMap fun (spot, mark) => mark.item?.map fun item => (spot.inside, item)

theorem reading_append (spot : Spot) (first second : List Mark) :
  reading spot (first ++ second)
    = reading spot first ++ reading (first.foldl Spot.after spot) second
  := by
  induction first generalizing spot with
  | nil => rfl
  | cons mark rest ih =>
      rw [List.cons_append, reading, ih]
      rfl

theorem itemsRead_append (spot : Spot) (first second : List Mark) :
  itemsRead spot (first ++ second)
    = itemsRead spot first ++ itemsRead (first.foldl Spot.after spot) second
  := by
  rw [itemsRead, reading_append, List.filterMap_append]
  rfl

/-- Whether lines are read as marks, each as deep as its place is. -/
inductive IsRead (tree : ModuleTree) : Spot → List String → List Mark → Prop
  | nil (spot : Spot) : IsRead tree spot [] []
  | cons {spot : Spot} {mark : Mark} {contents lines rest : List String} {marks : List Mark}
      (hmark : mark.Shows tree contents)
      (hdeep : List.Forall₂ (Text.IsDeep (spot.holding mark).outer.length) lines contents)
      (hrest : IsRead tree (spot.after mark) rest marks) :
      IsRead tree spot (lines ++ rest) (mark :: marks)

theorem IsRead.append {tree : ModuleTree} {spot : Spot} {lines others : List String}
    {first second : List Mark} (hfirst : IsRead tree spot lines first)
    (hsecond : IsRead tree (first.foldl Spot.after spot) others second) :
  IsRead tree spot (lines ++ others) (first ++ second)
  := by
  induction hfirst with
  | nil spot => apply hsecond
  | cons hmark hdeep hrest ih =>
      rw [List.append_assoc]
      apply IsRead.cons hmark hdeep (ih hsecond)

end Mark

/-- Whether a text is the file of a module, read as marks: its lines are a notice, the documentation
of the module after an empty line, and those of the marks. -/
def ModuleTree.IsFile (tree : ModuleTree) (generator : String) (id : ModuleId) (text : String)
    (marks : List Mark) : Prop :=
  ∃ m doc lines, tree.get? id = some m
    ∧ IsDocumentation "//!" m.doc doc
    ∧ Mark.IsRead tree ⟨id, []⟩ lines marks
    ∧ text.toList = ((("// Generated by " ++ generator ++ ". Do not edit.")
        :: (if m.doc = none then [] else "" :: doc)) ++ lines).flatMap fun line =>
          line.toList ++ ['\n']

/-! ### Marks of entries -/

namespace LayoutEntry

open Mark

mutual

/-- The marks of an entry. -/
def marks : LayoutEntry → List Mark
  | text body => [.text body]
  | declaration id => [.declaration id]
  | block id entries => .opening id :: (marksIn entries ++ [.closing])

/-- The marks of the entries of a block. -/
def marksIn : List LayoutEntry → List Mark
  | [] => []
  | [entry] => marks entry
  | entry :: rest => marks entry ++ .gap :: marksIn rest

end

/-- The marks of the entries of a file. -/
def fileMarks (entries : List LayoutEntry) : List Mark :=
  entries.flatMap fun entry => .gap :: entry.marks

/-- The marks in a block are those of its entries, but for gaps. -/
theorem mem_marksIn {entries : List LayoutEntry} {mark : Mark} (hmark : mark ∈ marksIn entries)
    (hgap : mark ≠ .gap) :
  ∃ entry ∈ entries, mark ∈ entry.marks
  := by
  induction entries with
  | nil => cases hmark
  | cons entry rest ih =>
      cases rest with
      | nil => exact ⟨entry, List.mem_cons_self, hmark⟩
      | cons next rest =>
          rcases List.mem_append.mp hmark with hmark | hmark
          · exact ⟨entry, List.mem_cons_self, hmark⟩
          · obtain ⟨other, hother, hmark⟩ := ih ((List.mem_cons.mp hmark).resolve_left hgap)
            exact ⟨other, List.mem_cons_of_mem _ hother, hmark⟩

theorem mem_fileMarks {entries : List LayoutEntry} {mark : Mark} (hmark : mark ∈ fileMarks entries)
    (hgap : mark ≠ .gap) :
  ∃ entry ∈ entries, mark ∈ entry.marks
  := by
  obtain ⟨entry, hentry, hmark⟩ := List.mem_flatMap.mp hmark
  exact ⟨entry, hentry, (List.mem_cons.mp hmark).resolve_left hgap⟩

/-- What is opened in an entry is one of its blocks. -/
theorem opening_mem_marks {entry : LayoutEntry} {id : ModuleId} (h : .opening id ∈ entry.marks) :
  id ∈ entry.blocks.map (·.1)
  := by
  induction entry using LayoutEntry.induct with
  | text body => simp [marks] at h
  | declaration other => simp [marks] at h
  | block other entries ih =>
      rw [blocks, List.map_cons]
      rcases List.mem_cons.mp h with h | h
      · cases h
        apply List.mem_cons_self
      · rcases List.mem_append.mp h with h | h
        · obtain ⟨entry, hentry, h⟩ := mem_marksIn h (by simp)
          obtain ⟨piece, hpiece, rfl⟩ := List.mem_map.mp (ih entry hentry h)
          apply List.mem_cons_of_mem
          rw [blocksIn_eq_flatMap]
          apply List.mem_map_of_mem (List.mem_flatMap.mpr ⟨entry, hentry, hpiece⟩)
        · cases List.mem_singleton.mp h

/-- What is declared in an entry is declared by it or by an entry of one of its blocks. -/
theorem declaration_mem_marks {entry : LayoutEntry} {id : ModuleId}
    (h : .declaration id ∈ entry.marks) :
  entry = .declaration id ∨ ∃ piece ∈ entry.blocks, .declaration id ∈ piece.2
  := by
  induction entry using LayoutEntry.induct with
  | text body => simp [marks] at h
  | declaration other =>
      cases List.mem_singleton.mp h
      apply Or.inl rfl
  | block other entries ih =>
      right
      rw [blocks]
      rcases List.mem_cons.mp h with h | h
      · cases h
      · rcases List.mem_append.mp h with h | h
        · obtain ⟨entry, hentry, h⟩ := mem_marksIn h (by simp)
          rcases ih entry hentry h with rfl | ⟨piece, hpiece, h⟩
          · exact ⟨_, List.mem_cons_self, hentry⟩
          · refine ⟨piece, List.mem_cons_of_mem _ ?_, h⟩
            rw [blocksIn_eq_flatMap]
            apply List.mem_flatMap.mpr ⟨entry, hentry, hpiece⟩
        · cases List.mem_singleton.mp h

/-! ### Where reading leads -/

theorem after_marksIn_of {entries : List LayoutEntry} {spot : Spot}
    (h : ∀ entry ∈ entries, entry.marks.foldl Spot.after spot = spot) :
  (marksIn entries).foldl Spot.after spot = spot
  := by
  induction entries with
  | nil => rfl
  | cons entry rest ih =>
      have hentry := h entry List.mem_cons_self
      have hrest := ih fun other hother => h other (List.mem_cons_of_mem _ hother)
      cases rest with
      | nil => apply hentry
      | cons next rest =>
          rw [marksIn, List.foldl_append, hentry]
          · apply hrest
          · simp

/-- An entry that is read leads back to its place. -/
theorem after_marks (entry : LayoutEntry) (spot : Spot) :
  entry.marks.foldl Spot.after spot = spot
  := by
  induction entry using LayoutEntry.induct generalizing spot with
  | text body => rfl
  | declaration id => rfl
  | block id entries ih =>
      rw [marks, List.foldl_cons, List.foldl_append, after_marksIn_of fun entry h => ih entry h _]
      rfl

theorem after_marksIn (entries : List LayoutEntry) (spot : Spot) :
  (marksIn entries).foldl Spot.after spot = spot :=
  after_marksIn_of fun entry _ => entry.after_marks spot

theorem after_fileMarks (entries : List LayoutEntry) (spot : Spot) :
  (fileMarks entries).foldl Spot.after spot = spot
  := by
  induction entries with
  | nil => rfl
  | cons entry rest ih =>
      rw [fileMarks, List.flatMap_cons, List.cons_append, List.foldl_cons, List.foldl_append]
      change (fileMarks rest).foldl Spot.after (entry.marks.foldl Spot.after spot) = spot
      rw [after_marks, ih]

/-! ### What is read -/

theorem indent_iterate_append (depth : Nat) (first second : List String) :
  Code.indent^[depth] (first ++ second)
    = Code.indent^[depth] first ++ Code.indent^[depth] second
  := by
  induction depth generalizing first second with
  | zero => rfl
  | succ depth ih =>
      have hstep : Code.indent (first ++ second) = Code.indent first ++ Code.indent second :=
        List.map_append
      simp only [Function.iterate_succ_apply, hstep, ih]

/-- A line that is one level deeper has four more blanks. -/
theorem isDeep_succ {depth : Nat} {line content : String} (h : Text.IsDeep depth line content) :
  Text.IsDeep (depth + 1) (if line.isEmpty then line else "    " ++ line) content
  := by
  unfold Text.IsDeep at h ⊢
  by_cases hcontent : content = ""
  · rw [if_pos hcontent] at h ⊢
    rw [h]
    apply if_pos rfl
  · rw [if_neg hcontent] at h ⊢
    have hline : line.isEmpty = false := by
      rw [Bool.eq_false_iff, Ne, String.isEmpty_iff, ← String.toList_eq_nil_iff, h]
      simp [hcontent]
    rw [hline, if_neg Bool.false_ne_true, String.toList_append, h]
    rfl

theorem isDeep_indent (depth : Nat) (contents : List String) :
  List.Forall₂ (Text.IsDeep depth) (Code.indent^[depth] contents) contents
  := by
  induction depth with
  | zero =>
      rw [Function.iterate_zero, id_eq, List.forall₂_same]
      intro content _
      unfold Text.IsDeep
      split
      case isTrue h => apply h
      case isFalse => rfl
  | succ depth ih =>
      rw [Function.iterate_succ_apply', Code.indent, List.forall₂_map_left_iff]
      apply ih.imp
      intro line content h
      apply isDeep_succ h

/-- Lines that stand for a mark are read as it, once they are as deep as its place is. -/
theorem isRead_singleton {tree : ModuleTree} {mark : Mark} {contents : List String}
    (hmark : mark.Shows tree contents) (spot : Spot) :
  IsRead tree spot (Code.indent^[(spot.holding mark).outer.length] contents) [mark]
  := by
  rw [← List.append_nil (Code.indent^[_] contents)]
  apply IsRead.cons hmark (isDeep_indent _ contents) (.nil _)

theorem isRead_marksIn {tree : ModuleTree} {entries : List LayoutEntry} {spot : Spot}
    (h : ∀ entry ∈ entries,
      IsRead tree spot (Code.indent^[spot.outer.length] (tree.entryLines entry)) entry.marks) :
  IsRead tree spot (Code.indent^[spot.outer.length] (tree.blockLines entries)) (marksIn entries)
  := by
  induction entries with
  | nil =>
      have hnone : Code.indent^[spot.outer.length] [] = [] := Function.iterate_fixed rfl _
      rw [ModuleTree.blockLines, hnone]
      apply IsRead.nil
  | cons entry rest ih =>
      have hentry := h entry List.mem_cons_self
      have hrest := ih fun other hother => h other (List.mem_cons_of_mem _ hother)
      cases rest with
      | nil => apply hentry
      | cons next rest =>
          have hblock : tree.blockLines (entry :: next :: rest)
              = tree.entryLines entry ++ ([""] ++ tree.blockLines (next :: rest)) := rfl
          have hmarks : marksIn (entry :: next :: rest)
              = entry.marks ++ ([.gap] ++ marksIn (next :: rest)) := rfl
          rw [hblock, hmarks, indent_iterate_append, indent_iterate_append]
          apply hentry.append
          rw [after_marks]
          apply (isRead_singleton .gap spot).append hrest

theorem isRead_fileMarks {tree : ModuleTree} {entries : List LayoutEntry} {m : ModuleId}
    (h : ∀ entry ∈ entries, IsRead tree ⟨m, []⟩ (tree.entryLines entry) entry.marks) :
  IsRead tree ⟨m, []⟩ (entries.flatMap fun entry => "" :: tree.entryLines entry)
    (fileMarks entries)
  := by
  induction entries with
  | nil => apply IsRead.nil
  | cons entry rest ih =>
      have hentry := h entry List.mem_cons_self
      have hrest := ih fun other hother => h other (List.mem_cons_of_mem _ hother)
      have hgap : IsRead tree ⟨m, []⟩ ("" :: tree.entryLines entry) (.gap :: entry.marks) :=
        (isRead_singleton .gap ⟨m, []⟩).append hentry
      apply hgap.append
      rw [List.foldl_cons]
      change IsRead tree (entry.marks.foldl Spot.after ⟨m, []⟩) _ _
      rw [after_marks]
      apply hrest

/-- The items of the entries of a module. -/
def owned (piece : ModuleId × List LayoutEntry) : List (ModuleId × ModuleItem) :=
  piece.2.map fun entry => (piece.1, entry.item)

theorem itemsRead_marksIn (spot : Spot) (entries : List LayoutEntry) :
  itemsRead spot (marksIn entries) = entries.flatMap fun entry => itemsRead spot entry.marks
  := by
  induction entries with
  | nil => rfl
  | cons entry rest ih =>
      cases rest with
      | nil =>
          symm
          apply List.append_nil
      | cons next rest =>
          have hmarks : marksIn (entry :: next :: rest)
              = entry.marks ++ .gap :: marksIn (next :: rest) := rfl
          rw [hmarks, itemsRead_append, after_marks, List.flatMap_cons, ← ih]
          rfl

theorem itemsRead_fileMarks (spot : Spot) (entries : List LayoutEntry) :
  itemsRead spot (fileMarks entries) = entries.flatMap fun entry => itemsRead spot entry.marks
  := by
  induction entries with
  | nil => rfl
  | cons entry rest ih =>
      have hmarks : fileMarks (entry :: rest) = (.gap :: entry.marks) ++ fileMarks rest := rfl
      rw [hmarks, itemsRead_append, List.foldl_cons, List.flatMap_cons, ← ih]
      change _ ++ itemsRead (entry.marks.foldl Spot.after spot) _ = _
      rw [after_marks]
      rfl

/-- The items of some entries are read once if those of each entry are. -/
theorem flatMap_itemsRead_perm {spot : Spot} {entries : List LayoutEntry}
    (h : ∀ entry ∈ entries, (itemsRead spot entry.marks).Perm
      ((spot.inside, entry.item) :: entry.blocks.flatMap owned)) :
  (entries.flatMap fun entry => itemsRead spot entry.marks).Perm
    (((spot.inside, entries) :: blocksIn entries).flatMap owned)
  := by
  apply (List.Perm.flatMap_left entries h).trans
  rw [List.flatMap_cons, blocksIn_eq_flatMap, List.flatMap_assoc]
  have hsplit := List.flatMap_append_perm entries (fun entry => [(spot.inside, entry.item)])
    fun entry => entry.blocks.flatMap owned
  apply hsplit.symm.trans
  rw [owned, ← List.map_eq_flatMap]

/-- An entry that is read introduces its item where it stands, and the items of its blocks in
them. -/
theorem itemsRead_marks_perm (entry : LayoutEntry) (spot : Spot) :
  (itemsRead spot entry.marks).Perm
    ((spot.inside, entry.item) :: entry.blocks.flatMap owned)
  := by
  induction entry using LayoutEntry.induct generalizing spot with
  | text body => apply List.Perm.refl
  | declaration id => apply List.Perm.refl
  | block id entries ih =>
      have hinner := flatMap_itemsRead_perm fun entry h =>
        ih entry h ⟨id, spot.inside :: spot.outer⟩
      have hread : itemsRead spot (marks (.block id entries)) = (spot.inside, .child id)
          :: itemsRead ⟨id, spot.inside :: spot.outer⟩ (marksIn entries ++ [.closing]) := rfl
      have hclosing : itemsRead ⟨id, spot.inside :: spot.outer⟩ [.closing] = [] := rfl
      rw [hread, itemsRead_append, after_marksIn, hclosing, List.append_nil, itemsRead_marksIn]
      apply hinner.cons

end LayoutEntry

/-! ### All files -/

namespace ModuleTree

open LayoutEntry Mark

variable {tree : ModuleTree}

/-- Whether a module has a file of its own: the root if everything goes to a single file, and else
each module that neither is inline nor lies in an inline one. -/
def HasFile (tree : ModuleTree) : OutputMode → ModuleId → Prop
  | .singleFile, m => m = .root
  | .directory, m => m.index < tree.size
      ∧ ∀ outer, Relation.ReflTransGen tree.Holds outer m → tree.isInline outer = false

/-- The items of a module, with the module. -/
def ownItems (tree : ModuleTree) (m : ModuleId) : List (ModuleId × ModuleItem) :=
  (tree.items m).map fun item => (m, item)

theorem child?_ownItems (m : ModuleId) :
  (tree.ownItems m).filterMap (fun entry => entry.2.child?) = tree.children m
  := by
  rw [ownItems, List.filterMap_map, children_eq_filterMap]
  rfl

theorem exists_get? {id : ModuleId} (h : id.index < tree.size) : ∃ m, tree.get? id = some m :=
  ⟨_, List.getElem?_eq_getElem h⟩

/-! ### What is written -/

theorem isTrimmed_textLines (body : String) : Text.IsTrimmed body (textLines body) := by
  use Text.trimEnd body.toList, (body.toList.reverse.takeWhile Text.isBlank).reverse
  refine ⟨?_, ?_, ?_, Text.isCut_lines _⟩
  · rw [Text.trimEnd, ← List.reverse_append, List.takeWhile_append_dropWhile, List.reverse_reverse]
  · intro c hc
    rw [← Text.isBlank_iff]
    apply List.all_eq_true.mp List.all_takeWhile c (List.mem_reverse.mp hc)
  · intro c hc
    rw [Text.trimEnd, List.getLast?_reverse] at hc
    have hblank := List.head?_dropWhile_not Text.isBlank body.toList.reverse
    rw [Option.mem_def.mp hc] at hblank
    rw [← Text.isBlank_iff, Bool.not_eq_true]
    apply hblank

theorem isDocumentation_docLines {id : ModuleId} {m : Module} (hm : tree.get? id = some m)
    (marker : String) :
  IsDocumentation marker m.doc (tree.docLines marker id)
  := by
  rw [docLines, hm, Option.bind_some]
  cases m.doc with
  | none => rfl
  | some doc =>
      refine ⟨Text.linesOf doc, Text.isCut_lines _, List.map_congr_left ?_⟩
      intro content _
      simp only [Code.docLine, String.isEmpty_iff]

theorem mem_qualifiers (visibility : Visibility) :
  (visibility, visibility.qualifier) ∈ qualifiers
  := by
  cases visibility <;> decide

theorem shows_declaration {id : ModuleId} {m : Module} (hm : tree.get? id = some m) :
  Shows tree (.declaration id) [tree.moduleHead id ++ ";"]
  := by
  rw [moduleHead, hm]
  apply Shows.declaration hm (mem_qualifiers _)

theorem shows_opening {id : ModuleId} {m : Module} (hm : tree.get? id = some m) :
  Shows tree (.opening id) (tree.docLines "///" id ++ [tree.moduleHead id ++ " \x7b"])
  := by
  rw [moduleHead, hm]
  apply Shows.opening hm (mem_qualifiers _) (isDocumentation_docLines hm _)

theorem toList_unlines (lines : List String) :
  (Text.unlines lines).toList = lines.flatMap fun line => line.toList ++ ['\n']
  := by
  induction lines with
  | nil => rfl
  | cons line rest ih =>
      rw [Text.unlines, List.map_cons, String.join_cons, String.toList_append, List.flatMap_cons,
        ← ih, String.toList_append]
      rfl

namespace Nested

variable (h : tree.Nested)
include h

theorem mem_filed_iff (mode : OutputMode) {m : ModuleId} :
  m ∈ tree.filed mode ↔ tree.HasFile mode m
  := by
  cases mode with
  | directory => apply h.mem_filed_directory
  | singleFile =>
      rw [h.filed_singleFile]
      apply List.mem_singleton

/-- A module that is written in any place is written with its items. -/
theorem owned_eq {forced : Bool} {m : ModuleId} {piece : ModuleId × List LayoutEntry}
    (hpiece : piece ∈ tree.pieces forced m) :
  owned piece = tree.ownItems piece.1
  := by
  have hbody (forced : Bool) (id : ModuleId) :
      owned (id, tree.body forced id) = tree.ownItems id := by
    rw [owned, ownItems, h.body_eq, List.map_map]
    apply List.map_congr_left
    intro item _
    exact congrArg (Prod.mk id) (item_entryOf forced item)
  rcases List.mem_cons.mp hpiece with rfl | hpiece
  · apply hbody
  · rw [← hbody true, ← h.body_of_mem_blocksIn hpiece]

/-- Where a module has its file, the items of the modules that are written there are read. -/
theorem itemsRead_entries_perm (mode : OutputMode) (m : ModuleId) :
  (itemsRead ⟨m, []⟩ (fileMarks (tree.entries mode m))).Perm
    ((tree.covered (mode = .singleFile) m).flatMap tree.ownItems)
  := by
  rw [itemsRead_fileMarks]
  apply (flatMap_itemsRead_perm fun entry _ => entry.itemsRead_marks_perm ⟨m, []⟩).trans
  apply List.Perm.of_eq
  rw [covered, List.flatMap_map]
  apply List.flatMap_congr
  intro piece hpiece
  apply h.owned_eq hpiece

/-- Over all files, each item of each module is read once, in its module. -/
theorem itemsRead_filed_perm (mode : OutputMode) :
  ((tree.filed mode).flatMap fun m => itemsRead ⟨m, []⟩ (fileMarks (tree.entries mode m))).Perm
    (tree.ids.flatMap tree.ownItems)
  := by
  apply (List.Perm.flatMap_left _ fun m _ => h.itemsRead_entries_perm mode m).trans
  rw [← List.flatMap_assoc]
  apply (h.covered_filed_perm mode).flatMap_right

/-- What an item of a module becomes is read as its marks, wherever it is written. -/
theorem isRead_entryOf {m : ModuleId} {item : ModuleItem} (hitem : item ∈ tree.items m)
    (forced : Bool) (spot : Spot) :
  IsRead tree spot (Code.indent^[spot.outer.length] (tree.entryLines (tree.entryOf forced item)))
    (tree.entryOf forced item).marks
  := by
  induction m using h.induct generalizing item forced spot with
  | step m ih =>
      cases item with
      | text body => apply isRead_singleton (.text (isTrimmed_textLines body))
      | child child =>
          have hchild := mem_items_child hitem
          obtain ⟨module, hmodule⟩ := exists_get? (h.child_lt hchild)
          rw [entryOf]
          split
          case isTrue =>
            have hinner : IsRead tree ⟨child, spot.inside :: spot.outer⟩
                (Code.indent^[spot.outer.length + 1] (tree.blockLines (tree.body true child)))
                (marksIn (tree.body true child)) := by
              apply isRead_marksIn
              rw [h.body_eq]
              intro entry hentry
              obtain ⟨inner, hinner, rfl⟩ := List.mem_map.mp hentry
              apply ih child hchild hinner
            have hclosing : IsRead tree ⟨child, spot.inside :: spot.outer⟩
                (Code.indent^[spot.outer.length] ["\x7d"]) [.closing] :=
              isRead_singleton .closing _
            rw [entryLines, marks, indent_iterate_append, indent_iterate_append, List.append_assoc,
              ← List.singleton_append, ← Function.iterate_succ_apply]
            apply (isRead_singleton (shows_opening hmodule) spot).append
            apply hinner.append
            rw [after_marksIn]
            apply hclosing
          case isFalse =>
            apply isRead_singleton (shows_declaration hmodule)

theorem isFile_file {mode : OutputMode} {m : ModuleId} (hm : m.index < tree.size)
    (generator : String) :
  tree.IsFile generator m (tree.file mode generator m).text (fileMarks (tree.entries mode m))
  := by
  obtain ⟨module, hmodule⟩ := exists_get? hm
  refine ⟨module, tree.docLines "//!" m, (tree.entries mode m).flatMap fun entry =>
    "" :: tree.entryLines entry, hmodule, isDocumentation_docLines hmodule _, ?_, ?_⟩
  · apply isRead_fileMarks
    have hentries : tree.entries mode m = (tree.items m).map (tree.entryOf (mode = .singleFile)) :=
      h.body_eq _ m
    rw [hentries]
    intro entry hentry
    obtain ⟨item, hitem, rfl⟩ := List.mem_map.mp hentry
    apply h.isRead_entryOf hitem _ ⟨m, []⟩
  · rw [file, toList_unlines, fileLines, hmodule]
    dsimp only [Option.bind_some]
    cases module.doc <;> rfl

/-- Only modules with files are declared without a block. -/
theorem mem_filed_of_declaration {mode : OutputMode} {m child : ModuleId}
    (hm : m ∈ tree.filed mode) (hmark : .declaration child ∈ fileMarks (tree.entries mode m)) :
  child ∈ tree.filed mode
  := by
  have hdeclared {forced : Bool} {id : ModuleId}
      (hentry : .declaration child ∈ tree.body forced id) :
      child ∈ tree.filedChildren forced id := by
    rw [← h.declared_body, declared, List.mem_filterMap]
    exact ⟨_, hentry, rfl⟩
  obtain ⟨entry, hentry, hmark⟩ := mem_fileMarks hmark (by simp)
  rcases declaration_mem_marks hmark with rfl | ⟨piece, hpiece, hmark⟩
  · apply h.mem_filed_of_filedChildren hm (hdeclared hentry)
  · have hblock : piece ∈ blocksIn (tree.body (mode = .singleFile) m) := by
      rw [blocksIn_eq_flatMap]
      apply List.mem_flatMap.mpr ⟨entry, hentry, hpiece⟩
    rw [h.body_of_mem_blocksIn hblock] at hmark
    cases (mem_filedChildren.mp (hdeclared hmark)).2.1

end Nested

/-- File rendering writes every module once.  The modules that have files come breadth first, each
once.  Each file can be read as a head and marks up to its end, where no block is open any more: the
lines of a text are those that it is cut into, without white space at its end, and the lines of each
mark are as deep as there are blocks around it.  What is declared without a block has a file, and
what is opened has none.  Over all files the items that are read are those of all modules, each once
and in its module, so that each module but the root is introduced once. -/
theorem files_hold_once (h : tree.Built) (mode : OutputMode) (generator : String) :
  ∃ (filed : List ModuleId) (marks : ModuleId → List Mark),
    List.Forall₂ (fun m file => file.path = tree.filePath mode m
      ∧ tree.IsFile generator m file.text (marks m)) filed (tree.files mode generator)
    ∧ filed = (List.range tree.size).flatMap (tree.level (mode = .singleFile))
    ∧ (mode = .singleFile → filed = [.root])
    ∧ filed.Nodup
    ∧ (∀ m, m ∈ filed ↔ tree.HasFile mode m)
    ∧ (∀ m ∈ filed, (marks m).foldl Spot.after ⟨m, []⟩ = ⟨m, []⟩
      ∧ ∀ child, (.declaration child ∈ marks m → tree.HasFile mode child)
        ∧ (.opening child ∈ marks m → ¬tree.HasFile mode child))
    ∧ (filed.flatMap fun m => itemsRead ⟨m, []⟩ (marks m)).Perm
      (tree.ids.flatMap fun m => (tree.items m).map fun item => (m, item))
    ∧ ((filed.flatMap fun m => itemsRead ⟨m, []⟩ (marks m)).filterMap
        fun entry => entry.2.child?).Perm tree.ids.tail
  := by
  have hnested := h.nested
  have hitems := hnested.itemsRead_filed_perm mode
  refine ⟨tree.filed mode, fun m => fileMarks (tree.entries mode m), ?_, hnested.filed_eq mode, ?_,
    hnested.filed_nodup mode, fun m => hnested.mem_filed_iff mode, ?_, hitems, ?_⟩
  · rw [files, List.forall₂_map_right_iff, List.forall₂_same]
    intro m hm
    exact ⟨rfl, hnested.isFile_file (hnested.open_of_mem_filed hm).1 generator⟩
  · rintro rfl
    apply hnested.filed_singleFile
  · intro m hm
    refine ⟨after_fileMarks _ _, fun child => ⟨?_, ?_⟩⟩
    · intro hmark
      apply (hnested.mem_filed_iff mode).mp (hnested.mem_filed_of_declaration hm hmark)
    · intro hmark
      rw [← hnested.mem_filed_iff mode]
      apply hnested.not_mem_filed_of_block hm
      obtain ⟨entry, hentry, hmark⟩ := mem_fileMarks hmark (by simp)
      obtain ⟨piece, hpiece, rfl⟩ := List.mem_map.mp (opening_mem_marks hmark)
      rw [blocksIn_eq_flatMap]
      apply List.mem_map_of_mem (List.mem_flatMap.mpr ⟨entry, hentry, hpiece⟩)
  · apply (hitems.filterMap _).trans
    rw [List.filterMap_flatMap, List.flatMap_congr fun m _ => child?_ownItems m]
    apply hnested.children_perm

/-- A module with a file, and an inline module that holds a module which is not inline. -/
def shelfTree : ModuleTree :=
  let tree := (ModuleTree.empty.addChild .root "api" .everywhere false).2
  let tree := tree.appendText .root "use core;"
  let tree := (tree.addChild .root "detail" .crate true).2
  let tree := (tree.addChild ⟨2⟩ "deep" .hidden false).2
  let tree := tree.appendText ⟨3⟩ "struct Deep;"
  tree.setDoc ⟨2⟩ (some "Details.")

/-- In a directory, the module in the inline one is written in the file of the root, with its text,
and has no file. -/
theorem files_hold_once_shelf :
  shelfTree.Built ∧ ∃ (filed : List ModuleId) (marks : ModuleId → List Mark),
    List.Forall₂ (fun m file => file.path = shelfTree.filePath .directory m
      ∧ shelfTree.IsFile "bindings" m file.text (marks m)) filed
      (shelfTree.files .directory "bindings")
    ∧ filed = [⟨0⟩, ⟨1⟩]
    ∧ ¬shelfTree.HasFile .directory ⟨3⟩ ∧ shelfTree.isInline ⟨3⟩ = false
    ∧ (filed.flatMap fun m => itemsRead ⟨m, []⟩ (marks m)).Perm
      [(⟨0⟩, .child ⟨1⟩), (⟨0⟩, .text "use core;"), (⟨0⟩, .child ⟨2⟩), (⟨2⟩, .child ⟨3⟩),
        (⟨3⟩, .text "struct Deep;")]
    ∧ (shelfTree.files .directory "bindings").map (fun file => (file.path, Text.linesOf file.text))
      = [("mod.rs", ["// Generated by bindings. Do not edit.", "", "pub mod api;", "", "use core;",
          "", "/// Details.", "pub(crate) mod detail \x7b", "    mod deep \x7b",
          "        struct Deep;", "    \x7d", "\x7d"]),
        ("api.rs", ["// Generated by bindings. Do not edit."])]
  := by
  have hbuilt : shelfTree.Built := by
    apply Built.setDoc
    apply Built.appendText
    apply Built.addChild _ _ _ _ (by decide)
    apply Built.addChild _ _ _ _ (by decide)
    apply Built.appendText
    apply Built.addChild _ _ _ .empty (by decide)
  obtain ⟨filed, marks, hfiles, hlevels, -, -, hhas, -, hitems, -⟩ :=
    files_hold_once hbuilt .directory "bindings"
  have hfiled : filed = [⟨0⟩, ⟨1⟩] := by
    rw [hlevels]
    decide +kernel
  refine ⟨hbuilt, filed, marks, hfiles, hfiled, ?_, rfl, hitems, by decide +kernel⟩
  rw [← hhas, hfiled]
  decide

end ModuleTree

end ServiceBindings
