import ServiceBindings.Module.Layout
import ServiceBindings.Proofs.Module.Nesting

/-!
# Modules and their files

The entries of a file hold those of the modules that are written in it.  Over all files, each module
of a nested tree is written once: in its file, or in the one block that its parent has for it.  The
files come breadth first, and the modules that have one are those that no inline module holds.
-/

namespace ServiceBindings

namespace LayoutEntry

/-! ### Blocks -/

/-- What holds for an entry if it holds for the entries of a block holds for all entries. -/
theorem induct {P : LayoutEntry → Prop} (text : ∀ body, P (.text body))
    (declaration : ∀ id, P (.declaration id))
    (block : ∀ id entries, (∀ entry ∈ entries, P entry) → P (.block id entries))
    (entry : LayoutEntry) :
  P entry
  := by
  apply @LayoutEntry.rec P (fun entries => ∀ entry ∈ entries, P entry) text declaration block
  · intro entry hentry
    cases hentry
  · intro entry rest hentry hrest other hother
    rcases List.mem_cons.mp hother with rfl | hother
    · apply hentry
    · apply hrest other hother

/-- The item of a module that an entry is for. -/
def item : LayoutEntry → ModuleItem
  | text body => .text body
  | declaration id => .child id
  | block id _ => .child id

mutual

/-- The modules that are written in an entry, with their entries. -/
def blocks : LayoutEntry → List (ModuleId × List LayoutEntry)
  | text _ => []
  | declaration _ => []
  | block id entries => (id, entries) :: blocksIn entries

/-- The modules that are written in some entries, with their entries. -/
def blocksIn : List LayoutEntry → List (ModuleId × List LayoutEntry)
  | [] => []
  | entry :: rest => blocks entry ++ blocksIn rest

end

theorem blocksIn_eq_flatMap (entries : List LayoutEntry) :
  blocksIn entries = entries.flatMap blocks
  := by
  induction entries with
  | nil => rfl
  | cons entry rest ih => rw [blocksIn, ih, List.flatMap_cons]

end LayoutEntry

namespace ModuleTree

variable {tree : ModuleTree}

/-! ### Bodies -/

/-- The entries of a module, wherever it is written.  With `forced` they are those of a module that
is written in another one. -/
def body (tree : ModuleTree) (forced : Bool) (id : ModuleId) : List LayoutEntry :=
  tree.entriesWithin tree.size forced id

/-- The entry that an item of a module becomes. -/
def entryOf (tree : ModuleTree) (forced : Bool) : ModuleItem → LayoutEntry
  | .text body => .text body
  | .child child =>
    if forced || tree.isInline child then .block child (tree.body true child)
    else .declaration child

theorem item_entryOf (forced : Bool) (item : ModuleItem) :
  (tree.entryOf forced item).item = item
  := by
  cases item with
  | text body => rfl
  | child child =>
      rw [entryOf]
      split <;> rfl

/-- The modules that a module leaves to files of their own. -/
def filedChildren (tree : ModuleTree) (forced : Bool) (id : ModuleId) : List ModuleId :=
  (tree.children id).filter fun child => !(forced || tree.isInline child)

/-- The modules that are written where a module is, with their entries. -/
def pieces (tree : ModuleTree) (forced : Bool) (id : ModuleId) :
    List (ModuleId × List LayoutEntry) :=
  (id, tree.body forced id) :: LayoutEntry.blocksIn (tree.body forced id)

/-- The modules that are written where a module is. -/
def covered (tree : ModuleTree) (forced : Bool) (id : ModuleId) : List ModuleId :=
  (tree.pieces forced id).map (·.1)

theorem mem_items_child {id child : ModuleId} (h : .child child ∈ tree.items id) :
  tree.Holds id child
  := by
  rw [Holds, children_eq_filterMap, List.mem_filterMap]
  exact ⟨_, h, rfl⟩

/-- A module that does not exist has no entries. -/
theorem entriesWithin_eq_nil {id : ModuleId} (h : tree.size ≤ id.index) (depth : Nat)
    (forced : Bool) :
  tree.entriesWithin depth forced id = []
  := by
  cases depth with
  | zero => rfl
  | succ depth =>
      change (tree.items id).map _ = []
      rw [items_eq_nil h, List.map_nil]

namespace Nested

variable (h : tree.Nested)
include h

/-- What holds for a module if it holds for its children holds for all modules. -/
theorem induct {P : ModuleId → Prop}
    (step : ∀ m, (∀ child, tree.Holds m child → P child) → P m) (m : ModuleId) :
  P m
  := by
  -- The children of a module come after it, so the induction is on what comes after.
  induction hn : tree.size - m.index using Nat.strongRecOn generalizing m with
  | ind n ih =>
      apply step
      intro child hchild
      have hgt := h.child_gt m child hchild
      have hlt := h.child_lt hchild
      apply ih (tree.size - child.index) _ child rfl
      omega

/-- Any depth that no nesting exceeds gives the same entries. -/
theorem entriesWithin_eq {depth other : Nat} {id : ModuleId} (hdepth : tree.size ≤ depth + id.index)
    (hother : tree.size ≤ other + id.index) (forced : Bool) :
  tree.entriesWithin depth forced id = tree.entriesWithin other forced id
  := by
  induction depth generalizing other id forced with
  | zero =>
      rw [Nat.zero_add] at hdepth
      rw [entriesWithin_eq_nil hdepth, entriesWithin_eq_nil hdepth]
  | succ depth ih =>
      cases other with
      | zero =>
          rw [Nat.zero_add] at hother
          rw [entriesWithin_eq_nil hother, entriesWithin_eq_nil hother]
      | succ other =>
          change (tree.items id).map _ = (tree.items id).map _
          apply List.map_congr_left
          intro item hitem
          cases item with
          | text body => rfl
          | child child =>
              have hgt := h.child_gt id child (mem_items_child hitem)
              have hsame : tree.entriesWithin depth true child
                  = tree.entriesWithin other true child := by
                apply ih <;> omega
              dsimp only
              rw [hsame]

/-- The entries of a module are those of its items. -/
theorem body_eq (forced : Bool) (id : ModuleId) :
  tree.body forced id = (tree.items id).map (tree.entryOf forced)
  := by
  have hdepth : tree.body forced id = tree.entriesWithin (tree.size + 1) forced id := by
    apply h.entriesWithin_eq <;> omega
  rw [hdepth]
  change (tree.items id).map _ = _
  apply List.map_congr_left
  intro item _
  cases item <;> rfl

/-- A module leaves to files of their own what its entries only declare. -/
theorem declared_body (forced : Bool) (id : ModuleId) :
  declared (tree.body forced id) = tree.filedChildren forced id
  := by
  rw [h.body_eq, filedChildren, children_eq_filterMap]
  induction tree.items id with
  | nil => rfl
  | cons item rest ih =>
      rw [List.map_cons, declared]
      cases item with
      | text body => apply ih
      | child child =>
          rw [List.filterMap_cons_some (ModuleItem.child?_child child)]
          cases hblock : forced || tree.isInline child with
          | true =>
              have hentry : tree.entryOf forced (.child child)
                  = .block child (tree.body true child) := if_pos hblock
              rw [hentry, List.filter_cons_of_neg (by simp [hblock])]
              apply ih
          | false =>
              have hentry : tree.entryOf forced (.child child) = .declaration child := by
                apply if_neg
                simp [hblock]
              rw [hentry, List.filter_cons_of_pos (by simp [hblock])]
              apply congrArg (List.cons child) ih

/-- The blocks in a module are those of its children that have no files of their own. -/
theorem blocksIn_body (forced : Bool) (id : ModuleId) :
  LayoutEntry.blocksIn (tree.body forced id)
    = (tree.children id).flatMap fun child =>
        if forced || tree.isInline child then tree.pieces true child else []
  := by
  rw [LayoutEntry.blocksIn_eq_flatMap, h.body_eq, children_eq_filterMap, List.flatMap_map]
  induction tree.items id with
  | nil => rfl
  | cons item rest ih =>
      cases item with
      | text body => apply ih
      | child child =>
          rw [List.flatMap_cons, ih, List.filterMap_cons_some (ModuleItem.child?_child child),
            List.flatMap_cons, entryOf]
          congr 1
          split <;> rfl

/-- The entries of a block are those of a module that is written in another one. -/
theorem body_of_mem_blocksIn {forced : Bool} {m : ModuleId} {piece : ModuleId × List LayoutEntry}
    (hpiece : piece ∈ LayoutEntry.blocksIn (tree.body forced m)) :
  piece.2 = tree.body true piece.1
  := by
  induction m using h.induct generalizing forced with
  | step m ih =>
      rw [h.blocksIn_body] at hpiece
      obtain ⟨child, hchild, hpiece⟩ := List.mem_flatMap.mp hpiece
      split at hpiece
      case isTrue =>
        rcases List.mem_cons.mp hpiece with rfl | hpiece
        · rfl
        · apply ih child hchild hpiece
      case isFalse => cases hpiece

theorem covered_eq (forced : Bool) (id : ModuleId) :
  tree.covered forced id
    = id :: (tree.children id).flatMap fun child =>
        if forced || tree.isInline child then tree.covered true child else []
  := by
  rw [covered, pieces, List.map_cons, h.blocksIn_body, List.map_flatMap]
  congr 1
  apply List.flatMap_congr
  intro child _
  rw [apply_ite (List.map Prod.fst)]
  rfl

/-- All modules below a module are its children and those below them. -/
theorem covered_true_eq (id : ModuleId) :
  tree.covered true id = id :: (tree.children id).flatMap (tree.covered true) :=
  h.covered_eq true id

/-- What is below a module is written with it or left to the files of its children. -/
theorem covered_append_perm (forced : Bool) (id : ModuleId) :
  (tree.covered forced id ++ (tree.filedChildren forced id).flatMap (tree.covered true)).Perm
    (tree.covered true id)
  := by
  rw [h.covered_eq forced, h.covered_true_eq, filedChildren, List.cons_append]
  apply List.Perm.cons
  induction tree.children id with
  | nil => apply List.Perm.refl
  | cons child rest ih =>
      rw [List.flatMap_cons, List.flatMap_cons]
      cases hblock : forced || tree.isInline child with
      | true =>
          rw [if_pos rfl, List.filter_cons_of_neg (by simp [hblock]), List.append_assoc]
          apply ih.append_left
      | false =>
          rw [if_neg Bool.false_ne_true, List.filter_cons_of_pos (by simp [hblock]),
            List.flatMap_cons, List.nil_append]
          apply (List.perm_append_comm_assoc _ _ _).trans
          apply ih.append_left

/-- Below the root are all modules. -/
theorem covered_root_perm : (tree.covered true .root).Perm tree.ids := by
  -- What is below any module is counted twice: by the root and the others, and by single modules
  -- and what is below their children.
  have hall : tree.ids.flatMap (tree.covered true)
      = tree.covered true .root ++ tree.ids.tail.flatMap (tree.covered true) := by
    nth_rewrite 1 [ids_eq_cons h.root_lt]
    apply List.flatMap_cons
  have hsteps : (tree.ids.flatMap (tree.covered true)).Perm
      (tree.ids ++ tree.ids.tail.flatMap (tree.covered true)) := by
    have hsplit : tree.ids.flatMap (tree.covered true)
        = tree.ids.flatMap fun m => [m] ++ (tree.children m).flatMap (tree.covered true) := by
      apply List.flatMap_congr
      intro m _
      apply h.covered_true_eq
    rw [hsplit]
    apply (List.flatMap_append_perm _ _ _).symm.trans
    rw [List.flatMap_singleton', ← List.flatMap_assoc]
    apply List.Perm.append_left
    apply h.children_perm.flatMap_right
  rw [hall] at hsteps
  apply (List.perm_append_right_iff _).mp hsteps

end Nested

/-! ### Breadth first -/

/-- The modules with files that are some steps away from the root. -/
def level (tree : ModuleTree) (forced : Bool) : Nat → List ModuleId
  | 0 => [.root]
  | steps + 1 => (tree.level forced steps).flatMap (tree.filedChildren forced)

theorem mem_filedChildren {forced : Bool} {id child : ModuleId} :
  child ∈ tree.filedChildren forced id
    ↔ tree.Holds id child ∧ forced = false ∧ tree.isInline child = false
  := by
  rw [filedChildren, List.mem_filter, Bool.not_eq_true', Bool.or_eq_false_iff]
  rfl

namespace Nested

variable (h : tree.Nested)
include h

/-- A module lies no more steps away than it is old. -/
theorem le_index_of_mem_level {forced : Bool} {steps : Nat} {m : ModuleId}
    (hm : m ∈ tree.level forced steps) :
  steps ≤ m.index ∧ m.index < tree.size
  := by
  induction steps generalizing m with
  | zero =>
      cases List.mem_singleton.mp hm
      exact ⟨Nat.zero_le _, h.root_lt⟩
  | succ steps ih =>
      obtain ⟨parent, hparent, hm⟩ := List.mem_flatMap.mp hm
      have hchild := (mem_filedChildren.mp hm).1
      exact ⟨Nat.lt_of_le_of_lt (ih hparent).1 (h.child_gt parent m hchild), h.child_lt hchild⟩

theorem level_size (forced : Bool) : tree.level forced tree.size = [] := by
  apply List.eq_nil_iff_forall_not_mem.mpr
  intro m hm
  obtain ⟨hle, hlt⟩ := h.le_index_of_mem_level hm
  apply Nat.lt_irrefl _ (Nat.lt_of_lt_of_le hlt hle)

/-- What is below the root is written with the modules of some levels or below the next one. -/
theorem levels_perm (forced : Bool) (steps : Nat) :
  (((List.range steps).flatMap (tree.level forced)).flatMap (tree.covered forced)
      ++ (tree.level forced steps).flatMap (tree.covered true)).Perm (tree.covered true .root)
  := by
  induction steps with
  | zero =>
      rw [level, List.flatMap_singleton]
      apply List.Perm.refl
  | succ steps ih =>
      apply List.Perm.trans _ ih
      rw [List.range_succ, List.flatMap_append, List.flatMap_singleton, List.flatMap_append,
        List.append_assoc, level]
      apply List.Perm.append_left
      rw [List.flatMap_assoc]
      apply (List.flatMap_append_perm _ _ _).trans
      apply List.Perm.flatMap_left
      intro m _
      apply h.covered_append_perm

/-- Each module is written with one that has a file. -/
theorem covered_levels_perm (forced : Bool) :
  (((List.range tree.size).flatMap (tree.level forced)).flatMap (tree.covered forced)).Perm tree.ids
  := by
  have hlevels := h.levels_perm forced tree.size
  rw [h.level_size, List.flatMap_nil, List.append_nil] at hlevels
  apply hlevels.trans h.covered_root_perm

end Nested

theorem filedWithin_nil (mode : OutputMode) (limit : Nat) :
  tree.filedWithin mode limit [] = []
  := by
  cases limit <;> rfl

/-- Modules are among those that are written with them. -/
theorem sublist_flatMap_covered (forced : Bool) (all : List ModuleId) :
  all.Sublist (all.flatMap (tree.covered forced))
  := by
  induction all with
  | nil => apply List.Sublist.refl
  | cons m rest ih =>
      rw [List.flatMap_cons, covered, pieces, List.map_cons, List.cons_append]
      apply List.Sublist.cons_cons
      apply ih.trans (List.sublist_append_right _ _)

namespace Nested

variable (h : tree.Nested)
include h

/-- A queue is taken from its front, and what it leaves to files comes to its end. -/
theorem filedWithin_append (mode : OutputMode) (limit : Nat) (queue rest : List ModuleId) :
  tree.filedWithin mode limit (queue ++ rest)
    = queue.take limit ++ tree.filedWithin mode (limit - queue.length)
        (rest ++ queue.flatMap (tree.filedChildren (mode = .singleFile)))
  := by
  induction queue generalizing limit rest with
  | nil => simp
  | cons m queue ih =>
      cases limit with
      | zero => simp [filedWithin]
      | succ limit =>
          have hdeclared : declared (tree.entries mode m)
              = tree.filedChildren (mode = .singleFile) m := h.declared_body _ m
          rw [List.cons_append, filedWithin, hdeclared, List.append_assoc, ih]
          simp

theorem filed_eq_append (mode : OutputMode) (steps : Nat) :
  tree.filed mode
    = ((List.range steps).flatMap (tree.level (mode = .singleFile))).take tree.size
      ++ tree.filedWithin mode
        (tree.size - ((List.range steps).flatMap (tree.level (mode = .singleFile))).length)
        (tree.level (mode = .singleFile) steps)
  := by
  induction steps with
  | zero => simp [filed, level]
  | succ steps ih =>
      have hlevel := h.filedWithin_append mode
        (tree.size - ((List.range steps).flatMap (tree.level (mode = .singleFile))).length)
        (tree.level (mode = .singleFile) steps) []
      rw [List.append_nil, List.nil_append] at hlevel
      rw [ih, hlevel, List.range_succ, List.flatMap_append, List.flatMap_singleton,
        List.take_append, List.length_append, Nat.sub_sub, List.append_assoc]
      rfl

/-- The modules that have files come level by level. -/
theorem filed_eq (mode : OutputMode) :
  tree.filed mode = (List.range tree.size).flatMap (tree.level (mode = .singleFile))
  := by
  have hlength : ((List.range tree.size).flatMap (tree.level (mode = .singleFile))).length
      ≤ tree.size := by
    have hle := (@sublist_flatMap_covered tree (mode = .singleFile)
      ((List.range tree.size).flatMap (tree.level (mode = .singleFile)))).length_le
    rw [(h.covered_levels_perm (mode = .singleFile)).length_eq, ids, List.length_map,
      List.length_range] at hle
    apply hle
  rw [h.filed_eq_append mode tree.size, h.level_size, filedWithin_nil, List.append_nil,
    List.take_of_length_le hlength]

/-- Over all files, each module is written once. -/
theorem covered_filed_perm (mode : OutputMode) :
  ((tree.filed mode).flatMap (tree.covered (mode = .singleFile))).Perm tree.ids
  := by
  rw [h.filed_eq]
  apply h.covered_levels_perm

theorem filed_nodup (mode : OutputMode) : (tree.filed mode).Nodup := by
  apply (sublist_flatMap_covered (mode = .singleFile) (tree.filed mode)).nodup
  apply (h.covered_filed_perm mode).nodup_iff.mpr tree.ids_nodup

/-- The modules that have files are those of all levels. -/
theorem mem_filed_iff_mem_level {mode : OutputMode} {m : ModuleId} :
  m ∈ tree.filed mode ↔ ∃ steps, m ∈ tree.level (mode = .singleFile) steps
  := by
  rw [h.filed_eq, List.mem_flatMap]
  constructor
  · rintro ⟨steps, -, hm⟩
    exact ⟨steps, hm⟩
  · rintro ⟨steps, hm⟩
    obtain ⟨hle, hlt⟩ := h.le_index_of_mem_level hm
    exact ⟨steps, List.mem_range.mpr (Nat.lt_of_le_of_lt hle hlt), hm⟩

/-- What a module with a file leaves to files has files. -/
theorem mem_filed_of_filedChildren {mode : OutputMode} {m child : ModuleId}
    (hm : m ∈ tree.filed mode) (hchild : child ∈ tree.filedChildren (mode = .singleFile) m) :
  child ∈ tree.filed mode
  := by
  obtain ⟨steps, hm⟩ := h.mem_filed_iff_mem_level.mp hm
  apply h.mem_filed_iff_mem_level.mpr ⟨steps + 1, List.mem_flatMap.mpr ⟨m, hm, hchild⟩⟩

/-- What is written as a block has no file. -/
theorem not_mem_filed_of_block {mode : OutputMode} {m child : ModuleId} (hm : m ∈ tree.filed mode)
    (hchild : child ∈ (LayoutEntry.blocksIn (tree.entries mode m)).map (·.1)) :
  child ∉ tree.filed mode
  := by
  intro hfiled
  have hnodup := (h.covered_filed_perm mode).nodup_iff.mpr tree.ids_nodup
  have hcovered : child ∈ tree.covered (mode = .singleFile) m := List.mem_cons_of_mem _ hchild
  obtain rfl : m = child :=
    eq_of_mem_flatMap hnodup hm hfiled hcovered List.mem_cons_self
  have hself : (tree.covered (mode = .singleFile) m).Nodup := (List.nodup_flatMap.mp hnodup).1 m hm
  apply (List.nodup_cons.mp hself).1 hchild

/-! ### Which modules have files -/

/-- If everything goes to a single file, then it is that of the root. -/
theorem filed_singleFile : tree.filed .singleFile = [.root] := by
  have hnone : tree.filedChildren true .root = [] := by
    apply List.filter_eq_nil_iff.mpr
    simp
  have hqueue := h.filedWithin_append .singleFile tree.size [.root] []
  rw [List.take_of_length_le h.root_lt, List.flatMap_singleton, decide_eq_true rfl, hnone,
    List.append_nil, List.append_nil, filedWithin_nil] at hqueue
  apply hqueue

/-- Neither a module of a level nor a module around it is inline. -/
theorem isInline_of_mem_level {steps : Nat} {m outer : ModuleId} (hm : m ∈ tree.level false steps)
    (houter : Relation.ReflTransGen tree.Holds outer m) :
  tree.isInline outer = false
  := by
  induction steps generalizing m with
  | zero =>
      cases List.mem_singleton.mp hm
      rcases Relation.ReflTransGen.cases_tail houter with rfl | ⟨parent, -, hroot⟩
      · apply h.root_open
      · cases Nat.not_lt_zero _ (h.child_gt parent _ hroot)
  | succ steps ih =>
      obtain ⟨parent, hparent, hm⟩ := List.mem_flatMap.mp hm
      obtain ⟨hchild, -, hinline⟩ := mem_filedChildren.mp hm
      rcases Relation.ReflTransGen.cases_tail houter with rfl | ⟨other, houter, hother⟩
      · apply hinline
      · cases h.parent_unique hother hchild
        apply ih hparent houter

/-- A module is in a level if neither it nor a module around it is inline. -/
theorem exists_mem_level {m : ModuleId} (hlt : m.index < tree.size)
    (hopen : ∀ outer, Relation.ReflTransGen tree.Holds outer m → tree.isInline outer = false) :
  ∃ steps, m ∈ tree.level false steps
  := by
  -- A module comes after the one that holds it, so the induction is on its position.
  induction hn : m.index using Nat.strongRecOn generalizing m with
  | ind n ih =>
      by_cases hroot : m = .root
      · exact ⟨0, List.mem_singleton.mpr hroot⟩
      · obtain ⟨parent, hparent⟩ := h.exists_parent hlt hroot
        have hgt := h.child_gt parent m hparent
        obtain ⟨steps, hsteps⟩ := ih parent.index (hn ▸ hgt) hparent.index_lt
          (fun outer hchain => hopen outer (hchain.tail hparent)) rfl
        refine ⟨steps + 1, List.mem_flatMap.mpr ⟨parent, hsteps, ?_⟩⟩
        apply mem_filedChildren.mpr ⟨hparent, rfl, hopen m .refl⟩

/-- In a directory, a module has a file exactly if neither it nor a module around it is inline. -/
theorem mem_filed_directory {m : ModuleId} :
  m ∈ tree.filed .directory
    ↔ m.index < tree.size
      ∧ ∀ outer, Relation.ReflTransGen tree.Holds outer m → tree.isInline outer = false
  := by
  rw [h.mem_filed_iff_mem_level]
  constructor
  · rintro ⟨steps, hm⟩
    exact ⟨(h.le_index_of_mem_level hm).2, fun outer => h.isInline_of_mem_level hm⟩
  · rintro ⟨hlt, hopen⟩
    apply h.exists_mem_level hlt hopen

/-- A module with a file exists and is not inline. -/
theorem open_of_mem_filed {mode : OutputMode} {m : ModuleId} (hm : m ∈ tree.filed mode) :
  m.index < tree.size ∧ tree.isInline m = false
  := by
  cases mode with
  | directory =>
      obtain ⟨hlt, hopen⟩ := h.mem_filed_directory.mp hm
      exact ⟨hlt, hopen m .refl⟩
  | singleFile =>
      rw [h.filed_singleFile] at hm
      cases List.mem_singleton.mp hm
      exact ⟨h.root_lt, h.root_open⟩

end Nested

end ModuleTree

end ServiceBindings
