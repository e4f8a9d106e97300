import Mathlib.Data.List.Induction
import ServiceBindings.Proofs.Route.Remainder
import ServiceBindings.Proofs.Worklist

/-!
# How routes are grouped

Routes are sorted one after the other, and the text of a group gets shorter while routes still join
it.  For routes of templates the outcome does not depend on that: there is one group for each
character that routes go on with, and its text is the longest one that all of them start with.  So
the tree that sorting gives is the one that `RouteNode.build` says without the loop.
-/

namespace ServiceBindings

theorem nodup_eraseDups {α : Type} [BEq α] [LawfulBEq α] (items : List α) :
  items.eraseDups.Nodup
  := by
  match items with
  | [] => apply List.nodup_nil
  | a :: items =>
      rw [List.eraseDups_cons, List.nodup_cons, List.mem_eraseDups, List.mem_filter]
      constructor
      · simp
      · apply nodup_eraseDups
  termination_by items.length
  decreasing_by apply Nat.lt_succ_of_le (List.length_filter_le _ _)

namespace RouteNode

/-! ### Routes of templates -/

variable {routes : List Route} {route : Route}

theorem leadingText_text (text : List Char) (steps : List Step) :
  leadingText (text.map .char ++ steps) = text ++ leadingText steps
  := by
  induction text with
  | nil => rfl
  | cons d text ih => rw [List.map_cons, List.cons_append, leadingText, ih]; rfl

/-- The first segment of a route, if it is literal, is all the text that the route goes on with. -/
theorem leadingText_steps {text : List Char} {segments : List Segment}
    (hsegments : route.segments = .literal text :: segments)
    (h : Template.Tidy route.segments) :
  leadingText route.steps = text
  := by
  rw [hsegments] at h
  obtain ⟨-, hhead, -⟩ := h
  rw [Route.steps, hsegments, List.flatMap_cons, Segment.steps, leadingText_text]
  match segments with
  | [] => simp [leadingText]
  | .parameter name :: rest => simp [leadingText, Segment.steps]
  | .literal other :: rest => apply absurd rfl (hhead other)

/-- The text that remainders share when another one joins them. -/
theorem sharedText_concat {members : List Remainder} (hne : members ≠ []) (joining : Remainder) :
  sharedText (members ++ [joining]) = commonStart (sharedText members) (leadingText joining.2)
  := by
  have hinitial : ∀ text, text <+: sharedText (members ++ [joining])
      ↔ text <+: commonStart (sharedText members) (leadingText joining.2) := by
    intro text
    rw [prefix_sharedText (by simp), prefix_commonStart, prefix_sharedText hne]
    simp [or_imp, forall_and]
  have hleft := (hinitial _).mp (List.prefix_refl _)
  have hright := (hinitial _).mpr (List.prefix_refl _)
  apply hleft.eq_of_length_le hright.length_le

/-- What a route of a template goes on with. -/
inductive GoesOn (route : Route) : Prop where
  | ends : route.segments = [] → remainder route = (⟨route.endpoint, route.verb⟩, []) → GoesOn route
  | text {c : Char} {text : List Char} {segments : List Segment} :
      route.segments = .literal (c :: text) :: segments →
      leadingText route.steps = c :: text → nextChar? (remainder route) = some c → GoesOn route
  | capture {name : List Char} {segments : List Segment} :
      route.segments = .parameter name :: segments →
      nextCapture? (remainder route)
        = some (String.ofList name, remainder { route with segments }) →
      GoesOn route

theorem goesOn (h : Template.Tidy route.segments) : GoesOn route := by
  match hsegments : route.segments with
  | [] =>
      apply GoesOn.ends hsegments
      rw [remainder, Route.steps, hsegments, List.flatMap_nil]
  | .parameter name :: segments =>
      apply GoesOn.capture hsegments
      rw [remainder, Route.steps, hsegments]
      rfl
  | .literal [] :: segments =>
      rw [hsegments] at h
      apply absurd rfl h.1
  | .literal (c :: text) :: segments =>
      apply GoesOn.text hsegments (leadingText_steps hsegments h)
      rw [remainder, Route.steps, hsegments]
      rfl

/-! ### What sorting gives -/

/-- The routes that go on with a character. -/
def startingAt (routes : List Route) (c : Char) : List Route :=
  routes.filter fun route => nextChar? (remainder route) = some c

/-- The group of a character: what its routes share, and the routes. -/
def groupAt (routes : List Route) (c : Char) : List Char × List Route :=
  (sharedText (startingWith (remainders routes) c), startingAt routes c)

/-- The name that a route goes on by capturing, with the route after that. -/
def pastParameter? (route : Route) : Option (String × Route) :=
  match route.segments with
  | .parameter name :: segments => some (String.ofList name, { route with segments })
  | _ => none

/-- The parameter edge of routes, given what each goes on by capturing. -/
def parameterOf (passed : List (String × Route)) : Option (List String × List Route) :=
  if passed.isEmpty then none else some ((passed.map (·.1)).eraseDups, passed.map (·.2))

/-- Whether routes were sorted into their ends, one group for each character, and a parameter. -/
structure Sorted (routes : List Route) (sorting : Sorting) : Prop where
  terminals : sorting.terminals = (remainders routes).filterMap ended?
  groups : sorting.groups = (firstChars (remainders routes)).map (groupAt routes)
  parameter : sorting.parameter = parameterOf (routes.filterMap pastParameter?)

theorem remainders_concat (routes : List Route) (route : Route) :
  remainders (routes ++ [route]) = remainders routes ++ [remainder route] :=
  List.map_append

theorem remainders_startingAt (routes : List Route) (c : Char) :
  remainders (startingAt routes c) = startingWith (remainders routes) c
  := by
  rw [startingWith, remainders, remainders, List.filter_map]
  rfl

/-- A route that does not go on with a character is in no group. -/
theorem groupAt_concat_of_ne {c : Char} (h : nextChar? (remainder route) ≠ some c) :
  groupAt (routes ++ [route]) c = groupAt routes c
  := by
  simp [groupAt, startingAt, startingWith, remainders_concat, h]

theorem map_groupAt_concat (h : nextChar? (remainder route) = none) (chars : List Char) :
  chars.map (groupAt (routes ++ [route])) = chars.map (groupAt routes)
  := by
  apply List.map_congr_left
  intro c _
  apply groupAt_concat_of_ne
  simp [h]

theorem firstChars_concat (routes : List Route) (route : Route) :
  firstChars (remainders (routes ++ [route]))
    = match nextChar? (remainder route) with
      | none => firstChars (remainders routes)
      | some c =>
        if c ∈ firstChars (remainders routes) then firstChars (remainders routes)
        else firstChars (remainders routes) ++ [c]
  := by
  rw [firstChars, remainders_concat, List.filterMap_append]
  cases hnext : nextChar? (remainder route) with
  | none => simp [hnext, firstChars]
  | some c =>
      simp only [List.filterMap_cons_some hnext, List.filterMap_nil, firstChars,
        Worklist.eraseDups_concat, List.mem_eraseDups]

/-- The group of a character that routes go on with when another route joins it. -/
theorem groupAt_concat {c : Char} (hnext : nextChar? (remainder route) = some c)
    (h : startingAt routes c ≠ []) :
  groupAt (routes ++ [route]) c
    = (commonStart (groupAt routes c).1 (leadingText route.steps), (groupAt routes c).2 ++ [route])
  := by
  have hmembers : startingWith (remainders routes) c ≠ [] := by
    rw [← remainders_startingAt, remainders, ne_eq, List.map_eq_nil_iff]
    apply h
  have hwith : startingWith (remainders (routes ++ [route])) c
      = startingWith (remainders routes) c ++ [remainder route] := by
    simp [startingWith, remainders_concat, hnext]
  have hat : startingAt (routes ++ [route]) c = startingAt routes c ++ [route] := by
    simp [startingAt, hnext]
  rw [groupAt, hwith, hat, sharedText_concat hmembers]
  rfl

/-- The group of a character that no route went on with before. -/
theorem groupAt_concat_new {c : Char} (hnext : nextChar? (remainder route) = some c)
    (h : startingAt routes c = []) :
  groupAt (routes ++ [route]) c = (leadingText route.steps, [route])
  := by
  have hwith : startingWith (remainders (routes ++ [route])) c = [remainder route] := by
    have hnone : startingWith (remainders routes) c = [] := by
      rw [← remainders_startingAt, h]
      rfl
    simpa [startingWith, remainders_concat, hnext] using hnone
  have hat : startingAt (routes ++ [route]) c = [route] := by
    simpa [startingAt, hnext] using h
  rw [groupAt, hwith, hat]
  rfl

/-- The text of a group starts with its character. -/
theorem head_groupAt {c : Char} (h : c ∈ firstChars (remainders routes)) :
  (groupAt routes c).1.head? = some c
  := by
  apply head_sharedText
  · simpa [firstChars, startingWith, List.filter_eq_nil_iff] using h
  · intro route hroute
    simpa using (List.mem_filter.mp hroute).2

theorem startingAt_ne_nil {c : Char} :
  startingAt routes c ≠ [] ↔ c ∈ firstChars (remainders routes)
  := by
  simp [firstChars, startingAt, remainders, List.filter_eq_nil_iff]

/-! ### Joining a group -/

/-- Texts with different first characters share nothing. -/
theorem commonStart_of_ne {key text : List Char} {c d : Char} (hkey : key.head? = some c)
    (htext : text.head? = some d) (h : c ≠ d) :
  commonStart key text = []
  := by
  obtain ⟨key, rfl⟩ := List.head?_eq_some_iff.mp hkey
  obtain ⟨text, rfl⟩ := List.head?_eq_some_iff.mp htext
  rw [commonStart, if_neg h]

theorem commonStart_ne_nil {key text : List Char} {c : Char} (hkey : key.head? = some c)
    (htext : text.head? = some c) :
  commonStart key text ≠ []
  := by
  obtain ⟨key, rfl⟩ := List.head?_eq_some_iff.mp hkey
  obtain ⟨text, rfl⟩ := List.head?_eq_some_iff.mp htext
  rw [commonStart, if_pos rfl]
  apply List.cons_ne_nil

section

variable {chars : List Char} {group : Char → List Char × List Route} {text : List Char} {c : Char}

/-- A route whose text starts with a new character makes a group of its own. -/
theorem joinGroup_new (hgroup : ∀ d ∈ chars, (group d).1.head? = some d)
    (htext : text.head? = some c) (hc : c ∉ chars) (route : Route) :
  joinGroup text route (chars.map group) = chars.map group ++ [(text, [route])]
  := by
  induction chars with
  | nil => rfl
  | cons d chars ih =>
      obtain ⟨hne, hc⟩ := not_or.mp (List.mem_cons.not.mp hc)
      obtain ⟨hd, hgroup⟩ := List.forall_mem_cons.mp hgroup
      rw [List.map_cons, joinGroup, commonStart_of_ne hd htext (Ne.symm hne),
        if_pos List.isEmpty_nil, ih hgroup hc]
      rfl

/-- A route joins the group of the first character of its text, and no other group changes. -/
theorem joinGroup_map (hgroup : ∀ d ∈ chars, (group d).1.head? = some d) (hnodup : chars.Nodup)
    (htext : text.head? = some c) (hc : c ∈ chars) (route : Route) :
  joinGroup text route (chars.map group)
    = chars.map fun d =>
        if d = c then (commonStart (group d).1 text, (group d).2 ++ [route]) else group d
  := by
  induction chars with
  | nil => cases hc
  | cons d chars ih =>
      obtain ⟨hd, hgroup⟩ := List.forall_mem_cons.mp hgroup
      obtain ⟨hnew, hnodup⟩ := List.nodup_cons.mp hnodup
      rw [List.map_cons, joinGroup, List.map_cons]
      by_cases hsame : d = c
      · subst hsame
        rw [if_neg (by simpa using commonStart_ne_nil hd htext), if_pos rfl]
        congr 1
        -- The character stands for no later group.
        apply List.map_congr_left
        intro other hother
        rw [if_neg]
        rintro rfl
        apply hnew hother
      · rw [commonStart_of_ne hd htext hsame, if_pos List.isEmpty_nil, if_neg hsame,
          ih hgroup hnodup ((List.mem_cons.mp hc).resolve_left (Ne.symm hsame))]

end

/-! ### Sorting one more route -/

theorem getD_parameterOf (passed : List (String × Route)) :
  (parameterOf passed).getD ([], []) = ((passed.map (·.1)).eraseDups, passed.map (·.2))
  := by
  cases passed with
  | nil => rfl
  | cons first passed => rfl

theorem addName_eraseDups (names : List String) (name : String) :
  addName names.eraseDups name = (names ++ [name]).eraseDups
  := by
  rw [addName, Worklist.eraseDups_concat]
  simp only [List.mem_eraseDups]

/-- The groups when a route joins that goes on with a text. -/
theorem joinGroup_groupAt {c : Char} (hhead : (leadingText route.steps).head? = some c)
    (hnext : nextChar? (remainder route) = some c) :
  joinGroup (leadingText route.steps) route ((firstChars (remainders routes)).map (groupAt routes))
    = (firstChars (remainders (routes ++ [route]))).map (groupAt (routes ++ [route]))
  := by
  have hheads : ∀ d ∈ firstChars (remainders routes), (groupAt routes d).1.head? = some d :=
    fun d hd => head_groupAt hd
  have hother {d : Char} (hd : d ≠ c) : groupAt (routes ++ [route]) d = groupAt routes d := by
    apply groupAt_concat_of_ne
    rw [hnext]
    rintro ⟨⟩
    apply hd rfl
  rw [firstChars_concat, hnext]
  dsimp only
  split
  case isTrue hc =>
    rw [joinGroup_map hheads (nodup_eraseDups _) hhead hc]
    apply List.map_congr_left
    intro d _
    split
    case isTrue hsame =>
      subst hsame
      rw [groupAt_concat hnext (startingAt_ne_nil.mpr hc)]
    case isFalse hd => rw [hother hd]
  case isFalse hc =>
    have hnew := groupAt_concat_new hnext (not_not.mp (startingAt_ne_nil.not.mpr hc))
    rw [joinGroup_new hheads hhead hc, List.map_append, List.map_singleton, hnew]
    congr 1
    apply List.map_congr_left
    intro d hd
    rw [hother]
    rintro rfl
    apply hc hd

theorem Sorted.add {sorting : Sorting} (h : Sorted routes sorting)
    (hroute : Template.Tidy route.segments) :
  Sorted (routes ++ [route]) (sorting.add route)
  := by
  cases goesOn hroute with
  | ends hsegments hends =>
      have hnext : nextChar? (remainder route) = none := by rw [hends]; rfl
      rw [Sorting.add, hsegments]
      constructor
      case terminals => simp [h.terminals, remainders_concat, hends, ended?]
      case groups => rw [h.groups, firstChars_concat, hnext, map_groupAt_concat hnext]
      case parameter => simp [h.parameter, pastParameter?, hsegments]
  | @text c text segments hsegments htext hnext =>
      have hended : ended? (remainder route) = none := by
        match hremainder : remainder route with
        | (_, []) =>
            rw [hremainder] at hnext
            cases hnext
        | (_, _ :: _) => rfl
      have hhead : (leadingText route.steps).head? = some c := by rw [htext]; rfl
      rw [Sorting.add, hsegments]
      constructor
      case terminals => simp [h.terminals, remainders_concat, hended]
      case groups =>
        dsimp only
        rw [h.groups, ← joinGroup_groupAt hhead hnext, htext]
      case parameter => simp [h.parameter, pastParameter?, hsegments]
  | @capture name segments hsegments hcapture =>
      obtain ⟨hended, hnext⟩ : ended? (remainder route) = none
          ∧ nextChar? (remainder route) = none := by
        match hremainder : remainder route with
        | (_, []) | (_, .char _ :: _) =>
            rw [hremainder] at hcapture
            cases hcapture
        | (_, .capture _ :: _) => exact ⟨rfl, rfl⟩
      have hpassed : (routes ++ [route]).filterMap pastParameter?
          = routes.filterMap pastParameter? ++ [(String.ofList name, { route with segments })] := by
        simp [pastParameter?, hsegments]
      rw [Sorting.add, hsegments]
      dsimp only
      rw [h.parameter, getD_parameterOf]
      constructor
      case terminals => simp [h.terminals, remainders_concat, hended]
      case groups =>
        dsimp only
        rw [h.groups, firstChars_concat, hnext, map_groupAt_concat hnext]
      case parameter =>
        dsimp only
        rw [hpassed, parameterOf, if_neg (by simp), addName_eraseDups, List.map_append,
          List.map_append]
        rfl

/-- Sorting routes of templates gives their ends, one group for each character, and a parameter. -/
theorem sorted_sort (h : ∀ route ∈ routes, Template.Tidy route.segments) :
  Sorted routes (sort routes)
  := by
  induction routes using List.reverseRecOn with
  | nil => constructor <;> rfl
  | append_singleton routes route ih =>
      rw [sort, List.foldl_append, ← sort]
      apply (ih fun other hother => h other (List.mem_append_left _ hother)).add
      apply h route (List.mem_append_right _ (List.mem_singleton_self route))

/-! ### After an edge -/

theorem nextCapture?_remainder (h : Template.Tidy route.segments) :
  nextCapture? (remainder route) = (pastParameter? route).map (Prod.map id remainder)
  := by
  cases goesOn h with
  | ends hsegments hends =>
      rw [hends, pastParameter?, hsegments]
      rfl
  | text hsegments htext hnext =>
      rw [pastParameter?, hsegments]
      match hremainder : remainder route with
      | (_, []) | (_, .capture _ :: _) =>
          rw [hremainder] at hnext
          cases hnext
      | (_, .char _ :: _) => rfl
  | capture hsegments hcapture =>
      rw [hcapture, pastParameter?, hsegments]
      rfl

theorem stripKey_of_literal {text : List Char} {segments : List Segment}
    (hsegments : route.segments = .literal text :: segments) (key : List Char) :
  stripKey key route
    = if text.length = key.length then { route with segments }
      else { route with segments := .literal (text.drop key.length) :: segments }
  := by
  rw [stripKey, hsegments]

/-- A route without the text of its group is what is left after that text. -/
theorem remainder_stripKey {key text : List Char} {segments : List Segment}
    (hsegments : route.segments = .literal text :: segments) (hkey : key <+: text) :
  remainder (stripKey key route) = advance key.length (remainder route)
  := by
  obtain ⟨rest, rfl⟩ := hkey
  have hsteps : route.steps = (key ++ rest).map .char ++ segments.flatMap Segment.steps := by
    rw [Route.steps, hsegments, List.flatMap_cons, Segment.steps]
  have hafter : (remainder route).2.drop key.length
      = rest.map .char ++ segments.flatMap Segment.steps := by
    rw [remainder, hsteps, List.map_append, List.append_assoc, List.drop_left' (List.length_map _)]
  rw [stripKey_of_literal hsegments, advance, hafter]
  split
  case isTrue hlength =>
    have hrest : rest = [] := by simpa using hlength
    rw [hrest]
    rfl
  case isFalse =>
    rw [List.drop_left' rfl]
    rfl

theorem tidy_stripKey {key text : List Char} {segments : List Segment}
    (hsegments : route.segments = .literal text :: segments) (hkey : key <+: text)
    (h : Template.Tidy route.segments) :
  Template.Tidy (stripKey key route).segments
  := by
  rw [hsegments] at h
  obtain ⟨-, hhead, htidy⟩ := h
  rw [stripKey_of_literal hsegments]
  split
  case isTrue => apply htidy
  case isFalse hlength =>
    refine ⟨?_, hhead, htidy⟩
    intro hnil
    have hle := List.drop_eq_nil_iff.mp hnil
    apply hlength (Nat.le_antisymm hle hkey.length_le)

/-- A route without a text has fewer steps and no more segments. -/
theorem lengths_stripKey {key text : List Char} {segments : List Segment}
    (hsegments : route.segments = .literal text :: segments) (hkey : key <+: text)
    (hne : key ≠ []) :
  (stripKey key route).segments.length ≤ route.segments.length
    ∧ (stripKey key route).steps.length < route.steps.length
  := by
  have hsteps : (stripKey key route).steps = route.steps.drop key.length :=
    congrArg Prod.snd (remainder_stripKey hsegments hkey)
  have hpositive := List.length_pos_of_ne_nil hne
  have hlength : text.length ≤ route.steps.length := by
    rw [Route.steps, hsegments, List.flatMap_cons, List.length_append, Segment.steps,
      List.length_map]
    apply Nat.le_add_right
  constructor
  · rw [stripKey_of_literal hsegments]
    split
    case isTrue => simp [hsegments]
    case isFalse => simp [hsegments]
  · have hle := hkey.length_le
    rw [hsteps, List.length_drop]
    omega

/-- A route of a group starts with the text of the group. -/
theorem exists_literal_of_mem {c : Char} (h : route ∈ startingAt routes c)
    (hroute : Template.Tidy route.segments) :
  ∃ text segments, route.segments = .literal text :: segments ∧ (groupAt routes c).1 <+: text
  := by
  obtain ⟨hmem, hc⟩ := List.mem_filter.mp h
  have hstart : (groupAt routes c).1 <+: leadingText route.steps := by
    have hremainder : remainder route ∈ startingWith (remainders routes) c :=
      List.mem_filter.mpr ⟨List.mem_map_of_mem hmem, hc⟩
    apply sharedText_prefix hremainder
  have hc : nextChar? (remainder route) = some c := by simpa using hc
  cases goesOn hroute with
  | ends hsegments hends =>
      rw [hends] at hc
      cases hc
  | text hsegments htext _ =>
      rw [htext] at hstart
      exact ⟨_, _, hsegments, hstart⟩
  | capture hsegments hcapture =>
      match hremainder : remainder route with
      | (_, []) | (_, .char _ :: _) =>
          rw [hremainder] at hcapture
          cases hcapture
      | (_, .capture _ :: _) =>
          rw [hremainder] at hc
          cases hc

/-! ### The tree -/

/-- The routes below the edge of a character. -/
def belowText (routes : List Route) (c : Char) : List Route :=
  (startingAt routes c).map (stripKey (groupAt routes c).1)

/-- The routes below the parameter edge. -/
def belowParameter (routes : List Route) : List Route :=
  (routes.filterMap pastParameter?).map (·.2)

theorem remainders_belowText {c : Char} (h : ∀ route ∈ routes, Template.Tidy route.segments) :
  remainders (belowText routes c)
    = (startingWith (remainders routes) c).map
      (advance (sharedText (startingWith (remainders routes) c)).length)
  := by
  rw [← remainders_startingAt, remainders, belowText, List.map_map, remainders, List.map_map]
  apply List.map_congr_left
  intro route hroute
  obtain ⟨text, segments, hsegments, hkey⟩ :=
    exists_literal_of_mem hroute (h route (List.mem_of_mem_filter hroute))
  rw [← remainders, remainders_startingAt]
  apply remainder_stripKey hsegments hkey

theorem filterMap_nextCapture? (h : ∀ route ∈ routes, Template.Tidy route.segments) :
  (remainders routes).filterMap nextCapture?
    = (routes.filterMap pastParameter?).map (Prod.map id remainder)
  := by
  rw [remainders, List.filterMap_map, List.map_filterMap]
  apply List.filterMap_congr
  intro route hroute
  apply nextCapture?_remainder (h route hroute)

theorem remainders_belowParameter (h : ∀ route ∈ routes, Template.Tidy route.segments) :
  remainders (belowParameter routes) = ((remainders routes).filterMap nextCapture?).map (·.2)
  := by
  rw [filterMap_nextCapture? h, remainders, belowParameter, List.map_map, List.map_map]
  rfl

/-- Whether a route is tidy and shorter than one of some routes. -/
def IsBelow (routes : List Route) (route : Route) : Prop :=
  Template.Tidy route.segments ∧ ∃ before ∈ routes,
    route.segments.length ≤ before.segments.length ∧ route.steps.length < before.steps.length

theorem isBelow_of_mem_belowText {c : Char} (hc : c ∈ firstChars (remainders routes))
    (h : ∀ route ∈ routes, Template.Tidy route.segments) :
  ∀ route ∈ belowText routes c, IsBelow routes route
  := by
  intro route hroute
  obtain ⟨before, hbefore, rfl⟩ := List.mem_map.mp hroute
  have hmem := List.mem_of_mem_filter hbefore
  obtain ⟨text, segments, hsegments, hkey⟩ := exists_literal_of_mem hbefore (h before hmem)
  use tidy_stripKey hsegments hkey (h before hmem), before, hmem
  apply lengths_stripKey hsegments hkey
  intro hnil
  have hhead := head_groupAt hc
  rw [hnil] at hhead
  cases hhead

theorem isBelow_of_mem_belowParameter (h : ∀ route ∈ routes, Template.Tidy route.segments) :
  ∀ route ∈ belowParameter routes, IsBelow routes route
  := by
  intro route hroute
  obtain ⟨⟨name, _⟩, hpassed, rfl⟩ := List.mem_map.mp hroute
  obtain ⟨before, hbefore, hpast⟩ := List.mem_filterMap.mp hpassed
  have htidy := h before hbefore
  unfold pastParameter? at hpast
  split at hpast
  case h_1 hsegments =>
    cases hpast
    rw [hsegments] at htidy
    use htidy, before, hbefore
    rw [Route.steps, Route.steps, hsegments]
    simp [Segment.steps]
  case h_2 => cases hpast

/-- The tree of routes, one level opened. -/
theorem ofRoutesWithin_succ (depth : Nat) (h : ∀ route ∈ routes, Template.Tidy route.segments) :
  ofRoutesWithin (depth + 1) routes
    = mk ((remainders routes).filterMap ended?)
      ((firstChars (remainders routes)).map fun c =>
        (sharedText (startingWith (remainders routes) c),
          ofRoutesWithin depth (belowText routes c)))
      (if ((remainders routes).filterMap nextCapture?).isEmpty then none
        else some ((((remainders routes).filterMap nextCapture?).map (·.1)).eraseDups,
          ofRoutesWithin depth (belowParameter routes)))
  := by
  have hsorted := sorted_sort h
  rw [ofRoutesWithin]
  dsimp only
  rw [hsorted.terminals, hsorted.groups, hsorted.parameter, filterMap_nextCapture? h, List.map_map,
    List.map_map, List.isEmpty_map, parameterOf]
  congr 1
  split
  case isTrue => rfl
  case isFalse => rfl

/-- What is left without steps goes on with nothing. -/
theorem edges_of_nil {rest : List Remainder} (h : ∀ route ∈ rest, route.2 = []) :
  firstChars rest = [] ∧ rest.filterMap nextCapture? = []
  := by
  have hchars : rest.filterMap nextChar? = [] := by
    rw [List.filterMap_eq_nil_iff]
    rintro ⟨terminal, steps⟩ hroute
    obtain rfl : steps = [] := h _ hroute
    rfl
  have hcaptures : rest.filterMap nextCapture? = [] := by
    rw [List.filterMap_eq_nil_iff]
    rintro ⟨terminal, steps⟩ hroute
    obtain rfl : steps = [] := h _ hroute
    rfl
  rw [firstChars, hchars]
  exact ⟨rfl, hcaptures⟩

theorem steps_eq_nil {bound : Nat} (hbound : bound = 0)
    (h : ∀ route ∈ routes, route.steps.length ≤ bound) :
  ∀ route ∈ remainders routes, route.2 = []
  := by
  intro route hroute
  obtain ⟨before, hbefore, rfl⟩ := List.mem_map.mp hroute
  have hlength := h before hbefore
  apply List.length_eq_zero_iff.mp
  change before.steps.length = 0
  omega

/-- The tree that sorting gives, level by level, is the one that is said without the loop. -/
theorem ofRoutesWithin_eq_build {depth height : Nat}
    (h : ∀ route ∈ routes, Template.Tidy route.segments)
    (hdepth : ∀ route ∈ routes, weight route ≤ depth)
    (hheight : ∀ route ∈ routes, route.steps.length ≤ height) :
  ofRoutesWithin depth routes = build height (remainders routes)
  := by
  induction depth generalizing routes height with
  | zero =>
      have hsteps : ∀ route ∈ routes, route.steps.length ≤ 0 :=
        fun route hroute => Nat.le_trans (Nat.le_add_left _ _) (hdepth route hroute)
      obtain ⟨hchars, hcaptures⟩ := edges_of_nil (steps_eq_nil rfl hsteps)
      rw [ofRoutesWithin, (sorted_sort h).terminals]
      cases height with
      | zero => rfl
      | succ height => rw [build, hchars, hcaptures]; rfl
  | succ depth ih =>
      rw [ofRoutesWithin_succ depth h]
      cases height with
      | zero =>
          obtain ⟨hchars, hcaptures⟩ := edges_of_nil (steps_eq_nil rfl hheight)
          rw [build, hchars, hcaptures]
          rfl
      | succ height =>
          have hbelow {below : List Route} (hbelow : ∀ route ∈ below, IsBelow routes route) :
              ofRoutesWithin depth below = build height (remainders below) := by
            apply ih
            · intro route hroute
              apply (hbelow route hroute).1
            · intro route hroute
              obtain ⟨-, before, hbefore, hsegments, hsteps⟩ := hbelow route hroute
              have hweight := hdepth before hbefore
              rw [weight] at hweight ⊢
              omega
            · intro route hroute
              obtain ⟨-, before, hbefore, -, hsteps⟩ := hbelow route hroute
              have hlength := hheight before hbefore
              omega
          rw [build]
          congr 1
          · apply List.map_congr_left
            intro c hc
            rw [hbelow (isBelow_of_mem_belowText hc h), remainders_belowText h]
          · rw [hbelow (isBelow_of_mem_belowParameter h), ← remainders_belowParameter h]

/-- The tree that sorting gives for routes of templates is the one that is said without the loop. -/
theorem ofRoutes_eq_build (h : ∀ route ∈ routes, Template.Tidy route.segments) :
  ofRoutes routes = build (deepest routes) (remainders routes)
  := by
  apply ofRoutesWithin_eq_build h
  · intro route hroute
    apply le_foldl_max (Or.inr (List.mem_map_of_mem hroute))
  · intro route hroute
    apply length_le_deepest (remainder route) (List.mem_map_of_mem hroute)

end RouteNode

end ServiceBindings
