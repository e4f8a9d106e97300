import ServiceBindings.Proofs.Route.Contents

/-!
# Routing and the order of routes

The edges of a route tree do not depend on the order of its routes: the text of a literal edge is
the longest one that its routes start with, in whatever order they come.  So a walk ends at the same
routes, and unless two of them have the same method, the answer is the same up to the order of what
is bound.
-/

namespace ServiceBindings

namespace RouteNode

variable {depth : Nat} {routes routes' : List Remainder}

/-! ### Edges -/

/-- What routes share does not depend on their order. -/
theorem sharedText_perm (h : routes.Perm routes') :
  sharedText routes = sharedText routes'
  := by
  by_cases hne : routes = []
  · obtain rfl := (hne ▸ h.symm).eq_nil
    rw [hne]
  · have hne' : routes' ≠ [] := fun hnil => hne (hnil ▸ h).eq_nil
    have hinitial : ∀ text, text <+: sharedText routes ↔ text <+: sharedText routes' := by
      intro text
      rw [prefix_sharedText hne, prefix_sharedText hne']
      simp only [h.mem_iff]
    have hleft := (hinitial _).mp (List.prefix_refl _)
    have hright := (hinitial _).mpr (List.prefix_refl _)
    apply hleft.eq_of_length_le hright.length_le

theorem startingWith_perm (h : routes.Perm routes') (c : Char) :
  (startingWith routes c).Perm (startingWith routes' c) :=
  h.filter _

theorem mem_firstChars_perm (h : routes.Perm routes') (c : Char) :
  c ∈ firstChars routes ↔ c ∈ firstChars routes'
  := by
  simp only [firstChars, List.mem_eraseDups, List.mem_filterMap, h.mem_iff]

theorem literalEdge_text_perm (h : routes.Perm routes') (c : Char) :
  (literalEdge depth routes c).1 = (literalEdge depth routes' c).1 :=
  sharedText_perm (startingWith_perm h c)

theorem captureNames_perm (h : routes.Perm routes') :
  (captureNames routes).Perm (captureNames routes')
  := by
  have hmem : ∀ name, name ∈ captureNames routes ↔ name ∈ captureNames routes' := by
    intro name
    simp only [mem_captureNames, h.mem_iff]
  apply (List.perm_ext_iff_of_nodup (nodup_eraseDups _) (nodup_eraseDups _)).mpr hmem

theorem afterCapture_perm (h : routes.Perm routes') :
  (afterCapture routes).Perm (afterCapture routes') :=
  (h.filterMap nextCapture?).map _

/-- Whether a literal edge fits does not depend on the order of routes. -/
theorem literal_fits_perm (h : routes.Perm routes') (c : Char) (path : List Char) :
  (c ∈ firstChars routes ∧ ∃ rest, c :: path = (literalEdge depth routes c).1 ++ rest)
    ↔ c ∈ firstChars routes' ∧ ∃ rest, c :: path = (literalEdge depth routes' c).1 ++ rest
  := by
  rw [mem_firstChars_perm h, literalEdge_text_perm h]

/-! ### Walks -/

/-- The walk along a path ends at the same routes, whatever their order. -/
theorem Walks.perm {path : List Char} {chosen : List Step → Bool}
    {more : List (String × List Char)} (h : Walks depth routes path chosen more)
    (hperm : routes.Perm routes') :
  ∃ more', Walks depth routes' path chosen more' ∧ more.Perm more'
  := by
  induction h generalizing routes' with
  | finish depth routes => use [], Walks.finish depth routes'
  | leaf => use [], Walks.leaf
  | @literal depth routes c path rest chosen more hc hpath _ ih =>
      rw [mem_firstChars_perm hperm] at hc
      rw [literalEdge_text_perm hperm] at hpath ih ⊢
      obtain ⟨more', hwalk, hmore⟩ := ih ((startingWith_perm hperm c).map _)
      use more', Walks.literal hc hpath hwalk
  | @parameter depth routes c path chosen more hfit hcaptures hcaptured _ ih =>
      have hcaptures' : routes'.filterMap nextCapture? ≠ [] :=
        fun hnil => hcaptures (hnil ▸ hperm.filterMap nextCapture?).eq_nil
      obtain ⟨more', hwalk, hmore⟩ := ih (afterCapture_perm hperm)
      rw [literal_fits_perm hperm] at hfit
      refine ⟨_, Walks.parameter hfit hcaptures' hcaptured hwalk, ?_⟩
      apply ((captureNames_perm hperm).map _).append hmore
  | nowhere hfit hnowhere =>
      rw [literal_fits_perm hperm] at hfit
      use [], Walks.nowhere hfit (by
        apply hnowhere.imp_left
        intro hnil
        apply (hnil ▸ (hperm.filterMap nextCapture?).symm).eq_nil)

theorem deepest_perm {sources sources' : List Route} (h : sources.Perm sources') :
  deepest sources = deepest sources'
  := by
  apply ((h.map _).map _).foldl_eq

/-! ### Answers -/

/-- `SameAnswer first second`: two answers are the same failure, or the same endpoint with the same
bindings in some order. -/
inductive SameAnswer :
    Except RouteFailure RouteMatch → Except RouteFailure RouteMatch → Prop where
  | error (failure : RouteFailure) : SameAnswer (.error failure) (.error failure)
  | ok {endpoint : Nat} {bindings bindings' : List (String × List Char)} :
      bindings.Perm bindings' →
      SameAnswer (.ok ⟨endpoint, bindings⟩) (.ok ⟨endpoint, bindings'⟩)

/-- The end of a route of a method is the same in any order, if no two have the same method. -/
theorem find_verb_perm {terminals terminals' : List Terminal} (h : terminals.Perm terminals')
    (hverbs : (terminals.map (·.verb)).Nodup) (verb : Verb) :
  (terminals.find? fun terminal => terminal.verb = verb)
    = terminals'.find? fun terminal => terminal.verb = verb
  := by
  cases hfind : terminals.find? fun terminal => terminal.verb = verb with
  | none =>
      symm
      rw [List.find?_eq_none] at hfind ⊢
      intro terminal hterminal
      apply hfind terminal (h.mem_iff.mpr hterminal)
  | some terminal =>
      have hmem := List.mem_of_find?_eq_some hfind
      have hverb := List.find?_some hfind
      have hsome : (terminals'.find? fun terminal => terminal.verb = verb).isSome :=
        List.find?_isSome.mpr ⟨terminal, h.mem_iff.mp hmem, hverb⟩
      obtain ⟨other, hother⟩ := Option.isSome_iff_exists.mp hsome
      have hmem' := h.mem_iff.mpr (List.mem_of_find?_eq_some hother)
      have hverb' := List.find?_some hother
      rw [hother, List.inj_on_of_nodup_map hverbs hmem hmem' (by simp_all)]

/-- What is chosen at the end of a walk does not depend on the order of routes, if no two of them
have the same method. -/
theorem choose_perm {terminals terminals' : List Terminal}
    {bindings bindings' : List (String × List Char)} (h : terminals.Perm terminals')
    (hverbs : (terminals.map (·.verb)).Nodup) (hbindings : bindings.Perm bindings') (verb : Verb) :
  SameAnswer (choose verb bindings terminals) (choose verb bindings' terminals')
  := by
  rw [choose, choose, ← find_verb_perm h hverbs, h.isEmpty_eq]
  cases terminals'.isEmpty with
  | true => apply SameAnswer.error
  | false =>
      cases terminals.find? fun terminal => terminal.verb = verb with
      | none => apply SameAnswer.error
      | some terminal => apply SameAnswer.ok hbindings

/-- If a tree has no duplicates, then the routes that a walk ends at have different methods. -/
theorem Walks.verbs_nodup {sources : List (Nat × Verb × String)} {path : List Char}
    {chosen : List Step → Bool} {more : List (String × List Char)}
    (h : Walks depth (remainders (Route.ofTemplates sources)) path chosen more)
    (hduplicates : (ofRoutes (Route.ofTemplates sources)).duplicates = []) :
  (((Route.ofTemplates sources).filter fun route => chosen route.steps).map (·.verb)).Nodup
  := by
  have hoverlaps : Route.overlaps (Route.ofTemplates sources) = [] := by
    have hperm := duplicates_ofRoutes sources
    rw [hduplicates] at hperm
    apply hperm.symm.eq_nil
  obtain ⟨-, hpairwise⟩ := pairwise_of_repeats_eq_nil (List.map_eq_nil_iff.mp hoverlaps)
  rw [List.Nodup, List.pairwise_map]
  apply (hpairwise.filter _).imp_of_mem
  intro route other hroute hother hoverlap hverb
  obtain ⟨hroute, hchosen⟩ := List.mem_filter.mp hroute
  obtain ⟨hother, hchosen'⟩ := List.mem_filter.mp hother
  have hshape := (h.shape_alike hother hroute hchosen').mp hchosen
  simp [Route.overlap, hverb, hshape] at hoverlap

/-- Routing does not depend on the order of routes.  If the tree of some templates has no
duplicates, then the tree of the same templates in another order gives the same answers, up to the
order of bindings. -/
theorem resolve_order_irrelevant (sources sources' : List (Nat × Verb × String))
    (hperm : (Route.ofTemplates sources).Perm (Route.ofTemplates sources'))
    (hduplicates : (ofRoutes (Route.ofTemplates sources)).duplicates = []) (verb : Verb)
    (path : List Char) :
  SameAnswer ((ofRoutes (Route.ofTemplates sources)).resolve verb path)
    ((ofRoutes (Route.ofTemplates sources')).resolve verb path)
  := by
  obtain ⟨chosen, more, hwalk⟩ := exists_walks (deepest (Route.ofTemplates sources))
    (remainders (Route.ofTemplates sources)) path
  obtain ⟨more', hwalk', hmore⟩ := hwalk.perm (hperm.map _)
  rw [deepest_perm hperm] at hwalk'
  rw [hwalk.resolve fun _ => Route.tidy_of_mem, Walks.resolve hwalk' fun _ => Route.tidy_of_mem]
  apply choose_perm ((hperm.filter _).map _) _ hmore
  rw [List.map_map]
  apply hwalk.verbs_nodup hduplicates

/-- Three routes in two orders, where the names of a shared parameter are bound in two orders. -/
theorem resolve_order_irrelevant_pets :
  (ofRoutes (Route.ofTemplates [(0, .get, "/pets/\x7bid\x7d"), (1, .put, "/pets/\x7bname\x7d"),
      (2, .get, "/pets/mine")])).resolve .put "/pets/7".toList
        = .ok ⟨1, [("id", ['7']), ("name", ['7'])]⟩
    ∧ SameAnswer (.ok ⟨1, [("id", ['7']), ("name", ['7'])]⟩)
      ((ofRoutes (Route.ofTemplates [(2, .get, "/pets/mine"), (1, .put, "/pets/\x7bname\x7d"),
        (0, .get, "/pets/\x7bid\x7d")])).resolve .put "/pets/7".toList)
  := by
  have hfound : (ofRoutes (Route.ofTemplates [(0, .get, "/pets/\x7bid\x7d"),
      (1, .put, "/pets/\x7bname\x7d"), (2, .get, "/pets/mine")])).resolve .put "/pets/7".toList
        = .ok ⟨1, [("id", ['7']), ("name", ['7'])]⟩ := by
    decide +kernel
  use hfound
  rw [← hfound]
  apply resolve_order_irrelevant
  · decide +kernel
  · decide +kernel

end RouteNode

end ServiceBindings
