import ServiceBindings.Http.Router
import ServiceBindings.Proofs.Code.Lines
import ServiceBindings.Proofs.Http.EndpointNames

/-!
# Reading the router

The router is written as nested conditionals.  Its lines are read as sections: each condition with
the lines one level deeper after it, which are the expression under that condition.  The expression
of every route tree is read back from its lines if the names in it have no blanks, and the lines
are found again in the text.
-/

namespace ServiceBindings

open Text

namespace RouterExpr

/-! ### Variants -/

/-- The fields of a variant, from the words in its braces: each field with its variable, and a comma
unless it is the last one. -/
def readFields? : List String → Option (List String)
  | [field, source, close] => do
    let field ← before? ":" field
    if source = captureName field ∧ close = "\x7d" then some [field] else none
  | field :: source :: rest => do
    let field ← before? ":" field
    let source ← before? "," source
    let fields ← readFields? rest
    if source = captureName field then some (field :: fields) else none
  | _ => none

/-- The variant that a text constructs. -/
def readVariant? (text : String) : Option RouteVariant :=
  match wordsOf text with
  | [] => none
  | [name] => (after? "RouteMatch::" name).map fun name => ⟨name, []⟩
  | name :: brace :: fields => do
    let name ← after? "RouteMatch::" name
    let fields ← readFields? fields
    if brace = "\x7b" then some ⟨name, fields⟩ else none

/-! ### Expressions -/

/-- The choices by method; the last line is the one for all other methods. -/
def readArms? : List String → Option (List (Verb × RouteVariant))
  | [] => none
  | [line] => if line = "_ => Err(RouteError::MethodNotAllowed)," then some [] else none
  | line :: rest => do
    let (method, answer) ← readQuoted? line
    let verb ← Verb.all.find? fun verb => verb.text = method
    let variant ← readVariant? (← before? ")," (← after? " => Ok(" answer))
    return (verb, variant) :: (← readArms? rest)

/-- The test in a line that opens a branch. -/
def readTest? (line : String) : Option PathTest :=
  if line = "if path.is_empty() \x7b" then some .isEmpty
  else
    (literalBetween? "if let Some(path) = path.strip_prefix(" ") \x7b" line).map fun text =>
      .startsWith text.toList

/-- The variables that are bound first, and the lines after them. -/
def readBound : List String → List String × List String
  | [] => ([], [])
  | line :: rest =>
    match (after? "let " line).bind (before? " = captured;") with
    | some name =>
      let (bound, body) := readBound rest
      (name :: bound, body)
    | none => ([], line :: rest)

/-- The branches of sections, the first of which comes after a given text, and the last
alternative. -/
def readBranches? (read? : List String → Option RouterExpr) (before : String) :
    List (String × List String) → Option (List (PathTest × RouterExpr) × RouterExpr)
  | [] | [_] => none
  | [(head, body), (close, inner)] =>
    if head = "\x7d else \x7b" ∧ close = "\x7d" ∧ inner = [] then
      (read? body).map fun otherwise => ([], otherwise)
    else none
  | (head, body) :: rest => do
    let test ← readTest? (← after? before head)
    let body ← read? body
    let (arms, otherwise) ← readBranches? read? "\x7d else " rest
    return ((test, body) :: arms, otherwise)

/-- The expression of the sections after a line that captures. -/
def readCapture? (read? : List String → Option RouterExpr) :
    List (String × List String) → Option RouterExpr
  | [empty, (head, body), close] =>
    if empty = ("if captured.is_empty() \x7b", [notFoundText]) ∧ head = "\x7d else \x7b"
        ∧ close = ("\x7d", []) then
      let (bound, lines) := readBound body
      (read? lines).map (.capture bound)
    else none
  | _ => none

/-- The expression of sections; the lines in them are read in a given way. -/
def readSections? (read? : List String → Option RouterExpr) :
    List (String × List String) → Option RouterExpr
  | [] => none
  | (head, body) :: rest =>
    if head = notFoundText then
      if body = [] ∧ rest = [] then some .notFound else none
    else if head = "match method \x7b" then
      if rest = [("\x7d", [])] then (readArms? body).map .dispatch else none
    else if head = "let (captured, path) = path.split_at(path.find('/').unwrap_or(path.len()));"
    then
      if body = [] then readCapture? read? rest else none
    else
      (readBranches? read? "" ((head, body) :: rest)).map fun (arms, otherwise) =>
        .branch arms otherwise

/-- The expression whose lines these are, if it is nested at most so deep. -/
def readWithin? : Nat → List String → Option RouterExpr
  | 0, _ => none
  | depth + 1, lines => (Code.readSections? lines).bind (readSections? (readWithin? depth))

/-- The expression whose lines these are. -/
def read? (lines : List String) : Option RouterExpr :=
  readWithin? lines.length lines

/-! ### Variants are read back -/

/-- A field in front of others is read before them. -/
theorem readFields?_cons {field : String} {words fields : List String}
    (h : readFields? words = some fields) :
  readFields? ((field ++ ":") :: (captureName field ++ ",") :: words) = some (field :: fields)
  := by
  cases words with
  | nil => cases h
  | cons first words =>
      cases words with
      | nil => cases h
      | cons second words =>
          rw [readFields?]
          · simp [h]
          · rintro _ ⟨⟩

theorem readFields?_commaSeparated {fields : List String} (hne : fields ≠ [])
    (h : ∀ field ∈ fields, IsToken field) :
  readFields? (wordsOf
      (Code.commaSeparated (fields.map fun field => field ++ ": " ++ captureName field) ++ " \x7d"))
    = some fields
  := by
  induction fields with
  | nil => apply absurd rfl hne
  | cons field rest ih =>
      obtain ⟨hfield, hrest⟩ := List.forall_mem_cons.mp h
      have hsource := Endpoint.isToken_captureName hfield
      have hcolon : IsToken (field ++ ":") := hfield.append (by decide)
      cases rest with
      | nil =>
          have htext : Code.commaSeparated [field ++ ": " ++ captureName field] ++ " \x7d"
              = (field ++ ":") ++ " " ++ (captureName field ++ " " ++ "\x7d") := by
            apply String.toList_injective
            simp [Code.commaSeparated]
          have hclose : IsToken "\x7d" := by decide
          rw [List.map_singleton, htext, wordsOf_append, wordsOf_append, hcolon.wordsOf,
            hsource.wordsOf, hclose.wordsOf]
          simp [readFields?]
      | cons next rest =>
          have htext : Code.commaSeparated
                ((field :: next :: rest).map fun field => field ++ ": " ++ captureName field)
                ++ " \x7d"
              = (field ++ ":") ++ " " ++ ((captureName field ++ ",") ++ " "
                ++ (Code.commaSeparated
                  ((next :: rest).map fun field => field ++ ": " ++ captureName field)
                  ++ " \x7d")) := by
            apply String.toList_injective
            simp [Code.commaSeparated, String.intercalate_cons_cons]
          have hcomma : IsToken (captureName field ++ ",") := hsource.append (by decide)
          rw [htext, wordsOf_append, wordsOf_append, hcolon.wordsOf, hcomma.wordsOf]
          apply readFields?_cons (ih (List.cons_ne_nil _ _) hrest)

/-- Whether the names of a variant have neither blanks nor line feeds. -/
structure Legible (variant : RouteVariant) : Prop where
  name : IsToken variant.name
  fields : ∀ field ∈ variant.fields, IsToken field

theorem readVariant?_variantText {variant : RouteVariant} (h : Legible variant) :
  readVariant? (variantText variant) = some variant
  := by
  obtain ⟨name, fields⟩ := variant
  have hname : IsToken ("RouteMatch::" ++ name) := IsToken.append (by decide) h.name
  cases fields with
  | nil =>
      have htext : variantText ⟨name, []⟩ = "RouteMatch::" ++ name := String.append_empty
      rw [htext, readVariant?, hname.wordsOf]
      simp
  | cons field fields =>
      have htext : variantText ⟨name, field :: fields⟩
          = ("RouteMatch::" ++ name) ++ " " ++ ("\x7b" ++ " " ++
            (Code.commaSeparated
              ((field :: fields).map fun field => field ++ ": " ++ captureName field)
              ++ " \x7d")) := by
        apply String.toList_injective
        simp [variantText, Code.inBraces]
      have hbrace : IsToken "\x7b" := by decide
      have hfields := readFields?_commaSeparated (List.cons_ne_nil field fields) h.fields
      rw [htext, readVariant?, wordsOf_append, wordsOf_append, hname.wordsOf, hbrace.wordsOf,
        List.singleton_append, List.singleton_append]
      simp only [after?_append, hfields, Option.bind_eq_bind, Option.bind_some, if_true]

/-! ### Expressions are read back -/

theorem find?_text (verb : Verb) :
  (Verb.all.find? fun other => other.text = verb.text) = some verb
  := by
  cases verb <;> decide

theorem readArms?_append {arms : List (Verb × RouteVariant)} (h : ∀ arm ∈ arms, Legible arm.2) :
  readArms? (arms.map (fun (verb, variant) =>
        quoted verb.text ++ " => Ok(" ++ variantText variant ++ "),")
      ++ ["_ => Err(RouteError::MethodNotAllowed),"])
    = some arms
  := by
  induction arms with
  | nil => rfl
  | cons arm arms ih =>
      obtain ⟨harm, harms⟩ := List.forall_mem_cons.mp h
      rw [List.map_cons, List.cons_append, readArms?]
      · simp only [String.append_assoc, readQuoted?_quoted, Option.bind_eq_bind, Option.bind_some,
          find?_text, after?_append, before?_append, readVariant?_variantText harm]
        simp only [← String.append_assoc, ih harms, Option.bind_some]
        rfl
      · simp

theorem readTest?_testText (test : PathTest) :
  readTest? (testText test ++ " \x7b") = some test
  := by
  cases test with
  | isEmpty => rfl
  | startsWith text =>
      have hline : testText (.startsWith text) ++ " \x7b"
          = "if let Some(path) = path.strip_prefix(" ++ quoted (String.ofList text)
            ++ ") \x7b" := by
        have hclose : ") \x7b" = ")" ++ " \x7b" := by decide
        rw [hclose, ← String.append_assoc, quoted, String.toList_ofList]
        rfl
      have hother : testText (.startsWith text) ++ " \x7b" ≠ "if path.is_empty() \x7b" := by
        intro heq
        have hnone : after? "if let Some(path) = path.strip_prefix(" "if path.is_empty() \x7b"
            = none := by
          decide
        rw [← heq, hline, String.append_assoc, after?_append] at hnone
        cases hnone
      rw [readTest?, if_neg hother, hline, literalBetween?_append, Option.map_some,
        String.toList_ofList]

/-- Whether an expression is read back: its names have neither blanks nor line feeds, and each
choice by the path has a branch. -/
inductive IsLegible : RouterExpr → Prop
  | notFound : IsLegible .notFound
  | dispatch {arms : List (Verb × RouteVariant)} (h : ∀ arm ∈ arms, Legible arm.2) :
      IsLegible (.dispatch arms)
  | branch {arms : List (PathTest × RouterExpr)} {otherwise : RouterExpr} (hne : arms ≠ [])
      (harms : ∀ arm ∈ arms, IsLegible arm.2) (hotherwise : IsLegible otherwise) :
      IsLegible (.branch arms otherwise)
  | capture {bound : List String} {body : RouterExpr} (hbound : ∀ name ∈ bound, '\n' ∉ name.toList)
      (hbody : IsLegible body) :
      IsLegible (.capture bound body)

/-- The sections of branches, the first one after a given text. -/
def branchSections (before : String) : List (PathTest × RouterExpr) → List (String × List String)
  | [] => []
  | (test, body) :: rest =>
    (before ++ testText test ++ " \x7b", lines body) :: branchSections "\x7d else " rest

theorem branchLines_eq (before : String) (arms : List (PathTest × RouterExpr)) :
  branchLines before arms = Code.ofSections (branchSections before arms)
  := by
  induction arms generalizing before with
  | nil => rfl
  | cons arm arms ih =>
      rw [branchLines, ih]
      rfl

/-- The sections of a choice by the path. -/
theorem lines_branch {arms : List (PathTest × RouterExpr)} (h : arms ≠ [])
    (otherwise : RouterExpr) :
  lines (.branch arms otherwise)
    = Code.ofSections (branchSections "" arms
      ++ [("\x7d else \x7b", lines otherwise), ("\x7d", [])])
  := by
  have hsome : arms.isEmpty = false := by simpa using h
  rw [lines, branchLines_eq, hsome, elseLines, if_neg Bool.false_ne_true, Code.ofSections,
    Code.ofSections, List.flatMap_append]
  rfl

theorem lines_dispatch (arms : List (Verb × RouteVariant)) :
  lines (.dispatch arms)
    = Code.ofSections [
        ("match method \x7b",
          arms.map (fun (verb, variant) =>
              quoted verb.text ++ " => Ok(" ++ variantText variant ++ "),")
            ++ ["_ => Err(RouteError::MethodNotAllowed),"]),
        ("\x7d", [])] :=
  rfl

theorem lines_capture (bound : List String) (body : RouterExpr) :
  lines (.capture bound body)
    = Code.ofSections [
        ("let (captured, path) = path.split_at(path.find('/').unwrap_or(path.len()));", []),
        ("if captured.is_empty() \x7b", [notFoundText]),
        ("\x7d else \x7b", bound.map (fun name => "let " ++ name ++ " = captured;") ++ lines body),
        ("\x7d", [])]
  := by
  rw [lines]
  simp [Code.ofSections, Code.indent]

/-- A test starts like a condition. -/
theorem exists_testText (test : PathTest) :
  ∃ rest, testText test ++ " \x7b" = "if " ++ rest
  := by
  cases test with
  | isEmpty => exact ⟨"path.is_empty() \x7b", by decide⟩
  | startsWith text =>
      have hstart : "if let Some(path) = path.strip_prefix("
          = "if " ++ "let Some(path) = path.strip_prefix(" := by
        decide
      unfold testText
      simp only [hstart, String.append_assoc]
      exact ⟨_, rfl⟩

theorem unindentLine?_branchSections {before : String}
    (hbefore : before = "" ∨ before = "\x7d else ") (arms : List (PathTest × RouterExpr)) :
  ∀ part ∈ branchSections before arms, Code.unindentLine? part.1 = none
  := by
  induction arms generalizing before with
  | nil => apply List.forall_mem_nil
  | cons arm arms ih =>
      rw [branchSections, List.forall_mem_cons]
      refine ⟨?_, ih (Or.inr rfl)⟩
      dsimp only
      rcases hbefore with rfl | rfl
      · obtain ⟨rest, hrest⟩ := exists_testText arm.1
        rw [String.empty_append, hrest]
        apply Code.unindentLine?_of_clash (by decide)
      · rw [String.append_assoc]
        apply Code.unindentLine?_of_clash (by decide)

theorem readBranches?_branchSections {read? : List String → Option RouterExpr}
    {otherwise : RouterExpr} (hotherwise : read? (lines otherwise) = some otherwise)
    {arms : List (PathTest × RouterExpr)} (harms : ∀ arm ∈ arms, read? (lines arm.2) = some arm.2)
    (before : String) :
  readBranches? read? before
      (branchSections before arms ++ [("\x7d else \x7b", lines otherwise), ("\x7d", [])])
    = some (arms, otherwise)
  := by
  induction arms generalizing before with
  | nil =>
      rw [branchSections, List.nil_append, readBranches?, if_pos ⟨rfl, rfl, rfl⟩, hotherwise,
        Option.map_some]
  | cons arm arms ih =>
      obtain ⟨harm, harms⟩ := List.forall_mem_cons.mp harms
      rw [branchSections, List.cons_append, readBranches?]
      · rw [String.append_assoc, after?_append]
        simp only [Option.bind_eq_bind, Option.bind_some, readTest?_testText, harm, ih harms]
        rfl
      · cases arms <;> simp [branchSections]
      · cases arms <;> simp [branchSections]

/-- Each branch has a section. -/
theorem exists_mem_branchSections {arms : List (PathTest × RouterExpr)}
    {arm : PathTest × RouterExpr} (h : arm ∈ arms) (before : String) :
  ∃ head, (head, lines arm.2) ∈ branchSections before arms
  := by
  induction arms generalizing before with
  | nil => cases h
  | cons other arms ih =>
      rcases List.mem_cons.mp h with rfl | h
      · exact ⟨_, List.mem_cons_self⟩
      · obtain ⟨head, hmem⟩ := ih h "\x7d else "
        exact ⟨head, List.mem_cons_of_mem _ hmem⟩

/-- What starts with a test is a choice by the path. -/
theorem readSections?_branchSections (read? : List String → Option RouterExpr)
    {arms : List (PathTest × RouterExpr)} (h : arms ≠ []) (rest : List (String × List String)) :
  readSections? read? (branchSections "" arms ++ rest)
    = (readBranches? read? "" (branchSections "" arms ++ rest)).map fun (arms, otherwise) =>
      .branch arms otherwise
  := by
  obtain ⟨arm, arms, rfl⟩ := List.exists_cons_of_ne_nil h
  obtain ⟨text, htext⟩ := exists_testText arm.1
  have hne {other : String} (hclash : clash "if " other = true) :
      "" ++ testText arm.1 ++ " \x7b" ≠ other := by
    rw [String.empty_append, htext]
    apply append_ne_of_clash hclash
  rw [branchSections, List.cons_append, readSections?, if_neg (hne (by decide)),
    if_neg (hne (by decide)), if_neg (hne (by decide))]

/-- The variables are read back, unless what comes after them binds another one. -/
theorem readBound_append {body : List String} (bound : List String)
    (h : ∀ line ∈ body.head?, (after? "let " line).bind (before? " = captured;") = none) :
  readBound (bound.map (fun name => "let " ++ name ++ " = captured;") ++ body) = (bound, body)
  := by
  induction bound with
  | nil =>
      cases body with
      | nil => rfl
      | cons line body =>
          rw [List.map_nil, List.nil_append, readBound, h line rfl]
  | cons name bound ih =>
      rw [List.map_cons, List.cons_append, readBound, String.append_assoc, after?_append,
        Option.bind_some, before?_append, ih]

theorem IsLegible.head_lines {expr : RouterExpr} (h : IsLegible expr) :
  ∀ line ∈ (lines expr).head?, (after? "let " line).bind (before? " = captured;") = none
  := by
  rintro line hline
  cases h with
  | notFound =>
      obtain rfl : notFoundText = line := Option.some.inj hline
      decide
  | dispatch =>
      obtain rfl : "match method" ++ " \x7b" = line := Option.some.inj hline
      decide
  | @branch arms otherwise hne =>
      obtain ⟨arm, arms, rfl⟩ := List.exists_cons_of_ne_nil hne
      obtain ⟨rest, hrest⟩ := exists_testText arm.1
      obtain rfl : "" ++ testText arm.1 ++ " \x7b" = line := Option.some.inj hline
      rw [String.empty_append, hrest, after?_append_of_clash (by decide), Option.bind_none]
  | capture =>
      obtain rfl : "let (captured, path) = path.split_at(path.find('/').unwrap_or(path.len()));"
        = line := Option.some.inj hline
      decide

theorem readWithin?_ofSections {sections : List (String × List String)}
    (h : ∀ part ∈ sections, Code.unindentLine? part.1 = none) (hne : sections ≠ []) {depth : Nat}
    (hdepth : (Code.ofSections sections).length ≤ depth) :
  ∃ inner, readWithin? depth (Code.ofSections sections) = readSections? (readWithin? inner) sections
    ∧ ∀ part ∈ sections, part.2.length ≤ inner
  := by
  have hless (part) (hpart : part ∈ sections) : part.2.length < depth :=
    Nat.lt_of_lt_of_le (Code.length_lt_ofSections hpart) hdepth
  obtain ⟨part, hpart⟩ := List.exists_mem_of_ne_nil sections hne
  obtain ⟨inner, rfl⟩ := Nat.exists_eq_add_of_lt (Nat.zero_lt_of_lt (hless part hpart))
  use inner
  rw [Nat.zero_add] at hless ⊢
  constructor
  · rw [readWithin?, Code.readSections?_ofSections h, Option.bind_some]
  · intro part hpart
    apply Nat.le_of_lt_succ (hless part hpart)

/-- An expression is read back. -/
theorem IsLegible.readWithin?_lines {expr : RouterExpr} (h : IsLegible expr) {depth : Nat}
    (hdepth : (lines expr).length ≤ depth) :
  readWithin? depth (lines expr) = some expr
  := by
  induction h generalizing depth with
  | notFound =>
      have hlines : lines .notFound = Code.ofSections [(notFoundText, [])] := rfl
      rw [hlines] at hdepth ⊢
      obtain ⟨inner, hread, -⟩ := readWithin?_ofSections (by decide) (by simp) hdepth
      rw [hread, readSections?, if_pos rfl, if_pos ⟨rfl, rfl⟩]
  | @dispatch arms harms =>
      rw [lines_dispatch] at hdepth ⊢
      obtain ⟨inner, hread, -⟩ := readWithin?_ofSections (by simp; decide) (by simp) hdepth
      rw [hread, readSections?, if_neg (by decide), if_pos rfl, if_pos rfl, readArms?_append harms,
        Option.map_some]
  | @branch arms otherwise hne harms hotherwise iharms ihotherwise =>
      rw [lines_branch hne] at hdepth ⊢
      have hheads : ∀ part ∈ branchSections "" arms
            ++ [("\x7d else \x7b", lines otherwise), ("\x7d", [])],
          Code.unindentLine? part.1 = none := by
        rw [List.forall_mem_append]
        refine ⟨unindentLine?_branchSections (Or.inl rfl) arms, by simp; decide⟩
      obtain ⟨inner, hread, hinner⟩ := readWithin?_ofSections hheads (by simp) hdepth
      have hreads (arm) (harm : arm ∈ arms) : readWithin? inner (lines arm.2) = some arm.2 := by
        obtain ⟨head, hmem⟩ := exists_mem_branchSections harm ""
        apply iharms arm harm (hinner _ (List.mem_append_left _ hmem))
      have hlast : readWithin? inner (lines otherwise) = some otherwise := by
        apply ihotherwise (hinner ("\x7d else \x7b", lines otherwise) (by simp))
      rw [hread, readSections?_branchSections _ hne, readBranches?_branchSections hlast hreads,
        Option.map_some]
  | @capture bound body hbound hbody ih =>
      rw [lines_capture] at hdepth ⊢
      obtain ⟨inner, hread, hinner⟩ := readWithin?_ofSections (by simp; decide) (by simp) hdepth
      have hlength : (lines body).length ≤ inner := by
        have h := hinner _ (List.mem_cons_of_mem _ (List.mem_cons_of_mem _ List.mem_cons_self))
        rw [List.length_append] at h
        omega
      rw [hread, readSections?, if_neg (by decide), if_neg (by decide), if_pos rfl, if_pos rfl,
        readCapture?, if_pos ⟨rfl, rfl, rfl⟩, readBound_append bound hbody.head_lines]
      dsimp only
      rw [ih hlength, Option.map_some]

theorem IsLegible.read?_lines {expr : RouterExpr} (h : IsLegible expr) :
  read? (lines expr) = some expr :=
  h.readWithin?_lines (Nat.le_refl _)

/-! ### The lines in the text -/

theorem feed_not_mem_variantText {variant : RouteVariant} (h : Legible variant) :
  '\n' ∉ (variantText variant).toList
  := by
  have hfields : '\n' ∉ (Code.commaSeparated (variant.fields.map fun field =>
      field ++ ": " ++ captureName field)).toList := by
    apply Code.feed_not_mem_commaSeparated
    intro text htext
    obtain ⟨field, hfield, rfl⟩ := List.mem_map.mp htext
    have hfeed := (h.fields field hfield).feed
    have hsource := (Endpoint.isToken_captureName (h.fields field hfield)).feed
    simp [hfeed, hsource]
  unfold variantText
  simp only [String.toList_append, List.mem_append, not_or]
  refine ⟨⟨by decide, h.name.feed⟩, ?_⟩
  split
  case isTrue => decide
  case isFalse => simpa [Code.inBraces] using hfields

theorem isLine_testText {before : String} (hbefore : '\n' ∉ before.toList) (test : PathTest) :
  IsLine (before ++ testText test ++ " \x7b")
  := by
  apply isLine_append _ (by decide) (by decide)
  rw [String.toList_append, List.mem_append, not_or]
  use hbefore
  cases test with
  | isEmpty => decide
  | startsWith text =>
      unfold testText
      simp [feed_not_mem_quotedChars]

/-- Branches are made of lines, in front of sections that are. -/
theorem isLine_branchSections {before : String} (hbefore : '\n' ∉ before.toList)
    {arms : List (PathTest × RouterExpr)} (h : ∀ arm ∈ arms, ∀ line ∈ lines arm.2, IsLine line)
    {rest : List (String × List String)} (hrest : ∀ line ∈ Code.ofSections rest, IsLine line) :
  ∀ line ∈ Code.ofSections (branchSections before arms ++ rest), IsLine line
  := by
  induction arms generalizing before with
  | nil => apply hrest
  | cons arm arms ih =>
      obtain ⟨harm, harms⟩ := List.forall_mem_cons.mp h
      rw [branchSections, List.cons_append]
      apply Code.isLine_ofSections_cons (isLine_testText hbefore arm.1) harm
      apply ih (by decide) harms

/-- Each line of an expression is one line of the text. -/
theorem IsLegible.isLine_lines {expr : RouterExpr} (h : IsLegible expr) :
  ∀ line ∈ lines expr, IsLine line
  := by
  have hclose : ∀ line ∈ Code.ofSections [("\x7d", [])], IsLine line := by decide
  induction h with
  | notFound =>
      have hline : ∀ line ∈ [notFoundText], IsLine line := by decide
      apply hline
  | @dispatch arms harms =>
      have hbody : ∀ line ∈ arms.map (fun (verb, variant) =>
            quoted verb.text ++ " => Ok(" ++ variantText variant ++ "),")
          ++ ["_ => Err(RouteError::MethodNotAllowed),"], IsLine line := by
        rw [List.forall_mem_append]
        refine ⟨?_, by decide⟩
        intro line hline
        obtain ⟨arm, harm, rfl⟩ := List.mem_map.mp hline
        apply isLine_append _ (by decide) (by decide)
        have hvariant := feed_not_mem_variantText (harms arm harm)
        simp [feed_not_mem_quoted, hvariant]
      rw [lines_dispatch]
      apply Code.isLine_ofSections_cons (by decide) hbody hclose
  | @branch arms otherwise hne _ _ iharms ihotherwise =>
      rw [lines_branch hne]
      apply isLine_branchSections (by decide) iharms
      apply Code.isLine_ofSections_cons (by decide) ihotherwise hclose
  | @capture bound body hbound _ ih =>
      have hbody : ∀ line ∈ bound.map (fun name => "let " ++ name ++ " = captured;") ++ lines body,
          IsLine line := by
        rw [List.forall_mem_append]
        refine ⟨?_, ih⟩
        intro line hline
        obtain ⟨name, hname, rfl⟩ := List.mem_map.mp hline
        apply isLine_append _ (by decide) (by decide)
        simp [hbound name hname]
      rw [lines_capture]
      apply Code.isLine_ofSections_cons (by decide) (by decide)
      apply Code.isLine_ofSections_cons (by decide) (by decide)
      apply Code.isLine_ofSections_cons (by decide) hbody hclose

/-! ### The expression of a route tree -/

theorem isLegible_ofTerminals {variants : List RouteVariant}
    (h : ∀ variant ∈ variants, Legible variant) (terminals : List Terminal) :
  IsLegible (ofTerminals variants terminals)
  := by
  unfold ofTerminals
  split
  case isTrue => apply IsLegible.notFound
  case isFalse =>
    apply IsLegible.dispatch
    intro arm harm
    obtain ⟨terminal, -, hterminal⟩ := List.mem_filterMap.mp harm
    obtain ⟨variant, hvariant, rfl⟩ := Option.map_eq_some_iff.mp hterminal
    apply h variant (List.mem_of_getElem? hvariant)

mutual

theorem isLegible_ofNode {variants : List RouteVariant}
    (h : ∀ variant ∈ variants, Legible variant) (node : RouteNode) :
  IsLegible (ofNode variants node)
  := by
  match node with
  | .mk terminals literals parameter =>
      rw [ofNode]
      apply IsLegible.branch (List.cons_ne_nil _ _)
      · rw [List.forall_mem_cons]
        exact ⟨isLegible_ofTerminals h terminals, isLegible_ofLiterals h literals⟩
      · apply isLegible_ofParameter h

theorem isLegible_ofLiterals {variants : List RouteVariant}
    (h : ∀ variant ∈ variants, Legible variant) (edges : List (List Char × RouteNode)) :
  ∀ arm ∈ ofLiterals variants edges, IsLegible arm.2
  := by
  match edges with
  | [] => apply List.forall_mem_nil
  | (text, node) :: rest =>
      rw [ofLiterals, List.forall_mem_cons]
      exact ⟨isLegible_ofNode h node, isLegible_ofLiterals h rest⟩

theorem isLegible_ofParameter {variants : List RouteVariant}
    (h : ∀ variant ∈ variants, Legible variant) (parameter : Option (List String × RouteNode)) :
  IsLegible (ofParameter variants parameter)
  := by
  match parameter with
  | none => apply IsLegible.notFound
  | some (names, node) =>
      rw [ofParameter]
      apply IsLegible.capture _ (isLegible_ofNode h node)
      intro text htext
      obtain ⟨name, -, rfl⟩ := List.mem_map.mp htext
      apply (Endpoint.isToken_captureName (Identifier.isToken_valueName name)).feed

end

end RouterExpr

/-! ### The router -/

namespace Endpoint

open RouterExpr

/-- Whether a line is the head of the router: of one that hands out parts of the path, or of one
that does not. -/
def isRouterHead (head : String) : Bool :=
  head = "pub fn route<'p>(method: &str, path: &'p str) -> Result<RouteMatch<'p>, RouteError>"
    || head = "pub fn route(method: &str, path: &str) -> Result<RouteMatch, RouteError>"

/-- The body of the router, from its lines. -/
def readRouter? : List String → Option RouterExpr
  | _ :: _ :: function => do
    let (head, body) ← Code.readBlock? function
    if isRouterHead head then read? body else none
  | _ => none

theorem legible_routeVariant {endpoint : Endpoint} (h : endpoint.name.Parsed) :
  Legible endpoint.routeVariant where
  name := Identifier.isToken_escape h.isToken_pascal
  fields := by
    intro field hfield
    obtain ⟨name, -, rfl⟩ := List.mem_map.mp (List.mem_eraseDups.mp hfield)
    apply Identifier.isToken_valueName

theorem isLegible_router {endpoints : List Endpoint}
    (h : ∀ endpoint ∈ endpoints, endpoint.name.Parsed) :
  IsLegible (router endpoints)
  := by
  apply isLegible_ofNode
  intro variant hvariant
  obtain ⟨endpoint, hendpoint, rfl⟩ := List.mem_map.mp hvariant
  apply legible_routeVariant (h endpoint hendpoint)

theorem routerLines_eq (endpoints : List Endpoint) :
  ∃ first second head, routerLines endpoints
      = first :: second :: Code.block head (router endpoints).lines
    ∧ IsLine first ∧ IsLine second ∧ '\n' ∉ head.toList ∧ isRouterHead head = true
  := by
  refine ⟨_, _, _, rfl, by decide, by decide, ?_⟩
  split
  case isTrue => decide
  case isFalse => decide

/-- The router is read back from its text. -/
theorem readRouter?_routerLines {endpoints : List Endpoint}
    (h : ∀ endpoint ∈ endpoints, endpoint.name.Parsed) :
  readRouter? (linesOf (unlines (routerLines endpoints))) = some (router endpoints)
  := by
  have hlegible := isLegible_router h
  obtain ⟨first, second, head, hlines, hfirst, hsecond, hfeed, hhead⟩ := routerLines_eq endpoints
  have hall : ∀ line ∈ routerLines endpoints, IsLine line := by
    rw [hlines, List.forall_mem_cons, List.forall_mem_cons]
    exact ⟨hfirst, hsecond, Code.isLine_block hfeed hlegible.isLine_lines⟩
  rw [linesOf_unlines hall, hlines, readRouter?, Code.readBlock?_block]
  dsimp only [Option.bind_eq_bind, Option.bind_some]
  rw [if_pos hhead, hlegible.read?_lines]

end Endpoint

end ServiceBindings
