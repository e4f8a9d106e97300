import Mathlib.Data.List.Pairwise
import ServiceBindings.Http.Endpoint
import ServiceBindings.Proofs.Draft.Anchoring
import ServiceBindings.Proofs.Naming.Pascal
import ServiceBindings.Proofs.Naming.Scope
import ServiceBindings.Proofs.Naming.Settled

/-!
# Names of endpoints

An endpoint whose name is taken gets a number, and a name counts as taken if its spelling in snake
case is.  So the names of endpoints all differ in snake case.  They need not differ as identifiers
of modules, since a keyword gets a mark that another name may have of its own, nor as identifiers of
variants, since Pascal case shows no border before a number.  The statements here say exactly when
two endpoints have the same identifier.
-/

namespace ServiceBindings

/-! ### Numbers -/

namespace Words

open Text

/-- A number is a single word. -/
theorem parse_toString (n : Nat) : parse (toString n) = ⟨[Nat.toDigits 10 n]⟩ := by
  have hsettled : IsSettled (Nat.toDigits 10 n) := by
    rw [isSettled_iff]
    intro c hc
    have hdigit := @Nat.isDigit_of_mem_toDigits 10 n c (by decide) (by decide) hc
    have hbounds : 48 ≤ c.toNat ∧ c.toNat ≤ 57 := by
      simpa [Char.isDigit, UInt32.le_iff_toNat_le] using hdigit
    have hascii : c.toNat < 128 := by omega
    revert hdigit
    apply forall_ascii _ hascii
    decide +kernel
  have htoList : (toString n).toList = Nat.toDigits 10 n := Nat.toList_repr
  rw [parse, htoList, hsettled.cut_eq Nat.toDigits_ne_nil]

/-- The characters of a name in snake case after which another word comes. -/
theorem snake_concat (parts : List (List Char)) (word : List Char) :
  renderChars ⟨parts ++ [word]⟩ .snake
    = (if parts = [] then [] else renderChars ⟨parts⟩ .snake ++ ['_']) ++ word
  := by
  have hjoin : ∀ parts : List (List Char), ['_'].intercalate (parts ++ [word])
      = (if parts = [] then [] else ['_'].intercalate parts ++ ['_']) ++ word := by
    intro parts
    induction parts with
    | nil => simp
    | cons part rest ih =>
        cases rest with
        | nil => simp [List.intercalate_cons_cons]
        | cons next rest =>
            simp only [reduceCtorEq, if_false] at ih ⊢
            rw [List.cons_append, List.cons_append, List.intercalate_cons_cons,
              ← List.cons_append, ih, List.intercalate_cons_cons]
            simp
  apply hjoin

end Words

namespace Endpoint

open Identifier

variable {graph : TypeGraph}

/-- Names with different numbers are spelled differently. -/
theorem snakeCase_numbered_inj {base : Words} {i j : Nat}
    (h : (numbered base i).snakeCase = (numbered base j).snakeCase) :
  i = j
  := by
  have hnumber (n : Nat) : (base.join (Words.parse (toString n))).renderChars .snake
      = (if base.parts = [] then [] else base.renderChars .snake ++ ['_'])
        ++ Nat.toDigits 10 n := by
    rw [Words.parse_toString, Words.join, Words.snake_concat]
  have hbase (n : Nat) : base.renderChars .snake
      ≠ (base.join (Words.parse (toString n))).renderChars .snake := by
    rw [hnumber]
    intro heq
    have hlength := congrArg List.length heq
    have hdigits := List.length_pos_of_ne_nil (@Nat.toDigits_ne_nil n 10)
    rw [List.length_append] at hlength
    split at hlength
    case isTrue hnil =>
      rw [Words.renderChars, hnil] at hlength
      simp only [Words.styled, List.intercalate_nil, List.length_nil, Nat.zero_add] at hlength
      omega
    case isFalse =>
      rw [List.length_append] at hlength
      omega
  have hchars := String.ofList_inj.mp h
  unfold numbered at hchars
  split at hchars
  case isTrue hi =>
    split at hchars
    case isTrue hj => rw [hi, hj]
    case isFalse => apply absurd hchars (hbase j)
  case isFalse =>
    split at hchars
    case isTrue => apply absurd hchars.symm (hbase i)
    case isFalse =>
      rw [hnumber, hnumber] at hchars
      have hdigits := List.append_cancel_left hchars
      calc
        i = Nat.ofDigitChars 10 (Nat.toDigits 10 i) 0 := Nat.ofDigitChars_ten_toDigits.symm
        _ = Nat.ofDigitChars 10 (Nat.toDigits 10 j) 0 := by rw [hdigits]
        _ = j := Nat.ofDigitChars_ten_toDigits

/-- The spelling of a name that is found was not taken. -/
theorem freeName_not_mem (taken : List String) (base : Words) :
  (freeName taken base).snakeCase ∉ taken
  := by
  rw [freeName, NameScope.map_firstFree Words.snakeCase (· ∈ taken)]
  apply NameScope.firstFree_not_mem
  intro i j h
  apply snakeCase_numbered_inj h

/-! ### Collecting -/

/-- Endpoints are spelled differently, and none of them as what is taken. -/
theorem collectFrom_nodup (taken : List String) (operations : List HttpOperation) :
  ((collectFrom graph taken operations).1.map fun endpoint => endpoint.name.snakeCase).Nodup
    ∧ ∀ endpoint ∈ (collectFrom graph taken operations).1, endpoint.name.snakeCase ∉ taken
  := by
  induction operations generalizing taken with
  | nil => exact ⟨List.nodup_nil, List.forall_mem_nil _⟩
  | cons http rest ih =>
      rw [collectFrom]
      split
      case h_1 => apply ih
      case h_2 operation _ =>
        dsimp only
        generalize (containerName graph http.operation.container).join
          (Words.parse operation.name) = base
        obtain ⟨hnodup, hnew⟩ := ih ((freeName taken base).snakeCase :: taken)
        constructor
        · rw [List.map_cons, List.nodup_cons]
          refine ⟨?_, hnodup⟩
          intro hmem
          obtain ⟨endpoint, hendpoint, heq⟩ := List.mem_map.mp hmem
          apply hnew endpoint hendpoint
          rw [heq]
          apply List.mem_cons_self
        · intro endpoint hendpoint
          rcases List.mem_cons.mp hendpoint with rfl | hendpoint
          · apply freeName_not_mem
          · intro hmem
            apply hnew endpoint hendpoint (List.mem_cons_of_mem _ hmem)

theorem parsed_containerName (container : Container) : (containerName graph container).Parsed := by
  cases container with
  | group id => apply Words.Parsed.parse
  | interface id =>
      rw [containerName]
      cases hname : graph.declaredName? id with
      | none => apply List.forall_mem_nil
      | some words =>
          obtain ⟨kind, -, hkind⟩ := Option.bind_eq_some_iff.mp hname
          apply TypeKind.parsed_declaredName hkind

/-- The words of the name of an endpoint are those of identifiers. -/
theorem parsed_of_mem_collectFrom {taken : List String} {operations : List HttpOperation}
    {endpoint : Endpoint} (h : endpoint ∈ (collectFrom graph taken operations).1) :
  endpoint.name.Parsed
  := by
  induction operations generalizing taken with
  | nil => cases h
  | cons http rest ih =>
      rw [collectFrom] at h
      split at h
      case h_1 => apply ih h
      case h_2 operation _ =>
        rcases List.mem_cons.mp h with rfl | h
        · have hbase := (@parsed_containerName graph http.operation.container).join
            (Words.Parsed.parse operation.name)
          dsimp only
          generalize (containerName graph http.operation.container).join
            (Words.parse operation.name) = base at hbase
          obtain ⟨n, hn⟩ := NameScope.exists_firstFree
            (fun name : Words => name.snakeCase ∈ taken) (numbered base) taken.length 1
          rw [freeName, hn, numbered]
          split
          case isTrue => apply hbase
          case isFalse => apply hbase.join (Words.Parsed.parse _)
        · apply ih h

theorem isToken_moduleName {endpoint : Endpoint} (h : endpoint.name.Parsed) :
  Text.IsToken endpoint.moduleName :=
  isToken_escape h.isToken_snake

theorem isToken_captureName {field : String} (h : Text.IsToken field) :
  Text.IsToken (captureName field) :=
  Text.IsToken.append (by decide) (isToken_dropRaw h)

/-- Whether values come twice is the same for functions that tell the same elements apart. -/
theorem nodup_map_iff {α β γ : Type} {items : List α} {f : α → β} {g : α → γ}
    (h : ∀ a ∈ items, ∀ b ∈ items, f a = f b ↔ g a = g b) :
  (items.map f).Nodup ↔ (items.map g).Nodup
  := by
  unfold List.Nodup
  rw [List.pairwise_map, List.pairwise_map]
  apply List.Pairwise.iff_of_mem
  intro a b ha hb
  apply not_congr (h a ha b hb)

/-- The names of the endpoints of a service differ in snake case.  Their identifiers as modules
differ exactly if none of the names is a keyword that another one has with its mark, and their
identifiers as variants exactly if the names differ in Pascal case, where a word that starts with no
small letter cannot be told from the end of the word before it. -/
theorem collect_names_distinct (graph : TypeGraph) (http : HttpService) :
  ((collect graph http).1.map fun endpoint => endpoint.name.snakeCase).Nodup
  ∧ (((collect graph http).1.map moduleName).Nodup
    ↔ ∀ first ∈ (collect graph http).1, ∀ second ∈ (collect graph http).1,
      ¬IsMarked first.name.snakeCase second.name.snakeCase)
  ∧ (((collect graph http).1.map typeName).Nodup
    ↔ ((collect graph http).1.map fun endpoint => endpoint.name.pascalCase).Nodup)
  ∧ ((∀ endpoint ∈ (collect graph http).1, endpoint.name.StartsAscii) →
    (((collect graph http).1.map typeName).Nodup
      ↔ ((collect graph http).1.map fun endpoint => endpoint.name.glue).Nodup))
  := by
  have hnodup := (@collectFrom_nodup graph [] http.operations).1
  have hparsed (endpoint : Endpoint) (h : endpoint ∈ (collect graph http).1) :=
    parsed_of_mem_collectFrom h
  have htype (first : Endpoint) (hfirst : first ∈ (collect graph http).1) (second : Endpoint)
      (hsecond : second ∈ (collect graph http).1) :
      first.typeName = second.typeName ↔ first.name.pascalCase = second.name.pascalCase :=
    Words.escape_pascal_eq_iff (hparsed first hfirst) (hparsed second hsecond)
  refine ⟨hnodup, ⟨?_, ?_⟩, ?_, ?_⟩
  · intro hmodules first hfirst second hsecond hmarked
    obtain rfl := List.inj_on_of_nodup_map hmodules hfirst hsecond hmarked.escape_eq
    have hlength := congrArg String.length hmarked.2
    simp at hlength
  · intro hmarked
    apply List.Nodup.map_on _ hnodup.of_map
    intro first hfirst second hsecond heq
    have hspelled := (escape_eq_iff (hparsed first hfirst).isTrimmed_snake
      (hparsed second hsecond).isTrimmed_snake).mp heq
    rcases hspelled with hspelled | h | h
    · apply List.inj_on_of_nodup_map hnodup hfirst hsecond hspelled
    · apply absurd h (hmarked first hfirst second hsecond)
    · apply absurd h (hmarked second hsecond first hfirst)
  · apply nodup_map_iff htype
  · intro hascii
    apply nodup_map_iff
    intro first hfirst second hsecond
    apply (htype first hfirst second hsecond).trans
    apply Words.pascalCase_eq_iff (hparsed first hfirst) (hparsed second hsecond)
      (hascii first hfirst) (hascii second hsecond)

/-- Pets that can be got in two ways, one of which is called the second, and two operations with
names around a keyword. -/
def petGraph : TypeGraph := {
  namespaces := [
    { name := ""
      operations := [
        { name := "fn", returnType := ⟨0⟩ }, { name := "r#fn", returnType := ⟨0⟩ }] },
    { name := "Pets"
      parent := some .global
      operations := [
        { name := "getPet", returnType := ⟨0⟩ }, { name := "getPet2", returnType := ⟨0⟩ },
        { name := "list", returnType := ⟨0⟩ }] }]
  types := [{ kind := .intrinsic .void }] }

/-- HTTP operations for some operations of namespaces. -/
def petHttp (operations : List (NamespaceId × String)) : HttpService :=
  { operations := operations.map fun (id, name) =>
      { operation := ⟨.group id, name⟩, verb := .get, path := "/" ++ name } }

/-- An operation that is exposed twice, together with another one. -/
theorem collect_names_distinct_list :
  ∃ linked, petGraph.link = (linked, none)
    ∧ ((collect linked (petHttp [(⟨1⟩, "getPet"), (⟨1⟩, "getPet"), (⟨1⟩, "list")])).1.map
      moduleName) = ["pets_get_pet", "pets_get_pet_2", "pets_list"]
    ∧ ((collect linked (petHttp [(⟨1⟩, "getPet"), (⟨1⟩, "getPet"), (⟨1⟩, "list")])).1.map
      typeName).Nodup
    ∧ ((collect linked (petHttp [(⟨1⟩, "getPet"), (⟨1⟩, "getPet"), (⟨1⟩, "list")])).1.map
      moduleName).Nodup
  := by
  have hnames := collect_names_distinct petGraph.link.1
    (petHttp [(⟨1⟩, "getPet"), (⟨1⟩, "getPet"), (⟨1⟩, "list")])
  refine ⟨petGraph.link.1, by decide +kernel, by decide +kernel, ?_, ?_⟩
  · apply (hnames.2.2.2 (by decide +kernel)).mpr
    decide +kernel
  · apply hnames.2.1.mpr
    decide +kernel

/-- The number of an operation that is exposed twice makes it another operation's variant, and a
keyword gets the mark that another operation has. -/
theorem collect_names_repeated :
  ∃ linked, petGraph.link = (linked, none)
    ∧ (collect linked (petHttp [(⟨1⟩, "getPet"), (⟨1⟩, "getPet"), (⟨1⟩, "getPet2")])).1.map typeName
      = ["PetsGetPet", "PetsGetPet2", "PetsGetPet2"]
    ∧ (collect linked (petHttp [(.global, "fn"), (.global, "r#fn")])).1.map moduleName
      = ["r#fn", "r#fn"]
  := by
  refine ⟨petGraph.link.1, ?_, ?_, ?_⟩ <;> decide +kernel

end Endpoint

end ServiceBindings
