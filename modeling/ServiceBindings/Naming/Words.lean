import ServiceBindings.Text.Blank
import ServiceBindings.Text.Lowercase
import ServiceBindings.Text.Uppercase

/-!
# Words of an identifier

Identifiers of a schema come in any convention: `petId`, `HTTPResponse`, `x-rate-limit`,
`Pet.Store`. `Words.parse` cuts one into lower-case words, and `Words.render` writes the words in a
convention.

A separator ends a word and is dropped. An upper-case character starts a word, unless it continues a
run of upper-case characters and no lower-case character follows it: in `HTTPResponse` the last
capital of the run belongs to the second word. Digits never start a word.
-/

namespace ServiceBindings

/-- A way to write several words as one identifier. -/
inductive Convention where
  /-- `FooBar` -/
  | pascal
  /-- `fooBar` -/
  | camel
  /-- `foo_bar` -/
  | snake
  /-- `foo-bar` -/
  | kebab
  /-- `foo.bar` -/
  | dot
  /-- `foo/bar` -/
  | path
  /-- `foo::bar` -/
  | scope
  /-- `foo bar` -/
  | space
  deriving DecidableEq, Repr

/-- What stands between two words. -/
def Convention.separator : Convention → List Char
  | pascal | camel => []
  | snake => ['_']
  | kebab => ['-']
  | dot => ['.']
  | path => ['/']
  | scope => [':', ':']
  | space => [' ']

/-- An identifier cut into words, each a list of characters. -/
structure Words where
  parts : List (List Char) := []
  deriving DecidableEq, Repr

namespace Words

/-! ### Cutting -/

/-- Whether a character separates words and belongs to none. -/
def isSeparator (c : Char) : Bool :=
  c == ':' || c == '_' || c == '-' || c == '.' || c == '/' || Text.isBlank c

/-- Whether a text goes on with a lower-case character. -/
def startsLower : List Char → Bool
  | [] => false
  | c :: _ => Text.isLower c

/-- Puts a finished word in front of the words after it; an empty word is dropped. -/
def close (word : List Char) (rest : List (List Char)) : List (List Char) :=
  if word.isEmpty then rest else word :: rest

/-- The words of a text whose open word is `word`; `inRun` tells whether the last character was
upper case. -/
def cut (word : List Char) (inRun : Bool) : List Char → List (List Char)
  | [] => close word []
  | c :: cs =>
    if isSeparator c then close word (cut [] false cs)
    else if Text.isUpper c then
      if inRun && !startsLower cs then cut (word ++ Text.lower c) true cs
      else close word (cut (Text.lower c) true cs)
    else cut (word ++ Text.lower c) false cs

/-- The words of an identifier in any convention. -/
def parse (identifier : String) : Words :=
  ⟨cut [] false identifier.toList⟩

/-- The words of several identifiers, one after the other. -/
def ofComponents (components : List String) : Words :=
  ⟨components.flatMap fun component => (parse component).parts⟩

/-- The words as texts. -/
def components (words : Words) : List String :=
  words.parts.map String.ofList

/-- Whether there is no word. -/
def isEmpty (words : Words) : Bool :=
  words.parts.isEmpty

/-- The words of two identifiers, one after the other. -/
def join (words other : Words) : Words :=
  ⟨words.parts ++ other.parts⟩

/-! ### Writing -/

/-- A word that starts with an upper-case character. -/
def capitalize : List Char → List Char
  | [] => []
  | c :: cs => Text.upper c ++ cs

/-- The words as they are spelled in a convention. -/
def styled (convention : Convention) (parts : List (List Char)) : List (List Char) :=
  match convention, parts with
  | .pascal, parts => parts.map capitalize
  | .camel, first :: rest => first :: rest.map capitalize
  | _, parts => parts

/-- The characters of an identifier in a convention. -/
def renderChars (words : Words) (convention : Convention) : List Char :=
  convention.separator.intercalate (styled convention words.parts)

/-- The identifier in a convention. -/
def render (words : Words) (convention : Convention) : String :=
  String.ofList (words.renderChars convention)

/-- The identifier in a convention, with every character in upper case. -/
def renderCapitals (words : Words) (convention : Convention) : String :=
  String.ofList ((words.renderChars convention).flatMap Text.upper)

/-- `FooBar` -/
def pascalCase (words : Words) : String := words.render .pascal

/-- `fooBar` -/
def camelCase (words : Words) : String := words.render .camel

/-- `foo_bar` -/
def snakeCase (words : Words) : String := words.render .snake

/-- `foo-bar` -/
def kebabCase (words : Words) : String := words.render .kebab

/-- `FOO_BAR` -/
def upperSnakeCase (words : Words) : String := words.renderCapitals .snake

/-- The words separated by spaces. -/
def display (words : Words) : String := words.render .space

end Words

/-- An identifier of any convention as `FooBar`. -/
def pascalCase (identifier : String) : String := (Words.parse identifier).pascalCase

/-- An identifier of any convention as `foo_bar`. -/
def snakeCase (identifier : String) : String := (Words.parse identifier).snakeCase

/-- An identifier of any convention as `FOO_BAR`. -/
def upperSnakeCase (identifier : String) : String := (Words.parse identifier).upperSnakeCase

end ServiceBindings
