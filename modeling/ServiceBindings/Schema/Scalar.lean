import ServiceBindings.Config
import ServiceBindings.Schema.Graph
import ServiceBindings.Text.Lines

/-!
# Scalars

The standard scalars of the schema language and their spellings in the generated code. The table of
a graph lists the scalars that it declares under a standard name; other scalars are spelled like the
standard one they refine.
-/

namespace ServiceBindings

/-- How a type is going to be used. -/
inductive TypeUse where
  /-- Stored by value. -/
  | owned
  /-- Borrowed from elsewhere. -/
  | borrowed
  /-- Accepted as an argument. -/
  | param
  deriving DecidableEq, Repr

/-- The spellings of a scalar. -/
structure ScalarSpelling where
  owned : String
  borrowed : String
  param : String
  deriving DecidableEq, Repr

namespace ScalarSpelling

/-- The spelling for a use. -/
def forUse (spelling : ScalarSpelling) : TypeUse → String
  | .owned => spelling.owned
  | .borrowed => spelling.borrowed
  | .param => spelling.param

/-- The same spelling for every use. -/
def same (text : String) : ScalarSpelling := ⟨text, text, text⟩

/-- A text that is borrowed as a string slice. -/
def text : ScalarSpelling := ⟨"String", "&str", "impl AsRef<str>"⟩

/-- A big decimal. -/
def decimal : ScalarSpelling :=
  ⟨"$::bigdecimal::BigDecimal", "&$::bigdecimal::BigDecimal",
    "impl Into<$::bigdecimal::BigDecimal>"⟩

/-- The spelling with the place of the re-exported crates filled in. -/
def fill (spelling : ScalarSpelling) (library : String) : ScalarSpelling :=
  let fillText (text : String) : String :=
    String.ofList (Text.replaceChar '$' library.toList text.toList)
  ⟨fillText spelling.owned, fillText spelling.borrowed, fillText spelling.param⟩

end ScalarSpelling

/-- The namespace of the standard scalars. -/
def standardNamespace : String := "TypeSpec"

/-- The standard scalars; `$` stands for the place of the re-exported crates. -/
def standardScalars : List (String × ScalarSpelling) := [
  ("bytes", ⟨"Vec<u8>", "&[u8]", "impl AsRef<[u8]>"⟩),
  ("boolean", .same "bool"),
  ("string", .text),
  ("url", .text),
  ("float", .same "f64"),
  ("float32", .same "f32"),
  ("float64", .same "f64"),
  ("integer", .same "isize"),
  ("safeint", .same "i64"),
  ("int8", .same "i8"),
  ("int16", .same "i16"),
  ("int32", .same "i32"),
  ("int64", .same "i64"),
  ("uint8", .same "u8"),
  ("uint16", .same "u16"),
  ("uint32", .same "u32"),
  ("uint64", .same "u64"),
  ("numeric", .decimal),
  ("decimal", .decimal),
  ("decimal128", .decimal),
  ("plainDate", .same "$::chrono::NaiveDate"),
  ("plainTime", .same "$::chrono::NaiveTime"),
  ("utcDateTime", .same "$::chrono::DateTime<$::chrono::Utc>"),
  ("offsetDateTime", .same "$::chrono::DateTime<$::chrono::FixedOffset>"),
  ("duration", .same "$::chrono::Duration")]

/-- The dotted names of the standard scalars. -/
def qualifiedScalars : List (String × ScalarSpelling) :=
  standardScalars.map fun (name, spelling) => (standardNamespace ++ "." ++ name, spelling)

/-- The spellings of the scalars of a graph that are standard. -/
structure ScalarTable where
  entries : List (TypeId × ScalarSpelling) := []
  deriving Repr

namespace ScalarTable

/-- The spelling of a scalar of the table. -/
def get? (table : ScalarTable) (id : TypeId) : Option ScalarSpelling :=
  table.entries.lookup id

/-- The number of scalars in the table. -/
def size (table : ScalarTable) : Nat :=
  table.entries.length

/-- The spelling of a type that is a scalar with a standard name. -/
def standardSpelling (graph : TypeGraph) (library : String) (id : TypeId) :
    Option ScalarSpelling :=
  match graph.kind? id with
  | some (.scalar _) => do
    let name ← graph.qualifiedName id
    let spelling ← qualifiedScalars.lookup name
    return spelling.fill library
  | _ => none

/-- The table of the standard scalars that a graph declares. -/
def standard (graph : TypeGraph) (config : Config) : ScalarTable :=
  let library := config.cratePath ++ "::vendored"
  ⟨graph.typeIds.filterMap fun id =>
    (standardSpelling graph library id).map fun spelling => (id, spelling)⟩

/-- The spelling of the first type on a chain of refinements that is in the table, looking at
`limit` types. -/
def findOnChain (table : ScalarTable) (graph : TypeGraph) : Nat → TypeId → Option ScalarSpelling
  | 0, _ => none
  | limit + 1, id =>
    match table.get? id with
    | some spelling => some spelling
    | none =>
      match graph.kind? id with
      | some (.scalar scalar) => scalar.base.bind (findOnChain table graph limit)
      | _ => none

/-- The spelling of a scalar: that of the first standard one it refines. -/
def spelling? (table : ScalarTable) (graph : TypeGraph) (id : TypeId) : Option ScalarSpelling :=
  table.findOnChain graph (graph.types.length + 1) id

end ScalarTable

end ServiceBindings
