import Measures.Catalog.Loader
import Measures.Property.Document

/-!
# Catalogs

A catalog holds every registry that was made, each under a number that never changes, and says
which one is current and which one is the default. The default is loaded when it is asked for and
none is kept: from the path that replaces the packaged table, if one is set.
-/

namespace Measures

/-! ## Sources -/

inductive Source where
  | packaged
  | file (path : Path)
  deriving DecidableEq, Repr

namespace Source

def text : Source → String
  | packaged => "<data>/properties.json"
  | file p => p.text

def read (fs : Files) : Source → Except Fault Json
  | packaged => .ok Property.packagedDocument
  | file p => fs.readJson p

end Source

/-- The registry of a source, held against a schema of the shared loader. -/
def Registry.ofSource (fs : Files) (source : Source) (schemaName : String) :
    Action SharedSchemas Registry := do
  let doc ← source.read fs
  let s ← SharedSchemas.load fs schemaName
  Registry.ofDocumentUnder s.schema doc

/-! ## Catalogs -/

def replacementVariable : String := "FO_NUMERIC_REGISTRY_PATH"

structure Catalog where
  files : Files
  /-- The path that replaces the packaged table; empty for none. -/
  replacement : String
  registries : List Registry
  current : Nat
  /-- The default registry, if one is kept. -/
  default? : Option Nat
  /-- The default registry as it was given last. -/
  given? : Option Nat
  loader? : Option (Loader SchemaDocument)
  shared : SharedSchemas

namespace Catalog

/-- The catalog at the beginning, before anything was registered or loaded. -/
def initialWith (fs : Files) : Catalog where
  files := fs
  replacement := ""
  registries := [.empty]
  current := 0
  default? := none
  given? := none
  loader? := none
  shared := .initial

def initial : Catalog := initialWith (.empty ⟨["work"]⟩)

def registry (c : Catalog) (id : Nat) : Registry := c.registries.getD id .empty

def currentRegistry (c : Catalog) : Registry := c.registry c.current

def source (c : Catalog) : Source :=
  if c.replacement = "" then .packaged else .file (.ofText c.replacement)

def nextId (c : Catalog) : Nat := c.registries.length

def hold (c : Catalog) (r : Registry) : Catalog := { c with registries := c.registries ++ [r] }

def holdCurrent (c : Catalog) (r : Registry) : Catalog := { c.hold r with current := c.nextId }

/-- Registers a definition with the registry that has a number, and gives the records of it. What
a failed attempt has done to the registry would stay. -/
def register (c : Catalog) (id : Nat) (d : Definition) :
    Except Fault Unit × List Record × Catalog :=
  let (result, j) := (Journal.register d).perform ⟨c.registry id, []⟩
  (result, j.records, { c with registries := c.registries.set id j.registry })

/-- The registry of a source with the record of loading it, and the catalog afterwards. -/
def load (c : Catalog) (source : Source) (schemaName : String) :
    Except Fault (Registry × Record) × Catalog :=
  let (result, shared) := (Registry.ofSource c.files source schemaName).perform c.shared
  (result.map fun r => (r, .loaded r.size source.text), { c with shared })

/-- The number of the default registry, the records of loading it, and the catalog that keeps
it. -/
def obtainDefault (c : Catalog) : Except Fault (Nat × List Record × Catalog) :=
  match c.default? with
  | some id => .ok (id, [], c)
  | none =>
    let (result, next) := c.load c.source contractName
    result.map fun (r, record) =>
      (next.nextId, [record], { next.hold r with default? := some next.nextId })

def forgetDefault (c : Catalog) : Catalog := { c with default? := none }

end Catalog

end Measures
