import Measures.Catalog.Basic
import Measures.Property.Lookup
import Measures.Quantity.Make
import Measures.Quantity.Validation

/-!
# Steps on a catalog

A step gives a reply, the records that were made on the way, and the next catalog. A step that
fails leaves the catalog as it was, except that a default registry or a schema which was loaded on
the way is kept.
-/

namespace Measures

namespace Catalog

structure ValueArguments where
  property : Datum
  value : Datum
  unit : Datum
  power : Datum
  literal : Datum

def ValueArguments.make (a : ValueArguments) : Except Fault Quantity :=
  Quantity.make (.datum a.property) (.datum a.value) (.datum a.unit) (.datum a.power)
    (.datum a.literal)

inductive Step where
  -- making registries
  | ofDocument (doc : Json)
  | ofFieldLists (lists : List (List (String × Json)))
  | ofFile (path : String) (schemaName : Option String)
  | ofSettings (path schemaName : Option String)
  | giveDefault
  | forgetDefault
  -- definitions
  | register (fields : List (String × Json))
  | registerWith (id : Nat) (fields : List (String × Json))
  | define (fields : List (String × Json))
  | look (lookup : Lookup)
  -- surroundings
  | write (path : String) (content : ByteArray)
  | replaceTable (path : String)
  | settings
  -- names and values
  | resolve (name : String)
  | validate (arguments : ValueArguments) (useCurrent : Bool)
  -- schemas
  | openLoader (directory : Option String)
  | loadSchema (name : String)
  | check (schemaName : String) (doc : Json)

inductive Reply where
  | nothing
  | definition (d : Definition)
  | finding (f : Finding)
  | settings (path schemaName : String)
  | sameDefault (same : Bool)
  | directory (name : String)
  | schema (source : Json)
  | violations (vs : List Violation)

structure Outcome where
  reply : Except Fault Reply
  records : List Record
  next : Catalog

namespace Outcome

/-- The outcome of what leaves no record. -/
def quiet (c : Catalog) (result : Except Fault (Reply × Catalog)) : Outcome :=
  match result with
  | .ok (reply, next) => ⟨.ok reply, [], next⟩
  | .error fault => ⟨.error fault, [], c⟩

/-- The outcome of what leaves records only if it succeeds. -/
def recorded (c : Catalog) (result : Except Fault (Reply × List Record × Catalog)) : Outcome :=
  match result with
  | .ok (reply, records, next) => ⟨.ok reply, records, next⟩
  | .error fault => ⟨.error fault, [], c⟩

end Outcome

def loadCurrent (c : Catalog) (source : Source) (schemaName : String) : Outcome :=
  let (result, next) := c.load source schemaName
  .recorded next (result.map fun (r, record) => (.nothing, [record], next.holdCurrent r))

def giveDefault (c : Catalog) : Outcome :=
  .recorded c (c.obtainDefault.map fun (id, records, next) =>
    (.sameDefault (c.given? == some id), records, { next with current := id, given? := some id }))

/-- Asks the default registry. What was loaded for it is kept, whatever the answer. -/
def askDefault (c : Catalog) (answer : Registry → Except Fault Reply) : Outcome :=
  match c.obtainDefault with
  | .error fault => ⟨.error fault, [], c⟩
  | .ok (id, records, next) => ⟨answer (next.registry id), records, next⟩

def resolveByDefault (c : Catalog) (name : String) : Outcome :=
  c.askDefault fun r => (r.propertyIndex (.text name)).map fun i => .finding (.number i)

/-- Validates a quantity with the default registry, which is obtained only if it is needed. -/
def validateByDefault (c : Catalog) (q : Quantity) : Outcome :=
  match q.category with
  | .error fault => ⟨.error fault, [], c⟩
  | .ok category => c.askDefault fun r => (q.checkCategory category r).map fun _ => .nothing

/-- Builds a definition and registers it with the registry that has a number. -/
def registerFields (c : Catalog) (id : Nat) (fields : List (String × Json)) : Outcome :=
  match Definition.ofFields fields with
  | .error fault => ⟨.error fault, [], c⟩
  | .ok d =>
    let (result, records, next) := c.register id d
    ⟨result.map fun _ => .nothing, records, next⟩

/-- The outcome of loading a schema with the loader that was opened last, or else with the shared
one. The loader stays as the attempt leaves it. -/
def loadSchema (c : Catalog) (name : String) (reply : SchemaDocument → Reply) : Outcome :=
  match c.loader? with
  | some l =>
    let (result, l) := (Loader.load SchemaDocument.ofJson? c.files name).perform l
    ⟨result.map reply, [], { c with loader? := some l }⟩
  | none =>
    let (result, shared) := (SharedSchemas.load c.files name).perform c.shared
    ⟨result.map reply, [], { c with shared }⟩

def perform (c : Catalog) : Step → Outcome
  | .ofDocument doc =>
    .quiet c ((Registry.ofDocument doc).map fun r => (.nothing, c.holdCurrent r))
  | .ofFieldLists lists =>
    .quiet c ((Registry.ofFieldLists lists).map fun r => (.nothing, c.holdCurrent r))
  | .ofFile path schemaName => c.loadCurrent (.file (.ofText path)) (schemaName.getD contractName)
  | .ofSettings path schemaName =>
    let source := (path.map fun p => Source.file (.ofText p)).getD c.source
    c.loadCurrent source (schemaName.getD contractName)
  | .giveDefault => c.giveDefault
  | .forgetDefault => ⟨.ok .nothing, [], c.forgetDefault⟩
  | .register fields => c.registerFields c.current fields
  | .registerWith id fields =>
    if id < c.nextId then c.registerFields id fields
    else ⟨.error (.unknownVariable (toString id)), [], c⟩
  | .define fields => ⟨(Definition.ofFields fields).map .definition, [], c⟩
  | .look lookup => ⟨(lookup.answer c.currentRegistry).map .finding, [], c⟩
  | .write path content =>
    .quiet c ((c.files.write (.ofText path) content).map fun fs =>
      (.nothing, { c with files := fs }))
  | .replaceTable path =>
    if Path.isPassable (.ofText path) then ⟨.ok .nothing, [], { c with replacement := path }⟩
    else ⟨.error .nulInPath, [], c⟩
  | .settings => ⟨.ok (.settings c.source.text contractName), [], c⟩
  | .resolve name => c.resolveByDefault name
  | .validate arguments useCurrent =>
    match arguments.make with
    | .error fault => ⟨.error fault, [], c⟩
    | .ok q =>
      if useCurrent then ⟨(q.validate (.ok c.currentRegistry)).map fun _ => .nothing, [], c⟩
      else c.validateByDefault q
  | .openLoader directory =>
    .quiet c do
      let l ← match directory with
        | some d => Loader.ofDirectory c.files (.ofText d)
        | none => .ok .packaged
      return (.directory l.place.name, { c with loader? := some l })
  | .loadSchema name => c.loadSchema name fun s => .schema s.source
  | .check schemaName doc => c.loadSchema schemaName fun s => .violations (s.check doc)

/-- The catalog that steps leave, whatever their replies. -/
def after (c : Catalog) (steps : List Step) : Catalog :=
  steps.foldl (fun c step => (c.perform step).next) c

end Catalog

end Measures
