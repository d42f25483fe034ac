import Measures.Action
import Measures.Catalog.Files
import Measures.Dictionary
import Measures.Property.Contract
import Measures.Schema.Document

/-!
# Loading schemas

A loader reads schemas by name from one directory and keeps them. Which values are schemas is a
question for its caller. One loader, for the directory that holds the contract, is shared by all
that is read from files.
-/

namespace Measures

namespace SchemaDocument

def contract : SchemaDocument :=
  ⟨Property.registrySchemaJson, Property.registrySchema, Property.ofJson?_registrySchemaJson⟩

end SchemaDocument

inductive SchemaPlace where
  /-- The directory that holds the contract and nothing else. -/
  | packaged
  | directory (path : Path)
  deriving DecidableEq, Repr

namespace SchemaPlace

def path : SchemaPlace → Path
  | packaged => .ofText "<schema>"
  | directory p => p

def name : SchemaPlace → String
  | packaged => "schema"
  | directory p => p.name

end SchemaPlace

def contractName : String := "property_registry"

def schemaFile (name : String) : Path := .ofText (name ++ ".json")

namespace SchemaPlace

/-- The path of a schema; an absolute name stands for itself. -/
def file (place : SchemaPlace) (name : String) : Path := place.path.join (schemaFile name)

/-- Whether a name is looked for among the packaged schemas. What lies around their directory is not
modelled, so a relative name does not lead out of it. -/
def isPackaged (place : SchemaPlace) (name : String) : Bool :=
  place = .packaged ∧ (schemaFile name).root = ""

def readSource (place : SchemaPlace) (fs : Files) (name : String) : Except Fault Json :=
  let file := place.file name
  if place.isPackaged name then
    if schemaFile name = schemaFile contractName then .ok Property.registrySchemaJson
    else .error (.noSchema file.text)
  else if fs.isThere file then fs.readJson file
  else .error (.noSchema file.text)

/-- What the file of a schema holds, as `accept` takes it. -/
def fetch {α : Type} (accept : Json → Option α) (place : SchemaPlace) (fs : Files)
    (name : String) : Except Fault α := do
  match accept (← place.readSource fs name) with
  | some s => return s
  | none => .error (.invalidSchema name)

end SchemaPlace

structure Loader (α : Type) where
  place : SchemaPlace
  loaded : List (String × α)

namespace Loader

variable {α : Type}

def packaged : Loader α := ⟨.packaged, []⟩

/-- A loader for a directory, which has to be there. -/
def ofDirectory (fs : Files) (p : Path) : Except Fault (Loader α) :=
  if fs.isThere p then .ok ⟨.directory p, []⟩ else .error (.noSchemaDirectory p.text)

def kept? (l : Loader α) (name : String) : Option α := l.loaded.lookup name

def keep (l : Loader α) (name : String) (s : α) : Loader α :=
  { l with loaded := Dictionary.set name s l.loaded }

/-- The schema with a name: one that is kept, or else one that is fetched now and kept then. -/
def load (accept : Json → Option α) (fs : Files) (name : String) : Action (Loader α) α := do
  let l ← getThe (Loader α)
  match l.kept? name with
  | some s => return s
  | none =>
    let s ← l.place.fetch accept fs name
    modify (·.keep name s)
    return s

variable {accept : Json → Option α} {fs : Files} {name other : String} {s : α} {l : Loader α}

theorem kept?_keep (l : Loader α) (name other : String) (s : α) :
    (l.keep name s).kept? other = if other = name then some s else l.kept? other :=
  Dictionary.lookup_set name other s l.loaded

theorem perform_load_of_kept (h : l.kept? name = some s) :
    (load accept fs name).perform l = (.ok s, l) := by
  rw [load, Action.perform_bind, Action.perform_get]
  simp only [h, Action.perform_pure]

/-- What is kept is kept after the file was read and its content was accepted. -/
theorem perform_load_of_new (h : l.kept? name = none) :
    (load accept fs name).perform l = match l.place.fetch accept fs name with
      | .ok s => (.ok s, l.keep name s)
      | .error f => (.error f, l) := by
  rw [load, Action.perform_bind, Action.perform_get]
  simp only [h, Action.perform_bind, Action.perform_liftM]
  cases l.place.fetch accept fs name <;> rfl

/-- What is kept under a name stays, whatever else is loaded. -/
theorem kept?_perform_load (h : l.kept? other = some s) :
    ((load accept fs name).perform l).2.kept? other = some s := by
  cases hname : l.kept? name with
  | some x => rw [perform_load_of_kept hname, h]
  | none =>
    have hne : other ≠ name := by
      rintro rfl
      cases h.symm.trans hname
    rw [perform_load_of_new hname]
    cases l.place.fetch accept fs name with
    | error f => exact h
    | ok x => rw [kept?_keep, if_neg hne, h]

end Loader

/-- What the shared loader has kept. The contract is kept from the beginning: it never changes, so
it makes no difference when it was loaded. -/
@[ext]
structure SharedSchemas where
  loaded : List (String × SchemaDocument)
  contract : loaded.lookup contractName = some .contract

namespace SharedSchemas

def initial : SharedSchemas := ⟨[(contractName, .contract)], rfl⟩

def loader (shared : SharedSchemas) : Loader SchemaDocument := ⟨.packaged, shared.loaded⟩

def load (fs : Files) (name : String) : Action SharedSchemas SchemaDocument :=
  ExceptT.mk fun shared =>
    let o := (Loader.load SchemaDocument.ofJson? fs name).perform shared.loader
    (o.1, ⟨o.2.loaded, Loader.kept?_perform_load shared.contract⟩)

end SharedSchemas

end Measures
