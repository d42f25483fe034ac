import Measures.Catalog.Basic
import Measures.Proofs.Catalog.Shared

/-!
# Loading the default registry

The contract can always be loaded, so that only the document decides on a registry.
-/

namespace Measures.Catalog

variable {c : Catalog} {id : Nat}

/-- The document of the file that replaces the packaged table, or of that table if none does. -/
def defaultDocument (c : Catalog) : Except Fault Json :=
  if c.replacement = "" then .ok Property.packagedDocument
  else c.files.readJson (.ofText c.replacement)

def loadDefault (c : Catalog) : Except Fault Registry := c.defaultDocument >>= Registry.ofDocument

theorem ofSource_contract (fs : Files) (source : Source) (shared : SharedSchemas) :
    (Registry.ofSource fs source contractName).perform shared
      = (source.read fs >>= Registry.ofDocument, shared) := by
  unfold Registry.ofSource
  refine Action.perform_reads (Action.perform_liftM _ _) fun doc => ?_
  rw [Action.perform_bind, SharedSchemas.load_contract]
  rfl

theorem read_source (c : Catalog) : c.source.read c.files = c.defaultDocument := by
  unfold source defaultDocument
  split <;> rfl

theorem load_source (c : Catalog) :
    c.load c.source contractName
      = (c.loadDefault.map fun r => (r, .loaded r.size c.source.text), c) := by
  unfold load
  rw [ofSource_contract, read_source, loadDefault]

theorem obtainDefault_of_some (h : c.default? = some id) : c.obtainDefault = .ok (id, [], c) := by
  unfold obtainDefault
  rw [h]

theorem obtainDefault_of_none (h : c.default? = none) :
    c.obtainDefault = c.loadDefault.map fun r =>
      (c.nextId, [.loaded r.size c.source.text], { c.hold r with default? := some c.nextId }) := by
  unfold obtainDefault
  rw [h, load_source]
  cases c.loadDefault <;> rfl

theorem exists_packaged : ∃ r, Registry.packaged = .ok r := by
  have hok : Registry.packaged.isOk = true := by decide +kernel
  exact exists_of_isOk hok

end Measures.Catalog
