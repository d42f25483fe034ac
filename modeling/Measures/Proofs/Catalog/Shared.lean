import Measures.Catalog.Loader
import Measures.Proofs.Failure

/-!
# The shared loader

The shared loader keeps the contract from the beginning, so that loading the contract changes
nothing. A loader that begins empty loads the same schemas.
-/

namespace Measures

theorem SchemaDocument.ofJson?_source (s : SchemaDocument) : ofJson? s.source = some s := by
  unfold ofJson?
  split
  · rename_i schema h
    obtain rfl : s.schema = schema := Option.some.inj (s.reads.symm.trans h)
    rfl
  · rename_i h
    cases s.reads.symm.trans h

/-- The contract can always be fetched from the package. -/
theorem SchemaPlace.fetch_contract (fs : Files) :
    packaged.fetch SchemaDocument.ofJson? fs contractName = .ok .contract := by
  have hsource : packaged.readSource fs contractName = .ok SchemaDocument.contract.source := rfl
  rw [fetch, hsource, ok_bind, SchemaDocument.ofJson?_source]
  rfl

namespace SharedSchemas

variable {shared : SharedSchemas} {l : Loader SchemaDocument} {fs : Files} {name : String}
  {result : Except Fault SchemaDocument}

/-! ## Loading with the shared loader -/

theorem load_result :
    ((SharedSchemas.load fs name).perform shared).1
      = ((Loader.load SchemaDocument.ofJson? fs name).perform shared.loader).1 := rfl

theorem load_loaded :
    ((SharedSchemas.load fs name).perform shared).2.loaded
      = ((Loader.load SchemaDocument.ofJson? fs name).perform shared.loader).2.loaded := rfl

theorem load_of_same
    (h : (Loader.load SchemaDocument.ofJson? fs name).perform shared.loader
      = (result, shared.loader)) :
    (SharedSchemas.load fs name).perform shared = (result, shared) := by
  refine Prod.ext ?_ (SharedSchemas.ext ?_)
  · rw [load_result, h]
  · rw [load_loaded, h]
    rfl

/-- The contract is kept, so that loading it changes nothing. -/
theorem load_contract (fs : Files) (shared : SharedSchemas) :
    (SharedSchemas.load fs contractName).perform shared = (.ok .contract, shared) :=
  load_of_same (Loader.perform_load_of_kept shared.contract)

/-! ## A loader that begins empty -/

/-- A loader for the package keeps what the shared one keeps, but the contract perhaps not yet. -/
structure Follows (l : Loader SchemaDocument) (shared : SharedSchemas) : Prop where
  place : l.place = .packaged
  kept : ∀ name, name ≠ contractName → l.kept? name = shared.loader.kept? name
  contract : l.kept? contractName = none ∨ l.kept? contractName = some .contract

theorem follows_initial : Follows .packaged .initial where
  place := rfl
  kept name hne := by
    unfold loader SharedSchemas.initial Loader.kept?
    rw [List.lookup_cons, beq_eq_false_iff_ne.2 hne]
    rfl
  contract := .inl rfl

theorem follows_load_contract (h : Follows l shared) (fs : Files) :
    let o := (Loader.load SchemaDocument.ofJson? fs contractName).perform l
    o.1 = .ok .contract ∧ Follows o.2 shared := by
  intro o
  obtain hnew | hkept := h.contract
  · have ho : o = (.ok .contract, l.keep contractName .contract) := by
      unfold o
      rw [Loader.perform_load_of_new hnew, h.place, SchemaPlace.fetch_contract]
    rw [ho]
    refine ⟨rfl, h.place, fun other hother => ?_, .inr ?_⟩
    · rw [Loader.kept?_keep, if_neg hother, h.kept other hother]
    · rw [Loader.kept?_keep, if_pos rfl]
  · have ho : o = (.ok .contract, l) := Loader.perform_load_of_kept hkept
    rw [ho]
    exact ⟨rfl, h⟩

theorem follows_load (h : Follows l shared) (fs : Files) (name : String) :
    let o := (Loader.load SchemaDocument.ofJson? fs name).perform l
    let next := (SharedSchemas.load fs name).perform shared
    o.1 = next.1 ∧ Follows o.2 next.2 := by
  intro o next
  by_cases hname : name = contractName
  · subst hname
    have hnext : next = (.ok .contract, shared) := load_contract fs shared
    rw [hnext]
    exact follows_load_contract h fs
  have hkept := h.kept name hname
  cases hl : l.kept? name with
  | some s =>
    have ho : o = (.ok s, l) := Loader.perform_load_of_kept hl
    have hnext : next = (.ok s, shared) :=
      load_of_same (Loader.perform_load_of_kept (hkept.symm.trans hl))
    rw [ho, hnext]
    exact ⟨rfl, h⟩
  | none =>
    have ho : o = _ := Loader.perform_load_of_new hl
    have hshared : (Loader.load SchemaDocument.ofJson? fs name).perform shared.loader = _ :=
      Loader.perform_load_of_new (hkept.symm.trans hl)
    rw [h.place] at ho
    rw [show shared.loader.place = .packaged from rfl] at hshared
    cases hfetch : SchemaPlace.packaged.fetch SchemaDocument.ofJson? fs name with
    | error f =>
      rw [hfetch] at ho hshared
      have hnext : next = (.error f, shared) := load_of_same hshared
      rw [ho, hnext]
      exact ⟨rfl, h⟩
    | ok s =>
      rw [hfetch] at ho hshared
      have hresult : next.1 = .ok s := by
        unfold next
        rw [load_result, hshared]
      have hloader : next.2.loader = shared.loader.keep name s := by
        unfold next loader
        rw [load_loaded, hshared]
        rfl
      rw [ho, hresult]
      refine ⟨rfl, h.place, fun other hother => ?_, ?_⟩
      · rw [hloader, Loader.kept?_keep, Loader.kept?_keep, h.kept other hother]
      · rw [Loader.kept?_keep, if_neg (Ne.symm hname)]
        exact h.contract

theorem loads_eq_of_follows (h : Follows l shared) (loads : List (Files × String)) :
    (Action.trace (fun load => SharedSchemas.load load.1 load.2) shared loads).map Prod.fst
      = (Action.trace (fun load => Loader.load SchemaDocument.ofJson? load.1 load.2) l loads).map
        Prod.fst := by
  induction loads generalizing l shared with
  | nil => rfl
  | cons load rest ih =>
    obtain ⟨hresult, hfollows⟩ := follows_load h load.1 load.2
    simp only [Action.trace, List.map_cons]
    rw [hresult, ih hfollows]

/-- Whether the contract is kept from the beginning or from when it was loaded, the same schemas are
loaded. -/
theorem loads_eq (loads : List (Files × String)) :
    (Action.trace (fun load => SharedSchemas.load load.1 load.2) initial loads).map Prod.fst
      = (Action.trace (fun load => Loader.load SchemaDocument.ofJson? load.1 load.2) .packaged
        loads).map Prod.fst :=
  loads_eq_of_follows follows_initial loads

end SharedSchemas

end Measures
