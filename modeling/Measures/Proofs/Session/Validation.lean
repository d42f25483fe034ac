import Measures.Proofs.Property.Reachable
import Measures.Proofs.Quantity.Validation
import Measures.Session

/-!
# From the name of a property to its validation

A quantity that is made for the name of a property is the one that is made for its index, and the
registry takes it for a value of the property exactly if the property has the category of its kind.
Registrations in between change nothing about that.
-/

namespace Measures

/-- The category of the values of a kind; an em has none. -/
def Quantity.Kind.category? : Quantity.Kind → Option Category
  | .number => some .number
  | .percentage => some .percentage
  | .ems => none
  | .length => some .length
  | .frequency => some .frequency
  | .time => some .time
  | .angle => some .angle

namespace Quantity

variable {kind : Kind}

def Kind.power (kind : Kind) : Int := if kind.base.isPhysical then 1 else 0

/-- The power of each kind is the one that validation demands of its base unit. -/
theorem category_ofParts (property : Datum) (x : Binary64) (literal : Datum) {c : Category} :
    (ofParts property x kind.base kind.power literal).category = .ok c ↔
      kind.category? = some c := by
  rw [category_eq rfl rfl]
  cases kind <;> simp [Kind.base, Kind.power, Kind.category?, BaseUnit.demand?, BaseUnit.isPhysical]

/-- The value and the literal unit of what a constructor makes do not depend on the property. -/
theorem exists_ofKind (kind : Kind) (x : Binary64) (unit : Option PhysicalUnit) :
    ∃ y literal, ∀ property,
      ofKind kind property (.datum (.float x)) (unit.map fun u => .datum (.member (.physical u)))
        = .ok (ofParts property y kind.base kind.power literal) := by
  cases kind with
  | number | percentage | ems => exact ⟨_, _, fun _ => rfl⟩
  | length | frequency | time | angle => cases unit <;> exact ⟨_, _, fun _ => rfl⟩

end Quantity

/-- The constructor of a kind on a float, which is given in a unit or without one. -/
def Recipe.ofFloat (kind : Quantity.Kind) (property : Datum) (x : Binary64)
    (unit : Option PhysicalUnit) : Recipe :=
  .ofKind kind (.datum property) (.datum (.float x))
    (unit.map fun u => .datum (.member (.physical u)))

namespace Session

variable {registry : Except Fault Registry} {r : Registry} {kind : Quantity.Kind} {x : Binary64}
  {unit : Option PhysicalUnit} {n : String}

theorem make_ofFloat (s : Session) (property : Datum) :
    s.make registry (.ofFloat kind property x unit) = (do
      let p ← Quantity.resolveProperty (fun name => registry.bind fun r => r.propertyIndex name)
        (.datum property)
      Quantity.ofKind kind p (.datum (.float x))
        (unit.map fun u => .datum (.member (.physical u)))) := by
  cases unit <;> rfl

theorem propertyIndex_of_byName {d : Definition} (h : r.byName (.text n) = .ok d) :
    r.propertyIndex (.text n) = .ok d.index := by
  rw [Registry.propertyIndex, h]
  rfl

theorem make_unknownName (h : r.contains (.text n) = .ok false) (s : Session) :
    s.make (.ok r) (.ofFloat kind (.text n) x unit) = .error (.unknownName n) := by
  have hnone : r.named? n = none := by simpa [Registry.contains, Datum.text?] using h
  have hname : r.byName (.text n) = .error (.unknownName n) := by
    rw [Registry.byName_eq]
    simp [Datum.asKey, Datum.text?, hnone]
  have hindex : r.propertyIndex (.text n) = .error (.unknownName n) := by
    simp [Registry.propertyIndex, hname, Except.map]
  rw [make_ofFloat]
  simp [Quantity.resolveProperty, Datum.text?, Except.bind, hindex, Except.map]

theorem make_name {d : Definition} (h : r.byName (.text n) = .ok d) (s : Session) :
    s.make (.ok r) (.ofFloat kind (.text n) x unit)
      = s.make (.ok r) (.ofFloat kind (.int d.index) x unit) := by
  rw [make_ofFloat, make_ofFloat]
  simp [Quantity.resolveProperty, Datum.text?, Except.bind, propertyIndex_of_byName h, Except.map]

/-- A name that the registry does not have is refused. Any other name gives what its index gives,
and whatever definitions are registered later or fail to be, the registry has the name for the same
definition and accepts the quantity exactly if that definition has the category of the kind, which
an em has none of. -/
theorem validates_of_name (hr : r.Reachable) (s : Session) (kind : Quantity.Kind) (n : String)
    (x : Binary64) (unit : Option PhysicalUnit) :
    (r.contains (.text n) = .ok false ∧
      s.make (.ok r) (.ofFloat kind (.text n) x unit) = .error (.unknownName n)) ∨
    (r.contains (.text n) = .ok true ∧ ∃ i q d, r.propertyIndex (.text n) = .ok i ∧
      s.make (.ok r) (.ofFloat kind (.text n) x unit) = .ok q ∧
      s.make (.ok r) (.ofFloat kind (.int i) x unit) = .ok q ∧
      ∀ records attempts,
        let later := (Action.after Journal.register ⟨r, records⟩ attempts).registry
        later.byName (.text n) = .ok d ∧
          (q.validate (.ok later) = .ok () ↔
            ∃ c, kind.category? = some c ∧ d.categories.contains c = true)) := by
  obtain ⟨ds, hds⟩ := hr.holds
  have hcontains : r.contains (.text n) = .ok (r.byName (.text n)).isOk :=
    Registry.contains_of_text rfl
  cases hname : r.byName (.text n) with
  | error f =>
    rw [hname] at hcontains
    exact .inl ⟨hcontains, make_unknownName hcontains s⟩
  | ok d =>
    rw [hname] at hcontains
    obtain ⟨y, literal, hmade⟩ := Quantity.exists_ofKind kind x unit
    have hq : s.make (.ok r) (.ofFloat kind (.int d.index) x unit)
        = .ok (.ofParts (.int d.index) y kind.base kind.power literal) := by
      rw [make_ofFloat]
      exact hmade (.int d.index)
    refine .inr ⟨hcontains, d.index, _, d, propertyIndex_of_byName hname,
      (make_name hname s).trans hq, hq, ?_⟩
    intro records attempts later
    -- The registry still finds the definition, by its name and by its index.
    have hlater : later.Holds _ := Journal.holds_after (j := ⟨r, records⟩) hds attempts
    obtain ⟨hget, hbyName⟩ := hds.keeps hlater
    have hd : r.get (.int d.index) = .ok d := (hds.coherent.byName _ _ hname).2
    refine ⟨hbyName _ _ hname, ?_⟩
    rw [Quantity.validate_eq_ok_iff]
    constructor
    · rintro ⟨c, hc, e, he, hcategory⟩
      obtain rfl : e = d := Except.ok.inj (he.symm.trans (hget _ _ hd))
      exact ⟨c, (Quantity.category_ofParts _ _ _).1 hc, hcategory⟩
    · rintro ⟨c, hc, hcategory⟩
      exact ⟨c, (Quantity.category_ofParts _ _ _).2 hc, d, hget _ _ hd, hcategory⟩

def lineHeight : Definition :=
  ⟨12, "line-height", .ofList [.number, .length, .percentage], none, by decide, by decide⟩

theorem validates_of_name_lineHeight :
    ∃ r, r.Reachable ∧ ∃ length angle,
      empty.make (.ok r) (.ofFloat .length (.text "line-height") (.ofInt 2) none) = .ok length ∧
      empty.make (.ok r) (.ofFloat .angle (.text "line-height") (.ofInt 2) none) = .ok angle ∧
      ∀ records attempts,
        let later := (Action.after Journal.register ⟨r, records⟩ attempts).registry
        length.validate (.ok later) = .ok () ∧ angle.validate (.ok later) ≠ .ok () := by
  have hmade : Registry.ofDefinitions [lineHeight] = .ok (Registry.empty.extended lineHeight) := rfl
  have hr := Registry.Reachable.made hmade
  have hcontains :
      (Registry.empty.extended lineHeight).contains (.text "line-height") ≠ .ok false := nofun
  obtain ⟨h, -⟩ | ⟨-, _, length, d, -, hlength, -, hlater⟩ :=
    validates_of_name hr empty .length "line-height" (.ofInt 2) none
  · exact absurd h hcontains
  obtain ⟨h, -⟩ | ⟨-, _, angle, e, -, hangle, -, hlater'⟩ :=
    validates_of_name hr empty .angle "line-height" (.ofInt 2) none
  · exact absurd h hcontains
  refine ⟨_, hr, length, angle, hlength, hangle, fun records attempts => ⟨?_, ?_⟩⟩
  · obtain rfl : lineHeight = d := Except.ok.inj (hlater [] []).1
    exact (hlater records attempts).2.2 ⟨.length, rfl, rfl⟩
  · obtain rfl : lineHeight = e := Except.ok.inj (hlater' [] []).1
    intro hok
    obtain ⟨c, hc, hcategory⟩ := (hlater' records attempts).2.1 hok
    obtain rfl : Category.angle = c := Option.some.inj hc
    cases hcategory

end Session

end Measures
