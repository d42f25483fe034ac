import Measures.Proofs.Binary64.Exact
import Measures.Proofs.Schema.Check
import Measures.Property.Contract

/-!
# Documents that the contract accepts

What a document, an item and each field of an item look like if the contract reports nothing.
-/

namespace Measures

/-- The whole number that a value is: a float without a fraction is one, a truth value is not. -/
def Json.wholeNumber? : Json → Option Int
  | .int i => some i
  | .float x => x.toInt?
  | _ => none

namespace Property

open Schema (all_eq_nil items_eq_nil required_eq_nil properties_eq_nil
  additionalProperties_eq_nil demand_eq_nil)

variable {doc item j : Json} {fields : List (String × Json)}

/-! ## Fields -/

theorem index_accepts_iff :
    (Schema.all [.type [.integer], .minimum (.int 0)]).check j = [] ↔
      ∃ i, j.wholeNumber? = some i ∧ 0 ≤ i := by
  rw [all_eq_nil]
  cases j with
  | float x =>
    cases hx : x.toInt? with
    | none => simp [Schema.checkWith, demand_eq_nil, JsonType.holds, Json.wholeNumber?, hx]
    | some i =>
      simp [Schema.checkWith, Schema.onNumber, Json.num?, Json.Num.less, demand_eq_nil,
        JsonType.holds, Json.wholeNumber?, hx, Binary64.lessInt_of_toInt? hx]
  | _ =>
    simp [Schema.checkWith, Schema.onNumber, Json.num?, Json.Num.less, demand_eq_nil,
      JsonType.holds, Json.wholeNumber?]

theorem text_accepts_iff {p : Pattern} :
    (textSchema p).check j = [] ↔ ∃ s, j = .str s ∧ p.occursIn s = true := by
  rw [textSchema, all_eq_nil]
  cases j <;> simp [Schema.checkWith, Schema.onString, demand_eq_nil, JsonType.holds]

theorem equal_str_iff {s : String} : Json.equal (.str s) j = true ↔ j = .str s := by
  cases j with
  | str t =>
    simp only [Json.equal, Json.equalWith, beq_iff_eq, Json.str.injEq]
    exact eq_comm
  | _ => simp [Json.equal, Json.equalWith, Json.num?]

theorem category_accepts_iff :
    (Schema.all [.enum (Category.all.map fun c => .str c.text)]).check j = [] ↔
      ∃ c : Category, j = .str c.text := by
  rw [all_eq_nil, List.forall_mem_singleton, Schema.checkWith, demand_eq_nil]
  simp [equal_str_iff, Category.mem_all]

theorem categories_accepts_iff :
    categoriesSchema.check j = [] ↔ ∃ js, j = .arr js ∧ js ≠ [] ∧ Json.distinct js = true ∧
      ∀ k ∈ js, ∃ c : Category, k = .str c.text := by
  rw [categoriesSchema, all_eq_nil]
  cases j with
  | arr js =>
    simp only [List.forall_mem_cons, items_eq_nil, category_accepts_iff]
    simp [Schema.checkWith, Schema.onItems, demand_eq_nil, JsonType.holds, Nat.one_le_iff_ne_zero]
  | _ => simp [Schema.checkWith, demand_eq_nil, JsonType.holds]

theorem description_accepts_iff :
    (Schema.all [.type [.string]]).check j = [] ↔ ∃ s, j = .str s := by
  rw [all_eq_nil]
  cases j <;> simp [Schema.checkWith, demand_eq_nil, JsonType.holds]

/-! ## Items -/

/-- The fields of an item that the contract accepts. -/
structure WellFormedItem (fields : List (String × Json)) : Prop where
  known : ∀ m ∈ fields, m.1 ∈ ["index", "name", "categories", "description"]
  index : ∃ j i, fields.lookup "index" = some j ∧ j.wholeNumber? = some i ∧ 0 ≤ i
  name : ∃ s, fields.lookup "name" = some (.str s) ∧ nameForm.occursIn s = true
  categories : ∃ js, fields.lookup "categories" = some (.arr js) ∧ js ≠ [] ∧
    Json.distinct js = true ∧ ∀ k ∈ js, ∃ c : Category, k = .str c.text
  description : ∀ j, fields.lookup "description" = some j → ∃ s, j = .str s

theorem forall_of_eq_some {P : Json → Prop} {found : Option Json} (hfound : found = some j)
    (h : P j) : ∀ k, found = some k → P k := by
  rintro k rfl
  exact Option.some.inj hfound ▸ h

theorem item_accepts_iff :
    itemSchema.check item = [] ↔ ∃ fields, item = .obj fields ∧ WellFormedItem fields := by
  rw [itemSchema, all_eq_nil]
  cases item with
  | obj fields =>
    simp only [List.forall_mem_cons, List.not_mem_nil, false_imp_iff, implies_true, and_true,
      additionalProperties_eq_nil, required_eq_nil, properties_eq_nil, itemFields,
      index_accepts_iff, text_accepts_iff, categories_accepts_iff, description_accepts_iff]
    constructor
    · rintro ⟨-, hknown, ⟨⟨i, hi⟩, ⟨n, hn⟩, c, hc⟩, hindex, hname, hcategories, hdescription⟩
      obtain ⟨name, rfl, hname⟩ := hname n hn
      obtain ⟨js, rfl, hjs⟩ := hcategories c hc
      exact ⟨fields, rfl, hknown, ⟨i, (hindex i hi).imp fun _ h => ⟨hi, h⟩⟩, ⟨name, hn, hname⟩,
        ⟨js, hc, hjs⟩, hdescription⟩
    · rintro ⟨_, ⟨⟩, hknown, ⟨i, k, hi, hk⟩, ⟨n, hn, hname⟩, ⟨js, hc, hjs⟩, hdescription⟩
      exact ⟨rfl, hknown, ⟨⟨i, hi⟩, ⟨_, hn⟩, _, hc⟩, forall_of_eq_some hi ⟨k, hk⟩,
        forall_of_eq_some hn ⟨n, rfl, hname⟩, forall_of_eq_some hc ⟨js, rfl, hjs⟩, hdescription⟩
  | _ => simp [Schema.checkWith, demand_eq_nil, JsonType.holds]

/-! ## Documents -/

theorem items_accept_iff :
    (Schema.all [.type [.array], .items 0 itemSchema]).check j = [] ↔
      ∃ items, j = .arr items ∧
        ∀ item ∈ items, ∃ fields, item = .obj fields ∧ WellFormedItem fields := by
  rw [all_eq_nil]
  cases j with
  | arr items =>
    simp only [List.forall_mem_cons, items_eq_nil, item_accepts_iff]
    simp [Schema.checkWith, demand_eq_nil, JsonType.holds]
  | _ => simp [Schema.checkWith, demand_eq_nil, JsonType.holds]

/-- The members of a document that the contract accepts. -/
structure WellFormedDocument (members : List (String × Json)) : Prop where
  known : ∀ m ∈ members, m.1 ∈ ["schema_version", "properties"]
  version : ∃ s, members.lookup "schema_version" = some (.str s) ∧ versionForm.occursIn s = true
  items : ∃ items, members.lookup "properties" = some (.arr items) ∧
    ∀ item ∈ items, ∃ fields, item = .obj fields ∧ WellFormedItem fields

theorem registry_accepts_iff :
    registrySchema.check doc = [] ↔ ∃ members, doc = .obj members ∧ WellFormedDocument members := by
  rw [registrySchema, all_eq_nil]
  cases doc with
  | obj members =>
    simp only [List.forall_mem_cons, List.not_mem_nil, false_imp_iff, implies_true, and_true,
      additionalProperties_eq_nil, required_eq_nil, properties_eq_nil, registryFields,
      text_accepts_iff, items_accept_iff]
    constructor
    · rintro ⟨-, hknown, ⟨⟨v, hv⟩, p, hp⟩, hversion, hitems⟩
      obtain ⟨s, rfl, hs⟩ := hversion v hv
      obtain ⟨items, rfl, hitems⟩ := hitems p hp
      exact ⟨members, rfl, hknown, ⟨s, hv, hs⟩, items, hp, hitems⟩
    · rintro ⟨_, ⟨⟩, hknown, ⟨s, hv, hs⟩, items, hp, hitems⟩
      exact ⟨rfl, hknown, ⟨⟨_, hv⟩, _, hp⟩, forall_of_eq_some hv ⟨s, rfl, hs⟩,
        forall_of_eq_some hp ⟨items, rfl, hitems⟩⟩
  | _ => simp [Schema.checkWith, demand_eq_nil, JsonType.holds]

end Property

end Measures
