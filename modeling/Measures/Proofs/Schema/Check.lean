import Measures.Schema.Basic

/-!
# What keywords accept

A schema accepts a document without a violation. For the keywords that look into a document, this
comes down to what other schemas accept.
-/

namespace Measures.Schema

variable {refs : References} {doc : Json}

theorem demand_eq_nil {keyword : String} {holds : Bool} :
    demand keyword holds = [] ↔ holds = true := by
  cases holds <;> simp [demand]

theorem all_eq_nil {parts : List Schema} :
    (all parts).checkWith refs doc = [] ↔ ∀ part ∈ parts, part.checkWith refs doc = [] := by
  rw [checkWith]
  induction parts with
  | nil => simp [checkAll]
  | cons part rest ih => rw [checkAll, List.append_eq_nil_iff, ih, List.forall_mem_cons]

/-! ## Arrays -/

theorem checkItems_eq_nil {check : Json → List Violation} {first : Nat} {js : List Json} :
    checkItems check first js = [] ↔ ∀ j ∈ js, check j = [] := by
  induction js generalizing first with
  | nil => simp [checkItems]
  | cons j rest ih =>
    rw [checkItems, List.append_eq_nil_iff, List.map_eq_nil_iff, ih, List.forall_mem_cons]

theorem items_eq_nil {part : Schema} {js : List Json} :
    (items 0 part).checkWith refs (.arr js) = [] ↔ ∀ j ∈ js, part.checkWith refs j = [] := by
  cases part with
  | never =>
    cases js with
    | nil => simp [checkWith, onItems, demand]
    | cons j rest =>
      have hj : j ∈ j :: rest := List.mem_cons_self
      simp only [checkWith, onItems, demand_eq_nil, List.length_cons, Nat.le_zero_eq,
        Nat.add_one_ne_zero, decide_false, Bool.false_eq_true, false_iff]
      exact fun hall => List.cons_ne_nil _ _ (hall j hj)
  | _ => exact checkItems_eq_nil

/-! ## Objects -/

variable {members : List (String × Json)}

theorem required_eq_nil {names : List String} :
    (required names).checkWith refs (.obj members) = [] ↔
      ∀ name ∈ names, ∃ j, members.lookup name = some j := by
  rw [checkWith, missing, List.map_eq_nil_iff, List.filter_eq_nil_iff]
  refine forall₂_congr fun name _ => ?_
  rw [Bool.not_eq_true', Bool.not_eq_false, hasKey, Option.isSome_iff_exists]

theorem properties_eq_nil {parts : List (String × Schema)} :
    (properties parts).checkWith refs (.obj members) = [] ↔
      ∀ part ∈ parts, ∀ j, members.lookup part.1 = some j → part.2.checkWith refs j = [] := by
  rw [checkWith]
  induction parts with
  | nil => simp [checkProperties]
  | cons part rest ih =>
    rw [checkProperties, List.append_eq_nil_iff, ih, List.forall_mem_cons]
    cases members.lookup part.1 <;> simp

/-- Without other members allowed, only the named ones are there. -/
theorem additionalProperties_eq_nil {names : List String} :
    (additionalProperties names [] never).checkWith refs (.obj members) = [] ↔
      ∀ m ∈ members, m.1 ∈ names := by
  simp [checkWith, onMembers, demand_eq_nil, extras]

end Measures.Schema
