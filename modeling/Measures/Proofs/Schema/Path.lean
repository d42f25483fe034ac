import Measures.Schema.Basic

/-!
# Where violations are

The path of a violation leads to a part of the document. A keyword that looks into a document puts
a step that the document has before the paths of the parts.
-/

namespace Measures

/-! ## Parts of a document -/

def Json.step? (j : Json) : PathStep → Option Json
  | .key name => j.get? name
  | .index i => match j with
    | .arr items => items[i]?
    | _ => none

/-- The part that a path leads to. -/
def Json.at? (j : Json) : List PathStep → Option Json
  | [] => some j
  | step :: path => (j.step? step).bind (·.at? path)

/-- Every violation is at a part of the document. -/
def AllIn (vs : List Violation) (doc : Json) : Prop :=
  ∀ v ∈ vs, ∃ j, doc.at? v.path = some j

variable {vs ws : List Violation} {doc j : Json} {step : PathStep}

theorem allIn_nil : AllIn [] doc := nofun

theorem AllIn.append (hvs : AllIn vs doc) (hws : AllIn ws doc) : AllIn (vs ++ ws) doc := by
  intro v hv
  rcases List.mem_append.1 hv with hv | hv
  · exact hvs v hv
  · exact hws v hv

theorem allIn_here (h : ∀ v ∈ vs, v.path = []) : AllIn vs doc := by
  intro v hv
  rw [h v hv]
  exact ⟨doc, rfl⟩

theorem AllIn.under (h : doc.step? step = some j) (hvs : AllIn vs j) :
    AllIn (vs.map (.under step)) doc := by
  intro v hv
  obtain ⟨w, hw, rfl⟩ := List.mem_map.1 hv
  obtain ⟨k, hk⟩ := hvs w hw
  refine ⟨k, ?_⟩
  rw [Violation.under, Json.at?, h, Option.bind_some, hk]

/-! ## Violations under a key -/

/-- The violations whose paths begin with a key. -/
def underKey (key : String) (vs : List Violation) : List Violation :=
  vs.filter fun v => v.path.head? == some (.key key)

theorem underKey_append (key : String) (vs ws : List Violation) :
    underKey key (vs ++ ws) = underKey key vs ++ underKey key ws := List.filter_append _ _

theorem underKey_here {key : String} (h : ∀ v ∈ vs, v.path = []) :
    underKey key vs = [] := by
  refine List.filter_eq_nil_iff.2 fun v hv => ?_
  simp [h v hv]

theorem underKey_under (vs : List Violation) (key k : String) :
    underKey key (vs.map (.under (.key k)))
      = if k = key then vs.map (.under (.key k)) else [] := by
  unfold underKey
  split
  · rename_i heq
    refine List.filter_eq_self.2 fun v hv => ?_
    obtain ⟨w, -, rfl⟩ := List.mem_map.1 hv
    simp [Violation.under, heq]
  · rename_i hne
    refine List.filter_eq_nil_iff.2 fun v hv => ?_
    obtain ⟨w, -, rfl⟩ := List.mem_map.1 hv
    simp [Violation.under, hne]

namespace Schema

/-! ## Constraints on the whole of a value -/

theorem path_of_mem_demand {keyword : String} {holds : Bool} {v : Violation}
    (h : v ∈ demand keyword holds) : v.path = [] := by
  unfold demand at h
  split at h
  · cases h
  · rw [List.mem_singleton.1 h, Violation.here]

theorem path_of_mem_missing {keyword : String} {names : List String}
    {members : List (String × Json)} {v : Violation} (h : v ∈ missing keyword names members) :
    v.path = [] := by
  obtain ⟨name, -, rfl⟩ := List.mem_map.1 h
  rfl

/-- A schema needs no other schema, and what it reports is at parts of the document. -/
structure SelfContained (s : Schema) : Prop where
  closed : ∀ refs doc, s.checkWith refs doc = s.check doc
  allIn : ∀ doc, AllIn (s.check doc) doc

theorem selfContained_type (types : List JsonType) : (type types).SelfContained where
  closed _ _ := rfl
  allIn _ := allIn_here fun _ => path_of_mem_demand

theorem selfContained_enum (values : List Json) : (enum values).SelfContained where
  closed _ _ := rfl
  allIn _ := allIn_here fun _ => path_of_mem_demand

theorem selfContained_minimum (bound : Json.Num) : (minimum bound).SelfContained where
  closed _ _ := rfl
  allIn doc := by
    rw [check, checkWith, onNumber]
    cases doc.num? false with
    | none => exact allIn_nil
    | some n => exact allIn_here fun v => path_of_mem_demand

theorem selfContained_pattern (p : Pattern) : (pattern p).SelfContained where
  closed _ _ := rfl
  allIn doc := by
    cases doc with
    | str s => exact allIn_here fun v => path_of_mem_demand
    | _ => exact allIn_nil

theorem allIn_onItems {keyword : String} {holds : List Json → Bool} :
    AllIn (onItems keyword holds doc) doc := by
  cases doc with
  | arr js => exact allIn_here fun v => path_of_mem_demand
  | _ => exact allIn_nil

theorem selfContained_minItems (n : Nat) : (minItems n).SelfContained where
  closed _ _ := rfl
  allIn _ := allIn_onItems

theorem selfContained_uniqueItems (demanded : Bool) : (uniqueItems demanded).SelfContained where
  closed _ _ := rfl
  allIn _ := allIn_onItems

theorem selfContained_required (names : List String) : (required names).SelfContained where
  closed _ doc := by cases doc <;> rfl
  allIn doc := by
    cases doc with
    | obj members => exact allIn_here fun v => path_of_mem_missing
    | _ => exact allIn_nil

theorem selfContained_additionalProperties (names : List String) (patterns : List Pattern) :
    (additionalProperties names patterns never).SelfContained where
  closed _ _ := rfl
  allIn doc := by
    cases doc with
    | obj members => exact allIn_here fun v => path_of_mem_demand
    | _ => exact allIn_nil

/-! ## Constraints on parts -/

theorem selfContained_all {parts : List Schema} (h : ∀ part ∈ parts, part.SelfContained) :
    (all parts).SelfContained where
  closed refs doc := by
    rw [check, checkWith, checkWith]
    induction parts with
    | nil => rfl
    | cons part rest ih =>
      obtain ⟨hpart, hrest⟩ := List.forall_mem_cons.1 h
      rw [checkAll, checkAll, hpart.closed refs doc, ih hrest]
  allIn doc := by
    rw [check, checkWith]
    induction parts with
    | nil => exact allIn_nil
    | cons part rest ih =>
      obtain ⟨hpart, hrest⟩ := List.forall_mem_cons.1 h
      rw [checkAll]
      exact (hpart.allIn doc).append (ih hrest)

theorem allIn_checkItems {check : Json → List Violation} (hcheck : ∀ j, AllIn (check j) j)
    (before js : List Json) : AllIn (checkItems check before.length js) (.arr (before ++ js)) := by
  induction js generalizing before with
  | nil => exact allIn_nil
  | cons j rest ih =>
    have hstep : (Json.arr (before ++ j :: rest)).step? (.index before.length) = some j := by
      simp [Json.step?]
    have hrest := ih (before ++ [j])
    rw [List.length_append, List.length_singleton, List.append_assoc, List.singleton_append] at hrest
    rw [checkItems]
    exact (AllIn.under hstep (hcheck j)).append hrest

theorem checkItems_eq_flatMap (check : Json → List Violation) (first : Nat) (js : List Json) :
    checkItems check first js
      = (js.zipIdx first).flatMap fun (j, i) => (check j).map (.under (.index i)) := by
  induction js generalizing first with
  | nil => rfl
  | cons j rest ih => rw [checkItems, ih, List.zipIdx_cons, List.flatMap_cons]

theorem selfContained_items {part : Schema} (hne : part ≠ never) (h : part.SelfContained) :
    (items 0 part).SelfContained := by
  have hitems (refs : References) (js : List Json) :
      (items 0 part).checkWith refs (.arr js) = checkItems (part.checkWith refs) 0 js := by
    rw [checkWith, List.drop_zero]
    exact hne
  have hrefs (refs : References) : part.checkWith refs = part.check := funext (h.closed refs)
  constructor
  · intro refs doc
    cases doc with
    | arr js => rw [check, hitems, hitems, hrefs]
    | _ => cases part <;> rfl
  · intro doc
    cases doc with
    | arr js =>
      rw [check, hitems]
      exact allIn_checkItems h.allIn [] js
    | _ => cases part <;> exact allIn_nil

theorem selfContained_properties {parts : List (String × Schema)}
    (h : ∀ part ∈ parts, part.2.SelfContained) : (properties parts).SelfContained where
  closed refs doc := by
    cases doc with
    | obj members =>
      rw [check, checkWith, checkWith]
      induction parts with
      | nil => rfl
      | cons part rest ih =>
        obtain ⟨hpart, hrest⟩ := List.forall_mem_cons.1 h
        have hrefs : part.2.checkWith refs = part.2.check := funext (hpart.closed refs)
        rw [checkProperties, checkProperties, hrefs, ih hrest]
    | _ => rfl
  allIn doc := by
    cases doc with
    | obj members =>
      rw [check, checkWith]
      induction parts with
      | nil => exact allIn_nil
      | cons part rest ih =>
        obtain ⟨hpart, hrest⟩ := List.forall_mem_cons.1 h
        rw [checkProperties]
        refine AllIn.append ?_ (ih hrest)
        cases hj : members.lookup part.1 with
        | none => exact allIn_nil
        | some j => exact AllIn.under hj (hpart.allIn j)
    | _ => exact allIn_nil

/-! ## Violations under a property -/

variable {refs : References} {parts : List (String × Schema)} {members : List (String × Json)}
  {key : String}

theorem underKey_checkProperties_of_not_mem (h : key ∉ parts.map (·.1)) :
    underKey key (checkProperties refs parts members) = [] := by
  induction parts with
  | nil => rfl
  | cons part rest ih =>
    rw [List.map_cons, List.mem_cons, not_or] at h
    rw [checkProperties, underKey_append, ih h.2, List.append_nil]
    cases members.lookup part.1 with
    | none => rfl
    | some j => rw [underKey_under, if_neg (Ne.symm h.1)]

/-- What is reported under a property is what its schema reports of its value. -/
theorem underKey_properties {part : Schema} (hpart : (key, part) ∈ parts)
    (hparts : (parts.map (·.1)).Nodup) (hj : members.lookup key = some j) :
    underKey key ((properties parts).checkWith refs (.obj members))
      = (part.checkWith refs j).map (.under (.key key)) := by
  rw [checkWith]
  induction parts with
  | nil => cases hpart
  | cons first rest ih =>
    obtain ⟨hnot, hrest⟩ := List.nodup_cons.1 hparts
    rw [checkProperties, underKey_append]
    rcases List.mem_cons.1 hpart with rfl | hpart
    · rw [underKey_checkProperties_of_not_mem hnot, List.append_nil, hj, underKey_under, if_pos rfl]
    · have hne : first.1 ≠ key := by
        intro heq
        exact hnot (List.mem_map.2 ⟨_, hpart, heq.symm⟩)
      rw [ih hpart hrest]
      cases members.lookup first.1 with
      | none => rfl
      | some k => rw [underKey_under, if_neg hne, List.nil_append]

end Schema

end Measures
