import Measures.Proofs.Quantity.Sound
import Measures.Proofs.Session.Step

/-!
# Sessions keep quantities sound

A step other than an overwriting leaves every quantity of a session sound, whether it fails or not.
-/

namespace Measures

def Step.Overwrites : Step → Prop
  | .overwrite .. => True
  | _ => False

/-- A physical base unit, by itself or by its text, and the power zero. -/
def BareUnit (unit power : Argument) : Prop :=
  power = .datum (.int 0) ∧
    ∃ d u, unit = .datum d ∧ BaseUnit.ofDatum? d = some u ∧ u.isPhysical = true

def Recipe.PassesBareUnit : Recipe → Prop
  | .full _ _ unit power _ | .ofProperty _ _ unit power _ => BareUnit unit power
  | .ofKind .. => False

def Step.PassesBareUnit : Step → Prop
  | .make recipe _ => recipe.PassesBareUnit
  | _ => False

theorem Operand.refuse_ne_ok {α : Type} (o : Operand) (cause : String → Fault) (a : α) :
    o.refuse cause ≠ .ok a := by
  unfold refuse
  cases o.literal <;> simp [Except.bind]

namespace Session

variable {strict : Prop} {registry : Except Fault Registry} {s : Session} {q : Quantity}

def All (P : Quantity → Prop) (s : Session) : Prop := ∀ name q, s.get? name = some q → P q

def Sound (strict : Prop) (s : Session) : Prop := ∀ name q, s.get? name = some q → q.Sound strict

/-! ## What holds of every quantity -/

section All

variable {P : Quantity → Prop}

theorem all_empty : empty.All P := fun _ _ h => by simp at h

theorem All.put (h : s.All P) (hq : P q) (name : String) : (s.put name q).All P := by
  intro n r hr
  rw [get?_put] at hr
  split at hr
  · obtain rfl := Option.some.inj hr
    exact hq
  · exact h n r hr

theorem All.get (h : s.All P) {name : String} (hq : s.get name = .ok q) : P q :=
  h name q (get_eq_ok_iff.1 hq)

/-- A step that puts such a quantity, or fails, keeps a session. -/
theorem All.ending_put (h : s.All P) {e : Except Fault Quantity} {next : Quantity → Quantity}
    {answer : Quantity → Answer} (he : ∀ q, e = .ok q → P (next q)) (target : String) :
    (s.ending (e >>= fun q => .ok (answer q, s.put target (next q)))).2.All P := by
  cases e with
  | error f => exact h
  | ok q => exact h.put (he q rfl) target

/-- What is made and what is changed are all that a step has to answer for. -/
theorem All.step (h : s.All P) {action : Step} (ho : ¬ action.Overwrites)
    (hmake : ∀ recipe target q, action = .make recipe target → s.make registry recipe = .ok q → P q)
    (hchange : ∀ subject c q, action = .change subject c → s.changed subject c = .ok q → P q)
    (hnegate : ∀ q, P q → P q.negate) : (s.step registry action).2.All P := by
  cases action with
  | make recipe target =>
    rw [step_make]
    exact h.ending_put (fun q hq => hmake recipe target q rfl hq) target
  | copy source target =>
    rw [step_copy]
    exact h.ending_put (fun q hq => h.get hq) target
  | opposite source target =>
    rw [step_opposite]
    exact h.ending_put (fun q hq => hnegate q (h.get hq)) target
  | change subject c =>
    rw [step_change]
    exact h.ending_put (fun q hq => hchange subject c q rfl hq) subject
  | ask subject query => rwa [step_ask]
  | compare subject comparison a => rwa [step_compare]
  | describe subject => rwa [step_describe]
  | validate subject => rwa [step_validate]
  | overwrite subject field content => exact absurd trivial ho

end All

theorem Sound.get (h : s.Sound strict) {name : String} (hq : s.get name = .ok q) :
    q.Sound strict := All.get h hq

/-! ## What a step reads -/

theorem Sound.operand (h : s.Sound strict) {a : Argument} {o : Operand}
    (ho : s.operand a = .ok o) : Quantity.SoundOperand strict o := by
  cases a with
  | named name =>
    obtain ⟨q, hq, rfl⟩ := map_eq_ok.1 ho
    exact h.get hq
  | datum d =>
    obtain rfl := Except.ok.inj ho
    trivial
  | list items =>
    obtain ⟨os, -, rfl⟩ := map_eq_ok.1 ho
    trivial

/-- Only the datum zero is taken for the power zero. -/
theorem eq_of_power_zero {a : Argument} {o : Operand} (ho : s.operand a = .ok o)
    (hp : o.power = .ok 0) : a = .datum (.int 0) := by
  cases a with
  | named name =>
    obtain ⟨q, -, rfl⟩ := map_eq_ok.1 ho
    exact absurd hp (Operand.refuse_ne_ok _ _ _)
  | datum d =>
    obtain rfl := Except.ok.inj ho
    cases d <;> simp_all [Operand.power, Operand.refuse, Operand.literal, Except.bind]
  | list items =>
    obtain ⟨os, -, rfl⟩ := map_eq_ok.1 ho
    exact absurd hp (Operand.refuse_ne_ok _ _ _)

/-- Only a datum is taken for a base unit. -/
theorem eq_of_baseUnit {a : Argument} {o : Operand} {u : BaseUnit} (ho : s.operand a = .ok o)
    (hu : o.baseUnit = .ok u) : ∃ d, a = .datum d ∧ BaseUnit.ofDatum? d = some u := by
  cases a with
  | named name =>
    obtain ⟨q, -, rfl⟩ := map_eq_ok.1 ho
    exact absurd hu (Operand.refuse_ne_ok _ _ _)
  | datum d =>
    obtain rfl := Except.ok.inj ho
    refine ⟨d, rfl, ?_⟩
    cases hd : BaseUnit.ofDatum? d with
    | none =>
      simp only [Operand.baseUnit, hd] at hu
      exact absurd hu (Operand.refuse_ne_ok _ _ _)
    | some v =>
      simp only [Operand.baseUnit, hd] at hu
      rw [Except.ok.inj hu]
  | list items =>
    obtain ⟨os, -, rfl⟩ := map_eq_ok.1 ho
    exact absurd hu (Operand.refuse_ne_ok _ _ _)

/-! ## What a step puts -/

/-- The arguments of a constructor are those of a bare unit only if the recipe passes one. -/
theorem numeric_of_not_passes {unit power : Argument} {o p : Operand} {u : BaseUnit}
    (hb : ¬ BareUnit unit power) (ho : s.operand unit = .ok o) (hp : s.operand power = .ok p)
    (hu : o.baseUnit = .ok u) (h0 : p.power = .ok 0) : u.isNumeric = true := by
  obtain ⟨d, rfl, hd⟩ := eq_of_baseUnit ho hu
  obtain rfl := eq_of_power_zero hp h0
  rw [BaseUnit.isNumeric_eq_not_isPhysical, Bool.not_eq_true', ← Bool.not_eq_true]
  exact fun hphys => hb ⟨rfl, d, u, rfl, hd, hphys⟩

theorem sound_make {recipe : Recipe} (hb : strict → ¬ recipe.PassesBareUnit)
    (h : s.make registry recipe = .ok q) : q.Sound strict := by
  cases recipe with
  | full property value unit power literal =>
    obtain ⟨_, _, _, _, _, hunit, hpower, h⟩ := exists_of_make_full h
    exact Quantity.sound_make (fun hs u => numeric_of_not_passes (hb hs) hunit hpower) h
  | ofProperty property value unit power literal =>
    obtain ⟨_, _, _, _, _, hunit, hpower, h⟩ := exists_of_make_ofProperty h
    exact Quantity.sound_make (fun hs u => numeric_of_not_passes (hb hs) hunit hpower) h
  | ofKind kind property value unit =>
    obtain ⟨_, _, _, -, h⟩ := exists_of_make_ofKind h
    exact Quantity.sound_ofKind h

theorem Sound.changed (h : s.Sound strict) {subject : String} {c : Change}
    (hq : s.changed subject c = .ok q) : q.Sound strict := by
  cases c with
  | apply verb a =>
    obtain ⟨r, hr, hq⟩ := bind_eq_ok.1 hq
    obtain ⟨o, ho, hq⟩ := bind_eq_ok.1 hq
    exact (h.get hr).apply (h.operand ho) hq
  | operator verb a =>
    obtain ⟨r, hr, hq⟩ := bind_eq_ok.1 hq
    obtain ⟨o, ho, hq⟩ := bind_eq_ok.1 hq
    exact (h.get hr).applyOperator (h.operand ho) hq
  | negate =>
    obtain ⟨r, hr, rfl⟩ := map_eq_ok.1 hq
    exact (h.get hr).negate

/-! ## Steps and runs -/

theorem Sound.step (h : s.Sound strict) {action : Step} (ho : ¬ action.Overwrites)
    (hb : strict → ¬ action.PassesBareUnit) : (s.step registry action).2.Sound strict := by
  refine All.step h ho ?_ (fun _ _ _ _ hq => h.changed hq) fun _ hq => hq.negate
  rintro recipe target q rfl hq
  exact sound_make hb hq

/-- Whatever a run makes and changes is sound after every step, those that fail included. -/
theorem Sound.trace (h : s.Sound strict) {requests : List Request}
    (ho : ∀ r ∈ requests, ¬ r.step.Overwrites)
    (hb : strict → ∀ r ∈ requests, ¬ r.step.PassesBareUnit) :
    ∀ o ∈ s.trace requests, o.2.Sound strict :=
  Action.forall_trace (fun r hr _ hs => hs.step (ho r hr) fun hstrict => hb hstrict r hr) h

/-- In a run that starts with nothing and overwrites nothing, every quantity at every time has one
of the base units, a power that suits it, and a reduced value if it is an angle. Unless a bare unit
is passed somewhere, the power is zero exactly for what has no dimension. -/
theorem quantities_of_run {requests : List Request}
    (ho : ∀ r ∈ requests, ¬ r.step.Overwrites) :
    ∀ o ∈ empty.trace requests, ∀ name q, o.2.get? name = some q →
      ∃ u p, q.unit = .unit u ∧ q.power = .ofInt p ∧ (u.isNumeric = true → p = 0) ∧
        (u = .degrees → Scalar.IsReduced Scalar.fullTurn q.value) ∧
        ((∀ r ∈ requests, ¬ r.step.PassesBareUnit) → (p = 0 ↔ u.isNumeric = true)) := by
  intro o hmem name q hq
  have hsound : o.2.Sound (∀ r ∈ requests, ¬ r.step.PassesBareUnit) :=
    Sound.trace all_empty ho id o hmem
  obtain ⟨u, p, hu, hp, ⟨hnum, hstrict⟩, hdeg⟩ := hsound name q hq
  exact ⟨u, p, hu, hp, hnum, hdeg, fun hb => ⟨hstrict hb, hnum⟩⟩

/-- An angle that goes past the full turn, is divided by itself and then takes no length. -/
def turning : List Request :=
  [.make (.ofKind .angle (.datum (.int 0)) (.datum (.int 350)) none) "a",
    .change "a" (.apply .add (.named "a")),
    .change "a" (.operator .divide (.named "a")),
    .make (.ofKind .length (.datum (.int 0)) (.datum (.int 1)) none) "b",
    .change "b" (.apply .add (.named "a"))].map fun action => ⟨.ok ⟨[], []⟩, action⟩

theorem quantities_of_turning :
    (∀ r ∈ turning, ¬ r.step.Overwrites) ∧ (∀ r ∈ turning, ¬ r.step.PassesBareUnit) ∧
      (empty.trace turning).map (fun o => (o.1.isOk, (o.2.get? "a").map (·.value)))
        = [(true, some (.ofInt 350)), (true, some (.ofInt 340)), (true, some (.ofInt 1)),
          (true, some (.ofInt 1)), (false, some (.ofInt 1))] ∧
      ∀ o ∈ empty.trace turning, ∀ name q, o.2.get? name = some q →
        ∃ u p, q.unit = .unit u ∧ q.power = .ofInt p ∧
          (u = .degrees → Scalar.IsReduced Scalar.fullTurn q.value) ∧
          (p = 0 ↔ u.isNumeric = true) := by
  have ho : ∀ r ∈ turning, ¬ r.step.Overwrites := by simp [turning, Step.Overwrites]
  have hb : ∀ r ∈ turning, ¬ r.step.PassesBareUnit := by
    simp [turning, Step.PassesBareUnit, Recipe.PassesBareUnit]
  refine ⟨ho, hb, by decide +kernel, fun o hmem name q hq => ?_⟩
  obtain ⟨u, p, hu, hp, -, hdeg, hzero⟩ := quantities_of_run ho o hmem name q hq
  exact ⟨u, p, hu, hp, hdeg, hzero hb⟩

end Session

end Measures
