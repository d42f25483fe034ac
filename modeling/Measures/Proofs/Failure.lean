import Mathlib.Data.List.Forall2
import Measures.Fault

/-!
# What may fail

How a sequence of parts that may fail comes to succeed, and how two of them come to the same end.
-/

namespace Measures

variable {α β γ δ : Type}

@[simp] theorem ok_bind {ε : Type} (a : α) (k : α → Except ε β) : (Except.ok a >>= k) = k a := rfl

@[simp] theorem error_bind (f : Fault) (k : α → Except Fault β) :
    (Except.error f >>= k) = .error f := rfl

theorem bind_eq_ok {e : Except Fault α} {k : α → Except Fault β} {b : β} :
    e >>= k = .ok b ↔ ∃ a, e = .ok a ∧ k a = .ok b := by
  cases e with
  | error f => simp [bind, Except.bind]
  | ok a => simp [bind, Except.bind]

theorem bind_eq_error {e : Except Fault α} {k : α → Except Fault β} {fault : Fault} :
    e >>= k = .error fault ↔ e = .error fault ∨ ∃ a, e = .ok a ∧ k a = .error fault := by
  cases e with
  | error f => simp [bind, Except.bind]
  | ok a => simp [bind, Except.bind]

theorem map_eq_ok {e : Except Fault α} {f : α → β} {b : β} :
    e.map f = .ok b ↔ ∃ a, e = .ok a ∧ f a = b := by
  cases e with
  | error _ => simp [Except.map]
  | ok a => simp [Except.map]

theorem map_eq_error {e : Except Fault α} {f : α → β} {fault : Fault} :
    e.map f = .error fault ↔ e = .error fault := by
  cases e with
  | error _ => simp [Except.map]
  | ok a => simp [Except.map]

theorem mapError_eq_ok {ε ε' : Type} {e : Except ε α} {f : ε → ε'} {a : α} :
    e.mapError f = .ok a ↔ e = .ok a := by
  cases e <;> simp [Except.mapError]

theorem mapError_eq_error {ε ε' : Type} {e : Except ε α} {f : ε → ε'} {cause : ε'} :
    e.mapError f = .error cause ↔ ∃ x, e = .error x ∧ f x = cause := by
  cases e <;> simp [Except.mapError]

/-- Only operands that do not go together are told apart by a reason. -/
theorem Fault.reason?_eq_none {f : Fault} (h : f.kind ≠ .incompatibleOperands) :
    f.reason? = none := by
  cases f with
  | differentPowers | differentUnits | relativeRemainder | scalarRemainder => exact absurd rfl h
  | _ => rfl

theorem exists_of_isOk {e : Except Fault α} (h : e.isOk = true) : ∃ a, e = .ok a := by
  cases e with
  | ok a => exact ⟨a, rfl⟩
  | error f => cases h

/-! ## One kind of failure -/

/-- Every failure is of one kind. -/
def FailsAs (kind : FaultKind) (e : Except Fault α) : Prop := ∀ f, e = .error f → f.kind = kind

/-- Fails exactly under a condition, and then in one kind. -/
def FailsIff (kind : FaultKind) (condition : Prop) (e : Except Fault α) : Prop :=
  FailsAs kind e ∧ ((∃ f, e = .error f) ↔ condition)

section FailsAs

variable {kind : FaultKind} {condition : Prop} {e : Except Fault α}

theorem failsAs_ok (a : α) : FailsAs kind (.ok a : Except Fault α) := nofun

theorem failsAs_error {f : Fault} (h : f.kind = kind) :
    FailsAs kind (.error f : Except Fault α) := by
  rintro _ ⟨⟩
  exact h

theorem FailsAs.bind {k : α → Except Fault β} (h : FailsAs kind e)
    (hk : ∀ a, e = .ok a → FailsAs kind (k a)) : FailsAs kind (e >>= k) := by
  intro f hf
  rcases bind_eq_error.1 hf with hf | ⟨a, ha, hf⟩
  · exact h f hf
  · exact hk a ha f hf

theorem FailsAs.map (h : FailsAs kind e) (f : α → β) : FailsAs kind (e.map f) :=
  fun fault hfault => h fault (map_eq_error.1 hfault)

theorem failsIff_error {f : Fault} (h : f.kind = kind) :
    FailsIff kind True (.error f : Except Fault α) :=
  ⟨failsAs_error h, iff_true_intro ⟨f, rfl⟩⟩

theorem FailsIff.map (h : FailsIff kind condition e) (f : α → β) :
    FailsIff kind condition (e.map f) := by
  refine ⟨h.1.map f, ?_⟩
  simp only [map_eq_error]
  exact h.2

theorem failsIff_ite {c : Prop} [Decidable c] {f : Fault} (h : f.kind = kind) (a : α) :
    FailsIff kind (¬ c) (if c then .ok a else .error f) := by
  split
  · next hc => exact ⟨failsAs_ok a, by simp [hc]⟩
  · next hc => exact ⟨failsAs_error h, by simp [hc]⟩

end FailsAs

/-! ## One part for each item -/

theorem mapM_eq_ok {f : α → Except Fault β} {as : List α} {bs : List β} :
    as.mapM f = .ok bs ↔ List.Forall₂ (fun a b => f a = .ok b) as bs := by
  induction as generalizing bs with
  | nil =>
    rw [List.mapM_nil, List.forall₂_nil_left_iff]
    exact Except.ok.injEq [] bs ▸ eq_comm
  | cons a rest ih =>
    simp only [List.mapM_cons, bind_eq_ok, ih, List.forall₂_cons_left_iff]
    constructor
    · rintro ⟨b, hb, cs, hcs, hbs⟩
      cases hbs
      exact ⟨b, cs, hb, hcs, rfl⟩
    · rintro ⟨b, cs, hb, hcs, rfl⟩
      exact ⟨b, hb, cs, hcs, rfl⟩

theorem exists_of_mapM_eq_ok {f : α → Except Fault β} {as : List α} {bs : List β}
    (h : as.mapM f = .ok bs) {a : α} (ha : a ∈ as) : ∃ b ∈ bs, f a = .ok b := by
  have hall := mapM_eq_ok.1 h
  obtain ⟨i, hi, rfl⟩ := List.getElem_of_mem ha
  have hb : i < bs.length := hall.length_eq ▸ hi
  exact ⟨bs[i], List.getElem_mem hb, hall.get hi hb⟩

/-- The first item that fails counts. -/
theorem mapM_eq_error {f : α → Except Fault β} {as : List α} {fault : Fault} :
    as.mapM f = .error fault ↔ ∃ before a after, as = before ++ a :: after ∧
      (∀ x ∈ before, ∃ b, f x = .ok b) ∧ f a = .error fault := by
  induction as with
  | nil => simp [List.mapM_nil, pure, Except.pure]
  | cons a rest ih =>
    rw [List.mapM_cons]
    cases ha : f a with
    | error g =>
      rw [error_bind]
      constructor
      · rintro ⟨⟩
        exact ⟨[], a, rest, rfl, nofun, ha⟩
      · rintro ⟨before, x, after, heq, hbefore, hx⟩
        cases before with
        | nil =>
          cases heq
          rw [Except.error.inj (ha.symm.trans hx)]
        | cons y before =>
          cases heq
          obtain ⟨b, hb⟩ := hbefore a List.mem_cons_self
          cases ha.symm.trans hb
    | ok b =>
      have hrest : (rest.mapM f >>= fun bs => pure (b :: bs)) = .error fault ↔
          rest.mapM f = .error fault := by
        cases rest.mapM f with
        | error g => simp
        | ok bs => simp [pure, Except.pure]
      rw [ok_bind, hrest, ih]
      constructor
      · rintro ⟨before, x, after, rfl, hbefore, hx⟩
        exact ⟨a :: before, x, after, rfl, List.forall_mem_cons.2 ⟨⟨b, ha⟩, hbefore⟩, hx⟩
      · rintro ⟨before, x, after, heq, hbefore, hx⟩
        cases before with
        | nil =>
          cases heq
          cases ha.symm.trans hx
        | cons y before =>
          cases heq
          exact ⟨before, x, after, rfl, (List.forall_mem_cons.1 hbefore).2, hx⟩

/-! ## The same end -/

/-- Two parts that both succeed, with results that are related, or both fail for one cause. -/
inductive Agree (R : α → β → Prop) : Except Fault α → Except Fault β → Prop
  | ok {a : α} {b : β} (h : R a b) : Agree R (.ok a) (.ok b)
  | error (f : Fault) : Agree R (.error f) (.error f)

/-- No relation between results. -/
def Any (_ : α) (_ : β) : Prop := True

namespace Agree

variable {R : α → β → Prop} {S : γ → δ → Prop} {e : Except Fault α} {e' : Except Fault β}

theorem bind {k : α → Except Fault γ} {k' : β → Except Fault δ} (h : Agree R e e')
    (hk : ∀ a b, R a b → Agree S (k a) (k' b)) : Agree S (e >>= k) (e' >>= k') := by
  cases h with
  | ok hab => exact hk _ _ hab
  | error f => exact .error f

theorem map {f : α → γ} {g : β → δ} (h : Agree R e e') (hf : ∀ a b, R a b → S (f a) (g b)) :
    Agree S (e.map f) (e'.map g) := by
  cases h with
  | ok hab => exact .ok (hf _ _ hab)
  | error f => exact .error f

/-- Whatever is made of results, the failures stay the same. -/
theorem any_map {f : α → γ} {g : β → δ} (h : Agree R e e') : Agree Any (e.map f) (e'.map g) :=
  h.map fun _ _ _ => trivial

theorem refl {T : α → α → Prop} (hT : ∀ a, T a a) (e : Except Fault α) : Agree T e e := by
  cases e with
  | ok a => exact .ok (hT a)
  | error f => exact .error f

theorem any (e : Except Fault α) : Agree Any e e := refl (fun _ => trivial) e

theorem ite {c : Prop} [Decidable c] {d : Except Fault α} {d' : Except Fault β} (h : Agree R e e')
    (h' : Agree R d d') : Agree R (if c then e else d) (if c then e' else d') := by
  split
  · exact h
  · exact h'

theorem same (e : Except Fault α) : Agree Eq e e := refl (fun _ => rfl) e

end Agree

end Measures
