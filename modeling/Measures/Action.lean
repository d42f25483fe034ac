import Measures.Fault

/-!
# Actions on a state

An action reads and writes a state and may fail. A failure undoes nothing: what was written before
it stays written. A sequence of actions goes on after a failure.
-/

namespace Measures

abbrev Action (σ α : Type) := ExceptT Fault (StateM σ) α

namespace Action

variable {σ τ α β ι : Type}

/-! ## Performing -/

/-- The result of an action and the state that it leaves. -/
def perform (m : Action σ α) (s : σ) : Except Fault α × σ := StateT.run (ExceptT.run m) s

@[simp] theorem perform_pure (a : α) (s : σ) : perform (pure a) s = (.ok a, s) := rfl

@[simp] theorem perform_throw (f : Fault) (s : σ) :
    perform (throw f : Action σ α) s = (.error f, s) := rfl

@[simp] theorem perform_get (s : σ) : perform (getThe σ) s = (.ok s, s) := rfl

@[simp] theorem perform_modify (change : σ → σ) (s : σ) :
    perform (modify change) s = (.ok (), change s) := rfl

@[simp] theorem perform_liftM (e : Except Fault α) (s : σ) :
    perform (liftM e : Action σ α) s = (e, s) := rfl

theorem perform_bind (m : Action σ α) (k : α → Action σ β) (s : σ) :
    perform (m >>= k) s = match m.perform s with
      | (.ok a, t) => (k a).perform t
      | (.error f, t) => (.error f, t) := by
  simp only [perform, ExceptT.run_bind, StateT.run_bind]
  rcases StateT.run (ExceptT.run m) s with ⟨_ | _, _⟩ <;> rfl

theorem perform_bind_eq_ok {m : Action σ α} {k : α → Action σ β} {s : σ} {b : β} :
    (perform (m >>= k) s).1 = .ok b ↔
      ∃ a, (m.perform s).1 = .ok a ∧ ((k a).perform (m.perform s).2).1 = .ok b := by
  rw [perform_bind]
  rcases m.perform s with ⟨_ | _, _⟩ <;> simp

/-- A part that only reads goes in front of an action whose end is known. -/
theorem perform_reads_bind {γ : Type} {s : σ} {m : Action σ α} {e : Except Fault α}
    {k : α → Action σ β} {next : α → Except Fault γ} {ending : Except Fault γ → Except Fault β × σ}
    (hending : ∀ f, ending (.error f) = (.error f, s)) (hm : m.perform s = (e, s))
    (hk : ∀ a, e = .ok a → (k a).perform s = ending (next a)) :
    (m >>= k).perform s = ending (e >>= next) := by
  rw [perform_bind, hm]
  cases e with
  | error f => exact (hending f).symm
  | ok a => exact hk a rfl

/-- Parts that only read, one after the other, only read. -/
theorem perform_reads {s : σ} {m : Action σ α} {e : Except Fault α} {k : α → Action σ β}
    {next : α → Except Fault β} (hm : m.perform s = (e, s))
    (hk : ∀ a, (k a).perform s = (next a, s)) : (m >>= k).perform s = (e >>= next, s) := by
  rw [perform_bind, hm]
  cases e with
  | error f => rfl
  | ok a => exact hk a

/-! ## Parts and outcomes -/

def within (part : τ → σ) (replace : τ → σ → τ) (m : Action σ α) : Action τ α :=
  ExceptT.mk fun t => ((m.perform (part t)).1, replace t (m.perform (part t)).2)

@[simp] theorem perform_within (part : τ → σ) (replace : τ → σ → τ) (m : Action σ α) (t : τ) :
    perform (within part replace m) t
      = ((m.perform (part t)).1, replace t (m.perform (part t)).2) := rfl

/-- The state that an action leaves, if it does not fail. -/
def final (m : Action σ α) (s : σ) : Except Fault σ :=
  (m.perform s).1.map fun _ => (m.perform s).2

/-! ## Sequences -/

/-- The results of actions one after the other, each with the state that it leaves. -/
def trace (act : ι → Action σ α) (s : σ) : List ι → List (Except Fault α × σ)
  | [] => []
  | i :: rest => (act i).perform s :: trace act ((act i).perform s).2 rest

theorem forall_trace {P : σ → Prop} {act : ι → Action σ α} {is : List ι}
    (hkeep : ∀ i ∈ is, ∀ s, P s → P ((act i).perform s).2) {s : σ} (h : P s) :
    ∀ o ∈ trace act s is, P o.2 := by
  induction is generalizing s with
  | nil => simp [trace]
  | cons i rest ih =>
    have hi := hkeep i (by simp) s h
    intro o ho
    rcases List.mem_cons.1 ho with rfl | ho
    · exact hi
    · exact ih (fun j hj => hkeep j (by simp [hj])) hi o ho

def after (act : ι → Action σ α) (s : σ) (is : List ι) : σ :=
  is.foldl (fun s i => ((act i).perform s).2) s

@[simp] theorem after_nil (act : ι → Action σ α) (s : σ) : after act s [] = s := rfl

theorem after_cons (act : ι → Action σ α) (s : σ) (i : ι) (rest : List ι) :
    after act s (i :: rest) = after act ((act i).perform s).2 rest := rfl

theorem after_append (act : ι → Action σ α) (s : σ) (is later : List ι) :
    after act s (is ++ later) = after act (after act s is) later := List.foldl_append

/-- What each action keeps is kept by all of them. -/
theorem keep_after {P : σ → Prop} {act : ι → Action σ α} {is : List ι}
    (hkeep : ∀ i ∈ is, ∀ s, P s → P ((act i).perform s).2) {s : σ} (h : P s) :
    P (after act s is) := by
  induction is generalizing s with
  | nil => exact h
  | cons i rest ih =>
    obtain ⟨hi, hrest⟩ := List.forall_mem_cons.1 hkeep
    rw [after_cons]
    exact ih hrest (hi s h)

end Action

end Measures
