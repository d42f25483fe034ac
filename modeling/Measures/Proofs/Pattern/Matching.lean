import Mathlib.Data.List.Infix
import Measures.Pattern.Basic

/-!
# What patterns match

A pattern reaches an end part of a text from another one if the characters between the two match it.
The matcher finds exactly what can be reached: neither merging ends of one length nor the bound on
repetitions loses any.
-/

namespace Measures.Pattern

variable {text cs r : List Char} {rests : List (List Char)} {p : Pattern}

/-! ## Chains of matches -/

/-- `n` steps of a relation in a row. -/
def Chain {α : Type} (R : α → α → Prop) : Nat → α → α → Prop
  | 0, a, b => a = b
  | n + 1, a, b => ∃ m, R a m ∧ Chain R n m b

theorem chain_add {α : Type} {R : α → α → Prop} {a b : α} {m n : Nat} :
    Chain R (m + n) a b ↔ ∃ c, Chain R m a c ∧ Chain R n c b := by
  induction m generalizing a with
  | zero => simp [Chain]
  | succ m ih =>
    rw [Nat.add_right_comm]
    simp only [Chain, ih]
    constructor
    · rintro ⟨d, hd, c, hc, hb⟩
      exact ⟨c, ⟨d, hd, hc⟩, hb⟩
    · rintro ⟨c, ⟨d, hd, hc⟩, hb⟩
      exact ⟨d, hd, c, hc, hb⟩

theorem suffix_of_chain {R : List Char → List Char → Prop} (hR : ∀ a b, R a b → b <:+ a) {n : Nat}
    {a b : List Char} (h : Chain R n a b) : b <:+ a := by
  induction n generalizing a with
  | zero => exact h ▸ List.suffix_rfl
  | succ n ih =>
    obtain ⟨m, hm, h⟩ := h
    exact (ih h).trans (hR a m hm)

/-- Steps that stay in place can be left out, so that no more are needed than there are characters
in between. -/
theorem exists_chain_le {R : List Char → List Char → Prop} (hR : ∀ a b, R a b → b <:+ a) {n : Nat}
    {a b : List Char} (h : Chain R n a b) :
    ∃ k, k ≤ n ∧ k + b.length ≤ a.length ∧ Chain R k a b := by
  induction n generalizing a with
  | zero => exact ⟨0, Nat.le_refl 0, by rw [show a = b from h]; omega, h⟩
  | succ n ih =>
    obtain ⟨m, hm, h⟩ := h
    obtain ⟨k, hkn, hk, hchain⟩ := ih h
    have hle : m.length ≤ a.length := (hR a m hm).length_le
    by_cases heq : m = a
    · exact ⟨k, by omega, by omega, heq ▸ hchain⟩
    · have hne : m.length ≠ a.length := fun he => heq ((hR a m hm).eq_of_length he)
      exact ⟨k + 1, by omega, by omega, m, hm, hchain⟩

/-! ## What a pattern reaches -/

/-- From one end part of a text a pattern leads to another: what stands between the two matches. -/
def Reaches (text : List Char) : Pattern → List Char → List Char → Prop
  | empty, cs, r => r = cs
  | char set, cs, r => ∃ c, cs = c :: r ∧ set.contains c = true
  | seq p q, cs, r => ∃ m, Reaches text p cs m ∧ Reaches text q m r
  | alt p q, cs, r => Reaches text p cs r ∨ Reaches text q cs r
  | many least most p, cs, r =>
    ∃ n, least ≤ n ∧ (∀ k ∈ most, n ≤ max least k) ∧ Chain (Reaches text p) n cs r
  | start, cs, r => r = cs ∧ cs = text
  | finish, cs, r => r = cs ∧ (cs = [] ∨ cs = ['\n'])
  | last, cs, r => r = cs ∧ cs = []
  | border negated, cs, r => r = cs ∧ text ≠ [] ∧ isBorder text cs ≠ negated
  | ahead negated p, cs, r => r = cs ∧ ((∃ m, Reaches text p cs m) ↔ negated = false)
  | behind negated width p, cs, r =>
    r = cs ∧ ((∃ a ∈ before? text width cs, Reaches text p a cs) ↔ negated = false)

theorem reaches_seq {q : Pattern} :
    (seq p q).Reaches text cs r ↔ ∃ m, p.Reaches text cs m ∧ q.Reaches text m r := Iff.rfl

theorem Reaches.suffix (h : Reaches text p cs r) : r <:+ cs := by
  induction p generalizing cs r with
  | empty => exact h ▸ List.suffix_rfl
  | char set =>
    obtain ⟨c, rfl, -⟩ := h
    exact List.suffix_cons c r
  | seq p q ihp ihq =>
    obtain ⟨m, hm, hr⟩ := h
    exact (ihq hr).trans (ihp hm)
  | alt p q ihp ihq => exact h.elim ihp ihq
  | many least most p ih =>
    obtain ⟨n, -, -, h⟩ := h
    exact suffix_of_chain (fun _ _ => ih) h
  | start | finish | last | border _ | ahead _ _ _ | behind _ _ _ _ => exact h.1 ▸ List.suffix_rfl

/-- Matches of single characters in a row are a text of such characters. -/
theorem chain_char_iff {set : CharSet} {n : Nat} {a b : List Char} :
    Chain ((char set).Reaches text) n a b ↔
      ∃ w, a = w ++ b ∧ w.length = n ∧ ∀ c ∈ w, set.contains c = true := by
  induction n generalizing a with
  | zero =>
    constructor
    · rintro rfl
      exact ⟨[], rfl, rfl, nofun⟩
    · rintro ⟨w, rfl, hw, -⟩
      exact List.length_eq_zero_iff.1 hw ▸ rfl
  | succ n ih =>
    constructor
    · rintro ⟨m, ⟨c, rfl, hc⟩, hchain⟩
      obtain ⟨w, rfl, hw, hall⟩ := ih.1 hchain
      exact ⟨c :: w, rfl, congrArg Nat.succ hw, List.forall_mem_cons.2 ⟨hc, hall⟩⟩
    · rintro ⟨w, rfl, hw, hall⟩
      obtain ⟨c, w, rfl⟩ := List.exists_cons_of_length_eq_add_one hw
      obtain ⟨hc, hall⟩ := List.forall_mem_cons.1 hall
      exact ⟨w ++ b, ⟨c, rfl, hc⟩, ih.2 ⟨w, rfl, Nat.succ.inj hw, hall⟩⟩

theorem reaches_many_char_iff {set : CharSet} {least : Nat} :
    (many least none (char set)).Reaches text cs r ↔
      ∃ w, cs = w ++ r ∧ least ≤ w.length ∧ ∀ c ∈ w, set.contains c = true := by
  rw [Reaches]
  constructor
  · rintro ⟨n, hn, -, hchain⟩
    obtain ⟨w, hcs, rfl, hall⟩ := chain_char_iff.1 hchain
    exact ⟨w, hcs, hn, hall⟩
  · rintro ⟨w, hcs, hn, hall⟩
    exact ⟨w.length, hn, nofun, chain_char_iff.2 ⟨w, hcs, rfl, hall⟩⟩

/-! ## What the matcher finds -/

theorem eq_of_suffix {a b : List Char} (ha : a <:+ text) (hb : b <:+ text)
    (h : a.length = b.length) : a = b :=
  (List.suffix_of_suffix_length_le ha hb (Nat.le_of_eq h)).eq_of_length h

/-- End parts of one text are merged only if they are equal. -/
theorem mem_merge : ∀ {rests : List (List Char)}, (∀ a ∈ rests, a <:+ text) →
    (r ∈ merge rests ↔ r ∈ rests)
  | [], _ => Iff.rfl
  | a :: rest, h => by
    obtain ⟨ha, hrest⟩ := List.forall_mem_cons.1 h
    have hmerged : r ∈ merge (rest.filter fun b => (b.length == a.length) = false) ↔ _ :=
      mem_merge fun b hb => hrest b (List.mem_filter.1 hb).1
    have hlength (hr : r ∈ rest) (hne : r ≠ a) : r.length ≠ a.length :=
      fun he => hne (eq_of_suffix (hrest r hr) ha he)
    rw [merge] at hmerged ⊢
    rw [List.eraseDupsBy_cons, List.mem_cons, List.mem_cons, hmerged, List.mem_filter,
      decide_eq_true_eq, beq_eq_false_iff_ne]
    constructor
    · exact Or.imp_right And.left
    · rintro (heq | hr)
      · exact .inl heq
      · by_cases heq : r = a
        · exact .inl heq
        · exact .inr ⟨hr, hlength hr heq⟩
termination_by rests => rests.length
decreasing_by exact Nat.lt_succ_of_le (List.length_filter_le _ _)

/-! ### Chains of matches -/

section

variable {f : List Char → List (List Char)} {R : List Char → List Char → Prop}

theorem mem_merge_flatMap (hR : ∀ a b, R a b → b <:+ a)
    (hf : ∀ a, a <:+ text → ∀ b, b ∈ f a ↔ R a b) (h : ∀ a ∈ rests, a <:+ text) :
    (∀ a ∈ merge (rests.flatMap f), a <:+ text) ∧
      (r ∈ merge (rests.flatMap f) ↔ ∃ a ∈ rests, R a r) := by
  have hmem (b : List Char) : b ∈ rests.flatMap f ↔ ∃ a ∈ rests, R a b := by
    rw [List.mem_flatMap]
    exact exists_congr fun a => and_congr_right fun ha => hf a (h a ha) b
  have hsuffix : ∀ b ∈ rests.flatMap f, b <:+ text := by
    intro b hb
    obtain ⟨a, ha, hab⟩ := (hmem b).1 hb
    exact (hR a b hab).trans (h a ha)
  exact ⟨fun a ha => hsuffix a ((mem_merge hsuffix).1 ha), (mem_merge hsuffix).trans (hmem r)⟩

theorem mem_endsAfter (hR : ∀ a b, R a b → b <:+ a)
    (hf : ∀ a, a <:+ text → ∀ b, b ∈ f a ↔ R a b) {n : Nat} (h : ∀ a ∈ rests, a <:+ text) :
    r ∈ endsAfter f n rests ↔ ∃ a ∈ rests, Chain R n a r := by
  induction n generalizing rests with
  | zero => simp [endsAfter, Chain]
  | succ n ih =>
    obtain ⟨hsuffix, -⟩ := mem_merge_flatMap (r := r) hR hf h
    rw [endsAfter, ih hsuffix]
    constructor
    · rintro ⟨m, hm, hchain⟩
      obtain ⟨a, ha, ham⟩ := (mem_merge_flatMap hR hf h).2.1 hm
      exact ⟨a, ha, m, ham, hchain⟩
    · rintro ⟨a, ha, m, ham, hchain⟩
      exact ⟨m, (mem_merge_flatMap hR hf h).2.2 ⟨a, ha, ham⟩, hchain⟩

theorem mem_endsUpTo (hR : ∀ a b, R a b → b <:+ a)
    (hf : ∀ a, a <:+ text → ∀ b, b ∈ f a ↔ R a b) {n : Nat} (h : ∀ a ∈ rests, a <:+ text) :
    r ∈ endsUpTo f n rests ↔ ∃ k ≤ n, ∃ a ∈ rests, Chain R k a r := by
  induction n generalizing rests r with
  | zero => simp [endsUpTo, Chain]
  | succ n ih =>
    obtain ⟨hsuffix, -⟩ := mem_merge_flatMap (r := r) hR hf h
    have hmore : ∀ a ∈ rests ++ endsUpTo f n (merge (rests.flatMap f)), a <:+ text := by
      intro b hb
      rcases List.mem_append.1 hb with hb | hb
      · exact h b hb
      · obtain ⟨k, -, a, ha, hchain⟩ := (ih hsuffix).1 hb
        exact (suffix_of_chain hR hchain).trans (hsuffix a ha)
    rw [endsUpTo, mem_merge hmore, List.mem_append, ih hsuffix]
    constructor
    · rintro (hr | ⟨k, hk, m, hm, hchain⟩)
      · exact ⟨0, Nat.zero_le _, r, hr, rfl⟩
      · obtain ⟨a, ha, ham⟩ := (mem_merge_flatMap hR hf h).2.1 hm
        exact ⟨k + 1, by omega, a, ha, m, ham, hchain⟩
    · rintro ⟨k, hk, a, ha, hchain⟩
      cases k with
      | zero => exact .inl ((show a = r from hchain) ▸ ha)
      | succ k =>
        obtain ⟨m, ham, hchain⟩ := hchain
        exact .inr ⟨k, by omega, m, (mem_merge_flatMap hR hf h).2.2 ⟨a, ha, ham⟩, hchain⟩

end

/-- The matcher counts the matches after the needed ones, and no more of them than there are
characters. -/
theorem exists_chain_iff {R : List Char → List Char → Prop} (hR : ∀ a b, R a b → b <:+ a)
    {least : Nat} {most : Option Nat} :
    (∃ k ≤ (match most with
        | some most => min (most - least) cs.length
        | none => cs.length), ∃ a, Chain R least cs a ∧ Chain R k a r) ↔
      ∃ n, least ≤ n ∧ (∀ k ∈ most, n ≤ max least k) ∧ Chain R n cs r := by
  constructor
  · rintro ⟨k, hk, hchain⟩
    refine ⟨least + k, Nat.le_add_right _ _, ?_, chain_add.2 hchain⟩
    rintro m rfl
    simp only at hk
    omega
  · rintro ⟨n, hleast, hmost, hchain⟩
    obtain ⟨more, rfl⟩ := Nat.exists_eq_add_of_le hleast
    obtain ⟨a, ha, hchain⟩ := chain_add.1 hchain
    obtain ⟨k, hk, hlength, hchain⟩ := exists_chain_le hR hchain
    have hle : a.length ≤ cs.length := (suffix_of_chain hR ha).length_le
    refine ⟨k, ?_, a, ha, hchain⟩
    cases most with
    | none => simp only; omega
    | some m =>
      have := hmost m rfl
      simp only
      omega

theorem before?_suffix {width : Nat} {a : List Char} (h : a ∈ before? text width cs) :
    a <:+ text := by
  unfold before? at h
  split at h
  · cases h
    exact List.drop_suffix _ _
  · cases h

/-- An end part of a text is found at the front of another one if and only if the pattern reaches
it. -/
theorem mem_ends (h : cs <:+ text) : r ∈ p.ends text cs ↔ p.Reaches text cs r := by
  induction p generalizing cs r with
  | empty => simp [ends, Reaches]
  | char set =>
    cases cs with
    | nil => simp [ends, Reaches]
    | cons c rest =>
      simp only [ends, Reaches, List.mem_ite_nil_right, List.mem_singleton, List.cons.injEq]
      grind
  | seq p q ihp ihq =>
    have hR : ∀ a b, q.Reaches text a b → b <:+ a := fun _ _ => Reaches.suffix
    have hrests : ∀ a ∈ p.ends text cs, a <:+ text := fun a ha => ((ihp h).1 ha).suffix.trans h
    rw [ends, (mem_merge_flatMap hR (fun a ha b => ihq ha) hrests).2]
    exact exists_congr fun a => and_congr_left fun _ => ihp h
  | alt p q ihp ihq =>
    have hrests : ∀ a ∈ p.ends text cs ++ q.ends text cs, a <:+ text := by
      intro a ha
      rcases List.mem_append.1 ha with ha | ha
      · exact ((ihp h).1 ha).suffix.trans h
      · exact ((ihq h).1 ha).suffix.trans h
    rw [ends, mem_merge hrests, List.mem_append, ihp h, ihq h, Reaches]
  | many least most p ih =>
    have hR : ∀ a b, p.Reaches text a b → b <:+ a := fun _ _ => Reaches.suffix
    have hf : ∀ a, a <:+ text → ∀ b, b ∈ p.ends text a ↔ p.Reaches text a b := fun a ha b => ih ha
    have hone : ∀ a ∈ [cs], a <:+ text := fun a ha => List.mem_singleton.1 ha ▸ h
    have hafter (a : List Char) :
        a ∈ endsAfter (p.ends text) least [cs] ↔ Chain (p.Reaches text) least cs a := by
      rw [mem_endsAfter hR hf hone]
      simp only [List.mem_singleton, exists_eq_left]
    -- The needed matches come first, and then as many more as can still move.
    have hneeded : ∀ a ∈ endsAfter (p.ends text) least [cs], a <:+ text :=
      fun a ha => (suffix_of_chain hR ((hafter a).1 ha)).trans h
    simp only [ends, mem_endsUpTo hR hf hneeded, hafter, Reaches]
    exact exists_chain_iff hR
  | start =>
    rw [ends, List.mem_ite_nil_right, List.mem_singleton, and_comm]
    exact and_congr_right fun _ => ⟨h.eq_of_length, congrArg List.length⟩
  | finish | last | border _ =>
    rw [ends, List.mem_ite_nil_right, List.mem_singleton, and_comm]
    exact Iff.rfl
  | ahead negated p ih =>
    have hfound : (p.ends text cs).isEmpty = false ↔ ∃ m, p.Reaches text cs m := by
      simp only [← ih h, List.isEmpty_eq_false_iff_exists_mem]
    rw [ends, List.mem_ite_nil_right, List.mem_singleton, and_comm, Reaches, ← hfound]
    cases (p.ends text cs).isEmpty <;> cases negated <;> simp
  | behind negated width p ih =>
    have hends {a : List Char} (ha : a <:+ text) :
        (p.ends text a).any (·.length == cs.length) = true ↔ p.Reaches text a cs := by
      rw [List.any_eq_true, ← ih ha]
      constructor
      · rintro ⟨b, hb, hlength⟩
        have hsuffix : b <:+ text := ((ih ha).1 hb).suffix.trans ha
        exact eq_of_suffix hsuffix h (beq_iff_eq.1 hlength) ▸ hb
      · exact fun hcs => ⟨cs, hcs, beq_self_eq_true _⟩
    have hfound : ((before? text width cs).any fun earlier =>
        (p.ends text earlier).any (·.length == cs.length)) = true ↔
          ∃ a ∈ before? text width cs, p.Reaches text a cs := by
      rw [Option.any_eq_true]
      exact exists_congr fun a => and_congr_right fun ha => hends (before?_suffix ha)
    rw [ends, List.mem_ite_nil_right, List.mem_singleton, and_comm, Reaches, ← hfound]
    refine and_congr_right fun _ => ?_
    cases negated <;> simp

/-! ## Where a pattern occurs -/

theorem tails_eq (cs : List Char) : tails cs = cs.tails := by
  induction cs with
  | nil => rfl
  | cons c rest ih => rw [tails, ih, List.tails_cons]

/-- A pattern occurs in a text if it reaches something from one of the end parts. -/
theorem occursIn_iff {s : String} :
    p.occursIn s = true ↔ ∃ cs, cs <:+ s.toList ∧ ∃ r, p.Reaches s.toList cs r := by
  rw [occursIn, List.any_eq_true, tails_eq]
  refine exists_congr fun cs => ?_
  rw [List.mem_tails]
  refine and_congr_right fun h => ?_
  rw [Bool.not_eq_true', List.isEmpty_eq_false_iff_exists_mem]
  exact exists_congr fun r => mem_ends h

end Measures.Pattern
