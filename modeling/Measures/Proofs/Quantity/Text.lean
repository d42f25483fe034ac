import Measures.Proofs.Binary64.Text
import Measures.Proofs.Quantity.Dimension

/-!
# The text of a quantity loses nothing

The power begins at the first caret, since neither a number nor a unit has one in its text. Of two
units none ends as the other does, so what is left is split in one way only.
-/

namespace Measures

/-! ## Units -/

namespace BaseUnit

theorem caret_not_mem_displayName (u : BaseUnit) : '^' ∉ u.displayName.toList := by
  cases u <;> decide

theorem eq_of_suffix {u v : BaseUnit} (h : u.displayName.toList <:+ v.displayName.toList) :
    u = v := by
  revert h
  cases u <;> cases v <;> decide

end BaseUnit

theorem Binary64.caret_not_mem_text (x : Binary64) : '^' ∉ x.text.toList := by
  have hcaret : '^' ∉ FloatLayout.written := by decide
  exact fun h => hcaret (x.text_subset h)

/-! ## Powers -/

/-- What the text of a quantity ends with for its power. -/
def powerMark (p : Int) : String := if p = 0 then "" else "^" ++ toString p

theorem head_powerMark (p : Int) : ∀ c ∈ (powerMark p).toList.head?, c = '^' := by
  unfold powerMark
  split
  · nofun
  · intro c hc
    rw [String.toList_append] at hc
    exact (Option.some.inj hc).symm

theorem digits_inj {m n : Nat} (h : Nat.toDigits 10 m = Nat.toDigits 10 n) : m = n := by
  have hvalue := congrArg (fun ds => Nat.ofDigitChars 10 ds 0) h
  simpa only [Nat.ofDigitChars_ten_toDigits] using hvalue

theorem minus_not_digits {n : Nat} {cs : List Char} : Nat.toDigits 10 n ≠ '-' :: cs := by
  intro h
  have hminus := FloatLayout.isDigit_of_mem_toDigits (h ▸ List.mem_cons_self : '-' ∈ _)
  cases hminus

theorem toList_toString (p : Int) : (toString p).toList
    = if 0 ≤ p then Nat.toDigits 10 p.toNat else '-' :: Nat.toDigits 10 (-p).toNat := by
  rw [Int.toString_eq_repr, Int.repr_eq_if]
  split
  · rw [Nat.repr_eq_ofList_toDigits, String.toList_ofList]
  · simp only [String.toList_append, Nat.repr_eq_ofList_toDigits, String.toList_ofList]
    rfl

theorem toString_inj {p q : Int} (h : (toString p).toList = (toString q).toList) : p = q := by
  rw [toList_toString, toList_toString] at h
  split at h <;> split at h
  · have := digits_inj h
    omega
  · exact absurd h minus_not_digits
  · exact absurd h.symm minus_not_digits
  · have := digits_inj (List.cons.inj h).2
    omega

theorem powerMark_inj {p q : Int} (h : powerMark p = powerMark q) : p = q := by
  have hlist := congrArg String.toList h
  unfold powerMark at hlist
  split at hlist <;> split at hlist <;> simp only [String.toList_append] at hlist
  · next hp hq => rw [hp, hq]
  · cases hlist
  · cases hlist
  · exact toString_inj (List.append_cancel_left hlist)

/-! ## Parts of a text -/

/-- What comes before a mark is told from what begins with it. -/
theorem takeWhile_marked {cs ms : List Char} {mark : Char} (hcs : mark ∉ cs)
    (hms : ∀ c ∈ ms.head?, c = mark) : (cs ++ ms).takeWhile (· != mark) = cs := by
  induction cs with
  | nil =>
    cases ms with
    | nil => rfl
    | cons c ms => simp [hms c rfl]
  | cons c cs ih =>
    rw [List.mem_cons, not_or] at hcs
    simp [Ne.symm hcs.1, ih hcs.2]

theorem append_marked_inj {cs ds ms ns : List Char} {mark : Char} (hcs : mark ∉ cs)
    (hds : mark ∉ ds) (hms : ∀ c ∈ ms.head?, c = mark) (hns : ∀ c ∈ ns.head?, c = mark)
    (h : cs ++ ms = ds ++ ns) : cs = ds ∧ ms = ns := by
  have hbefore : cs = ds := by
    rw [← takeWhile_marked hcs hms, h, takeWhile_marked hds hns]
  subst hbefore
  exact ⟨rfl, List.append_cancel_left h⟩

namespace Quantity

variable {q r : Quantity} {d e : Dimension}

theorem HasDimension.text_eq (h : q.HasDimension d) :
    q.text = q.value.text ++ d.unit.displayName ++ powerMark d.power := by
  simp [Quantity.text_eq, unitName, hasPower, powerMark, h.unit, h.power]

/-- Two quantities with one text have one value, one base unit and one power. -/
theorem HasDimension.text_inj (hq : q.HasDimension d) (hr : r.HasDimension e)
    (h : q.text = r.text) : q.value = r.value ∧ d = e := by
  have hcaret (q : Quantity) (d : Dimension) :
      '^' ∉ q.value.text.toList ++ d.unit.displayName.toList := by
    rw [List.mem_append, not_or]
    exact ⟨q.value.caret_not_mem_text, d.unit.caret_not_mem_displayName⟩
  have hlist := congrArg String.toList h
  rw [hq.text_eq, hr.text_eq] at hlist
  simp only [String.toList_append] at hlist
  obtain ⟨hfront, hmark⟩ := append_marked_inj (hcaret q d) (hcaret r e)
    (head_powerMark d.power) (head_powerMark e.power) hlist
  have hunit : d.unit = e.unit := by
    have hd : d.unit.displayName.toList <:+ r.value.text.toList ++ e.unit.displayName.toList :=
      ⟨_, hfront⟩
    rcases List.suffix_or_suffix_of_suffix hd (List.suffix_append _ _) with hsuffix | hsuffix
    · exact BaseUnit.eq_of_suffix hsuffix
    · exact (BaseUnit.eq_of_suffix hsuffix).symm
  rw [hunit] at hfront
  have hvalue := Binary64.text_inj (String.toList_inj.1 (List.append_cancel_right hfront))
  have hpower := powerMark_inj (String.toList_inj.1 hmark)
  obtain ⟨u, p⟩ := d
  obtain ⟨v, n⟩ := e
  exact ⟨hvalue, congrArg₂ Dimension.mk hunit hpower⟩

end Quantity

end Measures
