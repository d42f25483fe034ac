/-!
# Categories of values

A property says which of six categories of values it takes.
-/

namespace Measures

inductive Category where
  | number
  | percentage
  | length
  | frequency
  | time
  | angle
  deriving DecidableEq, Repr

namespace Category

def all : List Category := [number, percentage, length, frequency, time, angle]

/-- Every category, in the order of the texts. -/
def sorted : List Category := [angle, frequency, length, number, percentage, time]

def text : Category → String
  | number => "NUMBER"
  | percentage => "PERCENTAGE"
  | length => "LENGTH"
  | frequency => "FREQUENCY"
  | time => "TIME"
  | angle => "ANGLE"

def ofText? (s : String) : Option Category := all.find? (·.text == s)

theorem mem_all (c : Category) : c ∈ all := by cases c <;> decide

theorem mem_sorted (c : Category) : c ∈ sorted := by cases c <;> decide

@[simp] theorem ofText?_text (c : Category) : ofText? c.text = some c := by
  cases c <;> decide

theorem ofText?_eq_some_iff {s : String} {c : Category} : ofText? s = some c ↔ s = c.text := by
  constructor
  · intro h
    have htext := List.find?_some h
    exact (beq_iff_eq.1 htext).symm
  · rintro rfl
    exact ofText?_text c

theorem text_inj {c d : Category} : c.text = d.text ↔ c = d := by
  rw [← ofText?_eq_some_iff, ofText?_text, Option.some.injEq]

end Category

end Measures
