import Measures.Proofs.Quantity.Limited
import Measures.Proofs.Session.Surface

/-!
# Names and texts after overwritings

Fields are overwritten one after the other, and each holds what was written to it last. Whatever
that is, a quantity is still named and shown, unless a list has to be looked up for it.
-/

namespace Measures

/-! ## What the fields hold -/

/-- What a field holds after overwritings, the last one counting, from what it held before. -/
def Field.heldAfter (field : Field) (before : Datum) (contents : List (Field × Datum)) : Datum :=
  contents.foldl (fun d content => if content.1 = field then content.2 else d) before

theorem UnitSlot.datum_ofDatum (d : Datum) (mark : Nat) : (ofDatum d mark).datum = d := by
  unfold ofDatum
  split <;> rfl

namespace Power

theorem map_withOrigins (mark place : Nat) (ds : List Datum) :
    (withOrigins mark place ds).map (·.2) = ds := by
  induction ds generalizing place with
  | nil => rfl
  | cons d rest ih => rw [withOrigins, List.map_cons, ih]

theorem datum_ofDatum (d : Datum) (mark : Nat) : (ofDatum d mark).datum = d := by
  cases d with
  | list ds => exact congrArg Datum.list (map_withOrigins mark 0 ds)
  | _ => rfl

end Power

namespace Quantity

variable {q : Quantity}

def content (q : Quantity) : Field → Datum
  | .unit => q.unit.datum
  | .madeUnit => q.madeUnit.datum
  | .power => q.power.datum

/-- A quantity after overwritings, the first of which has the given mark. -/
def overwritten (q : Quantity) (mark : Nat) : List (Field × Datum) → Quantity
  | [] => q
  | (field, d) :: rest => (q.overwrite field d mark).overwritten (mark + 1) rest

theorem content_overwrite (q : Quantity) (field other : Field) (d : Datum) (mark : Nat) :
    (q.overwrite field d mark).content other = if field = other then d else q.content other := by
  cases field with
  | unit | madeUnit => cases other <;> simp [overwrite, content, UnitSlot.datum_ofDatum]
  | power => cases other <;> simp [overwrite, content, Power.datum_ofDatum]

theorem content_overwritten (q : Quantity) (mark : Nat) (contents : List (Field × Datum))
    (field : Field) :
    (q.overwritten mark contents).content field = field.heldAfter (q.content field) contents := by
  induction contents generalizing q mark with
  | nil => rfl
  | cons content rest ih =>
    rw [overwritten, ih, content_overwrite]
    rfl

/-- All that is not overwritten stays. -/
theorem eq_overwritten (q : Quantity) (mark : Nat) (contents : List (Field × Datum)) :
    q.overwritten mark contents = { q with
      unit := (q.overwritten mark contents).unit
      power := (q.overwritten mark contents).power
      madeUnit := (q.overwritten mark contents).madeUnit } := by
  induction contents generalizing q mark with
  | nil => rfl
  | cons content rest ih =>
    obtain ⟨field, d⟩ := content
    refine (ih (q.overwrite field d mark) (mark + 1)).trans ?_
    cases field <;> rfl

theorem isWritable_overwritten {contents : List (Field × Datum)}
    (hproperty : q.property.isWritable = true) (hliteral : q.literal.isWritable = true)
    (hheld : ∀ field : Field, (field.heldAfter (q.content field) contents).isWritable = true)
    (mark : Nat) : (q.overwritten mark contents).IsWritable := by
  have hcontent (field : Field) :
      ((q.overwritten mark contents).content field).isWritable = true := by
    rw [content_overwritten]
    exact hheld field
  constructor
  case property =>
    rw [eq_overwritten]
    exact hproperty
  case literal =>
    rw [eq_overwritten]
    exact hliteral
  case unit => exact hcontent .unit
  case power => exact hcontent .power
  case madeUnit => exact hcontent .madeUnit

end Quantity

/-- A list is in the way of a question that looks up the base unit at the time of making. -/
def Query.IsStoppedBy (query : Query) (made : Datum) : Prop :=
  query.looksUp = true ∧ ∃ items, made = .list items

namespace Session

variable {registry : Except Fault Registry} {s : Session} {q : Quantity} {n : String}

/-! ## Overwritings -/

def overwriting (n : String) (contents : List (Field × Datum)) : List Request :=
  contents.map fun content => ⟨.ok .empty, .overwrite n content.1 (.datum content.2)⟩

theorem step_overwrite_of_get? (hq : s.get? n = some q) (field : Field) (d : Datum) :
    s.step registry (.overwrite n field (.datum d))
      = (.ok .nothing, { s.put n (q.overwrite field d s.marks) with marks := s.marks + 1 }) := by
  rw [step_overwrite, get_eq_ok_iff.2 hq]
  rfl

theorem get?_overwriting (hq : s.get? n = some q) (contents : List (Field × Datum)) :
    (s.after (overwriting n contents)).get? n = some (q.overwritten s.marks contents) := by
  induction contents generalizing s q with
  | nil => exact hq
  | cons content rest ih =>
    have hnext : (s.step (.ok .empty) (.overwrite n content.1 (.datum content.2))).2 = _ :=
      congrArg Prod.snd (step_overwrite_of_get? hq content.1 content.2)
    have hafter : s.after (overwriting n (content :: rest)) = _ :=
      congrArg (after · (overwriting n rest)) hnext
    rw [hafter]
    exact ih (get?_put_self s n _)

/-! ## Answers in words -/

/-- Whatever the base unit, the base unit at the time of making and the power are overwritten with,
in any order and as often as one likes, a quantity answers with a text when it is asked for its
names and its texts, and asking changes nothing. The limit on the digits of integers is not met, if
no integer held has too many. Only a list as the base unit at the time of making is in the way of
the two questions that look it up. -/
theorem diagnostics_of_overwritten (hq : s.get? n = some q)
    (hproperty : q.property.isWritable = true) (hliteral : q.literal.isWritable = true)
    {contents : List (Field × Datum)}
    (hheld : ∀ field : Field, (field.heldAfter (q.content field) contents).isWritable = true)
    (registry : Except Fault Registry) :
    let t := s.after (overwriting n contents)
    let made := Field.madeUnit.heldAfter (q.content .madeUnit) contents
    let answer (query : Query) := t.step registry (.ask n query)
    ∃ r, t.get? n = some r ∧
      r = { q with unit := r.unit, power := r.power, madeUnit := r.madeUnit } ∧
      (∀ field : Field, r.content field = field.heldAfter (q.content field) contents) ∧
      ∀ query ∈ Query.diagnostics, (answer query).2 = t ∧
        (answer query).1 = (query.limited r).map .datum ∧
        ((∃ text, (answer query).1 = .ok (.datum (.text text))) ↔ ¬ query.IsStoppedBy made) ∧
        (query.IsStoppedBy made → (answer query).1 = .error (.unhashable "list")) := by
  intro t made answer
  have hr := get?_overwriting hq contents
  have hcontent := q.content_overwritten s.marks contents
  have hwritable := Quantity.isWritable_overwritten hproperty hliteral hheld s.marks
  refine ⟨_, hr, q.eq_overwritten s.marks contents, hcontent, fun query hquery => ?_⟩
  have hanswer : (answer query).1 = _ := answer_ask hr query
  have hstopped : query.IsStoppedBy made → (answer query).1 = .error (.unhashable "list") := by
    rintro ⟨hlooks, items, hitems⟩
    rw [hanswer, Query.answer_of_list ((hcontent .madeUnit).trans hitems) hlooks]
    rfl
  refine ⟨congrArg Prod.snd (step_ask n query), ?_, ⟨?_, ?_⟩, hstopped⟩
  · rw [hanswer, hwritable.limited_eq]
  · rintro ⟨text, htext⟩ hstop
    cases (hstopped hstop).symm.trans htext
  · intro hstop
    obtain ⟨text, htext⟩ := Query.exists_answer hquery fun hlooks items hitems =>
      hstop ⟨hlooks, items, (hcontent .madeUnit).symm.trans hitems⟩
    rw [hanswer, htext]
    exact ⟨text, rfl⟩

/-- A number `a`. -/
def counted : List Request :=
  [⟨.ok .empty, .make (.ofKind .number (.datum (.int 0)) (.datum (.float (.ofInt 1))) none) "a"⟩]

/-- Texts that look like base units, one of them where a list was. -/
def lookalikes : List (Field × Datum) :=
  [(.madeUnit, .list []), (.power, .list [.float .nan, .int 128]), (.unit, .text "number"),
    (.madeUnit, .text "millipoints")]

theorem diagnostics_of_overwritten_lookalikes :
    let s := after empty counted
    let t := s.after (overwriting "a" lookalikes)
    let answer (query : Query) := t.step (.ok .empty) (.ask "a" query)
    (∃ q, s.get? "a" = some q ∧ q.property.isWritable = true ∧ q.literal.isWritable = true ∧
      ∀ field : Field, (field.heldAfter (q.content field) lookalikes).isWritable = true) ∧
      (∀ query ∈ Query.diagnostics, (answer query).2 = t ∧
        ∃ text, (answer query).1 = .ok (.datum (.text text))) ∧
      (answer .literalUnitName).1 = .ok (.datum (.text "Unrecognized length unit: None")) := by
  intro s t answer
  have hq : s.get? "a" = some (.ofParts (.int 0) (.ofInt 1) .number 0 .none) := rfl
  have hheld (field : Field) : (field.heldAfter
      ((Quantity.ofParts (.int 0) (.ofInt 1) .number 0 .none).content field) lookalikes).isWritable
        = true := by
    cases field <;> decide
  obtain ⟨r, -, -, -, hrun⟩ :=
    diagnostics_of_overwritten hq (by decide) (by decide) hheld (.ok .empty)
  refine ⟨⟨_, hq, by decide, by decide, hheld⟩, fun query hquery => ?_, rfl⟩
  obtain ⟨hkeeps, -, htext, -⟩ := hrun query hquery
  refine ⟨hkeeps, htext.2 ?_⟩
  rintro ⟨-, items, hitems⟩
  cases hitems

/-- With a list as the base unit at the time of making there is neither a name of the literal unit
nor a full text. -/
theorem not_diagnostics_of_list :
    let contents := [(Field.unit, Datum.text "bogus"), (.madeUnit, .list []), (.power, .none)]
    let t := after empty (counted ++ overwriting "a" contents)
    let answer (query : Query) := (t.step (.ok .empty) (.ask "a" query)).1
    (∀ text, answer .literalUnitName ≠ .ok (.datum (.text text))) ∧
      ∀ text, answer .fullText ≠ .ok (.datum (.text text)) := by
  intro contents t answer
  have hname : answer .literalUnitName = .error (.unhashable "list") := rfl
  have hfull : answer .fullText = .error (.unhashable "list") := rfl
  rw [hname, hfull]
  exact ⟨nofun, nofun⟩

end Session

end Measures
