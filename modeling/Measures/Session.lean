import Measures.Quantity.Query
import Measures.Quantity.Validation
import Measures.Session.Change

/-!
# Sessions

A step makes a quantity, copies one, changes one in place or asks about one. Every step is an action
on the store, so that a step that fails would leave what it wrote before.
-/

namespace Measures

/-! ## Steps -/

/-- The ways to make a quantity. Only the first one takes the property as given. -/
inductive Recipe where
  | full (property value unit power literal : Argument)
  | ofProperty (property value unit power literal : Argument)
  | ofKind (kind : Quantity.Kind) (property value : Argument) (unit : Option Argument)

inductive Comparison where
  | max
  | min
  deriving DecidableEq, Repr

/-- The fields that can be overwritten from outside. -/
inductive Field where
  | unit
  | madeUnit
  | power
  deriving DecidableEq, Repr

inductive Step where
  | make (recipe : Recipe) (target : String)
  | copy (source target : String)
  /-- The negative of a quantity as a new one. -/
  | opposite (source target : String)
  | change (subject : String) (change : Change)
  | ask (subject : String) (query : Query)
  | compare (subject : String) (comparison : Comparison) (argument : Argument)
  | describe (subject : String)
  | validate (subject : String)
  | overwrite (subject : String) (field : Field) (content : Argument)

inductive Answer where
  | made
  | copied (q : Quantity)
  | changed
  | datum (d : Datum)
  | description (answers : List (Query × Datum))
  | nothing

structure Request where
  registry : Except Fault Registry
  step : Step

namespace Quantity

/-- A field overwritten from outside; `mark` is new with each overwriting. -/
def overwrite (q : Quantity) (field : Field) (content : Datum) (mark : Nat) : Quantity :=
  match field with
  | .unit => { q with unit := .ofDatum content mark }
  | .madeUnit => { q with madeUnit := .ofDatum content mark }
  | .power => { q with power := .ofDatum content mark }

def pick (q : Quantity) (comparison : Comparison) (o : Operand) : Except Fault Binary64 :=
  match comparison with
  | .max => q.max o
  | .min => q.min o

end Quantity

namespace Session

/-! ## Performing steps -/

/-- The quantity of a recipe; names of properties are looked up in a registry. -/
def make (s : Session) (registry : Except Fault Registry) (recipe : Recipe) :
    Except Fault Quantity := do
  let lookup (name : Datum) := registry.bind fun r => r.propertyIndex name
  match recipe with
  | .full property value unit power literal =>
    Quantity.make (← s.operand property) (← s.operand value) (← s.operand unit)
      (← s.operand power) (← s.operand literal)
  | .ofProperty property value unit power literal =>
    let property ← Quantity.resolveProperty lookup (← s.operand property)
    Quantity.make (.datum property) (← s.operand value) (← s.operand unit) (← s.operand power)
      (← s.operand literal)
  | .ofKind kind property value unit =>
    let property ← Quantity.resolveProperty lookup (← s.operand property)
    Quantity.ofKind kind property (← s.operand value) (← unit.mapM s.operand)

def readRecipe (registry : Except Fault Registry) (recipe : Recipe) : Action Session Quantity := do
  (← getThe Session).make registry recipe

@[simp] theorem perform_readRecipe (registry : Except Fault Registry) (recipe : Recipe)
    (s : Session) :
    (readRecipe registry recipe).perform s = (s.make registry recipe, s) := rfl

def act (registry : Except Fault Registry) : Step → Action Session Answer
  | .make recipe target => do
    let q ← readRecipe registry recipe
    assign target q
    return .made
  | .copy source target => do
    let q ← read source
    assign target q
    return .copied q
  | .opposite source target => do
    let q ← read source
    assign target q.negate
    return .copied q.negate
  | .change subject action => do
    change subject action
    return .changed
  | .ask subject query => do
    return .datum (← query.answer (← read subject))
  | .compare subject comparison argument => do
    let q ← read subject
    let x ← q.pick comparison (← readOperand argument)
    return .datum (.float x)
  | .describe subject => do
    return .description (← (← read subject).describe)
  | .validate subject => do
    (← read subject).validate registry
    return .nothing
  | .overwrite subject field content => do
    let q ← read subject
    let content ← (← readOperand content).kept
    let s ← getThe Session
    assign subject (q.overwrite field content s.marks)
    modify fun s => { s with marks := s.marks + 1 }
    return .nothing

def step (registry : Except Fault Registry) (s : Session) (action : Step) :
    Except Fault Answer × Session :=
  (act registry action).perform s

/-- The answers to requests one after the other, each with the session after it. -/
def trace (s : Session) (requests : List Request) : List (Except Fault Answer × Session) :=
  Action.trace (fun r => act r.registry r.step) s requests

end Session

end Measures
