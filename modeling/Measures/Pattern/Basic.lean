import Measures.Text.Blank
import Measures.Text.Digit
import Measures.Text.Word

/-!
# Text patterns

Regular expressions, and whether a text has a part that matches one. Matching follows all ways at
once: `ends` gives what can follow a match at the front, so that the order in which alternatives
are tried and the greed of repetitions do not matter.
-/

namespace Measures

/-! ## Sets of characters -/

inductive CharClass where
  | range (first last : Char)
  | digit
  | blank
  | word
  | not (c : CharClass)
  deriving DecidableEq, Repr

namespace CharClass

/-- The blanks and the four separators of the ASCII controls. -/
def isSpace (c : Char) : Bool := Text.isBlank c || (0x1c ≤ c.toNat && c.toNat ≤ 0x1f)

def contains (c : Char) : CharClass → Bool
  | range first last => first ≤ c && c ≤ last
  | digit => (Text.digit? c).isSome
  | blank => isSpace c
  | word => Text.isWord c
  | not k => !k.contains c

end CharClass

/-- A character of one of some classes, or of none of them. -/
structure CharSet where
  classes : List CharClass
  negated : Bool
  deriving DecidableEq, Repr

def CharSet.contains (s : CharSet) (c : Char) : Bool :=
  s.classes.any (·.contains c) != s.negated

/-! ## Patterns -/

inductive Pattern where
  | empty
  | char (set : CharSet)
  | seq (p q : Pattern)
  | alt (p q : Pattern)
  /-- From `least` to `most` matches in a row. -/
  | many (least : Nat) (most : Option Nat) (p : Pattern)
  | start
  /-- The end of the text, or a line feed that ends the text. -/
  | finish
  /-- The very end of the text. -/
  | last
  /-- A place where a word begins or ends, or one where none does; an empty text has neither. -/
  | border (negated : Bool)
  /-- A place where a match follows, or one where none does. -/
  | ahead (negated : Bool) (p : Pattern)
  /-- A place behind `width` characters that match, or one that is not behind such. -/
  | behind (negated : Bool) (width : Nat) (p : Pattern)
  deriving DecidableEq, Repr

namespace Pattern

/-- The same pattern in the dialect where a text ends at its very end only. -/
def strict : Pattern → Pattern
  | seq p q => seq p.strict q.strict
  | alt p q => alt p.strict q.strict
  | many least most p => many least most p.strict
  | finish => last
  | ahead negated p => ahead negated p.strict
  | behind negated width p => behind negated width p.strict
  | p => p

/-! ## Matching -/

def merge (rests : List (List Char)) : List (List Char) :=
  rests.eraseDupsBy fun a b => a.length == b.length

/-- What follows `n` matches in a row. -/
def endsAfter (ends : List Char → List (List Char)) : Nat → List (List Char) → List (List Char)
  | 0, rests => rests
  | n + 1, rests => endsAfter ends n (merge (rests.flatMap ends))

def endsUpTo (ends : List Char → List (List Char)) : Nat → List (List Char) → List (List Char)
  | 0, rests => rests
  | n + 1, rests => merge (rests ++ endsUpTo ends n (merge (rests.flatMap ends)))

/-- The end part of a text that begins `width` characters before another one, if there is one. -/
def before? (text : List Char) (width : Nat) (rest : List Char) : Option (List Char) :=
  if rest.length + width ≤ text.length then some (text.drop (text.length - rest.length - width))
  else none

/-- Whether a word begins or ends in front of `rest`. -/
def isBorder (text rest : List Char) : Bool :=
  (((before? text 1 rest).bind (·.head?)).any Text.isWord) != rest.head?.any Text.isWord

/-- What can follow a match at the front of `rest`, which is an end part of a text. More matches in
a row than there are characters reach nothing new. -/
def ends (text : List Char) : Pattern → List Char → List (List Char)
  | empty, rest => [rest]
  | char set, c :: rest => if set.contains c then [rest] else []
  | char _, [] => []
  | seq p q, rest => merge ((ends text p rest).flatMap (ends text q))
  | alt p q, rest => merge (ends text p rest ++ ends text q rest)
  | many least most p, rest =>
    let needed := endsAfter (ends text p) least [rest]
    let more := match most with
      | some most => min (most - least) rest.length
      | none => rest.length
    endsUpTo (ends text p) more needed
  | start, rest => if rest.length = text.length then [rest] else []
  | finish, rest => if rest = [] ∨ rest = ['\n'] then [rest] else []
  | last, rest => if rest = [] then [rest] else []
  | border negated, rest => if text ≠ [] ∧ isBorder text rest ≠ negated then [rest] else []
  | ahead negated p, rest => if (ends text p rest).isEmpty = negated then [rest] else []
  | behind negated width p, rest =>
    let found := (before? text width rest).any fun earlier =>
      (ends text p earlier).any (·.length == rest.length)
    if found ≠ negated then [rest] else []

/-- Every end part of a text, the text itself first. -/
def tails : List Char → List (List Char)
  | [] => [[]]
  | c :: rest => (c :: rest) :: tails rest

def occursIn (p : Pattern) (text : String) : Bool :=
  (tails text.toList).any fun rest => !(p.ends text.toList rest).isEmpty

end Pattern

end Measures
