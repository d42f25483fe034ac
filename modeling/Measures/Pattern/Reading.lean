import Measures.Pattern.Basic
import Measures.Text.Surrogate

/-!
# Patterns from text

The notation of regular expressions: alternatives, groups, sets, the quantifiers `*`, `+`, `?` and
counts in braces, the anchors `^`, `$`, `\A`, `\Z`, `\b` and `\B`, looking ahead and behind, and
escapes. References to groups and flags are not read.
-/

namespace Measures.Pattern

def exactly (c : Char) : Pattern := char ⟨[.range c c], false⟩

def anyChar : Pattern := char ⟨[.range '\n' '\n'], true⟩

/-! ## Escapes and sets -/

def classOf? : Char → Option CharClass
  | 'd' => some .digit
  | 'D' => some (.not .digit)
  | 's' => some .blank
  | 'S' => some (.not .blank)
  | 'w' => some .word
  | 'W' => some (.not .word)
  | _ => none

/-- The character that an escaped one stands for: a control for some letters, else itself. -/
def controlOf? : Char → Option Char
  | 'n' => some '\n'
  | 'r' => some '\r'
  | 't' => some '\t'
  | 'f' => some '\x0c'
  | 'v' => some '\x0b'
  | 'a' => some '\x07'
  | c => if c.isAlphanum then none else some c

def hexCode? (count : Nat) (cs : List Char) : Option (Char × List Char) := do
  let (code, rest) ← Text.hexNumber? count 0 cs
  if code < 0x110000 then return (Text.ofUnit code, rest) else none

def octalDigits (cs : List Char) : List Nat :=
  ((cs.take 3).takeWhile fun c => '0' ≤ c && c ≤ '7').filterMap Text.asciiDigit?

/-- The character whose code is written in octal digits. Fewer than three are one only in a set or
after a zero, where no group can be meant. -/
def octalCode? (inSet : Bool) (cs : List Char) : Option (Char × List Char) :=
  let digits := octalDigits cs
  let code := digits.foldl (fun n d => 8 * n + d) 0
  if code < 0x100 ∧ (digits.length = 3 ∨ digits.head? = some 0 ∨ (inSet ∧ digits ≠ [])) then
    some (Char.ofNat code, cs.drop digits.length)
  else none

def character? (inSet : Bool) : List Char → Option (Char × List Char)
  | [] => none
  | 'x' :: rest => hexCode? 2 rest
  | 'u' :: rest => hexCode? 4 rest
  | 'U' :: rest => hexCode? 8 rest
  | c :: rest => if c.isDigit then octalCode? inSet (c :: rest) else (controlOf? c).map (·, rest)

def setEscape? : List Char → Option (CharClass × List Char)
  | [] => none
  | 'b' :: rest => some (.range '\x08' '\x08', rest)
  | c :: rest => match classOf? c with
    | some k => some (k, rest)
    | none => (character? true (c :: rest)).map fun (c, rest) => (.range c c, rest)

def setAtom? : List Char → Option (CharClass × List Char)
  | '\\' :: rest => setEscape? rest
  | [] => none
  | c :: rest => some (.range c c, rest)

/-- A member of a set, with a range if a hyphen and another member follow; a class begins no
range. -/
def setMember? (cs : List Char) : Option (CharClass × List Char) := do
  let (k, rest) ← setAtom? cs
  match rest with
  | '-' :: c :: more =>
    if c = ']' then return (k, rest)
    let (upper, after) ← setAtom? (c :: more)
    match k, upper with
    | .range a _, .range b _ => if a ≤ b then return (.range a b, after) else none
    | _, _ => none
  | _ => return (k, rest)

def setMembers? : Nat → List Char → Option ((List CharClass) × List Char)
  | 0, _ => none
  | _, ']' :: rest => some ([], rest)
  | fuel + 1, cs => do
    let (k, rest) ← setMember? cs
    let (ks, after) ← setMembers? fuel rest
    return (k :: ks, after)

/-- A set whose opening bracket was read; a closing bracket that comes first is a member. -/
def set? (cs : List Char) : Option (Pattern × List Char) := do
  let (negated, cs) := match cs with
    | '^' :: rest => (true, rest)
    | cs => (false, cs)
  let (first, cs) := match cs with
    | ']' :: rest => ([CharClass.range ']' ']'], rest)
    | cs => ([], cs)
  let (ks, after) ← setMembers? (cs.length + 1) cs
  return (char ⟨first ++ ks, negated⟩, after)

def escape? : List Char → Option (Pattern × List Char)
  | [] => none
  | 'A' :: rest => some (start, rest)
  | 'Z' :: rest => some (last, rest)
  | 'b' :: rest => some (border false, rest)
  | 'B' :: rest => some (border true, rest)
  | c :: rest => match classOf? c with
    | some k => some (char ⟨[k], false⟩, rest)
    | none => (character? false (c :: rest)).map fun (c, rest) => (exactly c, rest)

/-! ## Groups -/

inductive Group where
  | plain
  | ahead (negated : Bool)
  | behind (negated : Bool)

def groupName? (cs : List Char) : Option (List Char) :=
  let name := cs.takeWhile Text.isWord
  match name.head?, cs.drop name.length with
  | some c, '>' :: rest => if c.isDigit then none else some rest
  | _, _ => none

def group? : List Char → Option (Group × List Char)
  | '?' :: ':' :: rest => some (.plain, rest)
  | '?' :: '=' :: rest => some (.ahead false, rest)
  | '?' :: '!' :: rest => some (.ahead true, rest)
  | '?' :: '<' :: '=' :: rest => some (.behind false, rest)
  | '?' :: '<' :: '!' :: rest => some (.behind true, rest)
  | '?' :: 'P' :: '<' :: rest => (groupName? rest).map (.plain, ·)
  | '?' :: _ => none
  | rest => some (.plain, rest)

/-- How many characters every match has, if that is one number. -/
def width? : Pattern → Option Nat
  | empty | start | finish | last | border _ | ahead _ _ | behind _ _ _ => some 0
  | char _ => some 1
  | seq p q => do return (← width? p) + (← width? q)
  | alt p q => do
    let n ← width? p
    if (← width? q) = n then return n else none
  | many least most p =>
    if most = some 0 then some 0
    else if most = some least then (width? p).map (least * ·)
    else if width? p = some 0 then some 0
    else none

/-- The pattern of a group; what is looked for behind a place needs a width. -/
def Group.close? (g : Group) (p : Pattern) : Option Pattern :=
  match g with
  | .plain => some p
  | .ahead negated => some (Pattern.ahead negated p)
  | .behind negated => (width? p).map fun width => Pattern.behind negated width p

/-! ## Quantifiers -/

def count? (cs : List Char) : Option Nat × List Char :=
  match Text.spanDigits cs with
  | ([], _) => (none, cs)
  | (ds, rest) => (some (Text.ofDigits ds), rest)

def bounds? (cs : List Char) : Option ((Nat × Option Nat) × List Char) :=
  match count? cs with
  | (some n, '\x7d' :: rest) => some ((n, some n), rest)
  | (least, ',' :: rest) => match count? rest with
    | (most, '\x7d' :: after) => some ((least.getD 0, most), after)
    | _ => none
  | _ => none

def quantifier? : List Char → Option ((Nat × Option Nat) × List Char)
  | '*' :: rest => some ((0, none), rest)
  | '+' :: rest => some ((1, none), rest)
  | '?' :: rest => some ((0, some 1), rest)
  | '\x7b' :: rest => bounds? rest
  | _ => none

def isAnchor : Pattern → Bool
  | start | finish | last | border _ => true
  | _ => false

/-- Whether a pattern that was read at the front of `cs` may not be repeated: an anchor, unless it
stands in a group. -/
def isBareAnchor (p : Pattern) (cs : List Char) : Bool := isAnchor p && cs.head? != some '('

/-- A pattern with the quantifier that follows it, which may be lazy; two in a row are refused. -/
def quantified? (p : Pattern) (cs : List Char) : Option (Pattern × List Char) :=
  match quantifier? cs with
  | none => some (p, cs)
  | some ((least, most), rest) =>
    let rest := match rest with
      | '?' :: after => after
      | rest => rest
    if (quantifier? rest).isSome || most.any (· < least) then none
    else some (many least most p, rest)

/-! ## Patterns -/

mutual

def alternatives? : Nat → List Char → Option (Pattern × List Char)
  | 0, _ => none
  | fuel + 1, cs => do
    let (p, rest) ← sequence? fuel cs
    match rest with
    | '|' :: more =>
      let (q, after) ← alternatives? fuel more
      return (alt p q, after)
    | rest => return (p, rest)

def sequence? : Nat → List Char → Option (Pattern × List Char)
  | 0, _ => none
  | fuel + 1, cs =>
    match cs with
    | [] | ')' :: _ | '|' :: _ => some (empty, cs)
    | cs => do
      let (p, rest) ← atom? fuel cs
      if isBareAnchor p cs && (quantifier? rest).isSome then none
      let (p, rest) ← quantified? p rest
      let (q, after) ← sequence? fuel rest
      return (if q = empty then p else seq p q, after)

def atom? : Nat → List Char → Option (Pattern × List Char)
  | 0, _ | _, [] => none
  | fuel + 1, '(' :: rest => do
    let (g, rest) ← group? rest
    match ← alternatives? fuel rest with
    | (p, ')' :: after) => (g.close? p).map (·, after)
    | _ => none
  | _, '[' :: rest => set? rest
  | _, '.' :: rest => some (anyChar, rest)
  | _, '^' :: rest => some (start, rest)
  | _, '$' :: rest => some (finish, rest)
  | _, '\\' :: rest => escape? rest
  | _, c :: rest => if c = '*' ∨ c = '+' ∨ c = '?' then none else some (exactly c, rest)

end

/-- The pattern that a text writes. Each of the three readers hands a shorter text or less fuel to
the next one, and three times the length is enough. -/
def ofText? (s : String) : Option Pattern :=
  match alternatives? (3 * s.length + 3) s.toList with
  | some (p, []) => some p
  | _ => none

end Measures.Pattern
