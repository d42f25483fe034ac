import Measures.Schema.Reading
import Measures.Text.Digit
import Measures.Text.Segment

/-!
# Schema documents

A schema stands in a document, and a reference in it names another part of the document: the whole
by `#`, a part by the keys and indices that lead there, or a part by the anchor that it declares.
A reference to another document constrains nothing.
-/

namespace Measures

/-! ## Parts of documents -/

namespace Reference

/-- Characters with the ASCII characters that a percent sign and two digits write. -/
def decodePercent : List Char → List Char
  | '%' :: a :: b :: rest =>
    match Text.hexNumber? 2 0 [a, b] with
    | some (code, _) =>
      if code < 0x80 then Char.ofNat code :: decodePercent rest
      else '%' :: decodePercent (a :: b :: rest)
    | none => '%' :: decodePercent (a :: b :: rest)
  | c :: rest => c :: decodePercent rest
  | [] => []

/-- The key that a segment writes: `~1` is a slash and `~0` a tilde. -/
def keyOf : List Char → List Char
  | '~' :: '1' :: rest => '/' :: keyOf rest
  | '~' :: '0' :: rest => '~' :: keyOf rest
  | c :: rest => c :: keyOf rest
  | [] => []

/-- The part of a value that a segment leads to. -/
def step? (j : Json) (segment : List Char) : Option Json :=
  match j with
  | .obj members => members.lookup (String.ofList (keyOf segment))
  | .arr items => match Text.spanDigits segment with
    | ([], _) => none
    | (digits, []) => items[Text.ofDigits digits]?
    | _ => none
  | _ => none

def declares (name : String) (members : List (String × Json)) : Bool :=
  ["$anchor", "$dynamicAnchor"].any fun key =>
    match members.lookup key with
    | some (.str s) => s == name
    | _ => false

mutual

def anchored? (name : String) : Json → Option Json
  | .arr items => anchoredItem? name items
  | .obj members =>
    if declares name members then some (.obj members) else anchoredMember? name members
  | _ => none

def anchoredItem? (name : String) : List Json → Option Json
  | [] => none
  | j :: rest => (anchored? name j).or (anchoredItem? name rest)

def anchoredMember? (name : String) : List (String × Json) → Option Json
  | [] => none
  | (_, j) :: rest => (anchored? name j).or (anchoredMember? name rest)

end

/-- The part of a document that the text after a `#` names. -/
def part? (whole : Json) : List Char → Option Json
  | [] => some whole
  | '/' :: path => (Text.segments (decodePercent path)).foldlM step? whole
  | name => anchored? (String.ofList name) whole

/-- Whether a text names the document itself: it is empty or what the document calls itself. -/
def isOwn (whole : Json) (base : List Char) : Bool :=
  match base, whole.get? "$id" with
  | [], _ => true
  | base, some (.str id) => id.toList.takeWhile (· != '#') == base
  | _, _ => false

def target? (whole : Json) (reference : String) : Option Json :=
  let cs := reference.toList
  let base := cs.takeWhile (· != '#')
  if isOwn whole base then part? whole ((cs.drop base.length).drop 1) else none

/-- The violations of what references name, where references lead on at most `n` times. -/
def follow (whole : Json) : Nat → Schema.References
  | 0, _, _ => []
  | n + 1, reference, doc =>
    match (target? whole reference).bind Schema.ofJson? with
    | some s => s.checkWith (follow whole n) doc
    | none => []

end Reference

/-! ## Schema documents -/

structure SchemaDocument where
  source : Json
  schema : Schema
  reads : Schema.ofJson? source = some schema

namespace SchemaDocument

def ofJson? (j : Json) : Option SchemaDocument :=
  match h : Schema.ofJson? j with
  | some s => some ⟨j, s, h⟩
  | none => none

/-- References that come to an end name no part of the schema twice at one part of the document, so
that this many steps reach all. -/
def steps (s : SchemaDocument) (doc : Json) : Nat := s.source.size * (doc.size + 1)

def check (s : SchemaDocument) (doc : Json) : List Violation :=
  s.schema.checkWith (Reference.follow s.source (s.steps doc)) doc

end SchemaDocument

end Measures
