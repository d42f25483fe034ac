import Measures.Text.Segment

/-!
# Paths

A path is kept without empty parts and without the part `.`; both mean nothing. The part `..` is
kept, since what it means depends on the files.
-/

namespace Measures

structure Path where
  /-- Nothing for a relative path, one slash or two for an absolute one. -/
  root : String
  parts : List String
  deriving DecidableEq, Repr

namespace Path

/-- Exactly two slashes at the front are a root of their own. -/
def rootOf : List Char → String
  | '/' :: '/' :: '/' :: _ => "/"
  | '/' :: '/' :: _ => "//"
  | '/' :: _ => "/"
  | _ => ""

def ofText (s : String) : Path where
  root := rootOf s.toList
  parts := ((Text.segments s.toList).filter fun part => part ≠ [] ∧ part ≠ ['.']).map String.ofList

/-- The text of a path; a path without parts is the directory itself. -/
def text (p : Path) : String :=
  if p.root = "" ∧ p.parts = [] then "." else p.root ++ "/".intercalate p.parts

/-- A path below another one; an absolute path stands for itself. -/
def join (p q : Path) : Path :=
  if q.root = "" then ⟨p.root, p.parts ++ q.parts⟩ else q

/-- Whether a path can be given to a file system; its parts hold no NUL. -/
def isPassable (p : Path) : Bool := p.parts.all fun part => !part.toList.contains '\x00'

def name (p : Path) : String := p.parts.getLast?.getD ""

end Path

end Measures
