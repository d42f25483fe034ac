import Measures.Catalog.Path
import Measures.Dictionary
import Measures.Fault
import Measures.Json.Parser

/-!
# Files

A tree of files and directories. What is in it stands at a place, which is told by the names on the
way from the root. A path leads to a place if a directory is at every place on its way; it begins at
the root or in the working directory. Links, permissions and limits on names are not modelled.
-/

namespace Measures

/-! ## Places -/

structure Place where
  /-- The names on the way from the root. -/
  names : List String
  deriving DecidableEq

namespace Place

def root : Place := ⟨[]⟩

/-- Where one part of a path leads: up for `..`, and the root is above itself. -/
def step (place : Place) (part : String) : Place :=
  if part = ".." then ⟨place.names.dropLast⟩ else ⟨place.names ++ [part]⟩

/-- Whether a place is on the way to another one, or is that one. -/
def isOnWay (place other : Place) : Bool := place.names.isPrefixOf other.names

end Place

/-! ## Trees -/

inductive Node where
  | file (content : ByteArray)
  | directory

/-- What a path leads to. -/
inductive Entry where
  | there (node : Node)
  | absent
  /-- A file stands where a directory is needed. -/
  | blocked

structure Files where
  /-- The working directory. It is always there, and so are the directories above it. -/
  home : Place
  /-- All that is there besides, each place once. -/
  nodes : List (Place × Node)

namespace Files

def empty (home : Place) : Files := ⟨home, []⟩

/-! ## Looking -/

def node? (fs : Files) (place : Place) : Option Node :=
  if place.isOnWay fs.home then some .directory else fs.nodes.lookup place

/-- Where a path begins: at the root, or in the working directory if the path has no root. -/
def start (fs : Files) (p : Path) : Place := if p.root = "" then fs.home else .root

/-- The place that a path names. -/
def place (fs : Files) (p : Path) : Place := p.parts.foldl Place.step (fs.start p)

/-- Follows parts from a place on. -/
def follow (fs : Files) (place : Place) : List String → Entry
  | [] => match fs.node? place with
    | some node => .there node
    | none => .absent
  | part :: rest => match fs.node? place with
    | some .directory => follow fs (place.step part) rest
    | some (.file _) => .blocked
    | none => .absent

def look (fs : Files) (p : Path) : Entry := fs.follow (fs.start p) p.parts

def isThere (fs : Files) (p : Path) : Bool :=
  p.isPassable && match fs.look p with
    | .there _ => true
    | .absent | .blocked => false

/-! ## Reading -/

def read (fs : Files) (p : Path) : Except Fault ByteArray :=
  if !p.isPassable then .error .nulInPath else match fs.look p with
  | .there (.file content) => .ok content
  | .there .directory => .error (.directoryFile p.text)
  | .absent => .error (.noFile p.text)
  | .blocked => .error (.fileInFile p.text)

def decode (content : ByteArray) : Except Fault String :=
  match String.fromUTF8? content with
  | some text => .ok text
  | none => .error .malformedUtf8

def parse (text : String) : Except Fault Json :=
  match Json.parse text with
  | .ok j => .ok j
  | .error .malformed => .error .malformedJson
  | .error (.integerTooLong digits) => .error (.integerTextTooLong digits)
  | .error (.nestedTooDeep container) => .error (.nestedTooDeep container)

def readJson (fs : Files) (p : Path) : Except Fault Json := do
  parse (← decode (← fs.read p))

/-! ## Writing -/

def set (fs : Files) (place : Place) (node : Node) : Files :=
  { fs with nodes := Dictionary.set place node fs.nodes }

/-- Puts a file where the parts of a path lead from a place. Directories on the way are made. -/
def put (p : Path) (content : ByteArray) (fs : Files) (place : Place) :
    List String → Except Fault Files
  | [] => match fs.node? place with
    | some .directory => .error (.directoryFile p.text)
    | _ => .ok (fs.set place (.file content))
  | part :: rest => match fs.node? place with
    | some .directory => put p content fs (place.step part) rest
    | some (.file _) => .error (.fileInFile p.text)
    | none => put p content (fs.set place .directory) (place.step part) rest

/-- Creates or replaces a file. -/
def write (fs : Files) (p : Path) (content : ByteArray) : Except Fault Files :=
  if !p.isPassable then .error .nulInPath else put p content fs (fs.start p) p.parts

end Files

end Measures
