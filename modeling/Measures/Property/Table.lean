import Measures.Property.Item

/-!
# The packaged table of properties

The formatting properties that take numeric values, with the categories of values of each. The
index of a property is its place in the table.
-/

namespace Measures.Property

structure Row where
  name : String
  categories : List Category
  description : Option String

def table : List Row := [
  ⟨"azimuth", [.angle], some "Horizontal direction of an aural source"⟩,
  ⟨"column-count", [.number], none⟩,
  ⟨"column-gap", [.length, .percentage], none⟩,
  ⟨"elevation", [.angle], some "Vertical direction of an aural source"⟩,
  ⟨"end-indent", [.length, .percentage], none⟩,
  ⟨"font-size", [.length, .percentage], none⟩,
  ⟨"font-size-adjust", [.number], none⟩,
  ⟨"glyph-orientation-horizontal", [.angle], none⟩,
  ⟨"glyph-orientation-vertical", [.angle], none⟩,
  ⟨"height", [.length, .percentage], none⟩,
  ⟨"initial-page-number", [.number], none⟩,
  ⟨"letter-spacing", [.length], none⟩,
  ⟨"line-height", [.number, .length, .percentage], none⟩,
  ⟨"margin-bottom", [.length, .percentage], none⟩,
  ⟨"margin-left", [.length, .percentage], none⟩,
  ⟨"margin-right", [.length, .percentage], none⟩,
  ⟨"margin-top", [.length, .percentage], none⟩,
  ⟨"orphans", [.number], none⟩,
  ⟨"pause-after", [.time, .percentage], none⟩,
  ⟨"pause-before", [.time, .percentage], none⟩,
  ⟨"pitch", [.frequency], some "Average pitch of the speaking voice"⟩,
  ⟨"pitch-range", [.number], none⟩,
  ⟨"reference-orientation", [.number], none⟩,
  ⟨"richness", [.number], none⟩,
  ⟨"space-after", [.length, .percentage], none⟩,
  ⟨"space-before", [.length, .percentage], none⟩,
  ⟨"speech-rate", [.number], none⟩,
  ⟨"start-indent", [.length, .percentage], none⟩,
  ⟨"stress", [.number], none⟩,
  ⟨"text-indent", [.length, .percentage], none⟩,
  ⟨"volume", [.number, .percentage], none⟩,
  ⟨"widows", [.number], none⟩,
  ⟨"width", [.length, .percentage], none⟩,
  ⟨"word-spacing", [.length], none⟩,
  ⟨"z-index", [.number], none⟩]

def packagedDocument : Json :=
  documentOf (table.zipIdx.map fun (row, i) => itemJson i row.name row.categories row.description)

end Measures.Property
