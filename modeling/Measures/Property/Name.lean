import Measures.Pattern.Basic

/-!
# The form of names

Words of lower-case ASCII letters and digits, joined by single hyphens, the first one beginning
with a letter. One pattern says so in two dialects, which read its end differently: where documents
are checked a line feed may follow, and where definitions are made nothing may.
-/

namespace Measures.Property

def anyOf (ranges : List (Char × Char)) : Pattern :=
  .char ⟨ranges.map fun (first, last) => .range first last, false⟩

/-- A letter, then letters and digits, then words after single hyphens, and then an end. -/
def nameFormTo (ending : Pattern) : Pattern :=
  let wordChar := anyOf [('a', 'z'), ('0', '9')]
  .seq .start (.seq (anyOf [('a', 'z')]) (.seq (.many 0 none wordChar)
    (.seq (.many 0 none (.seq (anyOf [('-', '-')]) (.many 1 none wordChar))) ending)))

def nameForm : Pattern := nameFormTo .finish

def strictNameForm : Pattern := nameForm.strict

theorem strictNameForm_eq : strictNameForm = nameFormTo .last := rfl

end Measures.Property
