import Measures.Binary64.Text
import Measures.Datum.Basic
import Measures.Text.Quoted

/-!
# The text of data

`literal` shows the kind of a datum (texts quoted, members with their enumeration); `display` is
the bare text. Texts that show data are put together in one way, whatever it takes to write a datum.
-/

namespace Measures

/-! ## Literals -/

namespace Datum

mutual

def literal : Datum → String
  | .none => "None"
  | .bool b => if b then "True" else "False"
  | .int i => toString i
  | .float x => x.text
  | .text s => Text.quoted s
  | .member m => "<" ++ m.qualifiedName ++ ": " ++ Text.quoted m.text ++ ">"
  | .list items => "[" ++ ", ".intercalate (literals items) ++ "]"

def literals : List Datum → List String
  | [] => []
  | d :: rest => literal d :: literals rest

end

end Datum

/-! ## Ways to write data -/

/-- A way to write data so that their kinds show. -/
abbrev Writing (m : Type → Type) := Datum → m String

namespace Writing

variable {m : Type → Type} [Monad m]

/-- Data as they are. -/
def plain : Writing m := fun d => pure d.literal

def display (write : Writing m) : Datum → m String
  | .text s => pure s
  | .member m => pure m.qualifiedName
  | d => write d

end Writing

namespace Datum

def display (d : Datum) : String := Id.run (Writing.display .plain d)

@[simp] theorem display_text (s : String) : display (.text s) = s := rfl

@[simp] theorem display_int (i : Int) : display (.int i) = toString i := by
  simp [display, Writing.display, Writing.plain, literal]

end Datum

theorem Writing.display_of_plain {m : Type → Type} [Monad m] {write : Writing m} {d : Datum}
    (h : write d = pure d.literal) : write.display d = pure d.display := by
  cases d with
  | text s | member n => rfl
  | _ => exact h

end Measures
