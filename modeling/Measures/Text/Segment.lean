/-!
# Segments
-/

namespace Measures.Text

def segments : List Char → List (List Char)
  | [] => [[]]
  | '/' :: rest => [] :: segments rest
  | c :: rest =>
    match segments rest with
    | [] => [[c]]
    | first :: more => (c :: first) :: more

end Measures.Text
