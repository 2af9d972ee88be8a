set_option autoImplicit false

namespace Courier.Text

/-- The parts of a text between marks; there is always one. -/
def splitAt (mark : Char) : List Char → List (List Char)
  | [] => [[]]
  | c :: r =>
    if c = mark then [] :: splitAt mark r
    else match splitAt mark r with
      | [] => [[c]]
      | p :: ps => (c :: p) :: ps

end Courier.Text
