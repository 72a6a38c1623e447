namespace Marginalia.Text

-- A way to cut texts into consecutive pieces, none of them empty.
structure Cutter where
  cut : List Char → List (List Char)
  whole : ∀ text, (cut text).flatten = text
  filled : ∀ text, ∀ piece ∈ cut text, piece ≠ []

end Marginalia.Text
