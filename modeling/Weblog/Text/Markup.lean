import Weblog.Text.Blank

/-!
# Markup in plain text

Six characters can open or close markup in a web page. `escape` writes each of them as an entity,
so that the escaped text holds none of them except the `&` that begins an entity, and `unescape`
reads the entities back from left to right. `stripTags` is the coarser way to be rid of markup.
-/

namespace Weblog.Text

/-- The entity that stands for a character of markup; any other character stands for itself. -/
def escapeChar : Char → List Char
  | '&' => ['&', 'a', 'm', 'p', ';']
  | '<' => ['&', 'l', 't', ';']
  | '>' => ['&', 'g', 't', ';']
  | '"' => ['&', 'q', 'u', 'o', 't', ';']
  | '\'' => ['&', '#', 'x', '2', '7', ';']
  | '/' => ['&', '#', 'x', '2', 'F', ';']
  | c => [c]

/-- The text with every character of markup written as its entity. -/
def escape (cs : List Char) : List Char :=
  cs.flatMap escapeChar

/-- The text with every entity read back, from left to right and never across an entity's end. -/
def unescape : List Char → List Char
  | '&' :: 'a' :: 'm' :: 'p' :: ';' :: rest => '&' :: unescape rest
  | '&' :: 'l' :: 't' :: ';' :: rest => '<' :: unescape rest
  | '&' :: 'g' :: 't' :: ';' :: rest => '>' :: unescape rest
  | '&' :: 'q' :: 'u' :: 'o' :: 't' :: ';' :: rest => '"' :: unescape rest
  | '&' :: '#' :: 'x' :: '2' :: '7' :: ';' :: rest => '\'' :: unescape rest
  | '&' :: '#' :: 'x' :: '2' :: 'F' :: ';' :: rest => '/' :: unescape rest
  | c :: rest => c :: unescape rest
  | [] => []

/-- One character of a text whose tags are dropped: the characters kept so far, newest first, and
whether a tag is open. -/
def stripStep : List Char × Bool → Char → List Char × Bool
  | (kept, _), '<' => (kept, true)
  | (kept, _), '>' => (kept, false)
  | (kept, true), _ => (kept, true)
  | (kept, false), c => (c :: kept, false)

/-- The text without its tags: whatever stands from a `<` to the next `>` goes, a `>` that closes
nothing goes too, and a `<` that is never closed takes the rest with it. -/
def stripTags (cs : List Char) : List Char :=
  (cs.foldl stripStep ([], false)).1.reverse

end Weblog.Text
