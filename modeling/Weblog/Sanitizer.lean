import Weblog.Text.Markup

/-!
# Sanitizers

What is done to every text a caller sends before it is stored. The service takes any sanitizer;
the one in use trims the text and escapes its markup.
-/

namespace Weblog

/-- A way to clean text that a caller sent. -/
abbrev Sanitizer := String → String

namespace Sanitizer

/-- Trims the text and writes its characters of markup as entities. -/
def html : Sanitizer :=
  fun raw => String.ofList (Text.escape (Text.trim raw.toList))

/-- Leaves the text as it is. -/
def identity : Sanitizer :=
  fun raw => raw

/-- Drops the tags and trims what is left. -/
def strip : Sanitizer :=
  fun raw => String.ofList (Text.trim (Text.stripTags raw.toList))

end Sanitizer

end Weblog
