import Mathlib.Data.List.Basic
import Weblog.Proofs.Text.Trim
import Weblog.Sanitizer

/-!
# Escaped text

Of the characters that can open or close markup, escaped text holds only the `&` that begins an
entity.

* `unescape_escape`: reading the entities back undoes escaping, also where a text looks like an
  entity before it is escaped.
* `Trimmed.escape`: escaping leaves the ends of a text as blank or not blank as they were, so that
  it can follow trimming.
* `Sanitizer.html_faithful`: what text that was cleaned for display is like, and how much of the
  given text it keeps.
-/

namespace Weblog

namespace Text

/-- The characters of markup that escaped text does not hold. -/
def markup : List Char :=
  ['<', '>', '"', '\'', '/']

/-- A text holds no character that opens or closes markup. -/
def Inert (text : String) : Prop :=
  ∀ c ∈ text.toList, c ∉ markup

theorem notMem_markup_of_mem_escapeChar (c : Char) : ∀ d ∈ escapeChar c, d ∉ markup := by
  unfold escapeChar
  split
  case h_7 =>
    rename_i hamp hlt hgt hquot hapos hslash
    intro d hd
    obtain rfl := List.mem_singleton.mp hd
    simp only [markup, List.mem_cons, List.not_mem_nil, or_false, not_or]
    exact ⟨hlt, hgt, hquot, hapos, hslash⟩
  -- the entities
  all_goals simp [markup]

theorem notMem_markup_of_mem_escape {cs : List Char} {d : Char} (hd : d ∈ escape cs) :
    d ∉ markup := by
  obtain ⟨c, -, hc⟩ := List.mem_flatMap.mp hd
  exact notMem_markup_of_mem_escapeChar c d hc

/-! ## Entities -/

/-- The characters that are escaped, and the entities that stand for them. -/
def entities : List (Char × List Char) :=
  [('&', ['&', 'a', 'm', 'p', ';']), ('<', ['&', 'l', 't', ';']), ('>', ['&', 'g', 't', ';']),
    ('"', ['&', 'q', 'u', 'o', 't', ';']), ('\'', ['&', '#', 'x', '2', '7', ';']),
    ('/', ['&', '#', 'x', '2', 'F', ';'])]

/-- A character is escaped. -/
def Special (c : Char) : Prop :=
  c ∈ entities.map (·.1)

instance (c : Char) : Decidable (Special c) :=
  inferInstanceAs (Decidable (c ∈ entities.map (·.1)))

/-- A character is written as its entity, or it is none of those that are escaped. -/
theorem escapeChar_cases (c : Char) :
    (c, escapeChar c) ∈ entities ∨ ¬ Special c ∧ escapeChar c = [c] := by
  unfold escapeChar
  split
  case h_7 =>
    rename_i hamp hlt hgt hquot hapos hslash
    refine .inr ⟨?_, rfl⟩
    simp only [Special, entities, List.map_cons, List.map_nil, List.mem_cons, List.not_mem_nil,
      or_false, not_or]
    exact ⟨hamp, hlt, hgt, hquot, hapos, hslash⟩
  all_goals exact .inl (by decide)

theorem special_of_mem_entities {c : Char} {entity : List Char} (h : (c, entity) ∈ entities) :
    Special c :=
  List.mem_map_of_mem h

@[simp] theorem escape_nil : escape [] = [] :=
  rfl

@[simp] theorem escape_cons (c : Char) (cs : List Char) :
    escape (c :: cs) = escapeChar c ++ escape cs :=
  List.flatMap_cons

theorem escape_append (cs ds : List Char) : escape (cs ++ ds) = escape cs ++ escape ds :=
  List.flatMap_append

theorem escapeChar_ne_nil (c : Char) : escapeChar c ≠ [] := by
  rcases escapeChar_cases c with hmem | ⟨-, hself⟩
  · have hne : ∀ p ∈ entities, p.2 ≠ [] := by decide
    exact hne _ hmem
  · simp [hself]

/-! ## Reading entities back -/

theorem unescape_entity {c : Char} {entity : List Char} (h : (c, entity) ∈ entities)
    (rest : List Char) : unescape (entity ++ rest) = c :: unescape rest := by
  simp only [entities, List.mem_cons, Prod.mk.injEq, List.not_mem_nil, or_false] at h
  rcases h with ⟨rfl, rfl⟩ | ⟨rfl, rfl⟩ | ⟨rfl, rfl⟩ | ⟨rfl, rfl⟩ | ⟨rfl, rfl⟩ | ⟨rfl, rfl⟩ <;> rfl

theorem unescape_cons {c : Char} (h : ¬ Special c) (rest : List Char) :
    unescape (c :: rest) = c :: unescape rest := by
  have hamp : c ≠ '&' := by
    rintro rfl
    exact h (by decide)
  rw [unescape] <;> exact fun _ hc => absurd hc hamp

/-- Reading the entities back gives the text that was escaped. -/
theorem unescape_escape (cs : List Char) : unescape (escape cs) = cs := by
  induction cs with
  | nil => rfl
  | cons c rest ih =>
    rw [escape_cons]
    rcases escapeChar_cases c with hmem | ⟨hplain, hself⟩
    · rw [unescape_entity hmem, ih]
    · rw [hself, List.singleton_append, unescape_cons hplain, ih]

theorem escape_inj {cs ds : List Char} : escape cs = escape ds ↔ cs = ds := by
  refine ⟨fun h => ?_, congrArg escape⟩
  rw [← unescape_escape cs, h, unescape_escape]

/-- Every `&` of escaped text begins an entity. -/
theorem exists_entity_of_escape {cs : List Char} :
    ∀ {before after : List Char}, escape cs = before ++ '&' :: after →
      ∃ p ∈ entities, p.2 <+: '&' :: after := by
  induction cs with
  | nil => intro before after h; simp at h
  | cons c rest ih =>
    intro before after h
    rw [escape_cons, List.append_eq_append_iff] at h
    obtain ⟨before', -, h⟩ | ⟨inside, hescape, h⟩ := h
    · exact ih h
    cases inside with
    | nil => exact @ih [] after h.symm
    | cons d inside =>
      obtain ⟨rfl, rfl⟩ := List.cons.inj h
      -- an entity has its only `&` at its front, and a lone `&` is no escaped character
      rcases escapeChar_cases c with hmem | ⟨hplain, hself⟩
      · have hfront : ∀ p ∈ entities, '&' ∉ p.2.tail := by decide
        cases before with
        | nil => exact ⟨_, hmem, rest.flatMap escapeChar, by rw [hescape]; rfl⟩
        | cons e before =>
          have hnot := hfront _ hmem
          rw [hescape] at hnot
          exact absurd (by simp) hnot
      · have hc : '&' ∈ [c] := hself ▸ hescape ▸ by simp
        obtain rfl := List.mem_singleton.mp hc
        exact absurd (by decide) hplain

/-! ## Blank ends -/

/-- Neither what is escaped nor the entities for it are blank. -/
theorem all_entities_not_blank :
    entities.all (fun p => (p.1 :: p.2).all fun c => !isBlank c) = true :=
  rfl

theorem isBlank_of_mem_escapeChar {c d : Char} (hd : d ∈ escapeChar c) : isBlank d = isBlank c := by
  rcases escapeChar_cases c with hmem | ⟨-, hself⟩
  · have hblank := List.all_eq_true.mp (List.all_eq_true.mp all_entities_not_blank _ hmem)
    simp only [Bool.not_eq_true'] at hblank
    rw [hblank c List.mem_cons_self, hblank d (List.mem_cons_of_mem c hd)]
  · rw [hself] at hd
    rw [List.mem_singleton.mp hd]

theorem Trimmed.escape {cs : List Char} (h : Trimmed cs) : Trimmed (escape cs) where
  head d hd := by
    cases cs with
    | nil => simp at hd
    | cons c rest =>
      rw [escape_cons, List.head?_append_of_ne_nil _ (escapeChar_ne_nil c)] at hd
      rw [isBlank_of_mem_escapeChar (List.mem_of_head? hd), h.head c rfl]
  last d hd := by
    obtain rfl | ⟨rest, c, rfl⟩ := cs.eq_nil_or_concat'
    · simp at hd
    · rw [escape_append, escape_cons, escape_nil, List.append_nil,
        List.getLast?_append_of_ne_nil _ (escapeChar_ne_nil c)] at hd
      rw [isBlank_of_mem_escapeChar (List.mem_of_getLast? hd), h.last c (by simp)]

/-! ## Text without special characters -/

theorem length_le_length_escape (cs : List Char) : cs.length ≤ (escape cs).length := by
  induction cs with
  | nil => exact Nat.le_refl _
  | cons c rest ih =>
    have hpos := List.length_pos_iff.mpr (escapeChar_ne_nil c)
    rw [escape_cons, List.length_append, List.length_cons]
    omega

/-- Escaping changes a text unless none of its characters is escaped. -/
theorem escape_eq_self_iff {cs : List Char} : escape cs = cs ↔ ∀ c ∈ cs, ¬ Special c := by
  induction cs with
  | nil => simp
  | cons c rest ih =>
    rw [escape_cons, List.forall_mem_cons, ← ih]
    rcases escapeChar_cases c with hmem | ⟨hplain, hself⟩
    · have hlong : ∀ p ∈ entities, 1 < p.2.length := by decide
      have hlength : 1 < (escapeChar c).length := hlong _ hmem
      have hrest := length_le_length_escape rest
      refine iff_of_false (fun h => ?_) fun h => h.1 (special_of_mem_entities hmem)
      have hlengths := congrArg List.length h
      rw [List.length_append, List.length_cons] at hlengths
      omega
    · rw [hself, List.singleton_append, List.cons_inj_right]
      exact (and_iff_right hplain).symm

end Text

/-- Text that was cleaned for display holds no character that opens or closes markup. -/
theorem Sanitizer.inert_html (raw : String) : Text.Inert (html raw) := by
  intro c hc
  rw [html, String.toList_ofList] at hc
  exact Text.notMem_markup_of_mem_escape hc

/-! ## Cleaned text -/

namespace Sanitizer

open Text

@[simp] theorem toList_html (raw : String) : (html raw).toList = escape (trim raw.toList) :=
  String.toList_ofList

theorem html_eq_iff {raw other : String} :
    html raw = html other ↔ trim raw.toList = trim other.toList := by
  rw [← String.toList_inj, toList_html, toList_html, escape_inj]

theorem html_eq_empty_iff {raw : String} : html raw = "" ↔ Blank raw.toList := by
  have hempty : escape (trim raw.toList) = escape [] ↔ trim raw.toList = [] := escape_inj
  rw [← String.toList_inj, toList_html, ← trim_eq_nil_iff, ← hempty]
  rfl

/-- Cleaning a text again changes it unless there was nothing to escape. -/
theorem html_html_eq_iff {raw : String} :
    html (html raw) = html raw ↔ ∀ c ∈ trim raw.toList, ¬ Special c := by
  rw [← escape_eq_self_iff, html_eq_iff, toList_html, trim_of_trimmed (trimmed_trim _).escape]

/-- **Text for display.** Cleaned text opens no markup and is trimmed, and it says exactly what the
trimmed text says: reading the entities back gives that text, so that two texts are cleaned to the
same one only if they are the same but for blank ends. Cleaning is not to be repeated where there
was something to escape. -/
theorem html_faithful (raw : String) :
    Inert (html raw) ∧
      (∀ before after, (html raw).toList = before ++ '&' :: after →
        ∃ p ∈ entities, p.2 <+: '&' :: after) ∧
      Trimmed (html raw).toList ∧
      (html raw = "" ↔ Blank raw.toList) ∧
      unescape (html raw).toList = trim raw.toList ∧
      (∀ other, html raw = html other ↔ trim raw.toList = trim other.toList) ∧
      (html (html raw) = html raw ↔ ∀ c ∈ trim raw.toList, ¬ Special c) := by
  refine ⟨inert_html raw, fun before after h => ?_, ?_, html_eq_empty_iff, ?_,
    fun _ => html_eq_iff, html_html_eq_iff⟩
  · rw [toList_html] at h
    exact exists_entity_of_escape h
  · rw [toList_html]
    exact (trimmed_trim _).escape
  · rw [toList_html, unescape_escape]

/-- An entity in the given text is text like any other. -/
example : html " &amp;lt; " = "&amp;amp;lt;" := by decide

end Sanitizer

end Weblog
