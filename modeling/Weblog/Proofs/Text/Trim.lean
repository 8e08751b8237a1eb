import Mathlib.Data.List.TakeWhile
import Weblog.Text.Blank

/-!
# Trimmed text

What trimming leaves is the part of a text between the blank characters at its ends: it is trimmed
(`Trimmed`), only blank characters are gone, and no other part of the text is like that
(`trim_eq_iff`).
-/

namespace Weblog.Text

/-- A text has no blank character at its ends. -/
structure Trimmed (cs : List Char) : Prop where
  head : ∀ c, cs.head? = some c → isBlank c = false
  last : ∀ c, cs.getLast? = some c → isBlank c = false

/-- A text is nothing but blank characters. -/
def Blank (cs : List Char) : Prop :=
  ∀ c ∈ cs, isBlank c = true

instance (cs : List Char) : Decidable (Blank cs) :=
  decidable_of_iff (cs.all isBlank = true) List.all_eq_true

theorem Trimmed.nil : Trimmed [] where
  head := by simp
  last := by simp

theorem Trimmed.reverse {cs : List Char} (h : Trimmed cs) : Trimmed cs.reverse where
  head c hc := h.last c (by rwa [List.head?_reverse] at hc)
  last c hc := h.head c (by rwa [List.getLast?_reverse] at hc)

/-! ## One end -/

theorem trimStart_append {before : List Char} (hblank : Blank before) (cs : List Char) :
    trimStart (before ++ cs) = trimStart cs :=
  List.dropWhile_append_of_pos hblank

/-- A text that does not begin with a blank character is left as it is. -/
theorem trimStart_of_head {cs : List Char} (h : ∀ c, cs.head? = some c → isBlank c = false) :
    trimStart cs = cs := by
  cases cs with
  | nil => rfl
  | cons c rest =>
    have hc : ¬ isBlank c = true := Bool.eq_false_iff.mp (h c rfl)
    exact List.dropWhile_cons_of_neg hc

theorem isBlank_of_head?_trimStart {cs : List Char} {c : Char}
    (hc : (trimStart cs).head? = some c) : isBlank c = false := by
  have hhead := List.head?_dropWhile_not isBlank cs
  rw [trimStart] at hc
  simpa [hc] using hhead

/-- Only blank characters are taken from the front. -/
theorem exists_append_trimStart (cs : List Char) :
    ∃ before, Blank before ∧ cs = before ++ trimStart cs :=
  ⟨cs.takeWhile isBlank, fun _ hc => List.mem_takeWhile_imp hc,
    (List.takeWhile_append_dropWhile).symm⟩

theorem trimEnd_eq (cs : List Char) : trimEnd cs = (trimStart cs.reverse).reverse :=
  rfl

/-! ## Both ends -/

/-- Taking blank characters from the end leaves the front of the text as it is. -/
theorem isBlank_of_head?_trimEnd {cs : List Char}
    (h : ∀ c, cs.head? = some c → isBlank c = false) {c : Char}
    (hc : (trimEnd cs).head? = some c) : isBlank c = false := by
  obtain ⟨after, -, hcs⟩ := exists_append_trimStart cs.reverse
  have hcs : cs = trimEnd cs ++ after.reverse := by
    rw [trimEnd_eq, ← List.reverse_append, ← hcs, List.reverse_reverse]
  apply h
  rw [hcs, List.head?_append, hc]
  rfl

theorem trimmed_trim (cs : List Char) : Trimmed (trim cs) where
  head c hc := isBlank_of_head?_trimEnd (fun _ => isBlank_of_head?_trimStart) hc
  last c hc := by
    rw [trim, trimEnd_eq, List.getLast?_reverse] at hc
    exact isBlank_of_head?_trimStart hc

/-- Only blank characters are taken from a text. -/
theorem exists_append_trim (cs : List Char) :
    ∃ before after, Blank before ∧ Blank after ∧ cs = before ++ trim cs ++ after := by
  obtain ⟨before, hbefore, hcs⟩ := exists_append_trimStart cs
  obtain ⟨after, hafter, hstart⟩ := exists_append_trimStart (trimStart cs).reverse
  have hend : trimStart cs = trim cs ++ after.reverse := by
    rw [trim, trimEnd_eq, ← List.reverse_append, ← hstart, List.reverse_reverse]
  refine ⟨before, after.reverse, hbefore, fun c hc => hafter c (List.mem_reverse.mp hc), ?_⟩
  rw [List.append_assoc, ← hend]
  exact hcs

theorem trim_of_trimmed {cs : List Char} (h : Trimmed cs) : trim cs = cs := by
  rw [trim, trimStart_of_head h.head, trimEnd_eq, trimStart_of_head h.reverse.head,
    List.reverse_reverse]

instance (cs : List Char) : Decidable (Trimmed cs) :=
  decidable_of_iff (trim cs = cs) ⟨fun h => h ▸ trimmed_trim cs, trim_of_trimmed⟩

/-- Blank characters around a text do not matter. -/
theorem trim_append {before after : List Char} (hbefore : Blank before) (hafter : Blank after)
    {cs : List Char} (h : Trimmed cs) : trim (before ++ cs ++ after) = cs := by
  have hreverse : Blank after.reverse := fun c hc => hafter c (List.mem_reverse.mp hc)
  cases cs with
  | nil =>
    have hblank : Blank (before ++ after) := fun c hc =>
      (List.mem_append.mp hc).elim (hbefore c) (hafter c)
    have hstart : trimStart (before ++ after) = [] := List.dropWhile_eq_nil_iff.mpr hblank
    rw [List.append_nil, trim, hstart]
    rfl
  | cons c rest =>
    have hhead : ∀ d, (c :: rest ++ after).head? = some d → isBlank d = false := h.head
    rw [List.append_assoc, trim, trimStart_append hbefore, trimStart_of_head hhead, trimEnd_eq,
      List.reverse_append, trimStart_append hreverse, trimStart_of_head h.reverse.head,
      List.reverse_reverse]

/-- What trimming leaves is the one part of a text that is trimmed and has nothing but blank
characters around it. -/
theorem trim_eq_iff {cs trimmed : List Char} :
    trim cs = trimmed ↔ Trimmed trimmed ∧
      ∃ before after, Blank before ∧ Blank after ∧ cs = before ++ trimmed ++ after := by
  constructor
  · rintro rfl
    exact ⟨trimmed_trim cs, exists_append_trim cs⟩
  · rintro ⟨htrimmed, before, after, hbefore, hafter, rfl⟩
    exact trim_append hbefore hafter htrimmed

/-- Nothing is left of a text exactly when it is blank. -/
theorem trim_eq_nil_iff {cs : List Char} : trim cs = [] ↔ Blank cs := by
  rw [trim_eq_iff]
  constructor
  · rintro ⟨-, before, after, hbefore, hafter, rfl⟩ c hc
    rw [List.append_nil] at hc
    exact (List.mem_append.mp hc).elim (hbefore c) (hafter c)
  · intro hblank
    exact ⟨.nil, cs, [], hblank, by simp [Blank], by simp⟩

end Weblog.Text
