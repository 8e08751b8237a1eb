import Weblog.Json.Reading
import Weblog.Proofs.Json.Token

/-!
# Reading written values

The text that is written for a value is read as that value, whatever strings and keys it has, if
all its numbers are exact (`Document.ofChars_toChars`). Hence two such values have different texts
(`eq_of_toText_eq`).

A value may stand inside others: what is read of its text is delivered to the innermost container
that is open around it, and the reading goes on with the text after it (`run_toChars`). The
induction is on the value, with one statement for values, one for the items of an array and one for
the members of an object.
-/

namespace Weblog.Json

/-! ## Values with exact numbers -/

mutual

/-- All numbers in a value are exact. -/
def Exact : Json → Prop
  | .number n => n.Exact
  | .array items => ItemsExact items
  | .object members => MembersExact members
  | .null | .bool _ | .string _ => True

/-- All numbers in the items of an array are exact. -/
def ItemsExact : List Json → Prop
  | [] => True
  | item :: rest => item.Exact ∧ ItemsExact rest

/-- All numbers in the members of an object are exact. -/
def MembersExact : List (String × Json) → Prop
  | [] => True
  | (_, value) :: rest => value.Exact ∧ MembersExact rest

end

/-! ## One step -/

namespace Progress

/-- A token is read. -/
theorem run_token {cs rest : List Char} {t : Token} (h : nextToken? cs = some (t, rest))
    (p : Progress) : run p cs = run (p.step t) rest := by
  rw [run]
  split
  · rename_i hnone
    cases h.symm.trans hnone
  · rename_i hsome
    obtain ⟨rfl, rfl⟩ := Prod.mk.inj (Option.some.inj (h.symm.trans hsome))
    rfl

/-- A token that is a value by itself is read where a value is due. -/
theorem run_word {cs rest : List Char} {t : Token} {r : Reading} {outer : List Frame}
    (h : nextToken? cs = some (t, rest)) (hstep : stepValue outer t = deliver r outer) :
    run (.within .value outer) cs = run (deliver r outer) rest :=
  (run_token h _).trans (congrArg (run · rest) hstep)

theorem run_nil (p : Progress) : run p [] = p := by
  rw [run]
  rfl

/-- A value that is the first item of an array is read like any other item. -/
theorem step_firstItem {t : Token} (h : t ≠ .closeArray) (outer : List Frame) :
    step (.within .firstItem outer) t = step (.within .value (.array [] :: outer)) t := by
  cases t <;> first | rfl | exact absurd rfl h

end Progress

/-! ## The first token of a value -/

/-- The text of a value begins with a token that is not the end of an array. -/
theorem exists_nextToken? {j : Json} (hj : j.Exact) {rest : List Char} (hrest : EndsNumber rest) :
    ∃ t rest', nextToken? (j.toChars ++ rest) = some (t, rest') ∧ t ≠ .closeArray := by
  cases j with
  | null => exact ⟨.null, rest, rfl, by simp⟩
  | bool b => cases b <;> exact ⟨_, rest, rfl, by simp⟩
  | number n =>
    cases n with
    | integer n => exact ⟨_, rest, nextToken?_signedDecimal hj hrest, by simp⟩
    | real x => exact hj.elim
  | string s => exact ⟨_, rest, nextToken?_stringChars s rest, by simp⟩
  | array items => exact ⟨.openArray, _, rfl, by simp⟩
  | object members => exact ⟨.openObject, _, rfl, by simp⟩

theorem endsNumber_moreItemsChars (items : List Json) (rest : List Char) :
    EndsNumber (moreItemsChars items ++ ']' :: rest) := by
  cases items <;> exact .cons (by decide) _

theorem endsNumber_moreMembersChars (members : List (String × Json)) (rest : List Char) :
    EndsNumber (moreMembersChars members ++ '}' :: rest) := by
  cases members with
  | nil => exact .cons (by decide) _
  | cons => exact .cons (by decide) _

/-! ## Whole values -/

open Progress

/-- A member of an object is read, wherever a key is due. -/
theorem run_member {p : Progress} {key : String} {value : Json}
    {before : List (Option String × Reading)}
    {outer : List Frame} {rest : List Char}
    (hkey : p.step (.string (some key)) = .within (.colon before (some key)) outer)
    (hvalue : run (.within .value (.object before (some key) :: outer)) (value.toChars ++ rest) =
      run (deliver value.toReading (.object before (some key) :: outer)) rest) :
    run p (stringChars key ++ ':' :: (value.toChars ++ rest)) =
      run (.within (.afterMember ((some key, value.toReading) :: before)) outer) rest := by
  rw [run_token (nextToken?_stringChars key _), hkey, run_token (t := .colon) rfl]
  exact hvalue

mutual

/-- The text of a value is read as that value, which goes where a value is due. -/
theorem run_toChars (j : Json) (hj : j.Exact) (outer : List Frame) {rest : List Char}
    (hrest : EndsNumber rest) :
    run (.within .value outer) (j.toChars ++ rest) = run (deliver j.toReading outer) rest := by
  cases j with
  | null => exact run_word (t := .null) rfl rfl
  | bool b => cases b <;> exact run_word (t := .bool _) rfl rfl
  | number n =>
    cases n with
    | integer n => exact run_word (nextToken?_signedDecimal hj hrest) rfl
    | real x => exact hj.elim
  | string s => exact run_word (nextToken?_stringChars s rest) rfl
  | array items =>
    rw [toChars, List.cons_append, List.append_assoc, List.singleton_append,
      run_token (t := .openArray) rfl]
    exact run_itemsChars items hj outer rest
  | object members =>
    rw [toChars, List.cons_append, List.append_assoc, List.singleton_append,
      run_token (t := .openObject) rfl]
    exact run_membersChars members hj outer rest

/-- The items of an array are read up to its end. -/
theorem run_itemsChars (items : List Json) (hitems : ItemsExact items) (outer : List Frame)
    (rest : List Char) :
    run (.within .firstItem outer) (itemsChars items ++ ']' :: rest) =
      run (deliver (.array (itemsToReading items)) outer) rest := by
  cases items with
  | nil => exact run_token (t := .closeArray) rfl _
  | cons item more =>
    have hends := endsNumber_moreItemsChars more rest
    obtain ⟨t, rest', htoken, hfirst⟩ := exists_nextToken? hitems.1 hends
    rw [itemsChars, List.append_assoc, run_token htoken, step_firstItem hfirst, ← run_token htoken,
      run_toChars item hitems.1 _ hends]
    exact run_moreItemsChars more hitems.2 [item.toReading] outer rest

/-- The items of an array after those that were read are read up to its end. -/
theorem run_moreItemsChars (items : List Json) (hitems : ItemsExact items) (before : List Reading)
    (outer : List Frame) (rest : List Char) :
    run (.within (.afterItem before) outer) (moreItemsChars items ++ ']' :: rest) =
      run (deliver (.array (before.reverse ++ itemsToReading items)) outer) rest := by
  cases items with
  | nil =>
    rw [itemsToReading, List.append_nil]
    exact run_token (t := .closeArray) rfl _
  | cons item more =>
    have hmore := run_moreItemsChars more hitems.2 (item.toReading :: before) outer rest
    rw [List.reverse_cons, List.append_assoc] at hmore
    rw [moreItemsChars, List.cons_append, List.append_assoc, run_token (t := .comma) rfl]
    exact (run_toChars item hitems.1 _ (endsNumber_moreItemsChars more rest)).trans hmore

/-- The members of an object are read up to its end. -/
theorem run_membersChars (members : List (String × Json)) (hmembers : MembersExact members)
    (outer : List Frame) (rest : List Char) :
    run (.within .firstKey outer) (membersChars members ++ '}' :: rest) =
      run (deliver (.object (membersToReading members)) outer) rest := by
  rcases members with _ | ⟨⟨key, value⟩, more⟩
  · exact run_token (t := .closeObject) rfl _
  · have hvalue := run_toChars value hmembers.1 (.object [] (some key) :: outer)
      (endsNumber_moreMembersChars more rest)
    rw [membersChars, List.append_assoc, List.cons_append, List.append_assoc,
      run_member rfl hvalue]
    exact run_moreMembersChars more hmembers.2 [(some key, value.toReading)] outer rest

/-- The members of an object after those that were read are read up to its end. -/
theorem run_moreMembersChars (members : List (String × Json)) (hmembers : MembersExact members)
    (before : List (Option String × Reading)) (outer : List Frame) (rest : List Char) :
    run (.within (.afterMember before) outer) (moreMembersChars members ++ '}' :: rest) =
      run (deliver (.object (before.reverse ++ membersToReading members)) outer) rest := by
  rcases members with _ | ⟨⟨key, value⟩, more⟩
  · rw [membersToReading, List.append_nil]
    exact run_token (t := .closeObject) rfl _
  · have hvalue := run_toChars value hmembers.1 (.object before (some key) :: outer)
      (endsNumber_moreMembersChars more rest)
    have hmore := run_moreMembersChars more hmembers.2 ((some key, value.toReading) :: before) outer
      rest
    rw [List.reverse_cons, List.append_assoc] at hmore
    rw [moreMembersChars, List.cons_append, List.append_assoc, List.cons_append, List.append_assoc,
      run_token (t := .comma) rfl]
    exact (run_member rfl hvalue).trans hmore

end

/-- The text of a value with exact numbers is read as that value and nothing else. -/
theorem Document.ofChars_toChars {j : Json} (hj : j.Exact) :
    Document.ofChars j.toChars = ⟨j.toReading, .complete⟩ := by
  have hread := run_toChars j hj [] EndsNumber.nil
  rw [List.append_nil] at hread
  rw [Document.ofChars, hread, run_nil]
  rfl

/-! ## Different values -/

mutual

/-- A value can be told from its reading. -/
theorem toReading_inj : ∀ {j k : Json}, j.toReading = k.toReading → j = k
  | .array items, .array items', h => by
    simp only [toReading, Reading.array.injEq] at h
    rw [itemsToReading_inj h]
  | .object members, .object members', h => by
    simp only [toReading, Reading.object.injEq] at h
    rw [membersToReading_inj h]
  | .null, k, h => by cases k <;> simp_all [toReading]
  | .bool b, k, h => by cases k <;> simp_all [toReading]
  | .number n, k, h => by cases k <;> simp_all [toReading]
  | .string s, k, h => by cases k <;> simp_all [toReading]
  | .array items, .null, h | .array items, .bool _, h | .array items, .number _, h
  | .array items, .string _, h | .array items, .object _, h => by simp [toReading] at h
  | .object members, .null, h | .object members, .bool _, h | .object members, .number _, h
  | .object members, .string _, h | .object members, .array _, h => by simp [toReading] at h

theorem itemsToReading_inj : ∀ {items items' : List Json},
    itemsToReading items = itemsToReading items' → items = items'
  | [], [], _ => rfl
  | [], _ :: _, h | _ :: _, [], h => by simp [itemsToReading] at h
  | item :: rest, item' :: rest', h => by
    simp only [itemsToReading, List.cons.injEq] at h
    rw [toReading_inj h.1, itemsToReading_inj h.2]

theorem membersToReading_inj : ∀ {members members' : List (String × Json)},
    membersToReading members = membersToReading members' → members = members'
  | [], [], _ => rfl
  | [], _ :: _, h | _ :: _, [], h => by simp [membersToReading] at h
  | (key, value) :: rest, (key', value') :: rest', h => by
    simp only [membersToReading, List.cons.injEq, Prod.mk.injEq, Option.some.injEq] at h
    rw [h.1.1, toReading_inj h.1.2, membersToReading_inj h.2]

end

/-- Values with exact numbers that have the same text are the same value. -/
theorem eq_of_toText_eq {j k : Json} (hj : j.Exact) (hk : k.Exact) (h : j.toText = k.toText) :
    j = k := by
  have hchars : j.toChars = k.toChars := String.ofList_injective h
  have hread := Document.ofChars_toChars hj
  rw [hchars, Document.ofChars_toChars hk] at hread
  exact toReading_inj (Document.mk.inj hread).1.symm

end Weblog.Json
