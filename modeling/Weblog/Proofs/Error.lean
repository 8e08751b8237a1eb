import Weblog.Http.Message
import Weblog.Proofs.Json.Reading
import Weblog.Proofs.Uuid

/-!
# What error bodies disclose

The body of an answer that reports an error tells all of the error but the text of an internal one
(`Error.disclosed`). A caller can read the error off the body (`Error.recover?`,
`recover?_toText`): from the details, from the kind, and from the length of the message, which is
enough to know what is said of an identifier, since all identifiers are equally long.
-/

namespace Weblog

open Json

theorem Uuid.length_toText (id : Uuid) : id.toText.length = 36 := by
  rw [← String.length_toList, toText, String.toList_ofList, length_toChars]

namespace Error

/-- What callers learn of an error. -/
def disclosed : Error → Error
  | .internal _ => .internal ""
  | e => e

theorem disclosed_of_ne {e : Error} (h : e.kind ≠ .internal) : e.disclosed = e := by
  cases e with
  | internal text => exact absurd rfl h
  | _ => rfl

theorem kind_disclosed (e : Error) : e.disclosed.kind = e.kind := by
  cases e <;> rfl

/-- Only internal errors are not disclosed as they are. -/
theorem eq_of_disclosed_eq {e f : Error} (hkind : e.kind ≠ .internal ∨ f.kind ≠ .internal)
    (h : e.disclosed = f.disclosed) : e = f := by
  have hsame : e.kind = f.kind := by rw [← kind_disclosed, h, kind_disclosed]
  have he : e.kind ≠ .internal := hkind.elim id fun hf => hsame ▸ hf
  rw [← disclosed_of_ne he, h, disclosed_of_ne (hsame ▸ he)]

/-! ## Recovering an error -/

/-- What is said of one identifier, by the length of the message. -/
def aboutId? : Nat → Option (Uuid → Error)
  | 52 => some .postNotFound
  | 56 => some .categoryNotFound
  | 57 => some .noVersions
  | 60 => some .versionNotFound
  | 70 => some .alreadyPublished
  | 84 => some .notDeletable
  | _ => none

/-- The error about an identifier that is given as a text. -/
def ofId? (message id : String) : Option Error :=
  (Uuid.ofText? id).bind fun id => (aboutId? message.length).map (· id)


/-- The identifier that a reading is the text of. -/
def readingId? : Reading → Option Uuid
  | .string s => Uuid.ofText? s
  | _ => none

/-- The error that is reported with a message, a kind and perhaps with details. -/
def ofParts? (message kind : String) : List (Option String × Reading) → Option Error
  | [(_, .object [(_, .string subject)])] =>
    if kind = ErrorKind.conflict.name then some (.nameTaken subject) else ofId? message subject
  | [(_, .object [(_, .array ids)])] => (ids.mapM readingId?).map .categoriesNotFound
  | _ =>
    if kind = ErrorKind.internal.name then some (.internal "")
    else if kind = ErrorKind.invalidInput.name then
      some (.invalidInput (String.ofList (message.toList.drop 15)))
    else ofId? message (String.ofList ((message.toList.drop 13).take 36))

/-- The error that the text of a body reports. -/
def recover? (text : String) : Option Error :=
  match (Document.ofChars text.toList).root with
  | .object ((_, .string message) :: (_, .string kind) :: details) => ofParts? message kind details
  | _ => none

theorem itemsExact_ids (ids : List Uuid) :
    ItemsExact (ids.map fun id => .string id.toText) := by
  induction ids with
  | nil => exact trivial
  | cons id ids ih => exact ⟨trivial, ih⟩

theorem mapM_readingId? (ids : List Uuid) :
    (itemsToReading (ids.map fun id => .string id.toText)).mapM readingId? = some ids := by
  induction ids with
  | nil => rfl
  | cons id ids ih =>
    rw [List.map_cons, itemsToReading, List.mapM_cons, ih]
    simp [readingId?, toReading, Uuid.ofText?_toText]

theorem exact_toJson (e : Error) : e.toJson.Exact := by
  cases e with
  | categoriesNotFound ids => exact ⟨trivial, trivial, ⟨itemsExact_ids ids, trivial⟩, trivial⟩
  | postNotFound id | versionNotFound id | noVersions id | categoryNotFound id | nameTaken name =>
    exact ⟨trivial, trivial, ⟨trivial, trivial⟩, trivial⟩
  | alreadyPublished id | notDeletable id | invalidInput text | internal text =>
    exact ⟨trivial, trivial, trivial⟩

/-- The details of an error, as they are read. -/
def readDetails (e : Error) : List (Option String × Reading) :=
  membersToReading (e.details?.toList.map ("details", ·))

theorem recover?_eq (e : Error) :
    recover? e.toJson.toText = ofParts? e.publicMessage e.kind.name e.readDetails := by
  have hroot : (Document.ofChars e.toJson.toText.toList).root = e.toJson.toReading := by
    rw [toText, String.toList_ofList, Document.ofChars_toChars e.exact_toJson]
  rw [recover?, hroot]
  cases e <;> rfl

theorem ofId?_of_length {about : Uuid → Error} {message : String} (id : Uuid)
    (h : aboutId? message.length = some about) : ofId? message id.toText = some (about id) := by
  rw [ofId?, Uuid.ofText?_toText, Option.bind_some, h]
  rfl

/-- What was not found is named in the details. -/
theorem ofParts?_notFound {about : Uuid → Error} {message name detail : String} {id : Uuid}
    (h : aboutId? message.length = some about) :
    ofParts? message ErrorKind.notFound.name [(name, .object [(detail, .string id.toText)])] =
      some (about id) := by
  have hkind : ErrorKind.notFound.name ≠ ErrorKind.conflict.name := by decide
  rw [ofParts?, if_neg hkind]
  exact ofId?_of_length id h

/-- A version in a conflict is named in the message. -/
theorem ofParts?_conflict {about : Uuid → Error} {after : String} {id : Uuid}
    (h : aboutId? ("post version " ++ id.toText ++ after).length = some about) :
    ofParts? ("post version " ++ id.toText ++ after) ErrorKind.conflict.name [] =
      some (about id) := by
  have hid : (("post version " ++ id.toText ++ after).toList.drop 13).take 36 =
      id.toText.toList := by
    have hbefore : "post version ".toList.length = 13 := rfl
    rw [String.toList_append, String.toList_append, List.append_assoc, ← hbefore, List.drop_left,
      ← id.length_toText, ← String.length_toList, List.take_left]
  have hinternal : ErrorKind.conflict.name ≠ ErrorKind.internal.name := by decide
  have hinvalid : ErrorKind.conflict.name ≠ ErrorKind.invalidInput.name := by decide
  simp only [ofParts?, if_neg hinternal, if_neg hinvalid, hid, String.ofList_toList]
  exact ofId?_of_length id h

theorem ofParts?_invalidInput (text : String) :
    ofParts? ("invalid input: " ++ text) ErrorKind.invalidInput.name [] =
      some (.invalidInput text) := by
  have htext : ("invalid input: " ++ text).toList.drop 15 = text.toList := by
    have hbefore : "invalid input: ".toList.length = 15 := rfl
    rw [String.toList_append, ← hbefore, List.drop_left]
  have hinternal : ErrorKind.invalidInput.name ≠ ErrorKind.internal.name := by decide
  simp only [ofParts?, if_neg hinternal, if_true, htext, String.ofList_toList]

/-- All of an error but the text of an internal one can be read off its body. -/
theorem recover?_toText (e : Error) : recover? e.toJson.toText = some e.disclosed := by
  have hbefore (text : String) (id : Uuid) : (text ++ id.toText).length = text.length + 36 := by
    rw [String.length_append, id.length_toText]
  have haround (before after : String) (id : Uuid) :
      (before ++ id.toText ++ after).length = before.length + 36 + after.length := by
    rw [String.length_append, hbefore]
  rw [recover?_eq]
  cases e with
  | postNotFound id =>
    refine ofParts?_notFound ?_
    change aboutId? ("post not found: " ++ id.toText).length = _
    rw [hbefore]
    rfl
  | versionNotFound id =>
    refine ofParts?_notFound ?_
    change aboutId? ("post version not found: " ++ id.toText).length = _
    rw [hbefore]
    rfl
  | noVersions id =>
    refine ofParts?_notFound ?_
    change aboutId? ("post " ++ id.toText ++ " has no versions").length = _
    rw [haround]
    rfl
  | categoryNotFound id =>
    refine ofParts?_notFound ?_
    change aboutId? ("category not found: " ++ id.toText).length = _
    rw [hbefore]
    rfl
  | categoriesNotFound ids => exact congrArg (Option.map _) (mapM_readingId? ids)
  | alreadyPublished id =>
    refine ofParts?_conflict ?_
    rw [haround]
    rfl
  | notDeletable id =>
    refine ofParts?_conflict ?_
    rw [haround]
    rfl
  | nameTaken name => rfl
  | invalidInput text => exact ofParts?_invalidInput text
  | internal text => rfl

example : (internal "disk full").toJson.toText =
    "\x7b\"error\":\"internal server error\",\"kind\":\"internal\"\x7d" := by
  decide

theorem disclosed_eq_of_toText_eq {e f : Error} (h : e.toJson.toText = f.toJson.toText) :
    e.disclosed = f.disclosed := by
  have hrecover := recover?_toText e
  rw [h, recover?_toText] at hrecover
  exact (Option.some.inj hrecover).symm

end Error

end Weblog
