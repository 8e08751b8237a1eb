import Weblog.Proofs.Text.Digits
import Weblog.Uuid.Text

/-!
# Identifiers in text

An identifier comes back from the text that is written for it (`ofText?_toText`), which always has
36 characters.
-/

namespace Weblog.Uuid

open Text

/-! ## The written form -/

@[simp] theorem length_toChars (id : Uuid) : id.toChars.length = 36 := by
  simp [toChars]

/-- The digits of the groups together are those of the whole number. -/
theorem hex_groups (n : Nat) :
    hex 8 (n >>> 96) ++ hex 4 (n >>> 80) ++ hex 4 (n >>> 64) ++ hex 4 (n >>> 48) ++ hex 12 n =
      hex 32 n := by
  have h96 : n >>> 96 = n >>> 80 >>> (4 * 4) := Nat.shiftRight_add n 80 16
  have h80 : n >>> 80 = n >>> 64 >>> (4 * 4) := Nat.shiftRight_add n 64 16
  have h64 : n >>> 64 = n >>> 48 >>> (4 * 4) := Nat.shiftRight_add n 48 16
  rw [h96, hex_append 8 4, h80, hex_append 12 4, h64, hex_append 16 4]
  exact hex_append 20 12 n

/-! ## Reading -/

theorem splitAt_group {group : List Char} {width : Nat} (h : group.length = width)
    (rest : List Char) : (group ++ rest).splitAt width = (group, rest) := by
  rw [List.splitAt_eq, List.take_left' h, List.drop_left' h]

theorem ungroup?_toChars (id : Uuid) : ungroup? id.toChars = some (hex 32 id.value) := by
  simp only [toChars, ungroup?, splitAt_group (length_hex _ _), hex_groups]

theorem ofDigits?_hex (id : Uuid) : ofDigits? (hex 32 id.value) = some id := by
  have hsmall : id.value >>> (4 * 32) = 0 := by
    have hlt := id.value_lt
    omega
  rw [ofDigits?, if_pos (length_hex _ _), ofHex?_hex hsmall, Option.map_some]
  exact congrArg some (ext (Nat.mod_eq_of_lt id.value_lt))

theorem ofChars?_toChars (id : Uuid) : ofChars? id.toChars = some id := by
  rw [ofChars?, if_neg (by simp), if_pos (length_toChars id), ofGroups?, ungroup?_toChars,
    Option.bind_some, ofDigits?_hex]

/-- An identifier is read back from its text. -/
theorem ofText?_toText (id : Uuid) : ofText? id.toText = some id := by
  rw [ofText?, toText, String.toList_ofList, ofChars?_toChars]

end Weblog.Uuid
