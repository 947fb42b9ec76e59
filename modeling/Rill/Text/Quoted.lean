import Rill.Text.Extending
import Rill.Text.Unassigned

/-!
# Quoted names

A name is shown between double quotes. Characters that would not be visible, would join onto their
neighbour, or would end the quotation are written as escapes, so the quoted form shows every
character of the name.
-/

namespace Rill

/-- Controls, blanks other than the space, format characters and private use, of Unicode 17.0. -/
def formlessRanges : Ranges :=
  [(0x0, 0x1F), (0x7F, 0xA0), (0xAD, 0xAD), (0x600, 0x605), (0x61C, 0x61C), (0x6DD, 0x6DD),
   (0x70F, 0x70F), (0x890, 0x891), (0x8E2, 0x8E2), (0x1680, 0x1680), (0x180E, 0x180E),
   (0x2000, 0x200F), (0x2028, 0x202F), (0x205F, 0x2064), (0x2066, 0x206F), (0x3000, 0x3000),
   (0xE000, 0xF8FF), (0xFEFF, 0xFEFF), (0xFFF9, 0xFFFB), (0x110BD, 0x110BD), (0x110CD, 0x110CD),
   (0x13430, 0x1343F), (0x1BCA0, 0x1BCA3), (0x1D173, 0x1D17A), (0xE0001, 0xE0001),
   (0xE0020, 0xE007F), (0xF0000, 0xFFFFD), (0x100000, 0x10FFFD)]

/--
Characters that leave no trace where they are not supported, fillers of letters among them. These
are the characters with the property Default_Ignorable_Code_Point of Unicode 17.0.
-/
def ignorableRanges : Ranges :=
  [(0xAD, 0xAD), (0x34F, 0x34F), (0x61C, 0x61C), (0x115F, 0x1160), (0x17B4, 0x17B5),
   (0x180B, 0x180F), (0x200B, 0x200F), (0x202A, 0x202E), (0x2060, 0x206F), (0x3164, 0x3164),
   (0xFE00, 0xFE0F), (0xFEFF, 0xFEFF), (0xFFA0, 0xFFA0), (0xFFF0, 0xFFF8), (0x1BCA0, 0x1BCA3),
   (0x1D173, 0x1D17A), (0xE0000, 0xE0FFF)]

/-- Whether a character is shown by its code point, since it has no form or place of its own. -/
def isInvisible (c : Char) : Bool :=
  formlessRanges.contains c || ignorableRanges.contains c || extendingRanges.contains c ||
    unassignedRanges.contains c

/-- One character inside quotes. -/
def quoteChar (c : Char) : List Char :=
  if c = '"' ∨ c = '\\' then ['\\', c]
  else if c = '\t' then ['\\', 't']
  else if c = '\r' then ['\\', 'r']
  else if c = '\n' then ['\\', 'n']
  else if c = Char.ofNat 0 then ['\\', '0']
  else if isInvisible c then
    '\\' :: 'u' :: '\x7b' :: (Nat.toDigits 16 c.toNat ++ ['\x7d'])
  else [c]

/-- A name between double quotes. -/
def quote (name : String) : String :=
  String.ofList ('"' :: (name.toList.flatMap quoteChar ++ ['"']))

end Rill
