import Mathlib.Data.List.DropRight
import ByteHub.Conf.NetConf

/-!
# Taking texts apart

The string functions of the standard library that the configuration uses, on
lists of characters.
-/

namespace ByteHub.Conf

/-- `char::is_whitespace` -/
def isWhitespace (c : Char) : Bool :=
  let code := c.toNat
  (9 ≤ code && code ≤ 13) || code = 32 || code = 0x85 || code = 0xa0 ||
    code = 0x1680 || (0x2000 ≤ code && code ≤ 0x200a) || code = 0x2028 ||
    code = 0x2029 || code = 0x202f || code = 0x205f || code = 0x3000

/-- `str::trim` -/
def trim (text : List Char) : List Char :=
  text.dropWhile isWhitespace |>.rdropWhile isWhitespace

/-- `str::split_once` -/
def splitOnce (separator : Char) :
    List Char → Option (List Char × List Char)
  | [] => none
  | c :: rest =>
      if c = separator then some ([], rest)
      else
        (splitOnce separator rest).map fun (before, after) =>
          (c :: before, after)

/-- `str::rsplitn(2, _)`: the text after the last separator, and the text
before it if there is one. -/
def rsplit2 (separator : Char) (text : List Char) :
    List Char × Option (List Char) :=
  match splitOnce separator text.reverse with
  | some (after, before) => (after.reverse, some before.reverse)
  | none => (text, none)

/-- Digits after an optional plus sign. -/
def parseNumber (text : List Char) : Option ℕ :=
  match text with
  | '+' :: rest => digits rest
  | _ => digits text

/-- `parse::<u8>` -/
def parseU8 (text : List Char) : Option UInt8 :=
  (parseNumber text).bind fun value =>
    if value < 2 ^ 8 then some (UInt8.ofNat value) else none

/-- `parse::<u16>` -/
def parseU16 (text : List Char) : Option UInt16 :=
  (parseNumber text).bind fun value =>
    if value < 2 ^ 16 then some (UInt16.ofNat value) else none

end ByteHub.Conf
