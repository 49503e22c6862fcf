import TableMapper.Hex

/-!
# Universally unique identifiers

A uuid is sixteen bytes. Its written form has 32 hexadecimal digits, two for each byte.

## Main definitions

* `Uuid.parse?` — reads the plain, hyphenated, braced and `urn:uuid:` forms.
* `Uuid.hyphenated` — writes the hyphenated form 8-4-4-4-12 in lowercase.
-/

namespace TableMapper

structure Uuid where
  bytes : Bytes
  length_bytes : bytes.length = 16
  deriving DecidableEq

namespace Uuid

def ofBytes? (bytes : Bytes) : Option Uuid :=
  if h : bytes.length = 16 then some ⟨bytes, h⟩ else none

/-- 32 digits and nothing else. -/
def parsePlain? (text : List Char) : Option Uuid :=
  Hex.parse? text >>= ofBytes?

/-- The digits of a text with hyphens after the 8th, 12th, 16th and 20th digit. -/
def withoutHyphens? (text : List Char) : Option (List Char) :=
  let groups := [text.take 8, (text.drop 9).take 4, (text.drop 14).take 4, (text.drop 19).take 4,
    text.drop 24]
  let hyphens := [text[8]?, text[13]?, text[18]?, text[23]?]
  if hyphens.all (· == some '-') then some groups.flatten else none

/-- The form 8-4-4-4-12. -/
def parseHyphenated? (text : List Char) : Option Uuid :=
  if text.length = 36 then withoutHyphens? text >>= parsePlain? else none

/-- Whether `text` begins with `urn:uuid:`, in letters of either case. -/
def startsUrn (text : List Char) : Bool :=
  (text.take 9).map Char.toLower == "urn:uuid:".toList

/-- Reads 32 digits, the hyphenated form, the hyphenated form in braces, or the hyphenated form
after `urn:uuid:`. Nothing is trimmed. -/
def parse? (text : String) : Option Uuid :=
  let cs := text.toList
  match cs.length with
  | 32 => parsePlain? cs
  | 36 => parseHyphenated? cs
  | 38 =>
    if cs.head? = some '\x7b' ∧ cs.getLast? = some '\x7d' then
      parseHyphenated? (cs.drop 1).dropLast
    else none
  | 45 => if startsUrn cs then parseHyphenated? (cs.drop 9) else none
  | _ => none

def hyphenated (u : Uuid) : String :=
  let digits := Hex.write u.bytes
  String.ofList <| List.intercalate ['-']
    [digits.take 8, (digits.drop 8).take 4, (digits.drop 12).take 4, (digits.drop 16).take 4,
      digits.drop 20]

end Uuid

end TableMapper
