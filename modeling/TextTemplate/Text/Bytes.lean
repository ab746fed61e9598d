/-! Text from bytes that need not make up characters. -/

namespace TextTemplate.Text

/-- What the first byte of a character says: its own share of the code point, how many bytes follow,
and between which bounds the next of them lies. -/
structure LeadingByte where
  share : Nat
  following : Nat
  least : UInt8
  greatest : UInt8

/-- The bounds keep out codes that are longer than they need be, and those of no character. -/
def LeadingByte.ofByte? (b : UInt8) : Option LeadingByte :=
  if b < 0x80 then some ⟨b.toNat, 0, 0, 0⟩
  else if b < 0xc2 then none
  else if b < 0xe0 then some ⟨b.toNat % 32, 1, 0x80, 0xbf⟩
  else if b < 0xf0 then
    let least : UInt8 := if b = 0xe0 then 0xa0 else 0x80
    let greatest : UInt8 := if b = 0xed then 0x9f else 0xbf
    some ⟨b.toNat % 16, 2, least, greatest⟩
  else if b < 0xf5 then
    let least : UInt8 := if b = 0xf0 then 0x90 else 0x80
    let greatest : UInt8 := if b = 0xf4 then 0x8f else 0xbf
    some ⟨b.toNat % 8, 3, least, greatest⟩
  else none

/-- Reads the bytes that follow, as far as they fit. Gives the code point and their count. -/
def readFollowing (least greatest : UInt8) : Nat → Nat → List UInt8 → Nat × Nat
  | 0, n, _ | _, n, [] => (n, 0)
  | k + 1, n, b :: bs =>
    if least ≤ b ∧ b ≤ greatest then
      let (n, count) := readFollowing 0x80 0xbf k (64 * n + b.toNat % 64) bs
      (n, count + 1)
    else (n, 0)

/-- What stands for bytes that make up no character. -/
def replacement : Char := '\ufffd'

/-- The characters of at most `most` pieces of the bytes, each a character or what begins like
one. -/
def decode : (most : Nat) → List UInt8 → List Char
  | 0, _ | _, [] => []
  | most + 1, b :: bs =>
    match LeadingByte.ofByte? b with
    | none => replacement :: decode most bs
    | some lead =>
      let (n, count) := readFollowing lead.least lead.greatest lead.following lead.share bs
      (if count = lead.following then Char.ofNat n else replacement) :: decode most (bs.drop count)

/-- The text of bytes, in which those that make up no character are replaced. -/
def ofBytes (bytes : ByteArray) : String := String.ofList (decode bytes.size bytes.toList)

def dropByteOrderMark (text : String) : String :=
  match text.toList with
  | '\ufeff' :: rest => String.ofList rest
  | _ => text

end TextTemplate.Text
