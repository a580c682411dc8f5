/-!
# ColumnLabel.Text.Encoding

Texts as bytes.  The bytes of a text may be in UTF-8 or, in either byte order, in UTF-16 or UTF-32, and
nothing says in which: it is told by the zeros among the first bytes.  A text of a data format starts with
characters of ASCII, whose units have all their zeros on one side, and UTF-8 has none of them.

Only UTF-8 may have a mark in front, which is dropped; in the other forms it is a character like any other.
Half of a surrogate pair that stands alone is no character, so bytes that hold one are not read, well formed as they
may be otherwise.
-/

namespace ColumnLabel.Text

/-! ## Surrogate pairs -/

/-- Is a unit the first half of a pair? -/
def isFirstHalf (unit : Nat) : Bool := 0xD800 ≤ unit && unit < 0xDC00

/-- Is a unit the second half of a pair? -/
def isSecondHalf (unit : Nat) : Bool := 0xDC00 ≤ unit && unit < 0xE000

/-- The character of the two halves of a pair. -/
def ofHalves (first second : Nat) : Char :=
  Char.ofNat (0x10000 + (first - 0xD800) * 0x400 + (second - 0xDC00))

/-- The characters of the units of UTF-16, if no half of a pair stands alone. -/
def ofUnits? : List Nat → Option (List Char)
  | [] => some []
  | unit :: rest =>
    if isFirstHalf unit then
      match rest with
      | second :: rest => if isSecondHalf second then (ofUnits? rest).map (ofHalves unit second :: ·) else none
      | [] => none
    else if isSecondHalf unit then none
    else (ofUnits? rest).map (Char.ofNat unit :: ·)

/-- Do bytes of UTF-8 hold half of a pair? -/
def holdsHalf : List UInt8 → Bool
  | first :: second :: rest => (first == 0xED && 0xA0 ≤ second) || holdsHalf (second :: rest)
  | _ => false

/-! ## Units -/

/-- Which byte of a unit comes first. -/
inductive ByteOrder where
  | bigEnd | littleEnd
  deriving DecidableEq, Repr

/-- The number that the bytes of a unit stand for. -/
def ByteOrder.number : ByteOrder → List UInt8 → Nat
  | bigEnd, bytes => bytes.foldl (fun n b => 256 * n + b.toNat) 0
  | littleEnd, bytes => bytes.foldr (fun b n => 256 * n + b.toNat) 0

/-- The units of two bytes each, if no byte is left over. -/
def doubleBytes? (order : ByteOrder) : List UInt8 → Option (List Nat)
  | [] => some []
  | a :: b :: rest => (doubleBytes? order rest).map (order.number [a, b] :: ·)
  | _ => none

/-- The units of four bytes each, if no byte is left over. -/
def fourfoldBytes? (order : ByteOrder) : List UInt8 → Option (List Nat)
  | [] => some []
  | a :: b :: c :: d :: rest => (fourfoldBytes? order rest).map (order.number [a, b, c, d] :: ·)
  | _ => none

/-- Bytes make units of two bytes each exactly when their number is even. -/
theorem isSome_doubleBytes?_iff (order : ByteOrder) (bytes : List UInt8) :
    (doubleBytes? order bytes).isSome = true ↔ bytes.length % 2 = 0 := by
  fun_induction doubleBytes? order bytes with
  | case1 => simp
  | case2 a b rest ih => simp [ih]; omega
  | case3 bytes hnil hcons =>
    match bytes, hnil, hcons with
    | [], hnil, _ => exact absurd rfl hnil
    | [a], _, _ => simp
    | a :: b :: rest, _, hcons => exact absurd rfl (hcons a b rest)

/-! ## Encodings -/

/-- Why bytes are not read as a text. -/
inductive Unread where
  /-- They are not well formed in their encoding form. -/
  | malformed
  /-- They hold half of a pair that stands alone. -/
  | loneHalf
  deriving DecidableEq, Repr

/-- An encoding form of Unicode. -/
inductive Encoding where
  | utf8
  | utf16 (order : ByteOrder)
  | utf32 (order : ByteOrder)
  deriving DecidableEq, Repr

namespace Encoding

/-- The encoding form that some bytes are in.  The zeros decide; where there are none, and where there
are one or three bytes, it is UTF-8. -/
def ofBytes : List UInt8 → Encoding
  | [a, b] => if a = 0 then utf16 .bigEnd else if b = 0 then utf16 .littleEnd else utf8
  | a :: b :: c :: d :: _ =>
    if a = 0 then if b = 0 then utf32 .bigEnd else utf16 .bigEnd
    else if b = 0 then if c = 0 ∧ d = 0 then utf32 .littleEnd else utf16 .littleEnd
    else utf8
  | _ => utf8

/-- A text without the mark of UTF-8 at its start. -/
def withoutMark (s : String) : String :=
  match s.toList with
  | c :: cs => if c.toNat = 0xFEFF then String.ofList cs else s
  | [] => s

/-- The text of some bytes in a known encoding form. -/
def read (bytes : ByteArray) : Encoding → Except Unread String
  | utf8 =>
    match String.fromUTF8? bytes with
    | some s => .ok (withoutMark s)
    | none => .error (if holdsHalf bytes.data.toList then .loneHalf else .malformed)
  | utf16 order =>
    match (doubleBytes? order bytes.data.toList).map ofUnits? with
    | some (some cs) => .ok (String.ofList cs)
    | some none => .error .loneHalf
    | none => .error .malformed
  | utf32 order =>
    match fourfoldBytes? order bytes.data.toList with
    | some units =>
      if units.any (0x110000 ≤ ·) then .error .malformed
      else if units.any fun unit => isFirstHalf unit || isSecondHalf unit then .error .loneHalf
      else .ok (String.ofList (units.map Char.ofNat))
    | none => .error .malformed

end Encoding

/-- The text of some bytes, in the encoding form that their zeros tell. -/
def ofBytes (bytes : ByteArray) : Except Unread String :=
  (Encoding.ofBytes bytes.data.toList).read bytes

end ColumnLabel.Text
