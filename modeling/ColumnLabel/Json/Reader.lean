import ColumnLabel.Datum.Basic
import ColumnLabel.Text.Encoding
import ColumnLabel.Text.Character
import ColumnLabel.Text.Search

/-!
# ColumnLabel.Json.Reader

Reading JSON text into raw data.  A number with a point or an exponent is a double, any other one an
integer; `NaN`, `Infinity` and `-Infinity` are doubles too.  Of two entries of an object with the same
key the first one gives the place and the last one the value.

Reading stops at the first thing that is no JSON, at an integer with more digits than may be read, at a container for
which there is no room to go deeper, and at half of a surrogate pair that stands alone, as that is no character.
-/

namespace ColumnLabel.Json

/-- Why a text could not be read. -/
inductive Refusal where
  /-- The text is not JSON. -/
  | invalid
  /-- An integer has more digits than may be read. -/
  | integerTooLong
  /-- The data is nested too deep. -/
  | tooDeep
  /-- A text holds half of a pair that stands alone. -/
  | loneHalf
  deriving DecidableEq, Repr

/-- A text without the blanks in front; JSON knows four. -/
def skipBlanks (cs : List Char) : List Char :=
  cs.dropWhile fun c => c = ' ' ∨ c = '\t' ∨ c = '\n' ∨ c = '\r'

/-! ## Texts -/

/-- The number of four hexadecimal digits. -/
def hexUnit? (a b c d : Char) : Option Nat := do
  return ((← Text.hexValue? a) * 16 + (← Text.hexValue? b)) * 256 +
    (← Text.hexValue? c) * 16 + (← Text.hexValue? d)

/-- The character of an escape that is a single letter. -/
def unescape? : Char → Option Char
  | '"' => some '"'
  | '\\' => some '\\'
  | '/' => some '/'
  | 'b' => some (Char.ofNat 8)
  | 'f' => some (Char.ofNat 12)
  | 'n' => some '\n'
  | 'r' => some '\r'
  | 't' => some '\t'
  | _ => none

/-- The rest of a text up to its closing quote, and what follows.  `done` is what was read, latest first,
and `high` the first half of a pair, if it was the last thing read; then the second half has to follow. -/
def readText (done : List Char) (high : Option Nat) : List Char → Except Refusal (List Char × List Char)
  | [] => .error .invalid
  | '"' :: cs => if high.isSome then .error .loneHalf else .ok (done.reverse, cs)
  | '\\' :: 'u' :: a :: b :: c :: d :: cs =>
    match hexUnit? a b c d with
    | none => .error .invalid
    | some unit =>
      match high with
      | some first =>
        if Text.isSecondHalf unit then readText (Text.ofHalves first unit :: done) none cs else .error .loneHalf
      | none =>
        if Text.isFirstHalf unit then readText done (some unit) cs
        else if Text.isSecondHalf unit then .error .loneHalf
        else readText (Char.ofNat unit :: done) none cs
  | '\\' :: c :: cs =>
    match unescape? c with
    | some c => if high.isSome then .error .loneHalf else readText (c :: done) none cs
    | none => .error .invalid
  | c :: cs =>
    if c.toNat < 0x20 ∨ c = '\\' then .error .invalid
    else if high.isSome then .error .loneHalf
    else readText (c :: done) none cs

/-! ## Numbers -/

/-- The fraction at the start of a text, with its point, and what follows. -/
def takeFraction (cs : List Char) : List Char × List Char :=
  match cs with
  | '.' :: rest =>
    match rest.takeWhile Char.isDigit with
    | [] => ([], cs)
    | ds => ('.' :: ds, rest.dropWhile Char.isDigit)
  | _ => ([], cs)

/-- The sign at the start of an exponent, as it stands, and what follows. -/
def takeExponentSign : List Char → List Char × List Char
  | '+' :: cs => (['+'], cs)
  | '-' :: cs => (['-'], cs)
  | cs => ([], cs)

/-- The exponent at the start of a text, with its letter, and what follows. -/
def takeExponent (cs : List Char) : List Char × List Char :=
  match cs with
  | c :: rest =>
    if c = 'e' ∨ c = 'E' then
      let (sign, rest) := takeExponentSign rest
      match rest.takeWhile Char.isDigit with
      | [] => ([], cs)
      | ds => (c :: (sign ++ ds), rest.dropWhile Char.isDigit)
    else ([], cs)
  | [] => ([], [])

/-- The whole part at the start of a number: a zero alone, or digits that do not start with one. -/
def takeWhole : List Char → List Char × List Char
  | '0' :: cs => (['0'], cs)
  | cs => (cs.takeWhile Char.isDigit, cs.dropWhile Char.isDigit)

/-- The number at the start of a text without its sign, and what follows. -/
def readNumber (negative : Bool) (cs : List Char) : Except Refusal (Datum × List Char) :=
  let (whole, afterWhole) := takeWhole cs
  if whole = [] then .error .invalid
  else
    let (fraction, afterFraction) := takeFraction afterWhole
    let (exponent, rest) := takeExponent afterFraction
    if fraction = [] ∧ exponent = [] then
      if Numeral.maxDigits < whole.length then .error .integerTooLong
      else
        let n : Int := digitsValue whole
        .ok (.int (if negative then -n else n), rest)
    else
      match readUnsigned? negative (whole ++ fraction ++ exponent) with
      | some s => .ok (.double s.toDouble, rest)
      | none => .error .invalid

/-! ## Data -/

/-- The words that stand for data. -/
def words : List (List Char × Datum) :=
  [("null".toList, .none), ("true".toList, .bool true), ("false".toList, .bool false),
    ("NaN".toList, .double .nan), ("Infinity".toList, .double (.infinite false)),
    ("-Infinity".toList, .double (.infinite true))]

/-- The word at the start of a text, and what follows. -/
def readWord? (cs : List Char) : Option (Datum × List Char) :=
  words.findSome? fun (word, datum) => (Text.dropPrefix? word cs).map (datum, ·)

mutual

/-- The datum at the start of a text, and what follows.  There is `room` to go deeper, and `fuel` bounds the steps;
two for each character suffice. -/
def readDatum (room : Nat) : (fuel : Nat) → List Char → Except Refusal (Datum × List Char)
  | 0, _ => .error .invalid
  | fuel + 1, cs =>
    match cs with
    | '"' :: cs =>
      match readText [] none cs with
      | .ok (text, rest) => .ok (.text (String.ofList text), rest)
      | .error e => .error e
    | '[' :: cs =>
      match room with
      | 0 => .error .tooDeep
      | room + 1 =>
        match skipBlanks cs with
        | ']' :: rest => .ok (.list [], rest)
        | cs => readItems room fuel [] cs
    | '{' :: cs =>
      match room with
      | 0 => .error .tooDeep
      | room + 1 =>
        match skipBlanks cs with
        | '}' :: rest => .ok (.record (.entries []), rest)
        | cs => readEntries room fuel [] cs
    | cs =>
      match readWord? cs with
      | some result => .ok result
      | none =>
        match cs with
        | '-' :: cs => readNumber true cs
        | cs => readNumber false cs

/-- The items of a list from one of them on; `done` has those before, latest first. -/
def readItems (room : Nat) :
    (fuel : Nat) → (done : List Datum) → List Char → Except Refusal (Datum × List Char)
  | 0, _, _ => .error .invalid
  | fuel + 1, done, cs =>
    match readDatum room fuel cs with
    | .error e => .error e
    | .ok (item, rest) =>
      match skipBlanks rest with
      | ',' :: rest => readItems room fuel (item :: done) (skipBlanks rest)
      | ']' :: rest => .ok (.list (item :: done).reverse, rest)
      | _ => .error .invalid

/-- The entries of an object from one of them on; `done` has those before, latest first. -/
def readEntries (room : Nat) :
    (fuel : Nat) → (done : List (Datum × Datum)) → List Char → Except Refusal (Datum × List Char)
  | 0, _, _ => .error .invalid
  | fuel + 1, done, cs =>
    match cs with
    | '"' :: cs =>
      match readText [] none cs with
      | .error e => .error e
      | .ok (key, rest) =>
        match skipBlanks rest with
        | ':' :: rest =>
          match readDatum room fuel (skipBlanks rest) with
          | .error e => .error e
          | .ok (value, rest) =>
            let done := (.text (String.ofList key), value) :: done
            match skipBlanks rest with
            | ',' :: rest => readEntries room fuel done (skipBlanks rest)
            | '}' :: rest => .ok (.record (Record.ofList done.reverse), rest)
            | _ => .error .invalid
        | _ => .error .invalid
    | _ => .error .invalid

end

/-- The datum that a whole text stands for. -/
def read (text : String) : Except Refusal Datum :=
  let cs := text.toList
  match readDatum maxDepth (2 * cs.length + 2) (skipBlanks cs) with
  | .error e => .error e
  | .ok (datum, rest) => if skipBlanks rest = [] then .ok datum else .error .invalid

end ColumnLabel.Json
