import ColumnLabel.Datum.Moment
import ColumnLabel.Number.Decimal

/-!
# ColumnLabel.Datum.Basic

The raw data that labels are made from: cells of result rows, values computed elsewhere, fields of a
column descriptor.  Their kinds are not known beforehand, so they share one type.

A record is a list of entries whose keys are data of any kind; no two keys are the same.  `Record.ofList`
makes one from any entries: of two with the same key the first one gives the key and the place, the last
one the value.

A list or a record may hold itself.  Of these there are two, a list that is its own only item and a record
whose only entry, under `self`, is that record.

A `Value` is what a label shows for a datum, in one of six variants.  It is itself a datum, so that a
value which is already made can be handed over again.

Data may be nested to any depth, but who goes through it level by level has only so much room: each container takes
some of it (`takeRoom`), and at first there is as much as `maxDepth`.
-/

namespace ColumnLabel

/-- The integers from `start` towards `stop`, `stop` left out, in steps of `step`. -/
structure Range where
  start : Int
  stop : Int
  step : Int
  deriving DecidableEq, Repr

mutual

/-- Raw data. -/
inductive Datum where
  | none
  | bool (value : Bool)
  | int (value : Int)
  | double (value : Double)
  | decimal (value : Decimal)
  | text (value : String)
  | bytes (value : List UInt8)
  | date (value : Day)
  | time (value : Clock)
  | dateTime (value : DateTime)
  | list (items : List Datum)
  | tuple (items : List Datum)
  | set (items : List Datum)
  | range (value : Range)
  | record (value : Record)
  | endless
  | value (value : Value)

/-- A record: entries in order, or the record that holds itself. -/
inductive Record where
  | entries (list : List (Datum × Datum))
  | endless

/-- What a label shows for a datum.  A text variable of a column descriptor may hold data that is no
text; `unchecked` carries it as it is. -/
inductive Value where
  | absent
  | bool (value : Bool)
  | number (value : Number)
  | text (value : String)
  | unchecked (content : Datum)
  | record (value : Record)
  | list (items : List Datum)

end

instance : Inhabited Datum := ⟨.none⟩

instance : Inhabited Value := ⟨.absent⟩

/-! ## Kinds -/

/-- The variant of a value. -/
def Value.variant : Value → Variant
  | .absent => .absent
  | .bool _ => .bool
  | .number _ => .number
  | .text _ | .unchecked _ => .text
  | .record _ => .record
  | .list _ => .list

/-- The kind of a datum. -/
def Datum.kind : Datum → Kind
  | .none => .none
  | .bool _ => .bool
  | .int _ => .int
  | .double _ => .double
  | .decimal _ => .decimal
  | .text _ => .text
  | .bytes _ => .bytes
  | .date _ => .date
  | .time _ => .time
  | .dateTime _ => .dateTime
  | .list _ | .endless => .list
  | .tuple _ => .tuple
  | .set _ => .set
  | .range _ => .range
  | .record _ => .record
  | .value v => .value v.variant

/-! ## Depth -/

/-- How deep one can go into data.  The calls that go into it share their stack with those who ask for it, and the
number is what these leave, give or take a few. -/
def maxDepth : Nat := 980

/-- The room that is left once some levels are taken. -/
def takeRoom (levels room : Nat) (doing : String) : Except Fault Nat :=
  if levels ≤ room then .ok (room - levels) else .error (.tooDeep doing)

/-- The levels that a value takes besides those of what it holds. -/
def valueLevels : Nat := 3

mutual

/-- How many levels a datum goes down. -/
def Datum.depth : Datum → Nat
  | .list items | .tuple items | .set items => depthOfItems items + 1
  | .record r => r.depth
  | .value v => v.depth + valueLevels
  | _ => 0

/-- How many levels the deepest of some data goes down. -/
def depthOfItems : List Datum → Nat
  | [] => 0
  | d :: ds => max d.depth (depthOfItems ds)

/-- How many levels a record goes down. -/
def Record.depth : Record → Nat
  | .entries list => depthOfEntries list + 1
  | .endless => 0

/-- How many levels the deepest of some entries goes down. -/
def depthOfEntries : List (Datum × Datum) → Nat
  | [] => 0
  | (k, v) :: rest => max (max k.depth v.depth) (depthOfEntries rest)

/-- How many levels the content of a value goes down. -/
def Value.depth : Value → Nat
  | .unchecked d => d.depth
  | .record r => r.depth
  | .list items => depthOfItems items + 1
  | _ => 0

end

/-! ## Ranges -/

/-- How many integers a range has. -/
def Range.size (r : Range) : Nat :=
  if 0 < r.step then ((r.stop - r.start + r.step - 1) / r.step).toNat
  else if r.step < 0 then ((r.start - r.stop - r.step - 1) / -r.step).toNat
  else 0

/-- The integers of a range. -/
def Range.toList (r : Range) : List Int :=
  (List.range r.size).map fun i => r.start + r.step * Int.ofNat i

/-- Two ranges are the same key when they have the same integers. -/
def Range.sameItems (r s : Range) : Bool :=
  r.size == s.size && (r.size == 0 || (r.start == s.start && (r.size == 1 || r.step == s.step)))

/-! ## Is there anything? -/

/-- Is a record without entries? -/
def Record.isEmpty : Record → Bool
  | .entries list => list.isEmpty
  | .endless => false

/-- A datum counts as nothing when it is missing, false, zero or empty. -/
def Datum.isTruthy : Datum → Bool
  | .none => false
  | .bool b => b
  | .int i => i != 0
  | .double x => !x.isZero
  | .decimal d => !d.isZero
  | .text s => !s.isEmpty
  | .bytes bs => !bs.isEmpty
  | .list items | .tuple items | .set items => !items.isEmpty
  | .range r => r.size != 0
  | .record r => !r.isEmpty
  | .date _ | .time _ | .dateTime _ | .endless | .value _ => true

/-! ## Keys -/

/-- The exact value of a datum that is a number; a truth value is the number zero or one. -/
def Datum.exactValue? : Datum → Option Exact
  | .bool b => some (.ofScaled false b.toNat 0)
  | .int i => Exact.ofNumber? (.int i)
  | .double x => Exact.ofDouble? x
  | .decimal d => d.exactValue?
  | _ => Option.none

mutual

/-- Do two data stand for the same key?  Numbers do when they have the same exact value, whatever their
kinds, and moments when they are the same instant; what is not a number is not even the same as itself. -/
def Datum.sameKey : Datum → Datum → Bool
  | .none, .none => true
  | .int i, .int j => i == j
  | .text s, .text t => s == t
  | .bytes a, .bytes b => a == b
  | .date a, .date b => a == b
  | .time a, .time b => a.same b
  | .dateTime a, .dateTime b => a.same b
  | .tuple a, .tuple b => sameKeys a b
  | .range a, .range b => a.sameItems b
  | .value a, .value b => a.sameKey b
  | a, b =>
    match a.exactValue?, b.exactValue? with
    | some x, some y => x == y
    | _, _ => false

/-- Do two lists of data stand for the same keys, one by one? -/
def sameKeys : List Datum → List Datum → Bool
  | [], [] => true
  | a :: as, b :: bs => a.sameKey b && sameKeys as bs
  | _, _ => false

/-- Do two values stand for the same key?  They do when they are of one variant and hold the same. -/
def Value.sameKey : Value → Value → Bool
  | .absent, .absent => true
  | .bool a, .bool b => a == b
  | .number a, .number b =>
    match Exact.ofNumber? a, Exact.ofNumber? b with
    | some x, some y => x == y
    | _, _ => false
  | .text a, .text b => a == b
  | .unchecked a, .unchecked b => a.sameKey b
  | .list a, .list b => sameKeys a b
  | _, _ => false

end

mutual

/-- Why a datum cannot be looked up, if it cannot: a container that may change, or a decimal that
signals, in it or in place of it. -/
def Datum.keyFault? : Datum → Option Fault
  | .list _ | .endless => some (.unhashable .list)
  | .set _ => some (.unhashable .set)
  | .record _ => some (.unhashable .record)
  | .decimal d => if d.isSignaling then some .signalingKey else Option.none
  | .tuple items => keysFault? items
  | .value v => v.keyFault?
  | _ => Option.none

/-- The first reason among data why one of them cannot be looked up. -/
def keysFault? : List Datum → Option Fault
  | [] => Option.none
  | d :: ds => d.keyFault?.or (keysFault? ds)

/-- Why a value cannot be looked up, if it cannot. -/
def Value.keyFault? : Value → Option Fault
  | .record _ => some (.unhashable .record)
  | .list items => keysFault? items
  | .unchecked d => d.keyFault?
  | _ => Option.none

end

/-! ## Records -/

namespace Record

/-- Puts an entry into a list of entries: the value of a key that is there is replaced, a new key comes
last. -/
def put (entries : List (Datum × Datum)) (key value : Datum) : List (Datum × Datum) :=
  match entries with
  | [] => [(key, value)]
  | (k, v) :: rest => if k.sameKey key then (k, value) :: rest else (k, v) :: put rest key value

/-- The record with some entries. -/
def ofList (list : List (Datum × Datum)) : Record :=
  .entries (list.foldl (fun es (k, v) => put es k v) [])

/-- The entries of a record. -/
def toList : Record → List (Datum × Datum)
  | .entries list => list
  | .endless => [(.text "self", .record .endless)]

/-- The datum under a key. -/
def get? (r : Record) (key : Datum) : Option Datum :=
  (r.toList.find? fun (k, _) => k.sameKey key).map (·.2)

/-- The keys of a record. -/
def keys (r : Record) : List Datum := r.toList.map (·.1)

end Record

/-! ## Items -/

/-- The items one gets from a datum by going through it: the items of a container, the keys of a record,
the characters of a text, the numbers of a run of bytes.  The rest has none. -/
def Datum.items : Datum → Except Fault (List Datum)
  | .list items | .tuple items | .set items => .ok items
  | .endless => .ok [.endless]
  | .range r => .ok (r.toList.map .int)
  | .record r => .ok r.keys
  | .text s => .ok (s.toList.map fun c => .text (String.singleton c))
  | .bytes bs => .ok (bs.map fun b => .int b.toNat)
  | d => .error (.notIterable d.kind)

end ColumnLabel
