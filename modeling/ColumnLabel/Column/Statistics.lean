import ColumnLabel.Datum.Basic

/-!
# ColumnLabel.Column.Statistics

Statistics of a column: sum, mean, extremes and count of its numeric cells.  A cell is numeric if it is an
integer, a double or a decimal, but neither a truth value nor NaN.  Rows that are no records have no
cells.  Without a numeric cell there are no statistics.

Integers are added exactly.  From the first double on the sum is a double, rounded after each step in the
order of the rows.
-/

namespace ColumnLabel

/-- The statistics of the numeric cells of a column. -/
structure Statistics where
  sum : Number
  mean : Double
  least : Number
  greatest : Number
  count : Nat

namespace Statistics

/-- The number in a cell that counts for statistics. -/
def numeric? : Datum → Option Number
  | .int i => some (.int i)
  | .double x => if x.isNaN then none else some (.double x)
  | .decimal d => if d.isNaN then none else some (.double d.toDouble)
  | _ => none

/-- The numeric cells under a key, in the order of the rows.  A key that cannot be looked up is a fault as
soon as a row is a record. -/
def cells (key : Datum) : List Datum → Except Fault (List Number)
  | [] => .ok []
  | .record r :: rows =>
    match key.keyFault? with
    | some fault => .error fault
    | none => do
      let more ← cells key rows
      match (r.get? key).bind numeric? with
      | some n => return n :: more
      | none => return more
  | _ :: rows => cells key rows

/-- The double nearest to an integer. -/
def toDouble (i : Int) : Except Fault Double :=
  match Double.ofInt? i with
  | some x => .ok x
  | none => .error .integerOutOfRange

/-- The sum of two numbers: exact for integers, else rounded to a double. -/
def add : Number → Number → Except Fault Number
  | .int i, .int j => .ok (.int (i + j))
  | .int i, .double y => return .double ((← toDouble i).add y)
  | .double x, .int j => return .double (x.add (← toDouble j))
  | .double x, .double y => .ok (.double (x.add y))

/-- The sum of numbers, from left to right. -/
def total (ns : List Number) : Except Fault Number := ns.foldlM add (.int 0)

/-- A number divided by a count. -/
def meanOf (sum : Number) (count : Nat) : Except Fault Double :=
  match sum with
  | .int i =>
    match Double.ofIntDiv? i count with
    | some x => .ok x
    | none => .error .quotientOutOfRange
  | .double x => .ok (x.divNat count)

/-- The first of the least numbers. -/
def leastOf (n : Number) (ns : List Number) : Number :=
  ns.foldl (fun best n => if n.lt best then n else best) n

/-- The first of the greatest numbers. -/
def greatestOf (n : Number) (ns : List Number) : Number :=
  ns.foldl (fun best n => if best.lt n then n else best) n

/-- The statistics of numbers, if there is one. -/
def ofNumbers : List Number → Except Fault (Option Statistics)
  | [] => .ok none
  | n :: ns => do
    let sum ← total (n :: ns)
    let count := ns.length + 1
    let mean ← meanOf sum count
    return some { sum, mean, least := leastOf n ns, greatest := greatestOf n ns, count }

/-- The statistics of the cells under a key, if one of them is numeric. -/
def ofRows (rows : List Datum) (key : Datum) : Except Fault (Option Statistics) := do
  ofNumbers (← cells key rows)

end Statistics

end ColumnLabel
