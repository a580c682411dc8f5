import ColumnLabel.Service.Request
import ColumnLabel.Text.Search

/-!
# ColumnLabel.Service.Refusal

What a refusal shows of a body.  It shows each piece that has a problem, in standard JSON, which has no form
for the infinities and for what is no number.  A piece that holds one of them cannot be shown.

Entries under a name that starts with `_sa` are not shown, wherever they stand in a piece, so it does not
matter what they hold.
-/

namespace ColumnLabel.Service

/-- Is the entry of a key left out? -/
def isHidden : Datum → Bool
  | .text name => (Text.dropPrefix? "_sa".toList name.toList).isSome
  | _ => false

mutual

/-- Can a datum be shown? -/
def isShowable : Datum → Bool
  | .double (.finite _ _) => true
  | .double _ => false
  | .list items | .tuple items => areShowable items
  | .record r => isShowableRecord r
  | _ => true

/-- Can some data be shown? -/
def areShowable : List Datum → Bool
  | [] => true
  | d :: ds => isShowable d && areShowable ds

/-- Can a record be shown? -/
def isShowableRecord : Record → Bool
  | .entries list => areShowableEntries list
  | .endless => true

/-- Can some entries be shown, as far as they are not left out? -/
def areShowableEntries : List (Datum × Datum) → Bool
  | [] => true
  | (k, v) :: rest => (isHidden k || isShowable v) && areShowableEntries rest

end

/-- Entries can be shown when each of them is left out or can be shown. -/
theorem areShowableEntries_eq_true_iff (list : List (Datum × Datum)) :
    areShowableEntries list = true ↔ ∀ e ∈ list, isHidden e.1 = true ∨ isShowable e.2 = true := by
  induction list with
  | nil => simp [areShowableEntries]
  | cons e rest ih => simp [areShowableEntries, ih]

end ColumnLabel.Service
