import ColumnLabel.Proofs.Datum.Depth
import ColumnLabel.Value.Basic

/-!
# ColumnLabel.Proofs.Value.Hidden

Why a value cannot be shown.

A datum has no written form only where an integer in it has too many digits, or where it is nested too deep
(`Datum.failsOnly_writtenWithin`).  Its JSON text can moreover miss a form for a container that holds itself and for a
key of some kinds, at any depth (`Json.failsOnly_writeWithin`).  So there are three reasons in its data for which a
value cannot be shown, and besides them one that lies not in the data but in the room that is left: the value goes
down more than `maxDepth` levels (`Value.failsOnly_display`).  Lists one in the other do so once there are enough of
them, and sooner when each of them is a value of its own (`Value.isTooDeep_nested_list`,
`Value.isTooDeep_nested_listValue`).
-/

namespace ColumnLabel

/-! ## Reasons -/

namespace Fault

/-- The reasons in the data for which it has no JSON text. -/
inductive PreventsWriting : Fault → Prop where
  | numeralTooLong : PreventsWriting .numeralTooLong
  | circular : PreventsWriting .circular
  | unwritableKey (kind : Kind) : PreventsWriting (.unwritableKey kind)

theorem PreventsWriting.liesInData {fault : Fault} (h : fault.PreventsWriting) : fault.liesInData = true := by
  cases h <;> rfl

theorem preventsWriting_of_eq {fault : Fault} (h : fault = .numeralTooLong) : fault.PreventsWriting := by
  rw [h]
  exact .numeralTooLong

/-- A fault is one of some kind, or there is no room to go deeper; the latter only under a condition. -/
def IsOrTooDeep (P : Fault → Prop) (deep : Prop) (fault : Fault) : Prop :=
  P fault ∨ deep ∧ ∃ doing, fault = .tooDeep doing

theorem isOrTooDeep_tooDeep {P : Fault → Prop} {deep : Prop} (h : deep) (doing : String) :
    IsOrTooDeep P deep (.tooDeep doing) := .inr ⟨h, doing, rfl⟩

theorem IsOrTooDeep.imp {P Q : Fault → Prop} {deep deep' : Prop} (hP : ∀ {fault}, P fault → Q fault)
    (hdeep : deep → deep') (fault : Fault) (h : IsOrTooDeep P deep fault) : IsOrTooDeep Q deep' fault :=
  Or.imp hP (And.imp_left hdeep) h

end Fault

open Fault (IsOrTooDeep isOrTooDeep_tooDeep preventsWriting_of_eq)

/-! ## Written forms -/

theorem failsOnly_writeInt (i : Int) : FailsOnly (· = Fault.numeralTooLong) (writeInt i) := by
  rw [writeInt]
  split
  · exact failsOnly_ok _
  · exact failsOnly_error rfl

theorem Range.failsOnly_written (r : Range) : FailsOnly (· = Fault.numeralTooLong) r.written :=
  (failsOnly_mapM fun i _ => failsOnly_writeInt i).bind fun _ => failsOnly_ok _

theorem Number.failsOnly_written (n : Number) : FailsOnly (· = Fault.numeralTooLong) n.written := by
  cases n with
  | int i => exact failsOnly_writeInt i
  | double x => exact failsOnly_ok _

mutual

/-- Writing a datum fails only where an integer has too many digits or the data goes down more levels than there is room
for.  The induction goes through the data, with a case for the items of a list, for the entries of a record and for the
content of a value; behind each level that is taken both the room and the depth are one less. -/
theorem Datum.failsOnly_writtenWithin : ∀ (d : Datum) (room : Nat),
    FailsOnly (IsOrTooDeep (· = .numeralTooLong) (room < d.depth)) (d.writtenWithin room)
  | .none, _ | .bool _, _ | .double _, _ | .decimal _, _ | .text _, _ | .bytes _, _ | .date _, _ | .time _, _
  | .dateTime _, _ | .endless, _ => by
      rw [Datum.writtenWithin]
      exact failsOnly_ok _
  | .int i, _ => by
      rw [Datum.writtenWithin]
      exact (failsOnly_writeInt i).mono fun _ => .inl
  | .list items, room | .tuple items, room | .set items, room => by
      rw [Datum.writtenWithin, Datum.depth]
      refine failsOnly_takeRoom_bind (fun h => isOrTooDeep_tooDeep (by omega) _) fun h => ?_
      exact ((failsOnly_writtenItems items _).mono (.imp id (by omega))).bind fun _ => failsOnly_ok _
  | .range r, _ => by
      rw [Datum.writtenWithin]
      exact r.failsOnly_written.mono fun _ => .inl
  | .record r, room => by
      rw [Datum.writtenWithin, Datum.depth]
      exact r.failsOnly_writtenWithin room
  | .value v, room => by
      rw [Datum.writtenWithin, Datum.depth]
      refine failsOnly_takeRoom_bind (fun h => isOrTooDeep_tooDeep (by omega) _) fun h => ?_
      exact (v.failsOnly_writtenWithin _).mono (.imp id (by omega))

theorem failsOnly_writtenItems : ∀ (items : List Datum) (room : Nat),
    FailsOnly (IsOrTooDeep (· = .numeralTooLong) (room < depthOfItems items)) (writtenItems room items)
  | [], _ => by
      rw [writtenItems]
      exact failsOnly_ok _
  | d :: items, room => by
      rw [writtenItems, depthOfItems]
      exact ((d.failsOnly_writtenWithin room).mono (.imp id (by omega))).bind fun _ =>
        ((failsOnly_writtenItems items room).mono (.imp id (by omega))).bind fun _ => failsOnly_ok _

theorem Record.failsOnly_writtenWithin : ∀ (r : Record) (room : Nat),
    FailsOnly (IsOrTooDeep (· = .numeralTooLong) (room < r.depth)) (r.writtenWithin room)
  | .entries list, room => by
      rw [Record.writtenWithin, Record.depth]
      refine failsOnly_takeRoom_bind (fun h => isOrTooDeep_tooDeep (by omega) _) fun h => ?_
      exact ((failsOnly_writtenEntries list _).mono (.imp id (by omega))).bind fun _ => failsOnly_ok _
  | .endless, _ => by
      rw [Record.writtenWithin]
      exact failsOnly_ok _

theorem failsOnly_writtenEntries : ∀ (es : List (Datum × Datum)) (room : Nat),
    FailsOnly (IsOrTooDeep (· = .numeralTooLong) (room < depthOfEntries es)) (writtenEntries room es)
  | [], _ => by
      rw [writtenEntries]
      exact failsOnly_ok _
  | (k, v) :: es, room => by
      rw [writtenEntries, depthOfEntries]
      exact ((k.failsOnly_writtenWithin room).mono (.imp id (by omega))).bind fun _ =>
        ((v.failsOnly_writtenWithin room).mono (.imp id (by omega))).bind fun _ =>
          ((failsOnly_writtenEntries es room).mono (.imp id (by omega))).bind fun _ => failsOnly_ok _

theorem Value.failsOnly_writtenWithin : ∀ (v : Value) (room : Nat),
    FailsOnly (IsOrTooDeep (· = .numeralTooLong) (room < v.depth)) (v.writtenWithin room)
  | .absent, _ | .bool _, _ | .text _, _ => by
      rw [Value.writtenWithin]
      exact failsOnly_ok _
  | .number n, _ => by
      rw [Value.writtenWithin]
      exact (n.failsOnly_written.mono fun _ => .inl).bind fun _ => failsOnly_ok _
  | .unchecked d, room => by
      rw [Value.writtenWithin, Value.depth]
      exact (d.failsOnly_writtenWithin room).bind fun _ => failsOnly_ok _
  | .record r, room => by
      rw [Value.writtenWithin, Value.depth]
      exact (r.failsOnly_writtenWithin room).bind fun _ => failsOnly_ok _
  | .list items, room => by
      rw [Value.writtenWithin, Value.depth]
      refine failsOnly_takeRoom_bind (fun h => isOrTooDeep_tooDeep (by omega) _) fun h => ?_
      exact ((failsOnly_writtenItems items _).mono (.imp id (by omega))).bind fun _ => failsOnly_ok _

end

/-- The same holds of the plain text. -/
theorem Datum.failsOnly_plainWithin (d : Datum) (room : Nat) :
    FailsOnly (IsOrTooDeep (· = .numeralTooLong) (room < d.depth)) (d.plainWithin room) := by
  rw [Datum.plainWithin.eq_def]
  split
  iterate 5 exact failsOnly_ok _
  exact d.failsOnly_writtenWithin room

/-! ## JSON texts -/

namespace Json

theorem failsOnly_ofKey (key : Datum) : FailsOnly Fault.PreventsWriting (ofKey key) := by
  rw [ofKey.eq_def]
  split
  iterate 4 exact failsOnly_ok _
  · exact (failsOnly_writeInt _).mono fun _ => preventsWriting_of_eq
  · exact failsOnly_error (.unwritableKey _)

mutual

/-- A datum has a JSON text unless it holds an integer with too many digits, itself, or a key of a kind that
cannot be written, at any depth, or goes down more levels than there is room for. -/
theorem failsOnly_writeWithin : ∀ (d : Datum) (room : Nat),
    FailsOnly (IsOrTooDeep Fault.PreventsWriting (room < d.depth)) (writeWithin room d)
  | .none, _ | .bool _, _ | .double _, _ | .text _, _ | .date _, _ | .time _, _ | .dateTime _, _ => by
      rw [writeWithin.eq_def]
      exact failsOnly_ok _
  | .int i, _ => by
      rw [writeWithin.eq_def]
      exact (failsOnly_writeInt i).mono fun _ h => .inl (preventsWriting_of_eq h)
  | .list items, room | .tuple items, room => by
      rw [writeWithin.eq_def, Datum.depth]
      refine failsOnly_takeRoom_bind (fun h => isOrTooDeep_tooDeep (by omega) _) fun h => ?_
      exact ((failsOnly_writeItems items _).mono (.imp id (by omega))).bind fun _ => failsOnly_ok _
  | .record r, room => by
      rw [writeWithin.eq_def, Datum.depth]
      exact failsOnly_writeRecordWithin r room
  | .endless, _ => by
      rw [writeWithin.eq_def]
      exact failsOnly_error (.inl .circular)
  | .decimal _, room | .bytes _, room | .set _, room | .range _, room | .value _, room => by
      rw [writeWithin.eq_def]
      exact ((Datum.failsOnly_plainWithin _ room).mono (.imp preventsWriting_of_eq id)).bind
        fun _ => failsOnly_ok _

theorem failsOnly_writeItems : ∀ (items : List Datum) (room : Nat),
    FailsOnly (IsOrTooDeep Fault.PreventsWriting (room < depthOfItems items)) (writeItems room items)
  | [], _ => by
      rw [writeItems]
      exact failsOnly_ok _
  | d :: items, room => by
      rw [writeItems, depthOfItems]
      exact ((failsOnly_writeWithin d room).mono (.imp id (by omega))).bind fun _ =>
        ((failsOnly_writeItems items room).mono (.imp id (by omega))).bind fun _ => failsOnly_ok _

theorem failsOnly_writeRecordWithin : ∀ (r : Record) (room : Nat),
    FailsOnly (IsOrTooDeep Fault.PreventsWriting (room < r.depth)) (writeRecordWithin room r)
  | .entries list, room => by
      rw [writeRecordWithin, Record.depth]
      refine failsOnly_takeRoom_bind (fun h => isOrTooDeep_tooDeep (by omega) _) fun h => ?_
      exact ((failsOnly_writeEntries list _).mono (.imp id (by omega))).bind fun _ => failsOnly_ok _
  | .endless, _ => by
      rw [writeRecordWithin]
      exact failsOnly_error (.inl .circular)

theorem failsOnly_writeEntries : ∀ (es : List (Datum × Datum)) (room : Nat),
    FailsOnly (IsOrTooDeep Fault.PreventsWriting (room < depthOfEntries es)) (writeEntries room es)
  | [], _ => by
      rw [writeEntries]
      exact failsOnly_ok _
  | (k, v) :: es, room => by
      rw [writeEntries, depthOfEntries]
      exact ((failsOnly_ofKey k).mono fun _ => .inl).bind fun _ =>
        ((failsOnly_writeWithin v room).mono (.imp id (by omega))).bind fun _ =>
          ((failsOnly_writeEntries es room).mono (.imp id (by omega))).bind fun _ => failsOnly_ok _

end

end Json

/-! ## Values -/

theorem Number.failsOnly_display (n : Number) : FailsOnly (· = Fault.numeralTooLong) n.display := by
  rw [Number.display.eq_def]
  split
  · split
    · exact failsOnly_ok _
    · exact failsOnly_error rfl
  · exact failsOnly_ok _
  · exact failsOnly_ok _
  · split
    · exact failsOnly_ok _
    · exact failsOnly_ok _

/-- **Hidden values.**  A value is hidden only by an integer with too many digits, by a container that holds
itself or by a key that cannot be written, or else by the many levels that it goes down. -/
theorem Value.failsOnly_display (v : Value) :
    FailsOnly (IsOrTooDeep Fault.PreventsWriting (maxDepth < v.depth)) v.display := by
  cases v with
  | absent => exact failsOnly_ok _
  | bool b => exact failsOnly_ok _
  | number n =>
      exact (n.failsOnly_display.mono fun _ h => .inl (preventsWriting_of_eq h)).bind fun _ => failsOnly_ok _
  | text s => exact failsOnly_ok _
  | unchecked d => exact failsOnly_ok _
  | record r =>
      rw [Value.depth]
      exact (Json.failsOnly_writeRecordWithin r maxDepth).bind fun _ => failsOnly_ok _
  | list items =>
      rw [Value.depth, ← Datum.depth_list]
      exact (Json.failsOnly_writeWithin (.list items) maxDepth).bind fun _ => failsOnly_ok _

/-! ## Values that are nested too deep -/

namespace Value

/-- Is a value nested too deep to be shown? -/
def isTooDeep (v : Value) : Bool :=
  match v.display with
  | .error (.tooDeep _) => true
  | _ => false

theorem isTooDeep_iff {v : Value} : v.isTooDeep = true ↔ ∃ doing, v.display = .error (.tooDeep doing) := by
  rw [isTooDeep]
  split
  · next doing h => simp [h]
  · next h =>
    simp only [Bool.false_eq_true, false_iff, not_exists]
    exact h

/-- It takes more levels than there is room for. -/
theorem maxDepth_lt_depth {v : Value} (h : v.isTooDeep = true) : maxDepth < v.depth := by
  obtain ⟨doing, hdoing⟩ := isTooDeep_iff.mp h
  obtain hdata | hdeep := v.failsOnly_display _ hdoing
  · cases hdata
  · exact hdeep.1

/-- Whatever else keeps a value from being shown lies in its data. -/
theorem preventsWriting_of_display_eq_error {v : Value} {fault : Fault} (h : v.isTooDeep = false)
    (hd : v.display = .error fault) : fault.PreventsWriting := by
  obtain hdata | ⟨-, doing, rfl⟩ := v.failsOnly_display fault hd
  · exact hdata
  · exact absurd (isTooDeep_iff.mpr ⟨doing, hd⟩) (Bool.eq_false_iff.mp h)

end Value

/-! ## Lists in lists -/

/-- A list as a value. -/
def Datum.listValue (items : List Datum) : Datum := .value (.list items)

/-- An empty list inside so many others, all of them wrapped in the same way. -/
def Datum.nested (wrap : List Datum → Datum) : Nat → Datum
  | 0 => wrap []
  | n + 1 => wrap [nested wrap n]

/-- Each list takes one level of the room. -/
theorem Json.lacksRoom_writeWithin_nested_list {n room : Nat} (h : room ≤ n) :
    LacksRoom (writeWithin room (Datum.nested .list n)) := by
  induction n generalizing room with
  | zero =>
      rw [Datum.nested, writeWithin]
      exact lacksRoom_takeRoom_bind fun hroom => absurd h (by omega)
  | succ n ih =>
      rw [Datum.nested, writeWithin]
      refine lacksRoom_takeRoom_bind fun _ => LacksRoom.bind ?_ _
      rw [writeItems]
      exact LacksRoom.bind (ih (by omega)) _

/-- Each list that is a value takes four. -/
theorem Datum.lacksRoom_writtenWithin_nested_listValue {n room : Nat} (h : room < 4 * (n + 1)) :
    LacksRoom ((Datum.nested .listValue n).writtenWithin room) := by
  have hlevels : valueLevels = 3 := rfl
  induction n generalizing room with
  | zero =>
      rw [nested, listValue, writtenWithin]
      refine lacksRoom_takeRoom_bind fun hvalue => ?_
      rw [Value.writtenWithin]
      exact lacksRoom_takeRoom_bind fun hlist => absurd h (by omega)
  | succ n ih =>
      rw [nested, listValue, writtenWithin]
      refine lacksRoom_takeRoom_bind fun _ => ?_
      rw [Value.writtenWithin]
      refine lacksRoom_takeRoom_bind fun _ => LacksRoom.bind ?_ _
      rw [writtenItems]
      exact LacksRoom.bind (ih (by omega)) _

/-- In JSON it stands as its written form. -/
theorem Json.lacksRoom_writeWithin_nested_listValue {n room : Nat} (h : room < 4 * (n + 1)) :
    LacksRoom (writeWithin room (Datum.nested .listValue n)) := by
  have hwritten := Datum.lacksRoom_writtenWithin_nested_listValue h
  cases n with
  | zero | succ n =>
      rw [Datum.nested, Datum.listValue] at hwritten ⊢
      rw [writeWithin.eq_def]
      exact LacksRoom.bind hwritten _

/-- So a list of one such datum is too deep once there is no room for it inside the list. -/
theorem Value.isTooDeep_list {d : Datum} (h : LacksRoom (Json.writeWithin (maxDepth - 1) d)) :
    (list [d]).isTooDeep = true := by
  rw [isTooDeep_iff, display, Json.writeList, Json.writeWithin]
  refine LacksRoom.bind (lacksRoom_takeRoom_bind fun _ => LacksRoom.bind ?_ _) _
  rw [Json.writeItems]
  exact LacksRoom.bind h _

theorem Value.isTooDeep_nested_list {n : Nat} (h : maxDepth ≤ n + 1) :
    (list [Datum.nested .list n]).isTooDeep = true :=
  isTooDeep_list (Json.lacksRoom_writeWithin_nested_list (by omega))

theorem Value.isTooDeep_nested_listValue {n : Nat} (h : maxDepth ≤ 4 * (n + 1)) :
    (list [Datum.nested .listValue n]).isTooDeep = true :=
  isTooDeep_list (Json.lacksRoom_writeWithin_nested_listValue (by omega))

end ColumnLabel
