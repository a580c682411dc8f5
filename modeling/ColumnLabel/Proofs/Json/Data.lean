import ColumnLabel.Json.Reader
import ColumnLabel.Json.Writer
import ColumnLabel.Proofs.Datum.Depth
import ColumnLabel.Proofs.Number.Digits

/-!
# ColumnLabel.Proofs.Json.Data

The data that JSON has a form for: the keys of records are texts, and no integer has too many digits to be
written out.  Reading gives such data and nothing else, nested no deeper than there is room (`fitsJson_of_read`), and
with that room writing it never gives up (`exists_writeWithin_eq_ok`).
-/

namespace ColumnLabel

theorem Numeral.isWritable_iff {i : Int} : isWritable i = true ↔ i.natAbs < tenPow maxDigits :=
  decide_eq_true_iff

theorem writeInt_of_isWritable {i : Int} (h : Numeral.isWritable i = true) :
    writeInt i = .ok (Numeral.ofInt i) := by
  unfold writeInt
  rw [if_pos h]

/-- Data that JSON has a form for. -/
inductive Datum.IsJson : Datum → Prop where
  | none : IsJson .none
  | bool (b : Bool) : IsJson (.bool b)
  | int {i : Int} (h : Numeral.isWritable i = true) : IsJson (.int i)
  | double (x : Double) : IsJson (.double x)
  | text (s : String) : IsJson (.text s)
  | list {items : List Datum} (h : ∀ d ∈ items, IsJson d) : IsJson (.list items)
  | record {es : List (Datum × Datum)} (hkeys : ∀ e ∈ es, ∃ s, e.1 = .text s)
      (hvalues : ∀ e ∈ es, IsJson e.2) : IsJson (.record (.entries es))

/-- Data that JSON has a form for, nested no deeper than there is room. -/
def Datum.FitsJson (room : Nat) (d : Datum) : Prop := d.IsJson ∧ d.depth ≤ room

/-- Entries whose keys are texts, and whose values have a property. -/
def Record.AreTexts (P : Datum → Prop) (es : List (Datum × Datum)) : Prop :=
  ∀ e ∈ es, (∃ s, e.1 = .text s) ∧ P e.2

/-- Entries of a record that JSON has a form for. -/
abbrev Record.AreJson : List (Datum × Datum) → Prop := AreTexts Datum.IsJson

theorem Record.AreJson.isJson {es : List (Datum × Datum)} (h : AreJson es) :
    (Datum.record (.entries es)).IsJson :=
  .record (fun e he => (h e he).1) (fun e he => (h e he).2)

theorem Datum.IsJson.areJson {es : List (Datum × Datum)} (h : (Datum.record (.entries es)).IsJson) :
    Record.AreJson es := by
  cases h with
  | record hkeys hvalues => exact fun e he => ⟨hkeys e he, hvalues e he⟩

/-! ## Containers that fit -/

theorem Datum.fitsJson_list {room : Nat} {items : List Datum} (h : ∀ d ∈ items, d.FitsJson room) :
    (Datum.list items).FitsJson (room + 1) := by
  refine ⟨.list fun d hd => (h d hd).1, ?_⟩
  rw [Datum.depth_list, Nat.add_le_add_iff_right, depthOfItems_le_iff]
  exact fun d hd => (h d hd).2

theorem Datum.fitsJson_entries {room : Nat} {es : List (Datum × Datum)}
    (h : Record.AreTexts (Datum.FitsJson room) es) : (Datum.record (.entries es)).FitsJson (room + 1) := by
  refine ⟨.record (fun e he => (h e he).1) (fun e he => (h e he).2.1), ?_⟩
  rw [Datum.depth_entries, Nat.add_le_add_iff_right, depthOfEntries_le_iff]
  intro e he
  obtain ⟨⟨s, hs⟩, hvalue⟩ := h e he
  rw [hs, Datum.depth_text]
  exact ⟨Nat.zero_le room, hvalue.2⟩

namespace Record

variable {P : Datum → Prop}

theorem areTexts_cons (s : String) {v : Datum} {es : List (Datum × Datum)} (hv : P v) (hes : AreTexts P es) :
    AreTexts P ((.text s, v) :: es) :=
  List.forall_mem_cons.mpr ⟨⟨⟨s, rfl⟩, hv⟩, hes⟩

/-- Putting an entry among others keeps their form. -/
theorem areTexts_put {es : List (Datum × Datum)} {k v : Datum} (hk : ∃ s, k = .text s) (hv : P v)
    (hes : AreTexts P es) : AreTexts P (put es k v) := by
  induction es with
  | nil => simpa [put, AreTexts] using ⟨hk, hv⟩
  | cons e es ih =>
      obtain ⟨he, hrest⟩ := List.forall_mem_cons.mp hes
      rw [put]
      split
      · exact List.forall_mem_cons.mpr ⟨⟨he.1, hv⟩, hrest⟩
      · exact List.forall_mem_cons.mpr ⟨he, ih hrest⟩

theorem areTexts_foldl_put {es done : List (Datum × Datum)} (hes : AreTexts P es) (hdone : AreTexts P done) :
    AreTexts P (es.foldl (fun done (k, v) => put done k v) done) := by
  induction es generalizing done with
  | nil => exact hdone
  | cons e es ih =>
      obtain ⟨he, hrest⟩ := List.forall_mem_cons.mp hes
      exact ih hrest (areTexts_put he.1 he.2 hdone)

theorem fitsJson_ofList {room : Nat} {es : List (Datum × Datum)} (h : AreTexts (Datum.FitsJson room) es) :
    (Datum.record (ofList es)).FitsJson (room + 1) :=
  Datum.fitsJson_entries (areTexts_foldl_put h (by simp [AreTexts]))

/-- What a record has under a key is of its form. -/
theorem isJson_of_get? {r : Record} {key d : Datum} (hr : (Datum.record r).IsJson)
    (h : r.get? key = some d) : d.IsJson := by
  cases hr with
  | record hkeys hvalues =>
      obtain ⟨e, he, rfl⟩ := Option.map_eq_some_iff.mp h
      exact hvalues e (List.mem_of_find?_eq_some he)

/-- And it is nested less deep. -/
theorem depth_lt_of_get? {r : Record} {key d : Datum} (hr : (Datum.record r).IsJson)
    (h : r.get? key = some d) : d.depth < (Datum.record r).depth := by
  cases hr with
  | record =>
      obtain ⟨e, he, rfl⟩ := Option.map_eq_some_iff.mp h
      rw [Datum.depth_entries, Nat.lt_succ_iff]
      exact (depthOfEntries_le_iff.mp (Nat.le_refl _) e (List.mem_of_find?_eq_some he)).2

end Record

namespace Json

/-! ## Reading -/

/-- The whole part of a number consists of digits. -/
theorem isDigit_of_mem_takeWhole (cs : List Char) (c : Char) (h : c ∈ (takeWhole cs).1) :
    c.isDigit = true := by
  unfold takeWhole at h
  split at h
  · obtain rfl := List.mem_singleton.mp h
    rfl
  · exact List.all_eq_true.mp List.all_takeWhile c h

theorem fitsJson_of_readNumber {negative : Bool} {cs rest : List Char} {d : Datum}
    (h : readNumber negative cs = .ok (d, rest)) (room : Nat) : d.FitsJson room := by
  simp only [readNumber] at h
  split at h
  · contradiction
  · split at h
    · split at h
      · contradiction
      · next hlen =>
        obtain ⟨rfl, _⟩ := Prod.mk.inj (Except.ok.inj h)
        have hdigits := digitsValue_lt (isDigit_of_mem_takeWhole cs)
        have hpow := tenPow_le_tenPow (Nat.le_of_not_lt hlen)
        refine ⟨.int (Numeral.isWritable_iff.mpr (Nat.lt_of_lt_of_le ?_ hpow)), by simp [Datum.depth]⟩
        split
        · rwa [Int.natAbs_neg, Int.natAbs_natCast]
        · rwa [Int.natAbs_natCast]
    · split at h
      · obtain ⟨rfl, _⟩ := Prod.mk.inj (Except.ok.inj h)
        exact ⟨.double _, by simp [Datum.depth]⟩
      · contradiction

theorem fitsJson_of_readWord? {cs rest : List Char} {d : Datum} (h : readWord? cs = some (d, rest))
    (room : Nat) : d.FitsJson room := by
  obtain ⟨w, hw, hdrop⟩ := List.exists_of_findSome?_eq_some h
  obtain ⟨rest', _, heq⟩ := Option.map_eq_some_iff.mp hdrop
  obtain ⟨rfl, _⟩ := Prod.mk.inj heq
  simp only [words, List.mem_cons, List.not_mem_nil, or_false] at hw
  rcases hw with rfl | rfl | rfl | rfl | rfl | rfl <;> exact ⟨by constructor, by simp [Datum.depth]⟩

/-- With some fuel, reading gives data that JSON has a form for and that there was room for. -/
def ReadsJson (fuel : Nat) : Prop :=
  (∀ room cs d rest, readDatum room fuel cs = .ok (d, rest) → d.FitsJson room) ∧
  (∀ room done cs d rest, (∀ x ∈ done, Datum.FitsJson room x) → readItems room fuel done cs = .ok (d, rest) →
    d.FitsJson (room + 1)) ∧
  (∀ room done cs d rest, Record.AreTexts (Datum.FitsJson room) done →
    readEntries room fuel done cs = .ok (d, rest) → d.FitsJson (room + 1))

section

variable {fuel room : Nat} {cs rest : List Char} {d : Datum}

theorem fitsJson_of_readDatum_succ (ih : ReadsJson fuel) (h : readDatum room (fuel + 1) cs = .ok (d, rest)) :
    d.FitsJson room := by
  obtain ⟨_, ihItems, ihEntries⟩ := ih
  unfold readDatum at h
  split at h
  · split at h
    · obtain ⟨rfl, _⟩ := Prod.mk.inj (Except.ok.inj h)
      exact ⟨.text _, by simp [Datum.depth]⟩
    · contradiction
  · split at h
    · contradiction
    · split at h
      · obtain ⟨rfl, _⟩ := Prod.mk.inj (Except.ok.inj h)
        exact Datum.fitsJson_list (by simp)
      · exact ihItems _ _ _ _ _ (by simp) h
  · split at h
    · contradiction
    · split at h
      · obtain ⟨rfl, _⟩ := Prod.mk.inj (Except.ok.inj h)
        exact Datum.fitsJson_entries (by simp [Record.AreTexts])
      · exact ihEntries _ _ _ _ _ (by simp [Record.AreTexts]) h
  · split at h
    · next hword =>
      obtain rfl := Except.ok.inj h
      exact fitsJson_of_readWord? hword room
    · split at h
      · exact fitsJson_of_readNumber h room
      · exact fitsJson_of_readNumber h room

theorem fitsJson_of_readItems_succ (ih : ReadsJson fuel) {done : List Datum}
    (hdone : ∀ x ∈ done, x.FitsJson room) (h : readItems room (fuel + 1) done cs = .ok (d, rest)) :
    d.FitsJson (room + 1) := by
  obtain ⟨ihDatum, ihItems, _⟩ := ih
  unfold readItems at h
  split at h
  · contradiction
  · next item rest hitem =>
    have hitems : ∀ x ∈ item :: done, x.FitsJson room :=
      List.forall_mem_cons.mpr ⟨ihDatum _ _ _ _ hitem, hdone⟩
    split at h
    · exact ihItems _ _ _ _ _ hitems h
    · obtain ⟨rfl, _⟩ := Prod.mk.inj (Except.ok.inj h)
      exact Datum.fitsJson_list fun x hx => hitems x (List.mem_reverse.mp hx)
    · contradiction

theorem fitsJson_of_readEntries_succ (ih : ReadsJson fuel) {done : List (Datum × Datum)}
    (hdone : Record.AreTexts (Datum.FitsJson room) done)
    (h : readEntries room (fuel + 1) done cs = .ok (d, rest)) : d.FitsJson (room + 1) := by
  obtain ⟨ihDatum, _, ihEntries⟩ := ih
  unfold readEntries at h
  split at h
  · split at h
    · contradiction
    · split at h
      · split at h
        · contradiction
        · next hvalue =>
          have hentries := fun s => Record.areTexts_cons s (ihDatum _ _ _ _ hvalue) hdone
          simp only at h
          split at h
          · exact ihEntries _ _ _ _ _ (hentries _) h
          · obtain ⟨rfl, _⟩ := Prod.mk.inj (Except.ok.inj h)
            exact Record.fitsJson_ofList fun e he => hentries _ e (List.mem_reverse.mp he)
          · contradiction
      · contradiction
  · contradiction

end

theorem readsJson (fuel : Nat) : ReadsJson fuel := by
  induction fuel with
  | zero =>
      refine ⟨?_, ?_, ?_⟩
      · intro room cs d rest h
        contradiction
      · intro room done cs d rest _ h
        contradiction
      · intro room done cs d rest _ h
        contradiction
  | succ fuel ih =>
      refine ⟨?_, ?_, ?_⟩
      · intro room cs d rest h
        exact fitsJson_of_readDatum_succ ih h
      · intro room done cs d rest hdone h
        exact fitsJson_of_readItems_succ ih hdone h
      · intro room done cs d rest hdone h
        exact fitsJson_of_readEntries_succ ih hdone h

/-- **Reading.**  What a text stands for is data that JSON has a form for, nested no deeper than one can go. -/
theorem fitsJson_of_read {text : String} {d : Datum} (h : read text = .ok d) : d.FitsJson maxDepth := by
  simp only [read] at h
  split at h
  · contradiction
  · next hdatum =>
    split at h
    · obtain rfl := Except.ok.inj h
      exact (readsJson _).1 _ _ _ _ hdatum
    · contradiction

/-! ## Writing -/

/-- Some data can be written when each of them can. -/
theorem exists_writeItems_eq_ok_iff {room : Nat} {items : List Datum} :
    (∃ pieces, writeItems room items = .ok pieces) ↔ ∀ d ∈ items, ∃ cs, writeWithin room d = .ok cs := by
  induction items with
  | nil => simp [writeItems]
  | cons d items ih =>
      rw [List.forall_mem_cons, ← ih]
      simp only [writeItems, bind_eq_ok_iff, pure_eq_ok_iff]
      constructor
      · intro h
        obtain ⟨_, cs, hcs, pieces, hpieces, _⟩ := h
        exact ⟨⟨cs, hcs⟩, pieces, hpieces⟩
      · intro h
        obtain ⟨⟨cs, hcs⟩, pieces, hpieces⟩ := h
        exact ⟨_, cs, hcs, pieces, hpieces, rfl⟩

/-- Some entries with texts for keys can be written when each of their values can. -/
theorem exists_writeEntries_eq_ok_iff {room : Nat} {es : List (Datum × Datum)}
    (hkeys : ∀ e ∈ es, ∃ s, e.1 = .text s) :
    (∃ pieces, writeEntries room es = .ok pieces) ↔ ∀ e ∈ es, ∃ cs, writeWithin room e.2 = .ok cs := by
  induction es with
  | nil => simp [writeEntries]
  | cons e es ih =>
      obtain ⟨k, v⟩ := e
      obtain ⟨⟨s, hs⟩, hrest⟩ := List.forall_mem_cons.mp hkeys
      obtain rfl : k = .text s := hs
      rw [List.forall_mem_cons, ← ih hrest]
      simp only [writeEntries, ofKey, ok_bind, bind_eq_ok_iff, pure_eq_ok_iff]
      constructor
      · intro h
        obtain ⟨_, cs, hcs, pieces, hpieces, _⟩ := h
        exact ⟨⟨cs, hcs⟩, pieces, hpieces⟩
      · intro h
        obtain ⟨⟨cs, hcs⟩, pieces, hpieces⟩ := h
        exact ⟨_, cs, hcs, pieces, hpieces, rfl⟩

/-- **Writing.**  Data that JSON has a form for can be written where there is room for its levels, and nowhere
else. -/
theorem exists_writeWithin_eq_ok_iff {d : Datum} (h : d.IsJson) (room : Nat) :
    (∃ cs, writeWithin room d = .ok cs) ↔ d.depth ≤ room := by
  induction h generalizing room with
  | none | bool _ | double _ | text _ => simp [writeWithin, Datum.depth]
  | int h => simp [writeWithin, Datum.depth, writeInt_of_isWritable h]
  | list _ ih =>
      rw [writeWithin, Datum.depth_list]
      refine exists_takeRoom_one_bind_eq_ok_iff fun left => ?_
      rw [exists_bind_pure_eq_ok_iff, exists_writeItems_eq_ok_iff, depthOfItems_le_iff]
      exact forall₂_congr fun d hd => ih d hd left
  | record hkeys _ ih =>
      rw [writeWithin, writeRecordWithin, Datum.depth_entries]
      refine exists_takeRoom_one_bind_eq_ok_iff fun left => ?_
      rw [exists_bind_pure_eq_ok_iff, exists_writeEntries_eq_ok_iff hkeys, depthOfEntries_le_iff]
      refine forall₂_congr fun e he => ?_
      obtain ⟨s, hs⟩ := hkeys e he
      rw [ih e he left, hs, Datum.depth_text, and_iff_right (Nat.zero_le left)]

theorem exists_writeList_eq_ok_iff {items : List Datum} (h : ∀ d ∈ items, d.IsJson) :
    (∃ cs, writeList items = .ok cs) ↔ (Datum.list items).depth ≤ maxDepth :=
  exists_writeWithin_eq_ok_iff (.list h) maxDepth

theorem exists_writeRecord_eq_ok_iff {r : Record} (h : (Datum.record r).IsJson) :
    (∃ cs, writeRecord r = .ok cs) ↔ (Datum.record r).depth ≤ maxDepth := by
  rw [← exists_writeWithin_eq_ok_iff h maxDepth, writeWithin, writeRecord]

end Json

end ColumnLabel
