import ColumnLabel.Proofs.Json.Data
import Mathlib.Data.List.Forall2

/-!
# ColumnLabel.Proofs.Json.Unambiguous

The JSON text of exact data stands for nothing else.

Data is exact when it is made from texts, integers, truth values and `null` alone.  What such a datum is written as can
be told from whatever follows it (`isToldApart`), as long as that is no digit: the first character gives the kind, a
quote that is not escaped ends a text (`quote_append_inj`), and a comma or the closing bracket ends an item
(`commas_append_inj`).  Nothing is read from blanks, for there are none.
-/

namespace ColumnLabel

/-- Data that is made from texts, integers, truth values and `null` alone.  Other data may share the text of such
data, a date that of a text or a tuple that of a list. -/
inductive Datum.IsExact : Datum → Prop where
  | none : IsExact .none
  | bool (b : Bool) : IsExact (.bool b)
  | int {i : Int} (h : Numeral.isWritable i = true) : IsExact (.int i)
  | text (s : String) : IsExact (.text s)
  | list {items : List Datum} (h : ∀ d ∈ items, IsExact d) : IsExact (.list items)
  | record {es : List (Datum × Datum)} (hkeys : ∀ e ∈ es, ∃ s, e.1 = .text s)
      (hvalues : ∀ e ∈ es, IsExact e.2) : IsExact (.record (.entries es))

/-- JSON has a form for exact data. -/
theorem Datum.IsExact.isJson {d : Datum} (h : d.IsExact) : d.IsJson := by
  induction h with
  | none => exact .none
  | bool b => exact .bool b
  | int h => exact .int h
  | text s => exact .text s
  | list _ ih => exact .list ih
  | record hkeys _ ih => exact .record hkeys ih

namespace Json

/-! ## Texts -/

theorem hexUnit?_hexDigits : ∀ n < 0x20,
    ∃ a b c d, Text.hexDigits 4 n = [a, b, c, d] ∧ hexUnit? a b c d = some n ∧ Text.isFirstHalf n = false ∧
      Text.isSecondHalf n = false := by
  intro n hn
  refine ⟨_, _, _, _, rfl, ?_⟩
  revert n
  decide

/-- A character at which neither an escape begins nor the text ends is taken as it is. -/
theorem readText_plain (done : List Char) {c : Char} (hquote : c ≠ '"') (hslash : c ≠ '\\')
    (hcontrol : ¬ c.toNat < 0x20) (rest : List Char) :
    readText done none (c :: rest) = readText (c :: done) none rest := by
  rw [readText.eq_def]
  split
  · contradiction
  · next h => exact absurd (List.cons_eq_cons.mp h).1 hquote
  · next h => exact absurd (List.cons_eq_cons.mp h).1 hslash
  · next h => exact absurd (List.cons_eq_cons.mp h).1 hslash
  · next h =>
    obtain ⟨rfl, rfl⟩ := List.cons_eq_cons.mp h
    simp [hcontrol, hslash]

/-- Reading takes a written character for that character. -/
theorem readText_escapeChar (done : List Char) (c : Char) (rest : List Char) :
    readText done none (escapeChar c ++ rest) = readText (c :: done) none rest := by
  unfold escapeChar
  split
  · next h => subst h; simp [readText, unescape?]
  split
  · next h => subst h; simp [readText, unescape?]
  split
  · next h => subst h; simp [readText, unescape?]
  split
  · next h => subst h; simp [readText, unescape?]
  split
  · next h => subst h; simp [readText, unescape?]
  split
  · next h =>
    obtain rfl : c = Char.ofNat 8 := by rw [← h, Char.ofNat_toNat]
    simp [readText, unescape?]
  split
  · next h =>
    obtain rfl : c = Char.ofNat 12 := by rw [← h, Char.ofNat_toNat]
    simp [readText, unescape?]
  split
  · next h =>
    obtain ⟨x, y, z, w, hdigits, hunit, hfirst, hsecond⟩ := hexUnit?_hexDigits c.toNat h
    simp [hdigits, readText, hunit, hfirst, hsecond, Char.ofNat_toNat]
  · next hquote hslash _ _ _ _ _ hcontrol =>
    exact readText_plain done hquote hslash hcontrol rest

/-- Reading takes a written text for that text, and stops behind its closing quote. -/
theorem readText_flatMap_escapeChar (done cs rest : List Char) :
    readText done none (cs.flatMap escapeChar ++ '"' :: rest) = .ok (done.reverse ++ cs, rest) := by
  induction cs generalizing done with
  | nil => simp [readText]
  | cons c cs ih =>
      rw [List.flatMap_cons, List.append_assoc, readText_escapeChar, ih, List.reverse_cons, List.append_assoc,
        List.singleton_append]

/-- A text in quotes can be told from what follows it. -/
theorem quote_append_inj {a b r s : List Char} (h : quote a ++ r = quote b ++ s) : a = b ∧ r = s := by
  simp only [quote, List.cons_append, List.append_assoc, List.nil_append, List.cons_eq_cons, true_and] at h
  have ha := readText_flatMap_escapeChar [] a r
  rw [h, readText_flatMap_escapeChar] at ha
  obtain ⟨hba, hsr⟩ := Prod.mk.inj (Except.ok.inj ha)
  exact ⟨by simpa using hba.symm, hsr.symm⟩

/-! ## Pieces with commas between them -/

theorem commas_nil : commas [] = [] := rfl

theorem commas_cons (p : List Char) (ps : List (List Char)) :
    commas (p :: ps) = p ++ ps.flatMap (',' :: ·) := by
  induction ps generalizing p with
  | nil => simp [commas]
  | cons q ps ih =>
      have hstep : commas (p :: q :: ps) = p ++ ',' :: commas (q :: ps) := by simp [commas]
      rw [hstep, ih, List.flatMap_cons, List.cons_append]

section

variable {α : Type} {W : α → List Char → Prop}

/-- What stands for `a` can be told from what follows it, as long as that is no digit; and it stands for nothing but
`a`. -/
def IsToldApart (W : α → List Char → Prop) (a : α) : Prop :=
  ∀ {b : α} {p q r s : List Char}, W a p → W b q → Numeral.StartsNoDigit r → Numeral.StartsNoDigit s →
    p ++ r = q ++ s → a = b ∧ r = s

variable {close : Char} {as bs : List α} {ps qs : List (List Char)} {r s : List Char}

theorem startsNoDigit_flatMap_append (hdigit : close.isDigit = false) (ps : List (List Char)) (r : List Char) :
    Numeral.StartsNoDigit (ps.flatMap (',' :: ·) ++ close :: r) := by
  cases ps with
  | nil => exact Numeral.startsNoDigit_cons hdigit r
  | cons p ps => exact Numeral.startsNoDigit_cons (by decide) _

/-- Pieces behind a comma each can be told from what follows the closing character. -/
theorem flatMap_append_inj (hcomma : close ≠ ',') (hdigit : close.isDigit = false)
    (hapart : ∀ a ∈ as, IsToldApart W a) (hps : List.Forall₂ W as ps) (hqs : List.Forall₂ W bs qs)
    (h : ps.flatMap (',' :: ·) ++ close :: r = qs.flatMap (',' :: ·) ++ close :: s) : as = bs ∧ r = s := by
  induction hps generalizing bs qs with
  | nil =>
      cases hqs with
      | nil => exact ⟨rfl, by simpa using h⟩
      | cons => exact absurd (List.cons_eq_cons.mp h).1 hcomma
  | cons hp hps ih =>
      cases hqs with
      | nil => exact absurd (List.cons_eq_cons.mp h).1.symm hcomma
      | cons hq hqs =>
          obtain ⟨ha, has⟩ := List.forall_mem_cons.mp hapart
          simp only [List.flatMap_cons, List.cons_append, List.append_assoc, List.cons_eq_cons, true_and] at h
          obtain ⟨rfl, hrest⟩ := ha hp hq (startsNoDigit_flatMap_append hdigit _ _)
            (startsNoDigit_flatMap_append hdigit _ _) h
          obtain ⟨rfl, hrs⟩ := ih has hqs hrest
          exact ⟨rfl, hrs⟩

/-- Pieces with commas between them can be told from what follows the closing character, with which no piece starts. -/
theorem commas_append_inj (hcomma : close ≠ ',') (hdigit : close.isDigit = false)
    (hclose : ∀ a p, W a p → ∃ c cs, p = c :: cs ∧ c ≠ close)
    (hapart : ∀ a ∈ as, IsToldApart W a) (hps : List.Forall₂ W as ps) (hqs : List.Forall₂ W bs qs)
    (h : commas ps ++ close :: r = commas qs ++ close :: s) : as = bs ∧ r = s := by
  cases hps with
  | nil =>
      cases hqs with
      | nil => exact ⟨rfl, by simpa [commas_nil] using h⟩
      | cons hq =>
          obtain ⟨c, cs, rfl, hc⟩ := hclose _ _ hq
          rw [commas_nil, commas_cons] at h
          exact absurd (List.cons_eq_cons.mp h).1.symm hc
  | cons hp hps =>
      cases hqs with
      | nil =>
          obtain ⟨c, cs, rfl, hc⟩ := hclose _ _ hp
          rw [commas_nil, commas_cons] at h
          exact absurd (List.cons_eq_cons.mp h).1 hc
      | cons hq hqs =>
          obtain ⟨ha, has⟩ := List.forall_mem_cons.mp hapart
          rw [commas_cons, commas_cons, List.append_assoc, List.append_assoc] at h
          obtain ⟨rfl, hrest⟩ := ha hp hq (startsNoDigit_flatMap_append hdigit _ _)
            (startsNoDigit_flatMap_append hdigit _ _) h
          obtain ⟨rfl, hrs⟩ := flatMap_append_inj hcomma hdigit has hps hqs hrest
          exact ⟨rfl, hrs⟩

end

/-! ## Written data -/

/-- An exact datum has a JSON text, if there is enough room for it. -/
def IsTextOf (d : Datum) (p : List Char) : Prop := d.IsExact ∧ ∃ room, writeWithin room d = .ok p

/-- What stands in the JSON text of a record for an entry with a text as its key and an exact value. -/
def IsEntryTextOf (e : Datum × Datum) (p : List Char) : Prop :=
  ∃ key value, e.1 = .text key ∧ IsTextOf e.2 value ∧ p = quote key.toList ++ ':' :: value

theorem forall₂_isTextOf {room : Nat} {items : List Datum} {ps : List (List Char)}
    (hitems : ∀ d ∈ items, d.IsExact) (h : writeItems room items = .ok ps) : List.Forall₂ IsTextOf items ps := by
  induction items generalizing ps with
  | nil =>
      rw [writeItems] at h
      obtain rfl := Except.ok.inj h
      exact .nil
  | cons d items ih =>
      obtain ⟨hd, hitems⟩ := List.forall_mem_cons.mp hitems
      simp only [writeItems, bind_eq_ok_iff, pure_eq_ok_iff] at h
      obtain ⟨p, hp, ps, hps, rfl⟩ := h
      exact .cons ⟨hd, room, hp⟩ (ih hitems hps)

theorem forall₂_isEntryTextOf {room : Nat} {es : List (Datum × Datum)} {ps : List (List Char)}
    (hkeys : ∀ e ∈ es, ∃ s, e.1 = .text s) (hvalues : ∀ e ∈ es, e.2.IsExact)
    (h : writeEntries room es = .ok ps) : List.Forall₂ IsEntryTextOf es ps := by
  induction es generalizing ps with
  | nil =>
      rw [writeEntries] at h
      obtain rfl := Except.ok.inj h
      exact .nil
  | cons e es ih =>
      obtain ⟨⟨s, hs⟩, hkeys⟩ := List.forall_mem_cons.mp hkeys
      obtain ⟨hv, hvalues⟩ := List.forall_mem_cons.mp hvalues
      rw [writeEntries, hs, ofKey] at h
      simp only [bind_eq_ok_iff, pure_eq_ok_iff, ok_bind] at h
      obtain ⟨p, hp, ps, hps, rfl⟩ := h
      exact .cons ⟨s, p, hs, ⟨hv, room, hp⟩, rfl⟩ (ih hkeys hvalues hps)

theorem IsTextOf.exists_bracketed {items : List Datum} {p : List Char} (h : IsTextOf (.list items) p) :
    ∃ ps, List.Forall₂ IsTextOf items ps ∧ p = bracketed ps := by
  obtain ⟨hexact, room, hwrite⟩ := h
  cases hexact with
  | list hitems =>
      simp only [writeWithin, bind_eq_ok_iff, pure_eq_ok_iff] at hwrite
      obtain ⟨left, -, ps, hps, rfl⟩ := hwrite
      exact ⟨ps, forall₂_isTextOf hitems hps, rfl⟩

theorem IsTextOf.exists_braced {es : List (Datum × Datum)} {p : List Char}
    (h : IsTextOf (.record (.entries es)) p) :
    ∃ ps, List.Forall₂ IsEntryTextOf es ps ∧ p = '{' :: (commas ps ++ ['}']) := by
  obtain ⟨hexact, room, hwrite⟩ := h
  cases hexact with
  | record hkeys hvalues =>
      simp only [writeWithin, writeRecordWithin, bind_eq_ok_iff, pure_eq_ok_iff] at hwrite
      obtain ⟨left, -, ps, hps, rfl⟩ := hwrite
      exact ⟨ps, forall₂_isEntryTextOf hkeys hvalues hps, rfl⟩

/-- The kind of exact data that starts with a character. -/
def kindOf? (c : Char) : Option Kind :=
  if c.isDigit ∨ c = '-' then some .int
  else if c = 'n' then some .none
  else if c = 't' ∨ c = 'f' then some .bool
  else if c = '"' then some .text
  else if c = '[' then some .list
  else if c = '{' then some .record
  else none

theorem kindOf?_of_isDigit {c : Char} (h : c.isDigit = true) : kindOf? c = some .int := if_pos (.inl h)

/-- The first character tells of what kind a datum is. -/
theorem IsTextOf.exists_cons {d : Datum} {p : List Char} (h : IsTextOf d p) :
    ∃ c cs, p = c :: cs ∧ kindOf? c = some d.kind := by
  have ⟨hexact, room, hwrite⟩ := h
  cases hexact with
  | none =>
      obtain rfl := Except.ok.inj hwrite
      exact ⟨'n', _, rfl, rfl⟩
  | bool b =>
      obtain rfl := Except.ok.inj hwrite
      cases b with
      | false => exact ⟨'f', _, rfl, rfl⟩
      | true => exact ⟨'t', _, rfl, rfl⟩
  | @int i hi =>
      rw [writeWithin, writeInt_of_isWritable hi] at hwrite
      obtain rfl := Except.ok.inj hwrite
      obtain hneg | hnonneg := Int.lt_or_le i 0
      · exact ⟨'-', _, Numeral.ofInt_of_neg hneg, rfl⟩
      · obtain ⟨c, cs, hcs⟩ := List.exists_cons_of_ne_nil (Numeral.digits_ne_nil i.natAbs)
        have hdigit : c.isDigit = true := Numeral.isDigit_of_mem_digits (hcs ▸ List.mem_cons_self)
        exact ⟨c, cs, by rw [Numeral.ofInt_of_nonneg hnonneg, hcs], kindOf?_of_isDigit hdigit⟩
  | text s =>
      obtain rfl := Except.ok.inj hwrite
      exact ⟨'"', _, rfl, rfl⟩
  | list =>
      obtain ⟨ps, -, rfl⟩ := h.exists_bracketed
      exact ⟨'[', _, rfl, rfl⟩
  | record =>
      obtain ⟨ps, -, rfl⟩ := h.exists_braced
      exact ⟨'{', _, rfl, rfl⟩

theorem IsTextOf.kind_eq {a b : Datum} {p q r s : List Char} (ha : IsTextOf a p) (hb : IsTextOf b q)
    (h : p ++ r = q ++ s) : a.kind = b.kind := by
  obtain ⟨c, cs, rfl, hc⟩ := ha.exists_cons
  obtain ⟨d, ds, rfl, hd⟩ := hb.exists_cons
  obtain rfl := (List.cons_eq_cons.mp h).1
  exact Option.some.inj (hc.symm.trans hd)

theorem IsTextOf.exists_cons_ne {close : Char} (hclose : kindOf? close = none) {d : Datum} {p : List Char}
    (h : IsTextOf d p) : ∃ c cs, p = c :: cs ∧ c ≠ close := by
  obtain ⟨c, cs, rfl, hc⟩ := h.exists_cons
  refine ⟨c, cs, rfl, ?_⟩
  rintro rfl
  rw [hclose] at hc
  contradiction

theorem IsEntryTextOf.exists_cons_ne {close : Char} (hclose : '"' ≠ close) {e : Datum × Datum} {p : List Char}
    (h : IsEntryTextOf e p) : ∃ c cs, p = c :: cs ∧ c ≠ close := by
  obtain ⟨key, value, -, -, rfl⟩ := h
  exact ⟨'"', _, rfl, hclose⟩

theorem ofBool_append_inj {b b' : Bool} {r s : List Char} (h : ofBool b ++ r = ofBool b' ++ s) : b = b' ∧ r = s := by
  cases b <;> cases b' <;> simp_all [ofBool]

/-! ### Kind by kind

In each of these the first character leaves only one kind for the other datum. -/

theorem isToldApart_none : IsToldApart IsTextOf .none := by
  intro b p q r s hp hq _ _ h
  have hkind := hp.kind_eq hq h
  obtain ⟨-, _, hp⟩ := hp
  obtain ⟨hb, _, hq⟩ := hq
  cases hb with
  | none =>
      obtain rfl := Except.ok.inj hp
      obtain rfl := Except.ok.inj hq
      exact ⟨rfl, List.append_cancel_left h⟩
  | _ => cases hkind

theorem isToldApart_bool (b : Bool) : IsToldApart IsTextOf (.bool b) := by
  intro b' p q r s hp hq _ _ h
  have hkind := hp.kind_eq hq h
  obtain ⟨-, _, hp⟩ := hp
  obtain ⟨hb, _, hq⟩ := hq
  cases hb with
  | bool b' =>
      obtain rfl := Except.ok.inj hp
      obtain rfl := Except.ok.inj hq
      obtain ⟨rfl, hrs⟩ := ofBool_append_inj h
      exact ⟨rfl, hrs⟩
  | _ => cases hkind

theorem isToldApart_int {i : Int} (hi : Numeral.isWritable i = true) : IsToldApart IsTextOf (.int i) := by
  intro b p q r s hp hq hr hs h
  have hkind := hp.kind_eq hq h
  obtain ⟨-, _, hp⟩ := hp
  obtain ⟨hb, _, hq⟩ := hq
  cases hb with
  | int hj =>
      rw [writeWithin, writeInt_of_isWritable hi] at hp
      rw [writeWithin, writeInt_of_isWritable hj] at hq
      obtain rfl := Except.ok.inj hp
      obtain rfl := Except.ok.inj hq
      obtain ⟨rfl, hrs⟩ := Numeral.ofInt_append_inj hr hs h
      exact ⟨rfl, hrs⟩
  | _ => cases hkind

theorem isToldApart_text (t : String) : IsToldApart IsTextOf (.text t) := by
  intro b p q r s hp hq _ _ h
  have hkind := hp.kind_eq hq h
  obtain ⟨-, _, hp⟩ := hp
  obtain ⟨hb, _, hq⟩ := hq
  cases hb with
  | text u =>
      obtain rfl := Except.ok.inj hp
      obtain rfl := Except.ok.inj hq
      obtain ⟨htext, hrs⟩ := quote_append_inj h
      exact ⟨by rw [String.toList_injective htext], hrs⟩
  | _ => cases hkind

theorem isToldApart_list {items : List Datum} (ih : ∀ d ∈ items, IsToldApart IsTextOf d) :
    IsToldApart IsTextOf (.list items) := by
  intro b p q r s hp hq _ _ h
  have hkind := hp.kind_eq hq h
  have hb := hq.1
  cases hb with
  | list =>
      obtain ⟨ps, hps, rfl⟩ := hp.exists_bracketed
      obtain ⟨qs, hqs, rfl⟩ := hq.exists_bracketed
      simp only [bracketed, List.cons_append, List.append_assoc, List.nil_append, List.cons_eq_cons, true_and] at h
      obtain ⟨rfl, hrs⟩ := commas_append_inj (by decide) (by decide)
        (fun _ _ hd => hd.exists_cons_ne (by decide)) ih hps hqs h
      exact ⟨rfl, hrs⟩
  | _ => cases hkind

/-- Entries can be told apart when their values can. -/
theorem isToldApart_entry {e : Datum × Datum} (h : IsToldApart IsTextOf e.2) : IsToldApart IsEntryTextOf e := by
  intro f p q r s hp hq hr hs heq
  obtain ⟨k, v⟩ := e
  obtain ⟨l, w⟩ := f
  obtain ⟨key, value, rfl, hvalue, rfl⟩ := hp
  obtain ⟨key', value', rfl, hvalue', rfl⟩ := hq
  rw [List.append_assoc, List.append_assoc] at heq
  obtain ⟨hkey, hrest⟩ := quote_append_inj heq
  obtain ⟨rfl, hrs⟩ := h hvalue hvalue' hr hs (List.cons_eq_cons.mp hrest).2
  exact ⟨by rw [String.toList_injective hkey], hrs⟩

theorem isToldApart_record {es : List (Datum × Datum)} (ih : ∀ e ∈ es, IsToldApart IsTextOf e.2) :
    IsToldApart IsTextOf (.record (.entries es)) := by
  intro b p q r s hp hq _ _ h
  have hkind := hp.kind_eq hq h
  have hb := hq.1
  cases hb with
  | record =>
      obtain ⟨ps, hps, rfl⟩ := hp.exists_braced
      obtain ⟨qs, hqs, rfl⟩ := hq.exists_braced
      simp only [List.cons_append, List.append_assoc, List.nil_append, List.cons_eq_cons, true_and] at h
      obtain ⟨rfl, hrs⟩ := commas_append_inj (by decide) (by decide) (fun _ _ he => he.exists_cons_ne (by decide))
        (fun e he => isToldApart_entry (ih e he)) hps hqs h
      exact ⟨rfl, hrs⟩
  | _ => cases hkind

/-! ### All of them -/

/-- **Unambiguous text.**  What an exact datum is written as can be told from whatever follows it, as long as that is no
digit. -/
theorem isToldApart {a : Datum} (ha : a.IsExact) : IsToldApart IsTextOf a := by
  induction ha with
  | none => exact isToldApart_none
  | bool b => exact isToldApart_bool b
  | int hi => exact isToldApart_int hi
  | text t => exact isToldApart_text t
  | list _ ih => exact isToldApart_list ih
  | record _ _ ih => exact isToldApart_record ih

/-- Exact data with one JSON text is one datum. -/
theorem eq_of_write_eq {a b : Datum} (ha : a.IsExact) (hb : b.IsExact) {p : List Char} (hap : write a = .ok p)
    (hbp : write b = .ok p) : a = b :=
  (isToldApart ha ⟨ha, _, hap⟩ ⟨hb, _, hbp⟩ Numeral.startsNoDigit_nil Numeral.startsNoDigit_nil rfl).1

end Json

end ColumnLabel
