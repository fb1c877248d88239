import CommentOutline.Proofs.Json.Lexemes

set_option autoImplicit false

/-! Values read back from their text. Whatever the layout, the reader passes over the blanks between
the marks, and the value that it finds is the one that was written. -/

namespace CommentOutline.Json

open Config (Value Table putEntry)
open Text (units)

/-- Values that their text tells: without floats, dates and times, and with no key twice in a
table. -/
inductive Readable : Value → Prop
  | null : Readable .null
  | bool (value : Bool) : Readable (.bool value)
  | int (value : Int) : Readable (.int value)
  | text (value : String) : Readable (.text value)
  | list {items : List Value} : (∀ item ∈ items, Readable item) → Readable (.list items)
  | table {entries : Table} : (entries.map Prod.fst).Nodup →
      (∀ entry ∈ entries, Readable entry.2) → Readable (.table entries)

variable {value : Value} {alone : Nat → Char} (layout : Layout)

/-! ### Blanks -/

theorem skip_blanks {blanks : List Char} (all : ∀ blank ∈ blanks, isSpace blank = true) {c : Char}
    (visible : isSpace c = false) (rest : List Char) : skip (blanks ++ c :: rest) = c :: rest := by
  rw [skip, List.dropWhile_append_of_pos all,
    List.dropWhile_cons_of_neg (by rw [visible]; exact Bool.false_ne_true)]

/-- What stands behind a comma. -/
def gap (depth : Nat) : List Char :=
  match layout with
  | none => [' ']
  | some _ => lineStart layout depth

theorem between_eq (depth : Nat) : between layout depth = ',' :: gap layout depth := by
  cases layout <;> rfl

theorem skip_visible {c : Char} (visible : isSpace c = false) (rest : List Char) :
    skip (c :: rest) = c :: rest :=
  List.dropWhile_cons_of_neg (Bool.eq_false_iff.mp visible)

theorem isSpace_of_mem_lineStart (depth : Nat) : ∀ blank ∈ lineStart layout depth,
    isSpace blank = true := by
  intro blank member
  cases layout with
  | none => cases member
  | some width =>
      rcases List.mem_cons.mp member with rfl | inside
      · rfl
      · rw [List.eq_of_mem_replicate inside]
        rfl

theorem isSpace_of_mem_gap (depth : Nat) : ∀ blank ∈ gap layout depth, isSpace blank = true := by
  cases layout with
  | none =>
      intro blank member
      rw [List.mem_singleton.mp member]
      rfl
  | some width => exact isSpace_of_mem_lineStart (some width) depth

theorem ends_comma (rest : List Char) : Ends (',' :: rest) :=
  ⟨rfl, by decide, by decide, by decide⟩

theorem ends_lineStart (depth : Nat) {close : Char} (closes : Ends [close]) (rest : List Char) :
    Ends (lineStart layout depth ++ close :: rest) := by
  cases layout with
  | none => exact closes
  | some width => exact ⟨rfl, by decide, by decide, by decide⟩

/-! ### What is written begins with a mark -/

theorem ne_of_isDigit {digit : Char} (isDigit : digit.isDigit = true) (mark : Char)
    (other : mark.isDigit = false) : digit ≠ mark := by
  rintro rfl
  rw [isDigit] at other
  cases other

theorem isSpace_of_isDigit {digit : Char} (isDigit : digit.isDigit = true) :
    isSpace digit = false := by
  have blank := ne_of_isDigit isDigit ' ' (by decide)
  have tab := ne_of_isDigit isDigit '\t' (by decide)
  have feed := ne_of_isDigit isDigit '\n' (by decide)
  have back := ne_of_isDigit isDigit '\r' (by decide)
  simp only [isSpace, blank, tab, feed, back, decide_false, Bool.or_self]

theorem Readable.write_first (readable : Readable value) (depth : Nat) :
    ∃ c rest, write units layout depth value = c :: rest ∧ isSpace c = false ∧ c ≠ ']' := by
  cases readable with
  | null => exact ⟨_, _, rfl, by decide⟩
  | bool value => cases value <;> exact ⟨_, _, rfl, by decide⟩
  | int value =>
      obtain ⟨digit, rest, isDigit, same | same⟩ := repr_cases value
      · exact ⟨_, _, same, isSpace_of_isDigit isDigit, ne_of_isDigit isDigit _ (by decide)⟩
      · exact ⟨_, _, same, by decide⟩
  | text value => exact ⟨_, _, rfl, by decide⟩
  | @list items each => cases items <;> exact ⟨_, _, rfl, by decide⟩
  | @table entries once each =>
      cases entries with
      | nil => exact ⟨_, _, rfl, by decide⟩
      | cons entry entries => exact ⟨_, _, rfl, by decide⟩

theorem Readable.skip_write (readable : Readable value) (depth : Nat) {blanks : List Char}
    (all : ∀ blank ∈ blanks, isSpace blank = true) (rest : List Char) :
    skip (blanks ++ (write units layout depth value ++ rest)) =
      write units layout depth value ++ rest := by
  obtain ⟨c, more, begins, visible, -⟩ := readable.write_first layout depth
  rw [begins, List.cons_append]
  exact skip_blanks all visible (more ++ rest)

/-! ### Values that are read back -/

/-- With fuel for each of its characters, the text of the value is read as the value. It has no half
of a surrogate pair on its own, so it is all one what such a half would be read as. -/
def ReadsBack (value : Value) : Prop :=
  ∀ (alone : Nat → Char) (depth fuel : Nat) (rest : List Char),
    (write units layout depth value).length ≤ fuel → Ends rest →
      readValue alone fuel (write units layout depth value ++ rest) = some (value, rest)

private theorem readValue_digit {digit : Char} (isDigit : digit.isDigit = true) (fuel : Nat)
    (rest : List Char) :
    readValue alone (fuel + 1) (digit :: rest) = readNumber (digit :: rest) := by
  rw [readValue]
  all_goals
    intros
    rename_i same
    exact ne_of_isDigit isDigit _ (by decide) (List.head_eq_of_cons_eq same)

private theorem readValue_minus {digit : Char} (isDigit : digit.isDigit = true) (fuel : Nat)
    (rest : List Char) :
    readValue alone (fuel + 1) ('-' :: digit :: rest) = readNumber ('-' :: digit :: rest) := by
  have infinite : digit ≠ 'I' := ne_of_isDigit isDigit 'I' (by decide)
  rw [readValue]
  all_goals
    intros
    rename_i same
    simp [infinite] at same

theorem readsBack_int (value : Int) : ReadsBack layout (.int value) := by
  intro alone depth fuel rest enough ends
  have number := readNumber_repr value ends
  rw [write] at enough ⊢
  obtain ⟨digit, more, isDigit, same | same⟩ := repr_cases value
  all_goals
    rw [same] at enough number ⊢
    obtain ⟨fuel, rfl⟩ := Nat.exists_eq_add_one_of_ne_zero (Nat.ne_of_gt
      (Nat.lt_of_lt_of_le (Nat.succ_pos _) enough))
    rw [← number]
  · exact readValue_digit isDigit fuel _
  · exact readValue_minus isDigit fuel _

theorem readsBack_text (value : String) : ReadsBack layout (.text value) := by
  intro alone depth fuel rest enough _
  rw [write, writeText] at enough ⊢
  obtain ⟨fuel, rfl⟩ := Nat.exists_eq_add_one_of_ne_zero (Nat.ne_of_gt
    (Nat.lt_of_lt_of_le (Nat.succ_pos _) enough))
  rw [List.cons_append, List.cons_append, List.append_assoc, List.singleton_append, readValue,
    readText_escaped]
  rfl

/-! ### Lists -/

private theorem readItems_last {fuel : Nat} {cs tail rest : List Char} {item : Value}
    (first : readValue alone fuel cs = some (item, tail)) (closes : skip tail = ']' :: rest) :
    readItems alone (fuel + 1) cs = some ([item], rest) := by
  simp only [readItems, first, closes]

private theorem readItems_more {fuel : Nat} {cs tail more : List Char} {item : Value}
    (first : readValue alone fuel cs = some (item, tail)) (goesOn : skip tail = ',' :: more) :
    readItems alone (fuel + 1) cs =
      (readItems alone fuel (skip more)).map fun read => (item :: read.1, read.2) := by
  simp only [readItems, first, goesOn]

private theorem readValue_bracket {fuel : Nat} {cs inner : List Char} (opened : skip cs = inner)
    (some_item : ∀ rest, inner ≠ ']' :: rest) :
    readValue alone (fuel + 1) ('[' :: cs) =
      (readItems alone fuel inner).map fun read => (.list read.1, read.2) := by
  rw [readValue, opened]
  split
  · rename_i rest
    exact absurd rfl (some_item rest)
  · rfl

theorem readItems_write (alone : Nat → Char) (depth outer : Nat) (rest : List Char)
    (items : List Value) :
    ∀ (item : Value) (fuel : Nat),
      (∀ one ∈ item :: items, Readable one ∧ ReadsBack layout one) →
      (write units layout depth item ++ writeItems units layout depth items).length < fuel →
      readItems alone fuel (write units layout depth item ++
        (writeItems units layout depth items ++ (lineStart layout outer ++ ']' :: rest))) =
          some (item :: items, rest) := by
  have close : Ends [']'] := ⟨rfl, by decide, by decide, by decide⟩
  induction items with
  | nil =>
      intro item fuel each enough
      obtain ⟨fuel, rfl⟩ := Nat.exists_eq_add_one_of_ne_zero (Nat.ne_zero_of_lt enough)
      rw [writeItems, List.append_nil] at enough
      have first := (each item List.mem_cons_self).2 alone depth fuel
        (lineStart layout outer ++ ']' :: rest) (Nat.le_of_lt_succ enough)
        (ends_lineStart layout outer close rest)
      exact readItems_last first
        (skip_blanks (isSpace_of_mem_lineStart layout outer) (by decide) rest)
  | cons next items ih =>
      intro item fuel each enough
      obtain ⟨fuel, rfl⟩ := Nat.exists_eq_add_one_of_ne_zero (Nat.ne_zero_of_lt enough)
      have each' : ∀ one ∈ next :: items, Readable one ∧ ReadsBack layout one := fun one inside =>
        each one (List.mem_cons_of_mem _ inside)
      rw [writeItems, between_eq] at enough ⊢
      simp only [List.length_append, List.length_cons] at enough
      simp only [List.cons_append, List.append_assoc]
      have first := (each item List.mem_cons_self).2 alone depth fuel _ (by omega) (ends_comma
        (gap layout depth ++ (write units layout depth next ++
          (writeItems units layout depth items ++ (lineStart layout outer ++ ']' :: rest)))))
      have later := ih next fuel each' (by rw [List.length_append]; omega)
      rw [readItems_more first (skip_visible (by decide) _),
        (each' next List.mem_cons_self).1.skip_write layout depth (isSpace_of_mem_gap layout depth),
        later]
      rfl

theorem readsBack_list {items : List Value}
    (each : ∀ item ∈ items, Readable item ∧ ReadsBack layout item) :
    ReadsBack layout (.list items) := by
  intro alone depth fuel rest enough _
  cases items with
  | nil =>
      obtain ⟨fuel, rfl⟩ := Nat.exists_eq_add_one_of_ne_zero (Nat.ne_zero_of_lt enough)
      rfl
  | cons item items =>
      rw [write] at enough ⊢
      obtain ⟨fuel, rfl⟩ := Nat.exists_eq_add_one_of_ne_zero (Nat.ne_zero_of_lt enough)
      simp only [List.cons_append, List.append_assoc, List.length_append, List.length_cons,
        List.nil_append] at enough ⊢
      have readable := (each item List.mem_cons_self).1
      have inner := readItems_write layout alone (depth + 1) depth rest items item fuel each
        (by rw [List.length_append]; omega)
      have opened := readable.skip_write layout (depth + 1)
        (isSpace_of_mem_lineStart layout (depth + 1)) (writeItems units layout (depth + 1) items ++
          (lineStart layout depth ++ ']' :: rest))
      obtain ⟨c, more, begins, -, item_mark⟩ := readable.write_first layout (depth + 1)
      rw [readValue_bracket opened, inner]
      · rfl
      · intro after closed
        rw [begins] at closed
        exact item_mark (List.head_eq_of_cons_eq closed)

/-! ### Tables -/

theorem putEntry_of_notMem {α : Type} {entries : List (String × α)} {key : String}
    (new : key ∉ entries.map Prod.fst) (item : α) :
    putEntry entries key item = entries ++ [(key, item)] := by
  induction entries with
  | nil => rfl
  | cons entry entries ih =>
      rw [List.map_cons, List.mem_cons, not_or] at new
      rw [putEntry, if_neg (Ne.symm new.1), ih new.2, List.cons_append]

def writeEntry (depth : Nat) (entry : String × Value) : List Char :=
  writeText units entry.1 ++ ':' :: ' ' :: write units layout depth entry.2

private theorem readValue_brace {fuel : Nat} {cs inner : List Char}
    (opened : skip cs = '"' :: inner) :
    readValue alone (fuel + 1) ('{' :: cs) =
      (readEntries alone fuel [] ('"' :: inner)).map fun read => (.table read.1, read.2) := by
  rw [readValue, opened]
  rfl

theorem writeEntry_append (depth : Nat) (entry : String × Value) (rest : List Char) :
    writeEntry layout depth entry ++ rest =
      '"' :: (entry.1.toList.flatMap (escapeChar units) ++
        '"' :: ':' :: ' ' :: (write units layout depth entry.2 ++ rest)) := by
  simp only [writeEntry, writeText, List.cons_append, List.append_assoc, List.nil_append]

theorem writeEntries_cons (depth : Nat) (entry : String × Value) (entries : Table) :
    writeEntries units layout depth (entry :: entries) =
      ',' :: (gap layout depth ++ (writeEntry layout depth entry ++
        writeEntries units layout depth entries)) := by
  simp only [writeEntries, between_eq, writeEntry, List.cons_append, List.append_assoc,
    List.nil_append]

theorem write_table_cons (depth : Nat) (entry : String × Value) (entries : Table) :
    write units layout depth (.table (entry :: entries)) =
      '{' :: (lineStart layout (depth + 1) ++ (writeEntry layout (depth + 1) entry ++
        (writeEntries units layout (depth + 1) entries ++ (lineStart layout depth ++ ['}'])))) := by
  simp only [write, writeEntry, List.cons_append, List.append_assoc, List.nil_append]

/-- An entry is read and put into the table; what follows it says whether it is the last one. -/
theorem readEntries_writeEntry {entry : String × Value} (readable : Readable entry.2)
    (readsBack : ReadsBack layout entry.2) (alone : Nat → Char) (depth : Nat) {fuel : Nat}
    {tail : List Char}
    (enough : (writeEntry layout depth entry).length ≤ fuel) (ends : Ends tail) (table : Table) :
    (∀ rest, skip tail = '}' :: rest →
      readEntries alone (fuel + 1) table (writeEntry layout depth entry ++ tail) =
        some (table.put entry.1 entry.2, rest)) ∧
      ∀ more, skip tail = ',' :: more →
        readEntries alone (fuel + 1) table (writeEntry layout depth entry ++ tail) =
          readEntries alone fuel (table.put entry.1 entry.2) (skip more) := by
  have named := readText_escaped alone entry.1
    (':' :: ' ' :: (write units layout depth entry.2 ++ tail))
  have colon : skip (':' :: ' ' :: (write units layout depth entry.2 ++ tail)) =
      ':' :: ' ' :: (write units layout depth entry.2 ++ tail) := skip_visible (by decide) _
  have first : readValue alone fuel (skip (' ' :: (write units layout depth entry.2 ++ tail))) =
      some (entry.2, tail) := by
    have blank : ∀ blank ∈ [' '], isSpace blank = true := List.forall_mem_singleton.mpr rfl
    rw [← List.singleton_append, readable.skip_write layout depth blank]
    apply readsBack alone depth fuel tail _ ends
    simp only [writeEntry, List.length_append, List.length_cons] at enough
    omega
  rw [writeEntry_append]
  constructor
  · intro rest closes
    simp only [readEntries, named, colon, first, closes]
  · intro more goesOn
    simp only [readEntries, named, colon, first, goesOn]

theorem readEntries_write (alone : Nat → Char) (depth outer : Nat) (rest : List Char)
    (entries : Table) :
    ∀ (entry : String × Value) (table : Table) (fuel : Nat),
      ((table ++ entry :: entries).map Prod.fst).Nodup →
      (∀ one ∈ entry :: entries, Readable one.2 ∧ ReadsBack layout one.2) →
      (writeEntry layout depth entry ++ writeEntries units layout depth entries).length < fuel →
      readEntries alone fuel table (writeEntry layout depth entry ++
        (writeEntries units layout depth entries ++ (lineStart layout outer ++ '}' :: rest))) =
          some (table ++ entry :: entries, rest) := by
  have close : Ends ['}'] := ⟨rfl, by decide, by decide, by decide⟩
  have put_new : ∀ (entry : String × Value) (table entries : Table),
      ((table ++ entry :: entries).map Prod.fst).Nodup →
        table.put entry.1 entry.2 = table ++ [entry] := by
    intro entry table entries once
    apply putEntry_of_notMem
    rw [List.map_append, List.map_cons, List.nodup_append] at once
    exact fun known => once.2.2 _ known _ List.mem_cons_self rfl
  induction entries with
  | nil =>
      intro entry table fuel once each enough
      obtain ⟨fuel, rfl⟩ := Nat.exists_eq_add_one_of_ne_zero (Nat.ne_zero_of_lt enough)
      obtain ⟨readable, readsBack⟩ := each entry List.mem_cons_self
      rw [writeEntries, List.append_nil] at enough
      have read := readEntries_writeEntry layout readable readsBack alone depth
        (Nat.le_of_lt_succ enough) (ends_lineStart layout outer close rest) table
      rw [writeEntries, List.nil_append, ← put_new entry table [] once]
      exact read.1 rest (skip_blanks (isSpace_of_mem_lineStart layout outer) (by decide) rest)
  | cons next entries ih =>
      intro entry table fuel once each enough
      obtain ⟨fuel, rfl⟩ := Nat.exists_eq_add_one_of_ne_zero (Nat.ne_zero_of_lt enough)
      obtain ⟨readable, readsBack⟩ := each entry List.mem_cons_self
      have each' : ∀ one ∈ next :: entries, Readable one.2 ∧ ReadsBack layout one.2 :=
        fun one inside => each one (List.mem_cons_of_mem _ inside)
      rw [writeEntries_cons] at enough ⊢
      simp only [List.length_append, List.length_cons] at enough
      simp only [List.cons_append, List.append_assoc]
      have entry_fits : (writeEntry layout depth entry).length ≤ fuel := by omega
      have read := (readEntries_writeEntry layout readable readsBack alone depth entry_fits
        (ends_comma (gap layout depth ++ (writeEntry layout depth next ++
          (writeEntries units layout depth entries ++
            (lineStart layout outer ++ '}' :: rest))))) table).2 _ (skip_visible (by decide) _)
      have joined : table ++ entry :: next :: entries = table ++ [entry] ++ next :: entries :=
        List.append_cons table entry (next :: entries)
      rw [put_new entry table (next :: entries) once] at read
      rw [joined] at once ⊢
      rw [read, ← ih next (table ++ [entry]) fuel once each' (by rw [List.length_append]; omega),
        writeEntry_append, skip_blanks (isSpace_of_mem_gap layout depth) (by decide)]

theorem readsBack_table {entries : Table} (once : (entries.map Prod.fst).Nodup)
    (each : ∀ entry ∈ entries, Readable entry.2 ∧ ReadsBack layout entry.2) :
    ReadsBack layout (.table entries) := by
  intro alone depth fuel rest enough _
  cases entries with
  | nil =>
      obtain ⟨fuel, rfl⟩ := Nat.exists_eq_add_one_of_ne_zero (Nat.ne_zero_of_lt enough)
      rfl
  | cons entry entries =>
      rw [write_table_cons] at enough ⊢
      obtain ⟨fuel, rfl⟩ := Nat.exists_eq_add_one_of_ne_zero (Nat.ne_zero_of_lt enough)
      simp only [List.cons_append, List.append_assoc, List.length_append, List.length_cons,
        List.nil_append] at enough ⊢
      have inner :=
        readEntries_write layout alone (depth + 1) depth rest entries entry [] fuel once each
        (by rw [List.length_append]; omega)
      rw [writeEntry_append] at inner ⊢
      rw [readValue_brace (skip_blanks (isSpace_of_mem_lineStart layout (depth + 1)) (by decide) _),
        inner]
      rfl

/-! ### Every readable value -/

theorem Readable.readsBack (readable : Readable value) : ReadsBack layout value := by
  induction readable with
  | null =>
      intro alone depth fuel rest enough _
      obtain ⟨fuel, rfl⟩ := Nat.exists_eq_add_one_of_ne_zero (Nat.ne_zero_of_lt enough)
      rfl
  | bool value =>
      intro alone depth fuel rest enough _
      cases value
      all_goals
        obtain ⟨fuel, rfl⟩ := Nat.exists_eq_add_one_of_ne_zero (Nat.ne_zero_of_lt enough)
        rfl
  | int value => exact readsBack_int layout value
  | text value => exact readsBack_text layout value
  | list each ih => exact readsBack_list layout fun item inside => ⟨each item inside, ih item inside⟩
  | table once each ih =>
      exact readsBack_table layout once fun entry inside => ⟨each entry inside, ih entry inside⟩

theorem ends_of_isSpace {rest : List Char} (blanks : ∀ blank ∈ rest, isSpace blank = true) :
    Ends rest := by
  cases rest with
  | nil => trivial
  | cons blank rest =>
      have space := blanks blank List.mem_cons_self
      simp only [isSpace, Bool.or_eq_true, decide_eq_true_eq] at space
      rcases space with ((rfl | rfl) | rfl) | rfl
      all_goals exact ⟨rfl, by decide, by decide, by decide⟩

theorem Readable.readBy?_render_append (readable : Readable value) (alone : Nat → Char)
    {rest : List Char} (blanks : ∀ blank ∈ rest, isSpace blank = true) :
    readBy? alone (render layout value ++ String.ofList rest) = some value := by
  obtain ⟨c, more, begins, visible, -⟩ := readable.write_first layout 0
  have whole : skip (render layout value ++ String.ofList rest).toList =
      write units layout 0 value ++ rest := by
    rw [String.toList_append, render, renderBy, String.toList_ofList, String.toList_ofList, begins]
    exact skip_visible visible (more ++ rest)
  have back := readable.readsBack layout alone 0
    (2 * (write units layout 0 value ++ rest).length + 2) rest
    (by rw [List.length_append]; omega) (ends_of_isSpace blanks)
  have nothing : skip rest = [] := by
    rw [skip, ← List.append_nil rest, List.dropWhile_append_of_pos blanks, List.dropWhile_nil]
  simp only [readBy?, whole, back, nothing]
  rfl

theorem Readable.read?_render (readable : Readable value) :
    read? (render layout value) = some value := by
  have back := readable.readBy?_render_append layout (fun _ => '\ufffd') (List.forall_mem_nil _)
  rwa [String.ofList_nil, String.append_empty] at back

/-! ### ASCII -/

theorem lineStart_ascii (depth : Nat) : Ascii (lineStart layout depth) := by
  intro blank member
  have space := isSpace_of_mem_lineStart layout depth blank member
  simp only [isSpace, Bool.or_eq_true, decide_eq_true_eq] at space
  rcases space with ((rfl | rfl) | rfl) | rfl
  all_goals decide

theorem between_ascii (depth : Nat) : Ascii (between layout depth) := by
  cases layout with
  | none => exact (by decide : Ascii [',', ' '])
  | some width =>
      rw [between, ascii_cons]
      exact ⟨by decide, lineStart_ascii (some width) depth⟩

theorem writeItems_ascii (depth : Nat) {items : List Value}
    (each : ∀ item ∈ items, Ascii (write units layout depth item)) :
    Ascii (writeItems units layout depth items) := by
  induction items with
  | nil => exact ascii_nil
  | cons item items ih =>
      simp only [writeItems, ascii_append]
      exact ⟨⟨between_ascii layout depth, each item List.mem_cons_self⟩,
        ih fun other inside => each other (List.mem_cons_of_mem _ inside)⟩

theorem writeEntry_ascii (depth : Nat) {entry : String × Value}
    (value : Ascii (write units layout depth entry.2)) : Ascii (writeEntry layout depth entry) := by
  simp only [writeEntry, ascii_append, ascii_cons]
  exact ⟨writeText_ascii entry.1, by decide, by decide, value⟩

theorem writeEntries_ascii (depth : Nat) {entries : Table}
    (each : ∀ entry ∈ entries, Ascii (write units layout depth entry.2)) :
    Ascii (writeEntries units layout depth entries) := by
  induction entries with
  | nil => exact ascii_nil
  | cons entry entries ih =>
      have behind := between_ascii layout depth
      rw [between_eq, ascii_cons] at behind
      simp only [writeEntries_cons, ascii_append, ascii_cons]
      exact ⟨behind.1, behind.2, writeEntry_ascii layout depth (each entry List.mem_cons_self),
        ih fun other inside => each other (List.mem_cons_of_mem _ inside)⟩

theorem Readable.write_ascii (readable : Readable value) (depth : Nat) :
    Ascii (write units layout depth value) := by
  induction readable generalizing depth with
  | null => exact (by decide : Ascii ['n', 'u', 'l', 'l'])
  | bool value =>
      cases value with
      | true => exact (by decide : Ascii ['t', 'r', 'u', 'e'])
      | false => exact (by decide : Ascii ['f', 'a', 'l', 's', 'e'])
  | int value => exact repr_ascii value
  | text value => exact writeText_ascii value
  | @list items _ ih =>
      cases items with
      | nil => exact (by decide : Ascii ['[', ']'])
      | cons item items =>
          simp only [write, ascii_append, ascii_cons, lineStart_ascii, and_true, ascii_nil,
            ih item List.mem_cons_self]
          exact ⟨⟨by decide, writeItems_ascii layout (depth + 1) fun other inside =>
            ih other (List.mem_cons_of_mem _ inside) _⟩, by decide⟩
  | @table entries _ _ ih =>
      cases entries with
      | nil => exact (by decide : Ascii ['{', '}'])
      | cons entry entries =>
          simp only [write_table_cons, ascii_append, ascii_cons, lineStart_ascii, true_and, and_true,
            ascii_nil]
          exact ⟨by decide, writeEntry_ascii layout (depth + 1) (ih entry List.mem_cons_self _),
            writeEntries_ascii layout (depth + 1) fun other inside =>
              ih other (List.mem_cons_of_mem _ inside) _, by decide⟩

end CommentOutline.Json
