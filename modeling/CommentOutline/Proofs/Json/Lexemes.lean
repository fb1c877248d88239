import CommentOutline.Json.Reader
import CommentOutline.Json.Writer

set_option autoImplicit false

/-! Texts and whole numbers in JSON. Every character is written as one code unit or as a pair of
surrogates, in ASCII, and the reader joins the code units to the same character again. A whole
number ends where no digit, point or exponent follows. -/

namespace CommentOutline.Json

open Config (Value)
open Text (units isHigh isLow joinPair)

variable {alone : Nat → Char}

/-! ### Code units -/

private theorem hexDigit?_digitChar {d : Nat} (small : d < 16) :
    Text.hexDigit? (Nat.digitChar d) = some d := by
  have all : ∀ digit : Fin 16, Text.hexDigit? (Nat.digitChar digit) = some digit.val := by decide
  exact all ⟨d, small⟩

private theorem unit?_digitChars {unit : Nat} (bound : unit < 0x10000) :
    unit? (Nat.digitChar (unit / 4096 % 16)) (Nat.digitChar (unit / 256 % 16))
      (Nat.digitChar (unit / 16 % 16)) (Nat.digitChar (unit % 16)) = some unit := by
  have small : ∀ n : Nat, n % 16 < 16 := fun n => Nat.mod_lt n (by decide)
  simp only [unit?, hexDigit?_digitChar (small _), Option.some.injEq]
  omega

private theorem readUnits_unitEscape {unit : Nat} (bound : unit < 0x10000) (rest : List Char) :
    readUnits (unitEscape unit ++ rest) =
      (readUnits rest).map fun read => (unit :: read.1, read.2) := by
  simp only [unitEscape, List.cons_append, List.nil_append, readUnits, unit?_digitChars bound]
  cases readUnits rest <;> rfl

private theorem readUnits_plain {c : Char} (quote : c ≠ '"') (slash : c ≠ '\\')
    (visible : ¬ c.toNat < 32) (rest : List Char) :
    readUnits (c :: rest) = (readUnits rest).map fun read => (c.toNat :: read.1, read.2) := by
  rw [readUnits]
  · rw [if_neg (by simp [slash, visible])]
    cases readUnits rest <;> rfl
  · exact quote
  · rintro _ _ _ _ _ rfl
    exact absurd rfl slash
  · rintro _ _ rfl
    exact absurd rfl slash

private theorem units_bound (c : Char) : ∀ unit ∈ units c, unit < 0x10000 := by
  have top : c.toNat < 0x110000 := by
    rcases c.valid with low | ⟨-, high⟩
    · exact Nat.lt_trans low (by decide)
    · exact high
  intro unit member
  rw [units] at member
  split at member
  · rename_i single
    rw [List.mem_singleton.mp member]
    exact single
  · simp only [List.mem_cons, List.not_mem_nil, or_false] at member
    omega

private theorem readUnits_flatMap_unitEscape (written : List Nat)
    (bound : ∀ unit ∈ written, unit < 0x10000) (rest : List Char) :
    readUnits (written.flatMap unitEscape ++ rest) =
      (readUnits rest).map fun read => (written ++ read.1, read.2) := by
  induction written with
  | nil =>
      rw [List.flatMap_nil, List.nil_append]
      cases readUnits rest <;> rfl
  | cons unit written ih =>
      rw [List.flatMap_cons, List.append_assoc, readUnits_unitEscape (bound unit List.mem_cons_self),
        ih fun other inside => bound other (List.mem_cons_of_mem _ inside), Option.map_map]
      rfl

/-- The three ways to write a character: by a letter behind a backslash, as it is, or by its code
units. -/
theorem escapeChar_cases (c : Char) :
    (∃ letter, escapeChar units c = ['\\', letter] ∧ escaped? letter = some c.toNat ∧ letter ≠ 'u' ∧
        letter.toNat < 128 ∧ units c = [c.toNat]) ∨
      (escapeChar units c = [c] ∧ c ≠ '"' ∧ c ≠ '\\' ∧ 32 ≤ c.toNat ∧ c.toNat ≤ 126) ∨
      escapeChar units c = (units c).flatMap unitEscape := by
  by_cases quote : c = '"'
  · exact Or.inl ⟨'"', by subst quote; decide⟩
  by_cases slash : c = '\\'
  · exact Or.inl ⟨'\\', by subst slash; decide⟩
  by_cases feed : c = '\n'
  · exact Or.inl ⟨'n', by subst feed; decide⟩
  by_cases back : c = '\r'
  · exact Or.inl ⟨'r', by subst back; decide⟩
  by_cases tab : c = '\t'
  · exact Or.inl ⟨'t', by subst tab; decide⟩
  by_cases page : c = '\x0c'
  · exact Or.inl ⟨'f', by subst page; decide⟩
  by_cases rub : c = '\x08'
  · exact Or.inl ⟨'b', by subst rub; decide⟩
  rw [escapeChar, if_neg quote, if_neg slash, if_neg feed, if_neg back, if_neg tab, if_neg page,
    if_neg rub]
  by_cases visible : 32 ≤ c.toNat ∧ c.toNat ≤ 126
  · exact Or.inr (Or.inl ⟨if_pos visible, quote, slash, visible⟩)
  · exact Or.inr (Or.inr (if_neg visible))

theorem readUnits_escapeChar (c : Char) (rest : List Char) :
    readUnits (escapeChar units c ++ rest) =
      (readUnits rest).map fun read => (units c ++ read.1, read.2) := by
  rcases escapeChar_cases c with
    ⟨letter, written, known, other, -, single⟩ | ⟨written, quote, slash, visible, top⟩ | written
  · rw [written, single, List.cons_append, List.singleton_append, readUnits, known]
    · cases readUnits rest <;> rfl
    · rintro _ _ _ _ _ rfl
      exact absurd rfl other
  · have single : units c = [c.toNat] := if_pos (by omega)
    rw [written, single, List.singleton_append, readUnits_plain quote slash (by omega)]
    rfl
  · rw [written]
    exact readUnits_flatMap_unitEscape _ (units_bound c) rest

theorem readUnits_flatMap_escapeChar (cs rest : List Char) :
    readUnits (cs.flatMap (escapeChar units) ++ '"' :: rest) = some (cs.flatMap units, rest) := by
  induction cs with
  | nil => rfl
  | cons c cs ih =>
      rw [List.flatMap_cons, List.append_assoc, readUnits_escapeChar, ih]
      rfl

private theorem joinUnits_cons {unit : Nat} (single : isHigh unit = false) (rest : List Nat) :
    joinUnits alone (unit :: rest) = scalar alone unit :: joinUnits alone rest := by
  cases rest with
  | nil => rfl
  | cons next rest => rw [joinUnits, single, Bool.false_and, if_neg Bool.false_ne_true]

theorem joinUnits_units (c : Char) (rest : List Nat) :
    joinUnits alone (units c ++ rest) = c :: joinUnits alone rest := by
  have valid : c.toNat < 0xD800 ∨ 0xDFFF < c.toNat ∧ c.toNat < 0x110000 := c.valid
  unfold units
  split
  · have high : isHigh c.toNat = false := by
      simp only [isHigh, Bool.and_eq_false_iff, decide_eq_false_iff_not]
      omega
    have low : isLow c.toNat = false := by
      simp only [isLow, Bool.and_eq_false_iff, decide_eq_false_iff_not]
      omega
    rw [List.singleton_append, joinUnits_cons high, scalar, high, low, Bool.false_or,
      if_neg Bool.false_ne_true, Char.ofNat_toNat]
  · have high : isHigh (0xD800 + (c.toNat - 0x10000) / 1024) = true := by
      simp only [isHigh, Bool.and_eq_true, decide_eq_true_eq]
      omega
    have low : isLow (0xDC00 + (c.toNat - 0x10000) % 1024) = true := by
      simp only [isLow, Bool.and_eq_true, decide_eq_true_eq]
      omega
    have same : 0x10000 + (0xD800 + (c.toNat - 0x10000) / 1024 - 0xD800) * 1024 +
        (0xDC00 + (c.toNat - 0x10000) % 1024 - 0xDC00) = c.toNat := by
      omega
    rw [List.cons_append, List.singleton_append, joinUnits, high, low, Bool.and_true, if_pos rfl,
      joinPair, same, Char.ofNat_toNat]

theorem joinUnits_flatMap_units (cs : List Char) : joinUnits alone (cs.flatMap units) = cs := by
  induction cs with
  | nil => rfl
  | cons c cs ih => rw [List.flatMap_cons, joinUnits_units, ih]

theorem readText_escaped (alone : Nat → Char) (text : String) (rest : List Char) :
    readText alone (text.toList.flatMap (escapeChar units) ++ '"' :: rest) = some (text, rest) := by
  rw [readText, readUnits_flatMap_escapeChar, Option.map_some, joinUnits_flatMap_units,
    String.ofList_toList]

/-! ### ASCII -/

def Ascii (cs : List Char) : Prop := ∀ c ∈ cs, c.toNat < 128

instance (cs : List Char) : Decidable (Ascii cs) := List.decidableBAll _ cs

@[simp]
theorem ascii_nil : Ascii [] := fun _ member => nomatch member

@[simp]
theorem ascii_cons (c : Char) (cs : List Char) : Ascii (c :: cs) ↔ c.toNat < 128 ∧ Ascii cs :=
  List.forall_mem_cons

@[simp]
theorem ascii_append (cs ds : List Char) : Ascii (cs ++ ds) ↔ Ascii cs ∧ Ascii ds :=
  List.forall_mem_append

theorem ascii_flatMap {α : Type} {items : List α} {written : α → List Char}
    (each : ∀ item ∈ items, Ascii (written item)) : Ascii (items.flatMap written) := by
  intro c member
  obtain ⟨item, inside, here⟩ := List.mem_flatMap.mp member
  exact each item inside c here

private theorem digitChar_ascii (n : Nat) : (Nat.digitChar (n % 16)).toNat < 128 := by
  have all : ∀ digit : Fin 16, (Nat.digitChar digit).toNat < 128 := by decide
  exact all ⟨n % 16, Nat.mod_lt n (by decide)⟩

private theorem unitEscape_ascii (unit : Nat) : Ascii (unitEscape unit) := by
  simp only [unitEscape, ascii_cons, digitChar_ascii, ascii_nil, and_true]
  decide

theorem escapeChar_ascii (c : Char) : Ascii (escapeChar units c) := by
  rcases escapeChar_cases c with ⟨letter, same, -, -, low, -⟩ | ⟨same, -, -, -, top⟩ | same
  · rw [same]
    simp only [ascii_cons, ascii_nil, and_true]
    exact ⟨by decide, low⟩
  · rw [same]
    simp only [ascii_cons, ascii_nil, and_true]
    omega
  · rw [same]
    exact ascii_flatMap fun unit _ => unitEscape_ascii unit

theorem writeText_ascii (text : String) : Ascii (writeText units text) := by
  rw [writeText, List.cons_append, ascii_cons, ascii_append]
  exact ⟨by decide, ascii_flatMap fun c _ => escapeChar_ascii c, by decide⟩

/-! ### Whole numbers -/

/-- What may follow a number without becoming a part of it. -/
def Ends : List Char → Prop
  | [] => True
  | c :: _ => c.isDigit = false ∧ c ≠ '.' ∧ c ≠ 'e' ∧ c ≠ 'E'

private theorem isDigit_of_mem_toDigits {n : Nat} {c : Char} (member : c ∈ Nat.toDigits 10 n) :
    c.isDigit = true :=
  Nat.isDigit_of_mem_toDigits (by decide) (by decide) member

private theorem natOf_toDigits (n : Nat) : natOf (Nat.toDigits 10 n) = n := by
  have value := Nat.ofDigitChars_ten_toDigits (n := n)
  rw [Nat.ofDigitChars_eq_foldl] at value
  exact value

private theorem exists_digit (n : Nat) : ∃ digit rest, Nat.toDigits 10 n = digit :: rest :=
  List.exists_cons_of_ne_nil Nat.toDigits_ne_nil

private theorem toDigits_of_head_zero (n : Nat)
    (leading : (Nat.toDigits 10 n).head? = some '0') : Nat.toDigits 10 n = ['0'] := by
  induction n using Nat.strongRecOn with
  | ind n ih =>
      by_cases short : n < 10
      · rw [Nat.toDigits_of_lt_base short] at leading ⊢
        rw [List.head?_cons, Option.some.injEq] at leading
        rw [leading]
      · have long : 10 ≤ n := Nat.le_of_not_lt short
        obtain ⟨first, more, some_digit⟩ := exists_digit (n / 10)
        rw [Nat.toDigits_of_base_le (by decide) long, some_digit, List.cons_append,
          List.head?_cons] at leading
        have front := ih (n / 10) (Nat.div_lt_self (by omega) (by decide))
          (by rw [some_digit, List.head?_cons, leading])
        have nothing := natOf_toDigits (n / 10)
        rw [front] at nothing
        have zero : n / 10 = 0 := nothing.symm
        omega

private theorem takeWhile_of_ends {rest : List Char} (ends : Ends rest) :
    rest.takeWhile Char.isDigit = [] := by
  cases rest with
  | nil => rfl
  | cons c rest => rw [List.takeWhile_cons_of_neg (by rw [ends.1]; exact Bool.false_ne_true)]

private theorem readFraction_of_ends {rest : List Char} (ends : Ends rest) :
    readFraction rest = ([], rest) := by
  cases rest with
  | nil => rfl
  | cons c rest =>
      rw [readFraction]
      intro more point
      exact ends.2.1 (List.head_eq_of_cons_eq point)

private theorem readExponent_of_ends {rest : List Char} (ends : Ends rest) :
    readExponent rest = (none, rest) := by
  cases rest with
  | nil => rfl
  | cons c rest => rw [readExponent, if_neg fun letter => letter.elim ends.2.2.1 ends.2.2.2]

theorem readUnsigned_toDigits (negative : Bool) (n : Nat) {rest : List Char} (ends : Ends rest) :
    readUnsigned negative (Nat.toDigits 10 n ++ rest) =
      some (.int (if negative then -(n : Int) else n), rest) := by
  have digits : (Nat.toDigits 10 n ++ rest).takeWhile Char.isDigit = Nat.toDigits 10 n := by
    rw [List.takeWhile_append_of_pos fun _ => isDigit_of_mem_toDigits, takeWhile_of_ends ends,
      List.append_nil]
  have whole : (if (Nat.toDigits 10 n).head? = some '0' then ['0'] else Nat.toDigits 10 n) =
      Nat.toDigits 10 n := by
    split
    · rename_i leading
      exact (toDigits_of_head_zero n leading).symm
    · rfl
  have some_digit : (Nat.toDigits 10 n).isEmpty = false :=
    List.isEmpty_eq_false_iff.mpr Nat.toDigits_ne_nil
  simp only [readUnsigned, digits, whole, some_digit, List.drop_left, readFraction_of_ends ends,
    readExponent_of_ends ends, natOf_toDigits]
  rfl

theorem repr_cases (value : Int) :
    ∃ digit rest, digit.isDigit = true ∧
      (value.repr.toList = digit :: rest ∨ value.repr.toList = '-' :: digit :: rest) := by
  have front : ∀ n : Nat, ∃ digit rest, digit.isDigit = true ∧ n.repr.toList = digit :: rest := by
    intro n
    obtain ⟨digit, rest, some_digit⟩ := exists_digit n
    refine ⟨digit, rest, isDigit_of_mem_toDigits (n := n) ?_, ?_⟩
    · rw [some_digit]
      exact List.mem_cons_self
    · rw [Nat.toList_repr, some_digit]
  cases value with
  | ofNat n =>
      obtain ⟨digit, rest, isDigit, same⟩ := front n
      exact ⟨digit, rest, isDigit, Or.inl same⟩
  | negSucc n =>
      obtain ⟨digit, rest, isDigit, same⟩ := front (n + 1)
      refine ⟨digit, rest, isDigit, Or.inr ?_⟩
      rw [Int.repr, String.toList_append, Nat.succ_eq_add_one, same]
      rfl

theorem repr_ascii (value : Int) : Ascii value.repr.toList := by
  have digits : ∀ n : Nat, Ascii n.repr.toList := by
    intro n c member
    rw [Nat.toList_repr] at member
    have digit := isDigit_of_mem_toDigits member
    rw [Char.isDigit, Bool.and_eq_true, decide_eq_true_eq, decide_eq_true_eq] at digit
    exact Nat.lt_of_le_of_lt digit.2 (by decide)
  cases value with
  | ofNat n => exact digits n
  | negSucc n =>
      rw [Int.repr, String.toList_append, ascii_append]
      exact ⟨by decide, digits (n + 1)⟩

theorem readNumber_repr (value : Int) {rest : List Char} (ends : Ends rest) :
    readNumber (value.repr.toList ++ rest) = some (.int value, rest) := by
  cases value with
  | ofNat n =>
      rw [Int.repr, Nat.toList_repr, readNumber, readUnsigned_toDigits false n ends]
      · rfl
      · intro more minus
        obtain ⟨digit, rest', some_digit⟩ := exists_digit n
        have first : digit.isDigit = true :=
          isDigit_of_mem_toDigits (n := n) (some_digit ▸ List.mem_cons_self)
        rw [some_digit, List.cons_append] at minus
        rw [List.head_eq_of_cons_eq minus] at first
        exact absurd first (by decide)
  | negSucc n =>
      rw [Int.repr, String.toList_append, Nat.toList_repr]
      exact readUnsigned_toDigits true (n + 1) ends

end CommentOutline.Json
