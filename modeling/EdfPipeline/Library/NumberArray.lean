import Mathlib.Data.Nat.Digits.Defs

/-!
# Arrays of numbers as text

A list of natural numbers is written as a JSON array of decimal numerals. The
closing bracket is the last byte and occurs nowhere before it, so the text is
read back when it is complete and not before.
-/

set_option autoImplicit false

namespace NumberArray

def comma : UInt8 := 44

def openBracket : UInt8 := 91

def closeBracket : UInt8 := 93

def newline : UInt8 := 10

def digit (value : Nat) : UInt8 := UInt8.ofNat (48 + value)

def numeral (value : Nat) : List UInt8 :=
  if value = 0 then [digit 0] else ((Nat.digits 10 value).map digit).reverse

def number (bytes : List UInt8) : Nat :=
  Nat.ofDigits 10 (bytes.reverse.map fun byte => byte.toNat - 48)

def body (values : List Nat) : List UInt8 := [comma].intercalate (values.map numeral)

def write (values : List Nat) : List UInt8 := openBracket :: body values ++ [closeBracket]

def elements (inner : List UInt8) : List Nat := (inner.tail.splitOn comma).map number

/-- A newline after the array is left out. -/
def read (line : List UInt8) : Option (List Nat) :=
  match line.reverse with
  | [] => none
  | last :: rest =>
      if last = closeBracket then some (elements rest.reverse)
      else if last = newline ∧ rest.head? = some closeBracket then
        some (elements rest.tail.reverse)
      else none

example : write [7, 50123, 0] = [91, 55, 44, 53, 48, 49, 50, 51, 44, 48, 93] := by decide +kernel

/-! ## Numerals -/

theorem toNat_digit {value : Nat} (small : value < 10) : (digit value).toNat = 48 + value := by
  have fits : 48 + value < 256 := by omega
  simp [digit, Nat.mod_eq_of_lt fits]

theorem number_numeral (value : Nat) : number (numeral value) = value := by
  unfold numeral
  split
  · rename_i zero
    rw [zero]
    rfl
  · have digits : ((Nat.digits 10 value).map digit).map (fun byte => byte.toNat - 48) =
        Nat.digits 10 value := by
      rw [List.map_map]
      conv_rhs => rw [← List.map_id (Nat.digits 10 value)]
      refine List.map_congr_left ?_
      intro value' listed
      have small : value' < 10 := Nat.digits_lt_base (by norm_num) listed
      simp [toNat_digit small]
    rw [number, List.reverse_reverse, digits]
    exact Nat.ofDigits_digits 10 value

/-- A numeral consists of digits. -/
theorem numeral_digits (value : Nat) : ∀ byte ∈ numeral value, 48 ≤ byte.toNat ∧ byte.toNat < 58 := by
  have one (small : Nat) (below : small < 10) :
      48 ≤ (digit small).toNat ∧ (digit small).toNat < 58 := by
    rw [toNat_digit below]
    omega
  intro byte listed
  unfold numeral at listed
  split at listed
  · cases List.mem_singleton.mp listed
    exact one 0 (by norm_num)
  · obtain ⟨small, within, rfl⟩ := List.mem_map.mp (List.mem_reverse.mp listed)
    exact one small (Nat.digits_lt_base (by norm_num) within)

theorem comma_notMem (value : Nat) : comma ∉ numeral value := by
  intro listed
  have digits := numeral_digits value comma listed
  exact absurd digits.1 (by decide)

/-- Inside the brackets there are digits and commas only. -/
theorem body_bytes {values : List Nat} {byte : UInt8} (listed : byte ∈ body values) :
    byte.toNat < 58 ∧ byte ≠ newline := by
  induction values with
  | nil => cases listed
  | cons value rest ih =>
      have numeral_byte (here : byte ∈ numeral value) : byte.toNat < 58 ∧ byte ≠ newline := by
        have digits := numeral_digits value byte here
        refine ⟨digits.2, ?_⟩
        rintro rfl
        exact absurd digits.1 (by decide)
      cases rest with
      | nil => exact numeral_byte (by simpa [body] using listed)
      | cons next others =>
          have split : body (value :: next :: others) =
              numeral value ++ comma :: body (next :: others) := by
            simp [body, List.intercalate_cons_cons]
          rw [split] at listed
          rcases List.mem_append.mp listed with here | after
          · exact numeral_byte here
          · rcases List.mem_cons.mp after with same | later
            · subst same
              decide
            · exact ih later

/-! ## Arrays -/

theorem elements_body {values : List Nat} (nonempty : values ≠ []) :
    elements (openBracket :: body values) = values := by
  have apart : ∀ written ∈ values.map numeral, comma ∉ written := by
    intro written listed
    obtain ⟨value, _, rfl⟩ := List.mem_map.mp listed
    exact comma_notMem value
  have filled : values.map numeral ≠ [] := fun empty => nonempty (List.map_eq_nil_iff.mp empty)
  rw [elements, List.tail_cons, body, List.splitOn_intercalate comma apart filled, List.map_map]
  conv_rhs => rw [← List.map_id values]
  exact List.map_congr_left fun value _ => number_numeral value

theorem read_write {values : List Nat} (nonempty : values ≠ []) :
    read (write values) = some values := by
  have reversed : (write values).reverse = closeBracket :: (openBracket :: body values).reverse :=
    List.reverse_concat
  rw [read, reversed]
  dsimp only
  rw [if_pos rfl, List.reverse_reverse, elements_body nonempty]

theorem read_line {values : List Nat} (nonempty : values ≠ []) :
    read (write values ++ [newline]) = some values := by
  have reversed : (write values ++ [newline]).reverse =
      newline :: closeBracket :: (openBracket :: body values).reverse := by
    rw [List.reverse_concat]
    exact congrArg _ List.reverse_concat
  rw [read, reversed]
  dsimp only
  rw [if_neg (by decide), if_pos ⟨rfl, rfl⟩, List.tail_cons, List.reverse_reverse,
    elements_body nonempty]

theorem newline_notMem (values : List Nat) : newline ∉ write values := by
  intro listed
  rcases List.mem_append.mp listed with inner | last
  · rcases List.mem_cons.mp inner with first | within
    · exact absurd first (by decide)
    · exact (body_bytes within).2 rfl
  · exact absurd (List.mem_singleton.mp last) (by decide)

/-- A part of the text is no array. -/
theorem read_cut {values : List Nat} {part : List UInt8} (within : part <+: write values)
    (cut : part ≠ write values) : read part = none := by
  have inner : part <+: openBracket :: body values := by
    rcases List.prefix_concat_iff.mp within with whole | shorter
    · exact absurd whole cut
    · exact shorter
  rw [read]
  cases ends : part.reverse with
  | nil => rfl
  | cons last rest =>
      have listed : last ∈ openBracket :: body values := by
        refine inner.subset (List.mem_reverse.mp ?_)
        rw [ends]
        exact List.mem_cons_self
      have apart : last ≠ closeBracket ∧ last ≠ newline := by
        rcases List.mem_cons.mp listed with first | within'
        · subst first
          decide
        · refine ⟨?_, (body_bytes within').2⟩
          rintro rfl
          exact absurd (body_bytes within').1 (by decide)
      dsimp only
      rw [if_neg apart.1, if_neg fun ended => apart.2 ended.1]

end NumberArray
