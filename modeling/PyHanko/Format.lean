import Mathlib.Data.Nat.Digits
import Mathlib.Tactic.IntervalCases
import PyHanko.Generic

/-!
# Bytes on the output stream

The writer's output is a byte list. Text goes through `str.encode('ascii')`; numbers are
printed by `'%d'` and `'%0<w>d'`, or packed by `struct.pack('>Q')` and `struct.pack('>H')`.
This module gives those encodings and the readers a PDF consumer applies to them, with the
round-trip facts the cross-reference proofs use.
-/

namespace PyHanko

set_option autoImplicit false

/-- `s.encode('ascii')`. -/
def ascii (s : String) : List UInt8 := s.toList.map fun c => UInt8.ofNat c.toNat

/-- `'%d' % n` for `n ≥ 0`: the decimal digits, as `toString` prints them. -/
def decimal (n : Nat) : String := toString n

/-- `'%0<w>d' % n` for `n ≥ 0`: the digits padded on the left with zeros to width `w`; a longer
number is printed whole. -/
def zeroPadded (w n : Nat) : String :=
  ⟨List.replicate (w - (decimal n).length) '0'⟩ ++ decimal n

@[simp] theorem ascii_append (s t : String) : ascii (s ++ t) = ascii s ++ ascii t :=
  List.map_append _ _ _

@[simp] theorem length_ascii (s : String) : (ascii s).length = s.length :=
  List.length_map _ _

/-! ### Reading digits -/

/-- An ASCII decimal digit. -/
def isDigit (b : UInt8) : Bool := decide (48 ≤ b.toNat ∧ b.toNat ≤ 57)

/-- The number a run of digits spells, most significant first. -/
def digitsValue (bs : List UInt8) : Nat := bs.foldl (fun acc b => 10 * acc + (b.toNat - 48)) 0

/-- Read a maximal non-empty run of digits. -/
def readNat (bs : List UInt8) : Option (Nat × List UInt8) :=
  match bs.takeWhile isDigit with
  | [] => none
  | ds => some (digitsValue ds, bs.drop ds.length)

/-- Read exactly `w` digits. -/
def readDigits (w : Nat) (bs : List UInt8) : Option (Nat × List UInt8) :=
  if (bs.take w).length = w ∧ (bs.take w).all isDigit then
    some (digitsValue (bs.take w), bs.drop w)
  else none

/-- Consume the bytes `lit`. -/
def expect (lit bs : List UInt8) : Option (List UInt8) :=
  if lit.isPrefixOf bs then some (bs.drop lit.length) else none

theorem expect_append (lit rest : List UInt8) : expect lit (lit ++ rest) = some rest := by
  simp [expect, List.isPrefixOf_iff_prefix]

theorem digitsValue_append (l₁ l₂ : List UInt8) :
    digitsValue (l₁ ++ l₂) = digitsValue l₁ * 10 ^ l₂.length + digitsValue l₂ := by
  unfold digitsValue
  induction l₂ using List.reverseRecOn with
  | nil => simp
  | append_singleton l b ih =>
    rw [← List.append_assoc, List.foldl_append, ih, List.foldl_append]
    simp [pow_succ]; ring

theorem digitsValue_zeros (k : Nat) (l : List UInt8) :
    digitsValue (List.replicate k (UInt8.ofNat 48) ++ l) = digitsValue l := by
  have : digitsValue (List.replicate k (UInt8.ofNat 48)) = 0 := by
    unfold digitsValue
    induction k with
    | zero => rfl
    | succ k ih => rw [List.replicate_succ', List.foldl_append, ih]; rfl
  rw [digitsValue_append, this, Nat.zero_mul, Nat.zero_add]

private theorem digitChar_toNat (d : Nat) (h : d < 10) : (Nat.digitChar d).toNat = 48 + d := by
  interval_cases d <;> rfl

/-- The core of `toString` on `Nat`: it prepends the digits of `n` to `acc`. -/
private theorem toDigitsCore_spec (fuel n : Nat) (acc : List Char) (h : n < fuel) :
    ∃ ds : List Char, Nat.toDigitsCore 10 fuel n acc = ds ++ acc ∧ ds ≠ [] ∧
      (∀ c ∈ ds, isDigit (UInt8.ofNat c.toNat)) ∧
      digitsValue (ds.map fun c => UInt8.ofNat c.toNat) = n := by
  induction fuel generalizing n acc with
  | zero => omega
  | succ fuel ih =>
    have hd : (Nat.digitChar (n % 10)).toNat = 48 + n % 10 :=
      digitChar_toNat _ (Nat.mod_lt _ (by norm_num))
    have hbyte : (UInt8.ofNat (Nat.digitChar (n % 10)).toNat).toNat = 48 + n % 10 := by
      have : n % 10 < 10 := Nat.mod_lt _ (by norm_num)
      rw [hd]; exact UInt8.toNat_ofNat_of_lt (show 48 + n % 10 < 256 by omega)
    have hdig : isDigit (UInt8.ofNat (Nat.digitChar (n % 10)).toNat) := by
      simp only [isDigit, hbyte, decide_eq_true_eq]; omega
    have hone : digitsValue [UInt8.ofNat (Nat.digitChar (n % 10)).toNat] = n % 10 := by
      simp [digitsValue, hbyte]
    simp only [Nat.toDigitsCore]
    split
    · rename_i h0
      refine ⟨[Nat.digitChar (n % 10)], rfl, by simp, by simpa using hdig, ?_⟩
      rw [List.map_singleton, hone]; omega
    · obtain ⟨ds, hds, hne, hall, hval⟩ := ih (n / 10) (Nat.digitChar (n % 10) :: acc) (by omega)
      refine ⟨ds ++ [Nat.digitChar (n % 10)], by simp [hds], by simp, ?_, ?_⟩
      · intro c hc
        rcases List.mem_append.mp hc with hc | hc
        · exact hall c hc
        · simp only [List.mem_singleton] at hc; subst hc; exact hdig
      · rw [List.map_append, digitsValue_append, hval, List.map_singleton, hone,
          List.length_singleton, pow_one]
        omega

private theorem decimal_spec (n : Nat) :
    ascii (decimal n) ≠ [] ∧ (∀ b ∈ ascii (decimal n), isDigit b) ∧
      digitsValue (ascii (decimal n)) = n := by
  obtain ⟨ds, hds, hne, hall, hval⟩ := toDigitsCore_spec (n + 1) n [] (by omega)
  have hdec : ascii (decimal n) = ds.map fun c => UInt8.ofNat c.toNat := by
    simp only [ascii, decimal, toString, Nat.repr, Nat.toDigits, hds, List.append_nil,
      List.asString, String.toList]
  rw [hdec]
  refine ⟨by simpa using hne, ?_, hval⟩
  intro b hb
  obtain ⟨c, hc, rfl⟩ := List.mem_map.mp hb
  exact hall c hc

theorem ascii_decimal_ne_nil (n : Nat) : ascii (decimal n) ≠ [] := (decimal_spec n).1

theorem isDigit_of_mem_decimal {n : Nat} {b : UInt8} (h : b ∈ ascii (decimal n)) :
    isDigit b := (decimal_spec n).2.1 b h

@[simp] theorem digitsValue_decimal (n : Nat) : digitsValue (ascii (decimal n)) = n :=
  (decimal_spec n).2.2

theorem length_decimal_le {n w : Nat} (h : n < 10 ^ w) (hw : 0 < w) : (decimal n).length ≤ w := by
  have := Nat.toDigitsCore_length 10 (by norm_num) (n + 1) n w h hw
  simpa [decimal, toString, Nat.repr, Nat.toDigits, String.length, List.asString] using this

theorem readNat_decimal (n : Nat) (rest : List UInt8)
    (hrest : ∀ b ∈ rest.head?, isDigit b = false) :
    readNat (ascii (decimal n) ++ rest) = some (n, rest) := by
  have htake : (ascii (decimal n) ++ rest).takeWhile isDigit = ascii (decimal n) := by
    rw [List.takeWhile_append_of_pos (fun b hb => isDigit_of_mem_decimal hb)]
    cases rest with
    | nil => simp
    | cons b rest => simp [List.takeWhile_cons, hrest b rfl]
  unfold readNat
  rw [htake]
  split
  · exact absurd ‹_› (ascii_decimal_ne_nil n)
  · simp

theorem length_ascii_zeroPadded {w n : Nat} (h : n < 10 ^ w) (hw : 0 < w) :
    (ascii (zeroPadded w n)).length = w := by
  have := length_decimal_le h hw
  rw [length_ascii, zeroPadded, String.length_append]
  show (List.replicate _ '0').length + _ = w
  rw [List.length_replicate]
  omega

theorem readDigits_zeroPadded {w n : Nat} (h : n < 10 ^ w) (hw : 0 < w) (rest : List UInt8) :
    readDigits w (ascii (zeroPadded w n) ++ rest) = some (n, rest) := by
  have hlen := length_ascii_zeroPadded h hw
  have hsplit : ascii (zeroPadded w n) =
      List.replicate (w - (decimal n).length) (UInt8.ofNat 48) ++ ascii (decimal n) := by
    simp [zeroPadded, ascii, String.toList, String.append]
  unfold readDigits
  rw [List.take_left' hlen, List.drop_left' hlen, if_pos]
  · rw [hsplit, digitsValue_zeros, digitsValue_decimal]
  · refine ⟨hlen, ?_⟩
    rw [List.all_eq_true, hsplit]
    intro b hb
    rcases List.mem_append.mp hb with hb | hb
    · rw [List.eq_of_mem_replicate hb]; decide
    · exact isDigit_of_mem_decimal hb

/-! ### `struct.pack` big-endian fields -/

/-- The `w` big-endian bytes of `n`, taken modulo `256 ^ w`. -/
def bytesBE : Nat → Nat → List UInt8
  | 0, _ => []
  | w + 1, n => bytesBE w (n / 256) ++ [UInt8.ofNat (n % 256)]

/-- `struct.pack('>Q', n)` (`w = 8`) and `struct.pack('>H', n)` (`w = 2`) for `n ≥ 0`. -/
def packBE (w n : Nat) : Except PdfError (List UInt8) :=
  if n < 256 ^ w then .ok (bytesBE w n) else .error .structError

/-- The number a big-endian field spells. -/
def valueBE (bs : List UInt8) : Nat := bs.foldl (fun acc b => 256 * acc + b.toNat) 0

@[simp] theorem length_bytesBE (w n : Nat) : (bytesBE w n).length = w := by
  induction w generalizing n with
  | zero => rfl
  | succ w ih => simp [bytesBE, ih]

theorem valueBE_bytesBE (w n : Nat) : valueBE (bytesBE w n) = n % 256 ^ w := by
  induction w generalizing n with
  | zero => simp [bytesBE, valueBE, Nat.mod_one]
  | succ w ih =>
    have hb : (UInt8.ofNat (n % 256)).toNat = n % 256 :=
      UInt8.toNat_ofNat_of_lt (show n % 256 < 256 from Nat.mod_lt _ (by norm_num))
    unfold valueBE at ih ⊢
    rw [bytesBE, List.foldl_append, ih]
    simp only [List.foldl_cons, List.foldl_nil, hb, pow_succ]
    rw [Nat.mul_comm (256 ^ w), Nat.mod_mul]
    omega

end PyHanko
