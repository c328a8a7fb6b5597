import PyHanko.Format

/-!
# Per-object encryption keys

`_derive_key(base_key, idnum, generation)` appends to the base key the first three bytes of
`struct.pack('<i', idnum)` and the first two of `struct.pack('<i', generation)`, hashes the
result with MD5 and keeps `min(16, len(base_key) + 5)` bytes of the digest. MD5 is a parameter.

`struct.pack('<i', n)` is the four little-endian bytes of `n` in two's complement, so its first
`k` bytes are the `k` low bytes of `n mod 2 ^ (8 * k)`, for negative `n` as well: this is the
key layout of the standard, and `deriveKey_md5_prefix` states it.
-/

namespace PyHanko

set_option autoImplicit false

/-- `struct.pack('<i', n)`: the four little-endian bytes of `n` in two's complement, or
`struct.error` outside `[-2 ^ 31, 2 ^ 31)`. -/
def packLEi32 (n : Int) : Except PdfError (List UInt8) :=
  if -2 ^ 31 ≤ n ∧ n < 2 ^ 31 then .ok (bytesBE 4 (n % 2 ^ 32).toNat).reverse
  else .error .structError

/-- `_derive_key(base_key, idnum, generation)`, with MD5 as a parameter. -/
def deriveKey (md5 : List UInt8 → List UInt8) (baseKey : List UInt8) (idnum generation : Int) :
    Except PdfError (List UInt8) := do
  let pack1 := (← packLEi32 idnum).take 3
  let pack2 := (← packLEi32 generation).take 2
  return (md5 (baseKey ++ pack1 ++ pack2)).take (min 16 (baseKey.length + 5))

/-- The `k` low bytes of `n`, least significant first: the byte layout the standard's key
derivation asks for. -/
def littleEndianBytes : Nat → Nat → List UInt8
  | 0, _ => []
  | k + 1, n => UInt8.ofNat (n % 256) :: littleEndianBytes k (n / 256)

theorem reverse_bytesBE (k n : Nat) : (bytesBE k n).reverse = littleEndianBytes k n := by
  induction k generalizing n with
  | zero => rfl
  | succ k ih => simp [bytesBE, littleEndianBytes, ih]

theorem take_littleEndianBytes {j k : Nat} (hj : j ≤ k) (n : Nat) :
    (littleEndianBytes k n).take j = littleEndianBytes j n := by
  induction j generalizing k n with
  | zero => rfl
  | succ j ih =>
    obtain ⟨k, rfl⟩ : ∃ k', k = k' + 1 := ⟨k - 1, by omega⟩
    simp [littleEndianBytes, ih (Nat.le_of_succ_le_succ hj)]

theorem littleEndianBytes_mod (k n : Nat) :
    littleEndianBytes k (n % 256 ^ k) = littleEndianBytes k n := by
  induction k generalizing n with
  | zero => rfl
  | succ k ih =>
    have hlow : n % 256 ^ (k + 1) % 256 = n % 256 :=
      Nat.mod_mod_of_dvd n (Dvd.intro_left _ (pow_succ 256 k).symm)
    have hhigh : n % 256 ^ (k + 1) / 256 = n / 256 % 256 ^ k := by
      rw [pow_succ', Nat.mod_mul_right_div_self]
    simp only [littleEndianBytes, hlow, hhigh, ih]

theorem packLEi32_eq {n : Int} (h : -2 ^ 31 ≤ n ∧ n < 2 ^ 31) :
    packLEi32 n = .ok (littleEndianBytes 4 (n % 2 ^ 32).toNat) := by
  rw [packLEi32, if_pos h, reverse_bytesBE]

theorem toNat_emod_two_pow_mod {n : Int} {k : Nat} (hk : k ≤ 4) :
    (n % 2 ^ 32).toNat % 256 ^ k = (n % 2 ^ (8 * k)).toNat := by
  have hdvd : (2 : Int) ^ (8 * k) ∣ 2 ^ 32 := pow_dvd_pow 2 (by omega)
  have h256 : ((256 ^ k : Nat) : Int) = 2 ^ (8 * k) := by rw [pow_mul]; norm_num
  rw [← Int.ofNat_inj, Int.ofNat_emod, h256,
    Int.toNat_of_nonneg (Int.emod_nonneg _ (by positivity)),
    Int.toNat_of_nonneg (Int.emod_nonneg _ (by positivity)), Int.emod_emod_of_dvd n hdvd]

theorem take_packed {n : Int} {j : Nat} (hj : j ≤ 4) :
    (littleEndianBytes 4 (n % 2 ^ 32).toNat).take j =
      littleEndianBytes j (n % 2 ^ (8 * j)).toNat := by
  rw [take_littleEndianBytes hj, ← littleEndianBytes_mod, toNat_emod_two_pow_mod hj]

/-- For every base key and every `idnum` and `generation` that `struct.pack('<i')` accepts,
`_derive_key` returns the first `min(16, len(base_key) + 5)` bytes of the MD5 digest of the base
key, the three little-endian bytes of `idnum mod 2 ^ 24` and the two of
`generation mod 2 ^ 16`; with a 16-byte digest, that is exactly `min(16, len(base_key) + 5)`
bytes. -/
theorem deriveKey_md5_prefix (md5 : List UInt8 → List UInt8) (hmd5 : ∀ bs, (md5 bs).length = 16)
    (baseKey : List UInt8) (idnum generation : Int) (hid : -2 ^ 31 ≤ idnum ∧ idnum < 2 ^ 31)
    (hgen : -2 ^ 31 ≤ generation ∧ generation < 2 ^ 31) :
    ∃ key, deriveKey md5 baseKey idnum generation = .ok key ∧
      key = (md5 (baseKey ++ littleEndianBytes 3 (idnum % 2 ^ 24).toNat ++
        littleEndianBytes 2 (generation % 2 ^ 16).toNat)).take (min 16 (baseKey.length + 5)) ∧
      key.length = min 16 (baseKey.length + 5) := by
  refine ⟨_, ?_, rfl, ?_⟩
  · simp only [deriveKey, packLEi32_eq hid, packLEi32_eq hgen, bind, Except.bind, pure,
      Except.pure, take_packed (by omega : 3 ≤ 4), take_packed (by omega : 2 ≤ 4)]
  · rw [List.length_take, hmd5]
    omega

theorem deriveKey_md5_prefix_fiveByteKey :
    (∀ bs : List UInt8, ((fun _ => List.replicate 16 0) bs : List UInt8).length = 16) ∧
    (-2 ^ 31 ≤ (1 : Int) ∧ (1 : Int) < 2 ^ 31) ∧ (-2 ^ 31 ≤ (0 : Int) ∧ (0 : Int) < 2 ^ 31) ∧
    ∃ key, deriveKey (fun _ => List.replicate 16 0) [1, 2, 3, 4, 5] 1 0 = .ok key ∧
      key = (List.replicate 16 0).take (min 16 (([1, 2, 3, 4, 5] : List UInt8).length + 5)) ∧
      key.length = min 16 (([1, 2, 3, 4, 5] : List UInt8).length + 5) :=
  ⟨fun _ => List.length_replicate _ _, by decide, by decide,
    deriveKey_md5_prefix (fun _ => List.replicate 16 0) (fun _ => List.length_replicate _ _)
      [1, 2, 3, 4, 5] 1 0 (by decide) (by decide)⟩

end PyHanko
