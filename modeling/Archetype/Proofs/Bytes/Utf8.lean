import Archetype.Bytes.Utf8
import Archetype.Proofs.Outcome

/-!
# UTF-8 that is read back

What was written as UTF-8 is read as it was. The first byte of a character tells how many follow and
narrows the range of the second one; a character lies in that range since it has no shorter spelling
and is no surrogate.
-/

namespace Archetype.Bytes.Utf8

theorem toNat_ofNat_of_lt {n : Nat} (hsmall : n < 256) : (UInt8.ofNat n).toNat = n := by
  rw [UInt8.toNat_ofNat']
  exact Nat.mod_eq_of_lt hsmall

section Continuation

variable {value seen more low high n : Nat} {rest : Bytes}

theorem complete_cons (hlow : low ≤ 0x80 + n % 64) (hhigh : 0x80 + n % 64 ≤ high) :
    complete value seen (more + 1) low high (.ofNat (0x80 + n % 64) :: rest) =
      complete (64 * value + n % 64) (seen + 1) more 0x80 0xBF rest := by
  rw [complete, toNat_ofNat_of_lt (by omega), Nat.add_sub_cancel_left]
  exact if_pos ⟨hlow, hhigh⟩

/-- Bytes after the second one may have any continuation value. -/
theorem complete_tail :
    complete value seen (more + 1) 0x80 0xBF (.ofNat (0x80 + n % 64) :: rest) =
      complete (64 * value + n % 64) (seen + 1) more 0x80 0xBF rest :=
  complete_cons (by omega) (by omega)

end Continuation

theorem lead?_two : ∀ k < 32, 2 ≤ k → lead? (0xC0 + k) = some ⟨k, 1, 0x80, 0xBF⟩ := by
  decide

/-- Without a shorter spelling and without surrogates the second of three bytes is in range. -/
theorem exists_lead?_three {n : Nat} (hlow : 0x800 ≤ n) (hhigh : n < 0x10000)
    (hvalid : n < 0xD800 ∨ 0xDFFF < n) :
    ∃ low high, lead? (0xE0 + n / 4096) = some ⟨n / 4096, 2, low, high⟩ ∧
      low ≤ 0x80 + n / 64 % 64 ∧ 0x80 + n / 64 % 64 ≤ high := by
  have hplain : ∀ k < 16, k ≠ 0 → k ≠ 13 → lead? (0xE0 + k) = some ⟨k, 2, 0x80, 0xBF⟩ := by
    decide
  by_cases hzero : n / 4096 = 0
  · rw [hzero]
    exact ⟨0xA0, 0xBF, rfl, by omega, by omega⟩
  by_cases hsurrogates : n / 4096 = 13
  · rw [hsurrogates]
    exact ⟨0x80, 0x9F, rfl, by omega, by omega⟩
  · exact ⟨0x80, 0xBF, hplain (n / 4096) (by omega) hzero hsurrogates, by omega, by omega⟩

theorem exists_lead?_four {n : Nat} (hlow : 0x10000 ≤ n) (hhigh : n < 0x110000) :
    ∃ low high, lead? (0xF0 + n / 262144) = some ⟨n / 262144, 3, low, high⟩ ∧
      low ≤ 0x80 + n / 4096 % 64 ∧ 0x80 + n / 4096 % 64 ≤ high := by
  have hplain : ∀ k < 4, k ≠ 0 → lead? (0xF0 + k) = some ⟨k, 3, 0x80, 0xBF⟩ := by
    decide
  by_cases hzero : n / 262144 = 0
  · rw [hzero]
    exact ⟨0x90, 0xBF, rfl, by omega, by omega⟩
  by_cases hlast : n / 262144 = 4
  · rw [hlast]
    exact ⟨0x80, 0x8F, rfl, by omega, by omega⟩
  · exact ⟨0x80, 0xBF, hplain (n / 262144) (by omega) hzero, by omega, by omega⟩

/-- The value of a character is put together again from what its first byte says and the bytes
behind it. -/
theorem front_of_complete {c : Char} {first more : Nat} {lead : Lead} {rest : Bytes}
    (hfirst : first < 256) (hlead : lead? first = some lead) (hmore : lead.more = more)
    (hvalue : complete lead.bits 1 lead.more lead.low lead.high rest = .ok c.toNat) :
    front (.ofNat first) rest = .ok (c, more) := by
  rw [front, toNat_ofNat_of_lt hfirst, hlead]
  dsimp only
  rw [hvalue, ← hmore]
  change Except.ok (Char.ofNat c.toNat, lead.more) = _
  rw [Char.ofNat_toNat]

/-- **A written character is read back**, whatever follows it. -/
theorem exists_front_of_encodeChar (c : Char) (rest : Bytes) :
    ∃ byte more, encodeChar c = byte :: more ∧ front byte (more ++ rest) = .ok (c, more.length) := by
  have hvalid : c.toNat < 0xD800 ∨ 0xDFFF < c.toNat ∧ c.toNat < 0x110000 := c.valid
  unfold encodeChar
  dsimp only
  by_cases hone : c.toNat < 0x80
  · rw [if_pos hone]
    exact ⟨_, _, rfl, front_of_complete (by omega) (if_pos hone) rfl rfl⟩
  rw [if_neg hone]
  by_cases htwo : c.toNat < 0x800
  · rw [if_pos htwo]
    have hlead := lead?_two (c.toNat / 64) (by omega) (by omega)
    refine ⟨_, _, rfl, front_of_complete (by omega) hlead rfl ?_⟩
    dsimp only [List.cons_append]
    rw [complete_tail, complete, Nat.div_add_mod]
  rw [if_neg htwo]
  by_cases hthree : c.toNat < 0x10000
  · rw [if_pos hthree]
    obtain ⟨low, high, hlead, hlow, hhigh⟩ :=
      exists_lead?_three (n := c.toNat) (by omega) (by omega) (by omega)
    refine ⟨_, _, rfl, front_of_complete (by omega) hlead rfl ?_⟩
    dsimp only [List.cons_append]
    rw [complete_cons hlow hhigh, complete_tail, complete]
    congr 1
    omega
  · rw [if_neg hthree]
    obtain ⟨low, high, hlead, hlow, hhigh⟩ :=
      exists_lead?_four (n := c.toNat) (by omega) (by omega)
    refine ⟨_, _, rfl, front_of_complete (by omega) hlead rfl ?_⟩
    dsimp only [List.cons_append]
    rw [complete_cons hlow hhigh, complete_tail, complete_tail, complete]
    congr 1
    omega

theorem decodeFrom_skip (passed rest : Bytes) : ∀ position,
    decodeFrom (passed ++ rest) position passed.length =
      decodeFrom rest (position + passed.length) 0 := by
  induction passed with
  | nil => exact fun _ => rfl
  | cons byte passed ih =>
      intro position
      rw [List.cons_append, List.length_cons, decodeFrom, ih, Nat.add_assoc, Nat.add_comm 1]

/-- **What is written as UTF-8 is read back as it was.** -/
theorem decodeFrom_encode (text : List Char) : ∀ position,
    decodeFrom (encode text) position 0 = .ok text := by
  induction text with
  | nil => exact fun _ => rfl
  | cons c rest ih =>
      intro position
      obtain ⟨byte, more, hbytes, hfront⟩ := exists_front_of_encodeChar c (encode rest)
      have hencode : encode (c :: rest) = byte :: (more ++ encode rest) := by
        rw [encode, List.flatMap_cons, hbytes]
        rfl
      rw [hencode, decodeFrom, hfront]
      dsimp only
      rw [decodeFrom_skip, ih]
      rfl

theorem decode_encode (text : List Char) : decode (encode text) = .ok text :=
  decodeFrom_encode text 0

end Archetype.Bytes.Utf8
