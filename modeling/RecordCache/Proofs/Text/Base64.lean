import RecordCache.Text.Base64

/-!
# Base64 reads back

Written octets are read back as they were.
-/

namespace RecordCache.Text.Base64

theorem digitValue?_digit : ∀ n < 64, digitValue? (digit n) = some n ∧ digit n ≠ '=' := by decide

theorem decodeChars_digit {quad : List Nat} {n : Nat} (hn : n < 64) (hQuad : quad.length ≠ 3) (pads : Nat)
    (rest : List Char) : decodeChars quad pads (digit n :: rest) = decodeChars (quad ++ [n]) 0 rest := by
  obtain ⟨hValue, hPad⟩ := digitValue?_digit n hn
  rw [decodeChars, if_neg hPad]
  simp [hValue, hQuad]

theorem decodeChars_last {quad : List Nat} {n : Nat} (hn : n < 64) (hQuad : quad.length = 3) (pads : Nat)
    (rest : List Char) :
    decodeChars quad pads (digit n :: rest) = (decodeChars [] 0 rest).map (octets (quad ++ [n]) ++ ·) := by
  obtain ⟨hValue, hPad⟩ := digitValue?_digit n hn
  rw [decodeChars, if_neg hPad]
  simp [hValue, hQuad]

theorem ofNat_toNat_of_eq {n : Nat} {a : UInt8} (h : n = a.toNat) : UInt8.ofNat n = a := by
  rw [h, UInt8.ofNat_toNat]

theorem octets_one (a : UInt8) : octets [a.toNat / 4, a.toNat % 4 * 16] = [a] := by
  rw [octets, ofNat_toNat_of_eq]
  omega

theorem octets_two (a b : UInt8) :
    octets [a.toNat / 4, a.toNat % 4 * 16 + b.toNat / 16, b.toNat % 16 * 4] = [a, b] := by
  have hb := b.toNat_lt
  rw [octets, ofNat_toNat_of_eq (a := a) (by omega), ofNat_toNat_of_eq (a := b) (by omega)]

theorem octets_three (a b c : UInt8) :
    octets [a.toNat / 4, a.toNat % 4 * 16 + b.toNat / 16, b.toNat % 16 * 4 + c.toNat / 64, c.toNat % 64] =
      [a, b, c] := by
  have hb := b.toNat_lt
  have hc := c.toNat_lt
  rw [octets, ofNat_toNat_of_eq (a := a) (by omega), ofNat_toNat_of_eq (a := b) (by omega),
    ofNat_toNat_of_eq (a := c) (by omega)]

theorem decodeChars_encodeChars (bytes : List UInt8) :
    decodeChars [] 0 (encodeChars bytes) = some bytes := by
  fun_induction encodeChars bytes with
  | case1 => rfl
  | case2 a =>
    have ha := a.toNat_lt
    rw [decodeChars_digit (by omega) (by simp), decodeChars_digit (by omega) (by simp)]
    simp [decodeChars, octets_one]
  | case3 a b =>
    have ha := a.toNat_lt
    have hb := b.toNat_lt
    rw [decodeChars_digit (by omega) (by simp), decodeChars_digit (by omega) (by simp),
      decodeChars_digit (by omega) (by simp)]
    simp [decodeChars, octets_two]
  | case4 a b c rest ih =>
    have ha := a.toNat_lt
    have hb := b.toNat_lt
    have hc := c.toNat_lt
    rw [decodeChars_digit (by omega) (by simp), decodeChars_digit (by omega) (by simp),
      decodeChars_digit (by omega) (by simp), decodeChars_last (by omega) (by simp), ih]
    simp [octets_three]

theorem decode?_encode (bytes : List UInt8) : decode? (encode bytes) = some bytes := by
  rw [decode?, encode, String.toList_ofList, decodeChars_encodeChars]

theorem digit_toNat_lt : ∀ n < 64, (digit n).toNat < 0x80 := by decide

theorem toNat_lt_of_mem_encodeChars {bytes : List UInt8} {c : Char} (h : c ∈ encodeChars bytes) :
    c.toNat < 0x80 := by
  fun_induction encodeChars bytes with
  | case1 => cases h
  | case2 a =>
    have ha := a.toNat_lt
    simp only [List.mem_cons, List.not_mem_nil, or_false] at h
    rcases h with rfl | rfl | rfl | rfl
    · exact digit_toNat_lt _ (by omega)
    · exact digit_toNat_lt _ (by omega)
    · decide
    · decide
  | case3 a b =>
    have ha := a.toNat_lt
    have hb := b.toNat_lt
    simp only [List.mem_cons, List.not_mem_nil, or_false] at h
    rcases h with rfl | rfl | rfl | rfl
    · exact digit_toNat_lt _ (by omega)
    · exact digit_toNat_lt _ (by omega)
    · exact digit_toNat_lt _ (by omega)
    · decide
  | case4 a b c rest ih =>
    have ha := a.toNat_lt
    have hb := b.toNat_lt
    have hc := c.toNat_lt
    simp only [List.mem_cons] at h
    rcases h with rfl | rfl | rfl | rfl | h
    · exact digit_toNat_lt _ (by omega)
    · exact digit_toNat_lt _ (by omega)
    · exact digit_toNat_lt _ (by omega)
    · exact digit_toNat_lt _ (by omega)
    · exact ih h

end RecordCache.Text.Base64
