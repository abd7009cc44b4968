import Mathlib.Data.List.Basic
import RecordCache.Json.Reader
import RecordCache.Json.Writer
import RecordCache.Text.Utf8

/-!
# Texts in a document

A text is read from a document as it was written into it, whatever its characters are. So documents that differ in
one text only are written differently.
-/

namespace RecordCache

namespace Text

/-! ### Digits -/

theorem hexDigits_one {n : Nat} (h : n < 16) : hexDigits 1 n = [Nat.digitChar n] := by
  rw [hexDigits, Nat.toDigits_of_lt_base h]
  rfl

theorem hexDigits_succ (width n : Nat) :
    hexDigits (width + 2) n = hexDigits (width + 1) (n / 16) ++ [Nat.digitChar (n % 16)] := by
  rcases Nat.lt_or_ge n 16 with h | h
  · rw [Nat.div_eq_of_lt h, Nat.mod_eq_of_lt h, hexDigits, hexDigits, Nat.toDigits_of_lt_base h]
    have hZeros : List.replicate (width + 1) '0' = List.replicate width '0' ++ ['0'] := List.replicate_succ'
    exact congrArg (· ++ [Nat.digitChar n]) hZeros
  · rw [hexDigits, hexDigits, Nat.toDigits_of_base_le (by decide) h, List.length_append, ← List.append_assoc]
    congr 3
    exact Nat.add_sub_add_right (width + 1) 1 (Nat.toDigits 16 (n / 16)).length

theorem hexDigits_four {n : Nat} (h : n < 0x10000) :
    hexDigits 4 n = [Nat.digitChar (n / 4096), Nat.digitChar (n / 256 % 16), Nat.digitChar (n / 16 % 16),
      Nat.digitChar (n % 16)] := by
  have hFirst : n / 16 / 16 / 16 = n / 4096 := by omega
  have hSecond : n / 16 / 16 = n / 256 := by omega
  rw [hexDigits_succ, hexDigits_succ, hexDigits_succ, hexDigits_one (by omega), hFirst, hSecond]
  rfl

end Text

namespace Json

open Text (hexDigits)

namespace Reader

theorem codeUnit?_hexDigits {n : Nat} (h : n < 0x10000) (rest : List Char) :
    codeUnit? (hexDigits 4 n ++ rest) = some (n, rest) := by
  have hDigits : 256 * (16 * (n / 4096) + n / 256 % 16) + 16 * (n / 16 % 16) + n % 16 = n := by omega
  rw [Text.hexDigits_four h]
  simp only [List.cons_append, List.nil_append, codeUnit?, Text.Hex.hexValue?_digitChar (show n / 4096 < 16 by omega),
    Text.Hex.hexValue?_digitChar (Nat.mod_lt _ (show 0 < 16 by decide))]
  exact congrArg (fun unit => some (unit, rest)) hDigits

theorem escapedPoint?_plane {c : Char} (h : c.toNat < 0x10000) (rest : List Char) :
    escapedPoint? (hexDigits 4 c.toNat ++ rest) = some (c, rest) := by
  have hValid : c.toNat < 0xd800 ∨ 0xdfff < c.toNat ∧ c.toNat < 0x110000 := c.valid
  have hHigh : (decide (0xd800 ≤ c.toNat) && decide (c.toNat < 0xdc00)) = false := by
    rw [Bool.and_eq_false_iff, decide_eq_false_iff_not, decide_eq_false_iff_not]
    omega
  have hLow : (decide (0xdc00 ≤ c.toNat) && decide (c.toNat < 0xe000)) = false := by
    rw [Bool.and_eq_false_iff, decide_eq_false_iff_not, decide_eq_false_iff_not]
    omega
  rw [escapedPoint?, codeUnit?_hexDigits h]
  simp only [Option.bind_eq_bind, Option.bind_some, hHigh, hLow, Bool.false_eq_true, if_false, Char.ofNat_toNat]

/-- Two units make a character beyond the first plane. -/
theorem escapedPoint?_beyond {c : Char} (h : 0x10000 ≤ c.toNat) (rest : List Char) :
    escapedPoint? (hexDigits 4 (0xd800 + (c.toNat - 0x10000) / 0x400) ++
      (unicodeEscape (0xdc00 + (c.toNat - 0x10000) % 0x400) ++ rest)) = some (c, rest) := by
  have hValid : c.toNat < 0xd800 ∨ 0xdfff < c.toNat ∧ c.toNat < 0x110000 := c.valid
  obtain ⟨offset, hOffset⟩ : ∃ offset, c.toNat = 0x10000 + offset := ⟨c.toNat - 0x10000, by omega⟩
  have hChar : Char.ofNat (0x10000 + (0xd800 + offset / 0x400 - 0xd800) * 0x400 +
      (0xdc00 + offset % 0x400 - 0xdc00)) = c := by
    rw [show 0x10000 + (0xd800 + offset / 0x400 - 0xd800) * 0x400 + (0xdc00 + offset % 0x400 - 0xdc00) = c.toNat by
      omega]
    exact Char.ofNat_toNat c
  have hHigh : (decide (0xd800 ≤ 0xd800 + offset / 0x400) && decide (0xd800 + offset / 0x400 < 0xdc00)) = true := by
    rw [Bool.and_eq_true, decide_eq_true_iff, decide_eq_true_iff]
    omega
  have hLow : lowSurrogate? (unicodeEscape (0xdc00 + offset % 0x400) ++ rest) =
      some (0xdc00 + offset % 0x400, rest) := by
    have hBounds : (decide (0xdc00 ≤ 0xdc00 + offset % 0x400) && decide (0xdc00 + offset % 0x400 < 0xe000)) = true := by
      rw [Bool.and_eq_true, decide_eq_true_iff, decide_eq_true_iff]
      omega
    rw [unicodeEscape, List.cons_append, List.cons_append, lowSurrogate?, codeUnit?_hexDigits (by omega)]
    simp only [Option.bind_eq_bind, Option.bind_some, hBounds, if_true]
  rw [hOffset, Nat.add_sub_cancel_left, escapedPoint?, codeUnit?_hexDigits (by omega)]
  simp only [Option.bind_eq_bind, Option.bind_some, hHigh, hLow, if_true, hChar]

theorem stringTail?_escapeChar (fuel : Nat) (seen : List Char) (c : Char) (rest : List Char) :
    stringTail? (fuel + 1) seen (escapeChar c ++ rest) = stringTail? fuel (c :: seen) rest := by
  unfold escapeChar
  split
  case h_8 =>
    dsimp only
    split
    · next hQuote hBackslash _ _ _ _ _ hPlain =>
      rw [Bool.and_eq_true, decide_eq_true_iff] at hPlain
      rw [List.singleton_append, stringTail?.eq_5]
      · rw [if_neg (Nat.not_lt.mpr hPlain.1)]
      · exact hQuote
      · exact fun _ hSame _ => hBackslash hSame
      · exact fun _ _ hSame _ => hBackslash hSame
    · split
      · next hPlane =>
        rw [unicodeEscape, List.cons_append, List.cons_append, stringTail?, escapedPoint?_plane hPlane]
      · rw [List.append_assoc, unicodeEscape, List.cons_append, List.cons_append, stringTail?,
          escapedPoint?_beyond (by omega)]
  all_goals rfl

theorem stringTail?_escaped (fuel : Nat) (seen cs rest : List Char) :
    stringTail? (fuel + cs.length + 1) seen (cs.flatMap escapeChar ++ '"' :: rest) =
      some (String.ofList (seen.reverse ++ cs), rest) := by
  induction cs generalizing seen with
  | nil => rw [List.append_nil]; rfl
  | cons c cs ih =>
    rw [List.flatMap_cons, List.append_assoc, List.length_cons, ← Nat.add_assoc, stringTail?_escapeChar, ih,
      List.reverse_cons, List.append_assoc]
    rfl

end Reader

theorem eq_of_writeString {s t : String} {rest rest' : List Char}
    (h : (writeString s).toList ++ rest = (writeString t).toList ++ rest') : s = t := by
  have hWritten (s : String) (rest : List Char) :
      (writeString s).toList ++ rest = '"' :: (s.toList.flatMap escapeChar ++ '"' :: rest) := by
    simp [writeString]
  rw [hWritten, hWritten, List.cons.injEq] at h
  have hs := Reader.stringTail?_escaped t.toList.length [] s.toList rest
  have ht := Reader.stringTail?_escaped s.toList.length [] t.toList rest'
  rw [h.2, Nat.add_comm t.toList.length, ht, Option.some.injEq, Prod.mk.injEq] at hs
  simpa using hs.1.symm

/-! ### Fields -/

theorem exists_join (separator piece : String) (before after : List String) :
    ∃ tail : List Char, (Text.join separator (before ++ piece :: after)).toList =
      (before.flatMap fun first => first.toList ++ separator.toList) ++ (piece.toList ++ tail) := by
  have hJoin (pieces : List String) :
      (Text.join separator pieces).toList = separator.toList.intercalate (pieces.map String.toList) :=
    String.toList_intercalate
  rw [hJoin]
  induction before with
  | nil =>
    cases after with
    | nil => exact ⟨[], by simp⟩
    | cons next more => exact ⟨_, by simp only [List.nil_append, List.map_cons, List.intercalate_cons_cons,
        List.append_assoc, List.flatMap_nil]; rfl⟩
  | cons first rest ih =>
    obtain ⟨tail, hRest⟩ := ih
    refine ⟨tail, ?_⟩
    rw [List.cons_append, List.map_cons, List.intercalate_cons_of_ne_nil (by simp), hRest, List.flatMap_cons,
      List.append_assoc, List.append_assoc, List.append_assoc]

theorem writeFields_eq (fields : Fields Json) :
    writeFields fields = fields.map fun e => writeString e.1 ++ ": " ++ e.2.write := by
  induction fields with
  | nil => rfl
  | cons e rest ih => rw [writeFields, ih, List.map_cons]

/-- Objects that differ in one text are written differently. -/
theorem eq_of_write_object {before after after' : Fields Json} {name s t : String}
    (h : (object (before ++ (name, .string s) :: after)).write =
      (object (before ++ (name, .string t) :: after')).write) : s = t := by
  have hField (s : String) (after : Fields Json) : ∃ rest : List Char,
      (object (before ++ (name, .string s) :: after)).write.toList =
        '\x7b' :: ((before.map fun e => writeString e.1 ++ ": " ++ e.2.write).flatMap
          fun first => first.toList ++ [',', ' ']) ++ ((writeString name).toList ++ [':', ' '] ++
            ((writeString s).toList ++ rest)) := by
    obtain ⟨tail, hJoin⟩ := exists_join ", " (writeString name ++ ": " ++ writeString s)
      (before.map fun e => writeString e.1 ++ ": " ++ e.2.write)
      (after.map fun e => writeString e.1 ++ ": " ++ e.2.write)
    refine ⟨tail ++ ['\x7d'], ?_⟩
    rw [write, writeFields_eq, List.map_append, List.map_cons, write, String.toList_append, String.toList_append, hJoin]
    simp
  obtain ⟨rest, hs⟩ := hField s after
  obtain ⟨rest', ht⟩ := hField t after'
  have hTexts := congrArg String.toList h
  rw [hs, ht, List.append_cancel_left_eq, List.append_cancel_left_eq] at hTexts
  exact eq_of_writeString hTexts

end Json

/-! ### Octets -/

namespace Text.Utf8

theorem toList_loop (bytes : ByteArray) (i : Nat) (read : List UInt8) :
    ByteArray.toList.loop bytes i read = read.reverse ++ bytes.data.toList.drop i := by
  fun_induction ByteArray.toList.loop bytes i read with
  | case1 i read h ih =>
    have hThere : i < bytes.data.toList.length := h
    have hNext : bytes.get! i = bytes.data.toList[i] := by
      rw [ByteArray.get!, getElem!_pos bytes.data i h, Array.getElem_toList]
    rw [ih, List.reverse_cons, List.append_assoc, List.singleton_append, List.drop_eq_getElem_cons hThere, hNext]
  | case2 i read h =>
    have hNone : bytes.data.toList.length ≤ i := Nat.le_of_not_lt h
    rw [List.drop_of_length_le hNone, List.append_nil]

theorem encode_inj {s t : String} (h : encode s = encode t) : s = t := by
  rw [encode, encode, ByteArray.toList, ByteArray.toList, toList_loop, toList_loop] at h
  exact String.toByteArray_inj.mp (ByteArray.ext (Array.toList_inj.mp h))

end Text.Utf8

end RecordCache
