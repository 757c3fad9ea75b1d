import RecencyCache.Http.Percent
import RecencyCache.Proofs.Json.Spelling

/-!
# Percent-encoded segments

A text has many encodings as one segment of a path: each of its characters may stand for itself,
unless it is a percent sign or ends a segment, or be escaped byte by byte in UTF-8. Each encoding is
decoded to the text, whatever characters it has.
-/

namespace RecencyCache.Http

open Json (IsHexDigit hexDigit?)

/-- The text spells the bytes, each as a percent sign and two hexadecimal digits. -/
inductive EscapesBytes : List UInt8 → List Char → Prop where
  | nil : EscapesBytes [] []
  | cons {byte : UInt8} {high low : Char} {bytes : List UInt8} {text : List Char} :
      IsHexDigit (byte.toNat / 16) high → IsHexDigit (byte.toNat % 16) low →
      EscapesBytes bytes text → EscapesBytes (byte :: bytes) ('%' :: high :: low :: text)

/-- The text is an encoding of the characters as one segment. This takes in more than can arrive: a
character may also stand for itself if the target of a request cannot carry it unescaped, as blanks,
control characters and quotes. -/
inductive EncodesSegment : List Char → List Char → Prop where
  | nil : EncodesSegment [] []
  | plain {c : Char} {characters text : List Char} : c ∉ ['%', '/', '?', '#'] →
      EncodesSegment characters text → EncodesSegment (c :: characters) (c :: text)
  | escaped {c : Char} {characters escape text : List Char} :
      EscapesBytes (String.utf8EncodeChar c) escape → EncodesSegment characters text →
      EncodesSegment (c :: characters) (escape ++ text)

/-! ## Digits -/

/-- A hexadecimal digit is a single byte, which is no slash and has the value of the digit. -/
theorem utf8EncodeChar_of_isHexDigit {value : Nat} {c : Char} (digit : IsHexDigit value c) :
    c ≠ '/' ∧ ∃ byte, String.utf8EncodeChar c = [byte] ∧ hexByte? byte = some value := by
  have table : ∀ value < 16, ∀ upper : Bool,
      let c := if upper then value.digitChar.toUpper else value.digitChar
      c ≠ '/' ∧ String.utf8EncodeChar c = [UInt8.ofNat c.toNat] ∧
        hexByte? (UInt8.ofNat c.toNat) = some value := by decide
  obtain ⟨small, rfl | rfl⟩ := digit
  · obtain ⟨noSlash, single, decoded⟩ := table value small false
    exact ⟨noSlash, _, single, decoded⟩
  · obtain ⟨noSlash, single, decoded⟩ := table value small true
    exact ⟨noSlash, _, single, decoded⟩

/-- The bytes of a character that is no percent sign have none. -/
theorem percent_notMem_utf8EncodeChar {c : Char} (other : c ≠ '%') :
    0x25 ∉ String.utf8EncodeChar c := by
  fun_cases String.utf8EncodeChar c with
  | case1 value small =>
      intro member
      have same : 0x25 = UInt8.ofNat value := by simpa using member
      have number : value = 0x25 := by
        have bytes := congrArg UInt8.toNat same
        simp at bytes
        omega
      exact other (Char.ext (UInt32.toNat_inj.mp number))
  | case2 value | case3 value | case4 value =>
      simp [← UInt8.toNat_inj]
      omega

/-! ## Segments -/

theorem EscapesBytes.slash_notMem {bytes : List UInt8} {escape : List Char}
    (escapes : EscapesBytes bytes escape) : '/' ∉ escape := by
  induction escapes with
  | nil => exact List.not_mem_nil
  | cons isHigh isLow _ ih =>
      have highDiffers := (utf8EncodeChar_of_isHexDigit isHigh).1
      have lowDiffers := (utf8EncodeChar_of_isHexDigit isLow).1
      simp [ih, highDiffers.symm, lowDiffers.symm]

theorem EncodesSegment.slash_notMem {characters text : List Char}
    (encodes : EncodesSegment characters text) : '/' ∉ text := by
  induction encodes with
  | nil => exact List.not_mem_nil
  | @plain c _ _ listed _ ih =>
      have differs : '/' ≠ c := by
        rintro rfl
        exact listed (by decide)
      simp [ih, differs]
  | escaped escapes _ ih => simp [ih, escapes.slash_notMem]

theorem EncodesSegment.ne_nil {characters text : List Char}
    (encodes : EncodesSegment characters text) (filled : characters ≠ []) : text ≠ [] := by
  cases encodes with
  | nil => exact absurd rfl filled
  | plain => exact List.cons_ne_nil _ _
  | @escaped c _ _ _ escapes =>
      obtain ⟨byte, bytes, same⟩ := List.exists_cons_of_ne_nil (@String.utf8EncodeChar_ne_nil c)
      rw [same] at escapes
      cases escapes with
      | cons => simp

/-! ## Decoding -/

theorem byteArray_toList_loop (bytes : ByteArray) (start : Nat) (before : List UInt8) :
    ByteArray.toList.loop bytes start before = before.reverse ++ bytes.data.toList.drop start := by
  fun_induction ByteArray.toList.loop bytes start before with
  | case1 start before inside ih =>
      have within : start < bytes.data.toList.length := by simpa using inside
      rw [ih, List.drop_eq_getElem_cons within]
      simp [ByteArray.get!, inside]
  | case2 start before outside =>
      rw [List.drop_eq_nil_of_le (by simpa using outside)]
      simp

/-- The bytes of a text are those of its characters. -/
theorem toList_toUTF8 (text : String) :
    text.toUTF8.toList = text.toList.flatMap String.utf8EncodeChar := by
  rw [String.toUTF8_eq_toByteArray, ← String.utf8Encode_toList, List.utf8Encode, ByteArray.toList,
    byteArray_toList_loop, List.toList_data_toByteArray]
  rfl

/-- Bytes without a percent sign stand for themselves. -/
theorem percentDecoded_append {bytes : List UInt8} (plain : 0x25 ∉ bytes) (rest : List UInt8) :
    percentDecoded (bytes ++ rest) = bytes ++ percentDecoded rest := by
  induction bytes with
  | nil => rfl
  | cons byte others ih =>
      have different : byte ≠ 0x25 := fun same => plain (same ▸ .head _)
      rw [List.cons_append, percentDecoded, ih fun member => plain (.tail _ member),
        List.cons_append]
      intro _ _ _ same
      exact absurd same different

theorem percentDecoded_of_escapesBytes {bytes : List UInt8} {escape : List Char}
    (escapes : EscapesBytes bytes escape) (rest : List UInt8) :
    percentDecoded (escape.flatMap String.utf8EncodeChar ++ rest) =
      bytes ++ percentDecoded rest := by
  induction escapes with
  | nil => rfl
  | @cons byte high low bytes text isHigh isLow others ih =>
      obtain ⟨-, highByte, highBytes, highValue⟩ := utf8EncodeChar_of_isHexDigit isHigh
      obtain ⟨-, lowByte, lowBytes, lowValue⟩ := utf8EncodeChar_of_isHexDigit isLow
      have percent : String.utf8EncodeChar '%' = [0x25] := by decide
      have whole : UInt8.ofNat (16 * (byte.toNat / 16) + byte.toNat % 16) = byte := by
        rw [Nat.div_add_mod, UInt8.ofNat_toNat]
      simp only [List.flatMap_cons, percent, highBytes, lowBytes, List.cons_append, List.nil_append,
        percentDecoded, highValue, lowValue, whole, ih]

theorem percentDecoded_of_encodes {characters text : List Char}
    (encodes : EncodesSegment characters text) :
    percentDecoded (text.flatMap String.utf8EncodeChar) =
      characters.flatMap String.utf8EncodeChar := by
  induction encodes with
  | nil => rfl
  | @plain c _ _ unlisted _ ih =>
      have different : c ≠ '%' := fun same => unlisted (same ▸ .head _)
      have unescaped := percent_notMem_utf8EncodeChar different
      rw [List.flatMap_cons, percentDecoded_append unescaped, ih, List.flatMap_cons]
  | escaped escapes _ ih =>
      rw [List.flatMap_append, percentDecoded_of_escapesBytes escapes, ih, List.flatMap_cons]

/-- An encoding of a text is decoded to the text. -/
theorem decodeSegment?_of_encodes {text segment : String}
    (encodes : EncodesSegment text.toList segment.toList) : decodeSegment? segment = some text := by
  have whole : (⟨(text.toList.flatMap String.utf8EncodeChar).toArray⟩ : ByteArray) =
      text.toByteArray := by
    rw [← String.utf8Encode_toList, List.utf8Encode, ← List.data_toByteArray]
  rw [decodeSegment?, toList_toUTF8, percentDecoded_of_encodes encodes, whole, String.fromUTF8?,
    dif_pos text.isValidUTF8]
  rfl

end RecencyCache.Http
