import HttpDns.Text.Form

/-!
# Form encoding reads back

Reading undoes writing (`decode_encode`), and a text without plus and percent signs also reads as
itself when it stands unwritten (`decode_toList`). A written value holds none of the characters
that hold a URL together (`not_mem_encode`).
-/

namespace HttpDns.Text.Form

/-! ## Bytes -/

theorem hexValue_hexDigit : ∀ n < 16, hexValue (hexDigit n) = some n := by
  decide

theorem utf8EncodeChar_plain : ∀ n < 256, isPlain (UInt8.ofNat n) →
    Char.ofNat n ≠ '%' ∧ Char.ofNat n ≠ '+' ∧
      String.utf8EncodeChar (Char.ofNat n) = [UInt8.ofNat n] := by
  decide +kernel

/-- A character that is neither a plus nor a percent sign stands for itself. -/
theorem decodeBytes_cons {c : Char} (hplus : c ≠ '+') (hpercent : c ≠ '%') (rest : List Char) :
    decodeBytes (c :: rest) = String.utf8EncodeChar c ++ decodeBytes rest := by
  rw [decodeBytes, if_neg hplus]
  intro h l rest' hc
  exact absurd hc hpercent

theorem decodeBytes_plus (rest : List Char) :
    decodeBytes ('+' :: rest) = 0x20 :: decodeBytes rest := by
  rw [decodeBytes, if_pos rfl]
  · rfl
  · intro h l rest' hc
    cases hc

theorem decodeBytes_percent {high low : Nat} (hhigh : high < 16) (hlow : low < 16)
    (rest : List Char) :
    decodeBytes ('%' :: hexDigit high :: hexDigit low :: rest)
      = UInt8.ofNat (16 * high + low) :: decodeBytes rest := by
  rw [decodeBytes, hexValue_hexDigit high hhigh, hexValue_hexDigit low hlow]

theorem decodeBytes_encodeByte (b : UInt8) (rest : List Char) :
    decodeBytes (encodeByte b ++ rest) = b :: decodeBytes rest := by
  have hb : b.toNat < 256 := b.toNat_lt
  unfold encodeByte
  split
  · rename_i hplain
    obtain ⟨hpercent, hplus, hself⟩ :=
      utf8EncodeChar_plain b.toNat hb (by rwa [UInt8.ofNat_toNat])
    rw [List.singleton_append, decodeBytes_cons hplus hpercent, hself, UInt8.ofNat_toNat]
    rfl
  · split
    · rename_i hblank
      rw [List.singleton_append, decodeBytes_plus, hblank]
    · have hval : 16 * (b.toNat / 16) + b.toNat % 16 = b.toNat := Nat.div_add_mod b.toNat 16
      rw [List.cons_append, List.cons_append, List.singleton_append,
        decodeBytes_percent (by omega) (by omega), hval, UInt8.ofNat_toNat]

theorem decodeBytes_encodeBytes : ∀ bs : List UInt8, decodeBytes (encodeBytes bs) = bs
  | [] => rfl
  | b :: bs => by
    rw [encodeBytes, List.flatMap_cons, decodeBytes_encodeByte, ← encodeBytes,
      decodeBytes_encodeBytes bs]

/-! ## Texts -/

theorem fromUTF8?_utf8 (s : String) : String.fromUTF8? ⟨(utf8 s).toArray⟩ = some s :=
  dif_pos s.isValidUTF8

theorem decode_encode (s : String) : decode (encode s) = some s := by
  rw [decode, encode, decodeBytes_encodeBytes, fromUTF8?_utf8]

theorem decodeBytes_of_literal : ∀ {cs : List Char}, '+' ∉ cs → '%' ∉ cs →
    decodeBytes cs = cs.flatMap String.utf8EncodeChar
  | [], _, _ => rfl
  | c :: cs, hplus, hpercent => by
    rw [List.mem_cons, not_or] at hplus hpercent
    rw [decodeBytes_cons (Ne.symm hplus.1) (Ne.symm hpercent.1), List.flatMap_cons,
      decodeBytes_of_literal hplus.2 hpercent.2]

theorem utf8_ofList (cs : List Char) :
    utf8 (String.ofList cs) = cs.flatMap String.utf8EncodeChar := by
  rw [utf8, String.toByteArray_ofList, List.utf8Encode, List.data_toByteArray]

theorem utf8_eq_flatMap (s : String) : utf8 s = s.toList.flatMap String.utf8EncodeChar := by
  rw [← utf8_ofList, String.ofList_toList]

theorem decode_toList {s : String} (hplus : '+' ∉ s.toList) (hpercent : '%' ∉ s.toList) :
    decode s.toList = some s := by
  rw [decode, decodeBytes_of_literal hplus hpercent, ← utf8_eq_flatMap, fromUTF8?_utf8]

theorem encode_append (s t : String) : encode (s ++ t) = encode s ++ encode t := by
  simp only [encode, encodeBytes, utf8_eq_flatMap, String.toList_append, List.flatMap_append]

/-! ## Separators -/

/-- The characters that hold the parts of a URL apart. -/
def separators : List Char :=
  ['/', '?', '&', '=', ',']

theorem not_mem_of_all {cs value : List Char} (h : cs.all (!value.contains ·) = true) :
    ∀ c ∈ cs, c ∉ value := by
  simpa using h

theorem encodeByte_separators : ∀ n < 256,
    separators.all (!(encodeByte (UInt8.ofNat n)).contains ·) = true := by
  decide +kernel

theorem not_mem_encode {sep : Char} (hsep : sep ∈ separators) (s : String) : sep ∉ encode s := by
  intro hmem
  obtain ⟨b, -, hb⟩ := List.mem_flatMap.1 hmem
  have hbyte := encodeByte_separators b.toNat b.toNat_lt
  rw [UInt8.ofNat_toNat] at hbyte
  exact not_mem_of_all hbyte sep hsep hb

end HttpDns.Text.Form
