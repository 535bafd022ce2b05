import HttpDns.Proofs.Reading

/-!
# What a signature is the signature of

The text that is hashed holds a subject, the secret and a second, and each of them may hold hyphens
or digits. Read from its right end it is unambiguous all the same, because a second is written
without a hyphen: under one secret the hashed bytes tell both the subject and the second, and the
signature tells the digest of these bytes. The subject of a schedule request tells the account and
the nonce for the same reason (`messages_unambiguous`).
-/

namespace HttpDns

/-! ## The last hyphen -/

theorem eq_nil_of_last {α : Type} {sep : α} {between last last' : List α} (hlast : sep ∉ last)
    (h : sep :: last = between ++ sep :: last') : between = [] := by
  cases between with
  | nil => rfl
  | cons c between =>
    rw [List.cons_append, List.cons.injEq] at h
    exact absurd (h.2 ▸ List.mem_append_right between List.mem_cons_self) hlast

/-- Two texts that are cut at their last separator agree on both sides of it. -/
theorem append_cons_inj_of_last {α : Type} {sep : α} {front front' last last' : List α}
    (hlast : sep ∉ last) (hlast' : sep ∉ last')
    (h : front ++ sep :: last = front' ++ sep :: last') : front = front' ∧ last = last' := by
  -- what one of the fronts has more than the other would hold a separator behind the cut
  rcases List.append_eq_append_iff.1 h with ⟨between, hfront, hback⟩ | ⟨between, hfront, hback⟩
  · obtain rfl := eq_nil_of_last hlast hback
    exact ⟨by simpa using hfront.symm, by simpa using hback⟩
  · obtain rfl := eq_nil_of_last hlast' hback
    exact ⟨by simpa using hfront, by simpa using hback.symm⟩

theorem append_hyphen_inj {s s' last last' : String} (hlast : '-' ∉ last.toList)
    (hlast' : '-' ∉ last'.toList) :
    s ++ "-" ++ last = s' ++ "-" ++ last' ↔ s = s' ∧ last = last' := by
  constructor
  · intro h
    have hchars := congrArg String.toList h
    simp only [String.toList_append, List.append_assoc] at hchars
    obtain ⟨hfront, hback⟩ := append_cons_inj_of_last hlast hlast' hchars
    exact ⟨String.toList_inj.1 hfront, String.toList_inj.1 hback⟩
  · rintro ⟨rfl, rfl⟩
    rfl

theorem hyphen_not_mem_toString (n : Nat) : '-' ∉ (toString n).toList := by
  intro hmem
  have hdigit := Url.toList_toString_digits n '-' hmem
  simp at hdigit

theorem toString_nat_inj {m n : Nat} : toString m = toString n ↔ m = n := by
  refine ⟨fun h => ?_, fun h => h ▸ rfl⟩
  have hdigits : Nat.toDigits 10 m = Nat.toDigits 10 n := by
    simpa [Nat.toString_eq_repr, Nat.toList_repr] using congrArg String.toList h
  rw [← Nat.ofDigitChars_ten_toDigits (n := m), hdigits, Nat.ofDigitChars_ten_toDigits]

/-! ## Hexadecimal digits -/

namespace Digest.Sha256

/-- A digit that stands in a digest, in its lower case. -/
def IsHexDigit (c : Char) : Prop :=
  '0' ≤ c ∧ c ≤ '9' ∨ 'a' ≤ c ∧ c ≤ 'f'

instance (c : Char) : Decidable (IsHexDigit c) :=
  inferInstanceAs (Decidable (_ ∨ _))

def digitValue (c : Char) : Nat :=
  if c ≤ '9' then c.toNat - '0'.toNat else c.toNat - 'a'.toNat + 10

/-- The bytes that are written in lower-case digits. -/
def unhex : List Char → Option (List UInt8)
  | [] => some []
  | [_] => none
  | high :: low :: rest =>
    if IsHexDigit high ∧ IsHexDigit low then
      (unhex rest).map (UInt8.ofNat (16 * digitValue high + digitValue low) :: ·)
    else none

theorem hexDigit_reads : ∀ n < 16, IsHexDigit (hexDigit n) ∧ digitValue (hexDigit n) = n := by
  decide

theorem unhex_hex : ∀ bytes : List UInt8, unhex (hex bytes) = some bytes
  | [] => rfl
  | b :: bytes => by
    have hb : b.toNat < 256 := b.toNat_lt
    obtain ⟨hhigh, hvalue⟩ := hexDigit_reads (b.toNat / 16) (by omega)
    obtain ⟨hlow, hvalue'⟩ := hexDigit_reads (b.toNat % 16) (by omega)
    have hbyte : UInt8.ofNat (16 * (b.toNat / 16) + b.toNat % 16) = b := by
      rw [Nat.div_add_mod, UInt8.ofNat_toNat]
    have hrest := unhex_hex bytes
    rw [hex] at hrest
    rw [hex, List.flatMap_cons, List.cons_append, List.cons_append, List.nil_append, unhex,
      if_pos ⟨hhigh, hlow⟩, hrest, hvalue, hvalue', Option.map_some, hbyte]

theorem isHexDigit_of_mem_hex {bytes : List UInt8} {c : Char} (h : c ∈ hex bytes) :
    IsHexDigit c := by
  obtain ⟨b, -, hc⟩ := List.mem_flatMap.1 h
  have hb : b.toNat < 256 := b.toNat_lt
  rcases List.mem_pair.1 hc with rfl | rfl
  · exact (hexDigit_reads _ (by omega)).1
  · exact (hexDigit_reads _ (by omega)).1

end Digest.Sha256

/-! ## Signatures -/

namespace Signature

open Digest.Sha256

theorem message_inj_iff {subject subject' secret : String} {timestamp timestamp' : Nat} :
    message subject secret timestamp = message subject' secret timestamp'
      ↔ subject = subject' ∧ timestamp = timestamp' := by
  unfold message
  rw [append_hyphen_inj (hyphen_not_mem_toString _) (hyphen_not_mem_toString _), toString_nat_inj]
  refine and_congr_left' ⟨fun h => ?_, fun h => h ▸ rfl⟩
  have hchars := congrArg String.toList h
  simp only [String.toList_append, List.append_cancel_right_eq] at hchars
  exact String.toList_inj.1 hchars

/-- The bytes that are hashed. -/
def hashed (subject secret : String) (validityMs now : Nat) : List UInt8 :=
  Text.Form.utf8 (message subject secret (expiry validityMs now))

theorem hashed_inj_iff {subject subject' secret : String} {validityMs validityMs' now now' : Nat} :
    hashed subject secret validityMs now = hashed subject' secret validityMs' now'
      ↔ subject = subject' ∧ expiry validityMs now = expiry validityMs' now' := by
  refine Iff.trans ⟨fun h => ?_, fun h => congrArg Text.Form.utf8 h⟩ message_inj_iff
  have hread := Text.Form.fromUTF8?_utf8 (message subject secret (expiry validityMs now))
  rw [hashed, hashed] at h
  rw [h, Text.Form.fromUTF8?_utf8] at hread
  exact (Option.some.inj hread).symm

theorem toList_sign_text (subject secret : String) (validityMs now : Nat) :
    (sign subject secret validityMs now).text.toList
      = hex (digest (hashed subject secret validityMs now)) :=
  String.toList_ofList

/-- The text of a signature is its digest in sixty-four lower-case digits. -/
theorem sign_text_reads (subject secret : String) (validityMs now : Nat) :
    let text := (sign subject secret validityMs now).text.toList
    text.length = 64 ∧ (∀ c ∈ text, IsHexDigit c)
      ∧ unhex text = some (digest (hashed subject secret validityMs now)) := by
  intro text
  have htext : text = hex (digest (hashed subject secret validityMs now)) :=
    toList_sign_text subject secret validityMs now
  rw [htext]
  refine ⟨?_, fun c hc => isHexDigit_of_mem_hex hc, unhex_hex _⟩
  rw [length_hex, length_digest]

theorem sign_text_inj_iff {subject subject' secret : String}
    {validityMs validityMs' now now' : Nat} :
    (sign subject secret validityMs now).text = (sign subject' secret validityMs' now').text
      ↔ digest (hashed subject secret validityMs now)
        = digest (hashed subject' secret validityMs' now') := by
  constructor
  · intro h
    have hread := (sign_text_reads subject secret validityMs now).2.2
    rw [h, (sign_text_reads subject' secret validityMs' now').2.2] at hread
    exact (Option.some.inj hread).symm
  · intro h
    rw [← String.toList_inj, toList_sign_text, toList_sign_text, h]

end Signature

/-! ## Schedule requests -/

namespace Url

/-- What is signed in a schedule request. -/
def scheduleSubject (accountId nonce : String) : String :=
  accountId ++ "-" ++ nonce

/-- A nonce is made of twelve letters and digits. -/
structure IsNonce (nonce : String) : Prop where
  length : nonce.length = 12
  plain : ∀ c ∈ nonce.toList, c.isAlphanum = true

theorem IsNonce.hyphen_not_mem {nonce : String} (h : IsNonce nonce) : '-' ∉ nonce.toList := by
  intro hmem
  have hplain := h.plain '-' hmem
  simp at hplain

/-- The configuration has its schedule requests signed with a secret. -/
structure SignsWith (c : ClientConfig) (secret : String) : Prop where
  usingSign : c.usingSign = true
  secretKey : c.secretKey = some secret
  nonempty : secret ≠ ""

theorem scheduleSignature_of_signs {c : ClientConfig} {secret : String} (h : SignsWith c secret)
    (sender : Sender) (now : Nat) (nonce : String) :
    scheduleSignature sender c now nonce
      = signatureParams
          (sender.signer (scheduleSubject c.accountId nonce) secret sender.validityMs now)
        ++ [encoded "n" nonce] := by
  simp [scheduleSignature, h.secretKey, h.usingSign, h.nonempty, scheduleSubject]

theorem scheduleSubject_inj_iff {accountId accountId' nonce nonce' : String} (h : IsNonce nonce)
    (h' : IsNonce nonce') :
    scheduleSubject accountId nonce = scheduleSubject accountId' nonce'
      ↔ accountId = accountId' ∧ nonce = nonce' :=
  append_hyphen_inj h.hyphen_not_mem h'.hyphen_not_mem

end Url

/-! ## All messages -/

open Signature Digest.Sha256 Url in
/-- Under one secret the hashed bytes are the same exactly for the same subject and the same second,
the signature is the digest in lower-case digits and tells it, and a schedule request signs a
subject that tells its account and its nonce. -/
theorem messages_unambiguous (secret : String) :
    (∀ (subject subject' : String) (validityMs validityMs' now now' : Nat),
      hashed subject secret validityMs now = hashed subject' secret validityMs' now'
        ↔ subject = subject'
          ∧ min (now + validityMs / 1000) (UInt64.size - 1)
            = min (now' + validityMs' / 1000) (UInt64.size - 1))
    ∧ (∀ (subject : String) (validityMs now : Nat),
        let s := sign subject secret validityMs now
        s.timestamp = min (now + validityMs / 1000) (UInt64.size - 1)
          ∧ s.text.length = 64 ∧ (∀ c ∈ s.text.toList, IsHexDigit c)
          ∧ unhex s.text.toList = some (digest (hashed subject secret validityMs now)))
    ∧ (∀ (subject subject' : String) (validityMs validityMs' now now' : Nat),
        (sign subject secret validityMs now).text = (sign subject' secret validityMs' now').text
          ↔ digest (hashed subject secret validityMs now)
            = digest (hashed subject' secret validityMs' now'))
    ∧ (∀ (c : ClientConfig), SignsWith c secret →
        ∀ (platform sdkVersion nonce : String) (validityMs now : Nat),
          scheduleSignature ⟨sign, platform, sdkVersion, validityMs⟩ c now nonce
            = signatureParams (sign (scheduleSubject c.accountId nonce) secret validityMs now)
              ++ [encoded "n" nonce])
    ∧ (∀ nonce, IsNonce nonce → '-' ∉ nonce.toList)
    ∧ ∀ accountId accountId' nonce nonce' : String, IsNonce nonce → IsNonce nonce' →
        (scheduleSubject accountId nonce = scheduleSubject accountId' nonce'
          ↔ accountId = accountId' ∧ nonce = nonce') := by
  refine ⟨fun _ _ _ _ _ _ => hashed_inj_iff, fun subject validityMs now => ?_,
    fun _ _ _ _ _ _ => sign_text_inj_iff, fun c h _ _ nonce _ now => ?_,
    fun _ h => h.hyphen_not_mem, fun _ _ _ _ h h' => scheduleSubject_inj_iff h h'⟩
  · obtain ⟨hlength, hdigits, hread⟩ := sign_text_reads subject secret validityMs now
    exact ⟨rfl, by rwa [← String.length_toList], hdigits, hread⟩
  · exact scheduleSignature_of_signs h _ now nonce

open Signature Digest.Sha256 Url in
/-- A secret, an account and a subject with hyphens and digits in them. -/
theorem messages_of_hyphened_account :
    let c : ClientConfig := { accountId := "100-7", secretKey := some "k-1", usingSign := true }
    (SignsWith c "k-1" ∧ IsNonce "8aZ0bcdefghi" ∧ IsNonce "7Zabcdefghij")
      ∧ scheduleSignature ⟨sign, "linux", "0.3.1", 600000⟩ c 100 "8aZ0bcdefghi"
        = signatureParams (sign "100-7-8aZ0bcdefghi" "k-1" 600000 100)
          ++ [encoded "n" "8aZ0bcdefghi"]
      ∧ scheduleSubject "100-7" "8aZ0bcdefghi" ≠ scheduleSubject "100" "7Zabcdefghij"
      ∧ hashed "100-7" "k-1" 600000 100 ≠ hashed "100" "k-1" 600000 100
      ∧ hashed "100-7" "k-1" 600000 100 ≠ hashed "100-7" "k-1" 600000 101
      ∧ (sign "100-7" "k-1" 600000 100).text.length = 64 := by
  intro c
  obtain ⟨hhashed, htext, -, hsigned, -, hsubject⟩ := messages_unambiguous "k-1"
  have hsigns : SignsWith c "k-1" := ⟨rfl, rfl, by decide⟩
  have hnonce : IsNonce "8aZ0bcdefghi" := ⟨by decide, List.all_eq_true.1 (by decide)⟩
  have hnonce' : IsNonce "7Zabcdefghij" := ⟨by decide, List.all_eq_true.1 (by decide)⟩
  refine ⟨⟨hsigns, hnonce, hnonce'⟩, hsigned c hsigns _ _ _ _ _, ?_, ?_, ?_, (htext _ _ _).2.1⟩
  · rw [Ne, hsubject _ _ _ _ hnonce hnonce']
    decide
  · rw [Ne, hhashed]
    decide
  · rw [Ne, hhashed]
    decide

/-- With a hyphen in a nonce two requests may be signed alike. -/
example : Url.scheduleSubject "a" "b-c" = Url.scheduleSubject "a-b" "c" := by decide

end HttpDns
