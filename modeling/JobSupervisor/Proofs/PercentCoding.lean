import JobSupervisor.Net.Percent
import JobSupervisor.Proofs.Utf8Decoding

/-!
# Percent coding and decoding

Decoding undoes encoding if percent signs are among the bytes that are encoded.  If they are
not, and hexadecimal digits are not either, then decoding reads the encoded bytes as it reads the
bytes themselves.  Bytes without a percent sign in front of two hexadecimal digits stand for
themselves, and all others get shorter.

## Main definitions

* `Percent.pair?` — the byte that two hexadecimal digits at the front stand for.
* `Percent.IsLiteral` — no percent sign stands in front of two hexadecimal digits.
* `Percent.decode_encode`, `Percent.decode_encode_of_not_special` — decoding encoded bytes.
* `Percent.decode_eq_self_iff` — which bytes stand for themselves.
-/

namespace JobSupervisor.Net.Percent

variable {b v : UInt8} {bytes rest : List UInt8} {special : UInt8 → Bool}

/-! ## Digits -/

theorem digit?_digit (h : b < 16) : digit? (digit b) = some b := by
  have hall : ∀ n : Fin 16, digit? (digit (UInt8.ofNat n)) = some (UInt8.ofNat n) := by decide
  simpa using hall ⟨b.toNat, UInt8.lt_iff_toNat_lt.1 h⟩

theorem digit?_sign : digit? sign = none := by decide

theorem div_sixteen_lt (b : UInt8) : b / 16 < 16 := by
  have hb := b.toNat_lt
  rw [UInt8.lt_iff_toNat_lt, UInt8.toNat_div]
  simp
  omega

theorem mod_sixteen_lt (b : UInt8) : b % 16 < 16 := by
  rw [UInt8.lt_iff_toNat_lt, UInt8.toNat_mod]
  simp
  omega

theorem div_mul_add_mod_sixteen (b : UInt8) : b / 16 * 16 + b % 16 = b := by
  have hb := b.toNat_lt
  rw [← UInt8.toNat_inj, UInt8.toNat_add, UInt8.toNat_mul, UInt8.toNat_div, UInt8.toNat_mod]
  simp
  omega

/-- The byte that two hexadecimal digits at the front stand for, and what follows them. -/
def pair? : List UInt8 → Option (UInt8 × List UInt8)
  | high :: low :: rest =>
      match digit? high, digit? low with
      | some h, some l => some (h * 16 + l, rest)
      | _, _ => none
  | _ => none

theorem pair?_eq_some {p : UInt8 × List UInt8} (h : pair? bytes = some p) :
    ∃ high low, bytes = high :: low :: p.2 ∧ (digit? high).isSome = true ∧
      (digit? low).isSome = true := by
  match bytes with
  | [] => cases h
  | [_] => cases h
  | high :: low :: later =>
      simp only [pair?] at h
      split at h
      · rename_i hhigh hlow
        obtain rfl := Option.some.inj h
        exact ⟨high, low, rfl, by simp [hhigh], by simp [hlow]⟩
      · cases h

theorem isSome_pair?_cons {high low : UInt8} (hhigh : (digit? high).isSome = true)
    (hlow : (digit? low).isSome = true) : (pair? (high :: low :: rest)).isSome = true := by
  obtain ⟨h, hh⟩ := Option.isSome_iff_exists.1 hhigh
  obtain ⟨l, hl⟩ := Option.isSome_iff_exists.1 hlow
  simp [pair?, hh, hl]

/-! ## Decoding at the front -/

theorem decode_cons_of_ne (h : b ≠ sign) : decode (b :: rest) = b :: decode rest := by
  match rest with
  | [] => rfl
  | [_] => rfl
  | _ :: _ :: _ => rw [decode, if_neg h]

theorem decode_sign_cons_of_none (h : pair? rest = none) :
    decode (sign :: rest) = sign :: decode rest := by
  match rest with
  | [] => rfl
  | [_] => rfl
  | high :: low :: later =>
      rw [decode, if_pos rfl]
      split
      · rename_i hhigh hlow
        simp [pair?, hhigh, hlow] at h
      · rfl

theorem decode_sign_cons_of_some (h : pair? bytes = some (v, rest)) :
    decode (sign :: bytes) = v :: decode rest := by
  match bytes with
  | [] => cases h
  | [_] => cases h
  | high :: low :: later =>
      rw [decode, if_pos rfl]
      cases hhigh : digit? high with
      | none => simp [pair?, hhigh] at h
      | some upper =>
          cases hlow : digit? low with
          | none => simp [pair?, hhigh, hlow] at h
          | some lower =>
              simp only [pair?, hhigh, hlow] at h
              obtain ⟨rfl, rfl⟩ := Prod.mk.inj (Option.some.inj h)
              rfl

theorem pair?_digits (b : UInt8) (rest : List UInt8) :
    pair? (digit (b / 16) :: digit (b % 16) :: rest) = some (b, rest) := by
  have hhigh : digit? (digit (b / 16)) = some (b / 16) := digit?_digit (div_sixteen_lt b)
  have hlow : digit? (digit (b % 16)) = some (b % 16) := digit?_digit (mod_sixteen_lt b)
  simp [pair?, hhigh, hlow, div_mul_add_mod_sixteen]

/-- A triple is decoded to its byte. -/
theorem decode_triple_append (b : UInt8) (rest : List UInt8) :
    decode (triple b ++ rest) = b :: decode rest :=
  decode_sign_cons_of_some (pair?_digits b rest)

/-! ## Decoding encoded bytes -/

@[simp] theorem encode_nil : encode special [] = [] := rfl

theorem encode_cons_of_special (h : special b = true) :
    encode special (b :: rest) = triple b ++ encode special rest := by
  simp [encode, h]

theorem encode_cons_of_not_special (h : special b = false) :
    encode special (b :: rest) = b :: encode special rest := by
  simp [encode, h]

/-- **Decoding undoes encoding** if percent signs are encoded. -/
theorem decode_encode (h : special sign = true) (bytes : List UInt8) :
    decode (encode special bytes) = bytes := by
  induction bytes with
  | nil => rfl
  | cons b bytes ih =>
      cases hb : special b with
      | true => rw [encode_cons_of_special hb, decode_triple_append, ih]
      | false =>
          have hne : b ≠ sign := by
            rintro rfl
            rw [h] at hb
            cases hb
          rw [encode_cons_of_not_special hb, decode_cons_of_ne hne, ih]

/-- Digits are at the front of encoded bytes exactly if they were there before: what is encoded
begins with a percent sign. -/
theorem pair?_encode (h : ∀ b, (digit? b).isSome = true → special b = false)
    (bytes : List UInt8) :
    pair? (encode special bytes) = (pair? bytes).map fun p => (p.1, encode special p.2) := by
  match bytes with
  | [] => rfl
  | [b] =>
      cases hb : special b with
      | true => simp [encode_cons_of_special hb, triple, pair?, digit?_sign]
      | false => rw [encode_cons_of_not_special hb]; rfl
  | b :: c :: rest =>
      cases hb : special b with
      | true =>
          have hnone : digit? b = none := by
            cases hd : digit? b with
            | none => rfl
            | some d => simp [h b (by simp [hd])] at hb
          simp [encode_cons_of_special hb, triple, pair?, digit?_sign, hnone]
      | false =>
          rw [encode_cons_of_not_special hb]
          cases hc : special c with
          | true =>
              have hnone : digit? c = none := by
                cases hd : digit? c with
                | none => rfl
                | some d => simp [h c (by simp [hd])] at hc
              simp [encode_cons_of_special hc, triple, pair?, digit?_sign, hnone]
          | false =>
              rw [encode_cons_of_not_special hc]
              simp only [pair?]
              cases digit? b <;> cases digit? c <;> rfl

/-- **If neither percent signs nor hexadecimal digits are encoded, encoding makes no
difference.** -/
theorem decode_encode_of_not_special (hsign : special sign = false)
    (h : ∀ b, (digit? b).isSome = true → special b = false) (bytes : List UInt8) :
    decode (encode special bytes) = decode bytes := by
  -- A triple takes three bytes at once, so the induction is on the length.
  induction hn : bytes.length using Nat.strongRecOn generalizing bytes with
  | ind n ih =>
      subst hn
      cases bytes with
      | nil => rfl
      | cons b bytes =>
          cases hb : special b with
          | true =>
              have hne : b ≠ sign := by
                rintro rfl
                rw [hsign] at hb
                cases hb
              rw [encode_cons_of_special hb, decode_triple_append, decode_cons_of_ne hne,
                ih bytes.length (by simp) bytes rfl]
          | false =>
              rw [encode_cons_of_not_special hb]
              by_cases hne : b = sign
              · subst hne
                have hpair := pair?_encode h bytes
                cases hrest : pair? bytes with
                | none =>
                    rw [hrest] at hpair
                    rw [decode_sign_cons_of_none hrest, decode_sign_cons_of_none hpair,
                      ih bytes.length (by simp) bytes rfl]
                | some p =>
                    rw [hrest] at hpair
                    obtain ⟨high, low, rfl, -⟩ := pair?_eq_some hrest
                    rw [decode_sign_cons_of_some hrest, decode_sign_cons_of_some hpair,
                      ih p.2.length (by simp; omega) p.2 rfl]
              · rw [decode_cons_of_ne hne, decode_cons_of_ne hne,
                  ih bytes.length (by simp) bytes rfl]

/-! ## Bytes that stand for themselves -/

/-- No percent sign stands in front of two hexadecimal digits. -/
def IsLiteral (bytes : List UInt8) : Prop :=
  ∀ rest, sign :: rest <:+ bytes → pair? rest = none

theorem IsLiteral.tail (h : IsLiteral (b :: bytes)) : IsLiteral bytes :=
  fun rest hrest => h rest (hrest.trans (List.suffix_cons b bytes))

theorem IsLiteral.decode (h : IsLiteral bytes) : decode bytes = bytes := by
  induction bytes with
  | nil => rfl
  | cons b bytes ih =>
      by_cases hne : b = sign
      · subst hne
        rw [decode_sign_cons_of_none (h bytes (List.suffix_refl _)), ih h.tail]
      · rw [decode_cons_of_ne hne, ih h.tail]

theorem length_decode_le (bytes : List UInt8) : (decode bytes).length ≤ bytes.length := by
  induction hn : bytes.length using Nat.strongRecOn generalizing bytes with
  | ind n ih =>
      subst hn
      cases bytes with
      | nil => exact Nat.le_refl _
      | cons b bytes =>
          have hbytes := ih bytes.length (by simp) bytes rfl
          by_cases hne : b = sign
          · subst hne
            cases hrest : pair? bytes with
            | none =>
                rw [decode_sign_cons_of_none hrest]
                simpa using hbytes
            | some p =>
                obtain ⟨high, low, rfl, -⟩ := pair?_eq_some hrest
                have hlater := ih p.2.length (by simp; omega) p.2 rfl
                rw [decode_sign_cons_of_some hrest]
                simp only [List.length_cons]
                omega
          · rw [decode_cons_of_ne hne]
            simpa using hbytes

/-- Wherever a percent sign stands in front of two digits, decoding leaves less. -/
theorem length_decode_lt (h : sign :: rest <:+ bytes) (hpair : (pair? rest).isSome = true) :
    (decode bytes).length < bytes.length := by
  induction bytes with
  | nil => simp at h
  | cons b bytes ih =>
      by_cases hfront : b = sign ∧ (pair? bytes).isSome = true
      · obtain ⟨rfl, hsome⟩ := hfront
        obtain ⟨p, hp⟩ := Option.isSome_iff_exists.1 hsome
        obtain ⟨high, low, rfl, -⟩ := pair?_eq_some hp
        have hlater := length_decode_le p.2
        rw [decode_sign_cons_of_some hp]
        simp only [List.length_cons]
        omega
      · have hbytes : sign :: rest <:+ bytes := by
          rcases List.suffix_cons_iff.1 h with heq | hbytes
          · obtain ⟨rfl, rfl⟩ := List.cons.inj heq
            exact absurd ⟨rfl, hpair⟩ hfront
          · exact hbytes
        have hlater := ih hbytes
        have hdecode : decode (b :: bytes) = b :: decode bytes := by
          by_cases hne : b = sign
          · subst hne
            have hnone := Option.not_isSome_iff_eq_none.1 fun hsome => hfront ⟨rfl, hsome⟩
            exact decode_sign_cons_of_none hnone
          · exact decode_cons_of_ne hne
        rw [hdecode]
        simpa using hlater

/-- **Bytes stand for themselves exactly if they are literal.** -/
theorem decode_eq_self_iff : decode bytes = bytes ↔ IsLiteral bytes := by
  constructor
  · intro h rest hrest
    cases hpair : pair? rest with
    | none => rfl
    | some p =>
        have hlt := length_decode_lt hrest (by simp [hpair])
        rw [h] at hlt
        exact absurd hlt (Nat.lt_irrefl _)
  · exact IsLiteral.decode

end JobSupervisor.Net.Percent
