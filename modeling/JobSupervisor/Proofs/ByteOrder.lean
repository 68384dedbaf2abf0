import JobSupervisor.Text.Utf8

/-!
# The byte order of texts

Texts are ordered by their characters.  Their bytes are ordered in the same way: of two
characters the greater one has the greater first byte, or else the first byte that differs is
greater in it, since the quotients and remainders that the bytes are made of are compared from
the most significant one down.

## Main definitions

* `Text.Utf8.encode_lt_encode_iff` — one text is before another exactly if its bytes are.
-/

namespace JobSupervisor.Text.Utf8

variable {m n k : Nat} {x y : List UInt8}

/-- The greater of two numbers has the greater quotient, or else the greater remainder. -/
theorem div_lt_or_mod_lt (h : m < n) (k : Nat) :
    m / k < n / k ∨ m / k = n / k ∧ m % k < n % k := by
  have hle : m / k ≤ n / k := Nat.div_le_div_right (Nat.le_of_lt h)
  rcases Nat.lt_or_eq_of_le hle with hlt | heq
  · exact .inl hlt
  · have hm := Nat.div_add_mod m k
    have hn := Nat.div_add_mod n k
    rw [heq] at hm
    exact .inr ⟨heq, by omega⟩

/-! ## Comparing by the first byte -/

theorem cons_ofNat_lt_iff (hm : m < 256) (hn : n < 256) :
    UInt8.ofNat m :: x < UInt8.ofNat n :: y ↔ m < n ∨ m = n ∧ x < y := by
  rw [List.cons_lt_cons_iff, UInt8.lt_iff_toNat_lt, ← UInt8.toNat_inj,
    UInt8.toNat_ofNat_of_lt' hm, UInt8.toNat_ofNat_of_lt' hn]

theorem cons_lt_of_lt (h : m < n) (hn : n < 256) :
    UInt8.ofNat m :: x < UInt8.ofNat n :: y :=
  (cons_ofNat_lt_iff (Nat.lt_trans h hn) hn).2 (.inl h)

/-- The first of several bytes has the most significant digit, and the rest decides if it is the
same. -/
theorem lead_lt {base digits : Nat} (h : m < n) (hn : n < k * digits)
    (hdigits : base + digits ≤ 256) (hrest : m % k < n % k → x < y) :
    UInt8.ofNat (m / k % digits + base) :: x < UInt8.ofNat (n / k % digits + base) :: y := by
  have hquotient : n / k < digits := Nat.div_lt_of_lt_mul hn
  rcases div_lt_or_mod_lt h k with hlt | ⟨heq, hlt⟩
  · rw [Nat.mod_eq_of_lt (Nat.lt_trans hlt hquotient), Nat.mod_eq_of_lt hquotient]
    exact cons_lt_of_lt (by omega) (by omega)
  · rw [heq, Nat.mod_eq_of_lt hquotient]
    exact (cons_ofNat_lt_iff (by omega) (by omega)).2 (.inr ⟨rfl, hrest hlt⟩)

/-- A byte in the middle has the next digit of the remainder. -/
theorem middle_lt (h : m % (k * 64) < n % (k * 64)) (hrest : m % k < n % k → x < y) :
    UInt8.ofNat (m / k % 64 + 128) :: x < UInt8.ofNat (n / k % 64 + 128) :: y := by
  have hdigits := div_lt_or_mod_lt h k
  rw [Nat.mod_mul_right_div_self, Nat.mod_mul_right_div_self, Nat.mod_mul_right_mod,
    Nat.mod_mul_right_mod] at hdigits
  rcases hdigits with hlt | ⟨heq, hlt⟩
  · exact cons_lt_of_lt (by omega) (by omega)
  · rw [heq]
    exact (cons_ofNat_lt_iff (by omega) (by omega)).2 (.inr ⟨rfl, hrest hlt⟩)

theorem last_lt (h : m % 64 < n % 64) :
    UInt8.ofNat (m % 64 + 128) :: x < UInt8.ofNat (n % 64 + 128) :: y :=
  cons_lt_of_lt (by omega) (by omega)

/-! ## Characters and texts -/

/-- **The bytes of a smaller character come before those of a greater one**, whatever follows. -/
theorem utf8EncodeChar_append_lt {c d : Char} (h : c < d) (x y : List UInt8) :
    String.utf8EncodeChar c ++ x < String.utf8EncodeChar d ++ y := by
  have hlt : c.val.toNat < d.val.toNat := h
  have hd : d.val.toNat < 0x110000 := by
    have hvalid := d.valid
    simp only [UInt32.isValidChar, Nat.isValidChar] at hvalid
    omega
  simp only [String.utf8EncodeChar]
  generalize c.val.toNat = m at *
  generalize d.val.toNat = n at *
  -- A longer sequence of bytes has a greater first byte; those of one length are compared.
  by_cases hone : m ≤ 127
  · simp only [if_pos hone]
    repeat' split
    all_goals exact cons_lt_of_lt (by omega) (by omega)
  by_cases htwo : m ≤ 2047
  · simp only [if_neg hone, if_pos htwo]
    repeat' split
    · omega
    · exact lead_lt hlt (by omega) (by omega) last_lt
    all_goals exact cons_lt_of_lt (by omega) (by omega)
  by_cases hthree : m ≤ 65535
  · simp only [if_neg hone, if_neg htwo, if_pos hthree]
    repeat' split
    · omega
    · omega
    · exact lead_lt hlt (by omega) (by omega) fun h => middle_lt (k := 64) h last_lt
    · exact cons_lt_of_lt (by omega) (by omega)
  simp only [if_neg hone, if_neg htwo, if_neg hthree]
  repeat' split
  · omega
  · omega
  · omega
  · exact lead_lt hlt (by omega) (by omega) fun h =>
      middle_lt (k := 4096) h fun h => middle_lt (k := 64) h last_lt

theorem flatMap_utf8EncodeChar_lt {l l' : List Char} (h : l < l') :
    l.flatMap String.utf8EncodeChar < l'.flatMap String.utf8EncodeChar := by
  induction l generalizing l' with
  | nil =>
      cases l' with
      | nil => exact absurd h (List.lt_irrefl _)
      | cons d l' =>
          obtain ⟨b, bytes, hd⟩ :=
            List.exists_cons_of_ne_nil (String.utf8EncodeChar_ne_nil (c := d))
          rw [List.flatMap_cons, hd]
          exact List.nil_lt_cons b _
  | cons c l ih =>
      cases l' with
      | nil => exact absurd h (List.not_lt_nil _)
      | cons d l' =>
          rw [List.flatMap_cons, List.flatMap_cons]
          rcases List.cons_lt_cons_iff.1 h with hlt | ⟨rfl, hlt⟩
          · exact utf8EncodeChar_append_lt hlt _ _
          · exact List.append_left_lt (ih hlt)

theorem encode_eq_flatMap (s : String) : encode s = s.toList.flatMap String.utf8EncodeChar := by
  have hbytes : s.toByteArray = s.toList.utf8Encode := by
    rw [← String.toByteArray_ofList, String.ofList_toList]
  rw [encode, String.toUTF8_eq_toByteArray, hbytes, List.utf8Encode]
  exact List.toList_data_toByteArray

/-- **Texts are ordered as their bytes are.** -/
theorem encode_lt_encode_iff (a b : String) : encode a < encode b ↔ a < b := by
  have hmono {a b : String} (h : a < b) : encode a < encode b := by
    rw [encode_eq_flatMap, encode_eq_flatMap]
    exact flatMap_utf8EncodeChar_lt (String.lt_iff.1 h)
  refine ⟨fun h => ?_, hmono⟩
  rcases Std.lt_trichotomy a b with hlt | rfl | hgt
  · exact hlt
  · exact absurd h (List.lt_irrefl _)
  · exact absurd h (List.lt_asymm (hmono hgt))

theorem encode_injective {a b : String} (h : encode a = encode b) : a = b := by
  have hnot {a b : String} (h : encode a = encode b) : ¬ a < b := fun hlt =>
    List.lt_irrefl _ (h ▸ (encode_lt_encode_iff a b).2 hlt)
  rcases Std.lt_trichotomy a b with hlt | heq | hgt
  · exact absurd hlt (hnot h)
  · exact heq
  · exact absurd hgt (hnot h.symm)

end JobSupervisor.Text.Utf8
