import JobSupervisor.Proofs.ByteOrder

/-!
# The scanner of UTF-8 and the bytes of texts

The scanner takes the bytes of a character for that character, whatever follows them, and it
takes nothing else for it: a lead byte with continuation bytes in their ranges is what some
character is written as.  So strict decoding accepts exactly the bytes of texts, and gives the
text back.

## Main results

* `Text.Utf8.scan_encodeChar` — the bytes of a character are scanned as that character.
* `Text.Utf8.of_scan` — what is scanned as characters begins with the bytes of the first one.
* `Text.Utf8.decode?_eq_some_iff` — strict decoding inverts the bytes of texts.
-/

namespace JobSupervisor.Text.Utf8

variable {b : UInt8} {p : Pending} {v : Nat} {rest bytes : List UInt8} {cs : List Char}

/-! ## Lead bytes -/

theorem toNat_ofNat_of_lt (h : v < 256) : (UInt8.ofNat v).toNat = v :=
  UInt8.toNat_ofNat_of_lt' h

theorem ofNat_eq_of_toNat_eq (h : v = b.toNat) : UInt8.ofNat v = b := by
  rw [h, UInt8.ofNat_toNat]

theorem lead_one (h : b.toNat < 0x80) : lead b = .single (Char.ofNat b.toNat) := by
  simp [lead, h]

theorem lead_two (h : 0xC2 ≤ b.toNat) (h' : b.toNat ≤ 0xDF) :
    lead b = .opening ⟨1, b.toNat - 0xC0, 0x80, 0xBF⟩ := by
  simp only [lead]
  rw [if_neg (by omega), if_pos ⟨h, h'⟩]

/-- The second of three bytes has a narrower range after the least lead, and after the one from
which surrogates would begin. -/
theorem lead_three (h : 0xE0 ≤ b.toNat) (h' : b.toNat ≤ 0xEF) :
    lead b = .opening ⟨2, b.toNat - 0xE0, if b.toNat = 0xE0 then 0xA0 else 0x80,
      if b.toNat = 0xED then 0x9F else 0xBF⟩ := by
  simp only [lead]
  rw [if_neg (by omega), if_neg (by omega)]
  by_cases hleast : b.toNat = 0xE0
  · simp [hleast]
  by_cases hsurrogate : b.toNat = 0xED
  · simp [hsurrogate]
  · simp [hleast, hsurrogate, show 0xE1 ≤ b.toNat by omega, h']

/-- The second of four bytes has a narrower range after the least lead and after the greatest. -/
theorem lead_four (h : 0xF0 ≤ b.toNat) (h' : b.toNat ≤ 0xF4) :
    lead b = .opening ⟨3, b.toNat - 0xF0, if b.toNat = 0xF0 then 0x90 else 0x80,
      if b.toNat = 0xF4 then 0x8F else 0xBF⟩ := by
  simp only [lead]
  rw [if_neg (by omega), if_neg (by omega), if_neg (by omega), if_neg (by omega),
    if_neg (by omega)]
  by_cases hleast : b.toNat = 0xF0
  · simp [hleast]
  by_cases hgreatest : b.toNat = 0xF4
  · simp [hgreatest]
  · simp [hleast, hgreatest, show 0xF1 ≤ b.toNat by omega, show b.toNat ≤ 0xF3 by omega]

theorem lead_never (h : 0x80 ≤ b.toNat) (h' : b.toNat < 0xC2 ∨ 0xF4 < b.toNat) :
    lead b = .never := by
  simp only [lead]
  repeat rw [if_neg (by omega)]

/-! ## Single steps -/

theorem scan_single {c : Char} (h : lead b = .single c) :
    scan none (b :: rest) = .char c :: scan none rest := by
  simp [scan, h]

theorem scan_opening (h : lead b = .opening p) : scan none (b :: rest) = scan (some p) rest := by
  simp [scan, h]

/-- A byte in the expected range goes on with an unfinished character. -/
theorem scan_continues (hrange : p.low ≤ b.toNat ∧ b.toNat ≤ p.high) (h : 1 < p.needed) :
    scan (some p) (b :: rest) =
      scan (some ⟨p.needed - 1, p.value * 64 + (b.toNat - 0x80), 0x80, 0xBF⟩) rest := by
  have hne : ¬ p.needed ≤ 1 := by omega
  simp [scan, hrange, hne]

/-- The last byte that is needed completes the character. -/
theorem scan_completes (hrange : p.low ≤ b.toNat ∧ b.toNat ≤ p.high) (h : p.needed ≤ 1)
    (hvalue : p.value * 64 + (b.toNat - 0x80) = v) :
    scan (some p) (b :: rest) = .char (Char.ofNat v) :: scan none rest := by
  simp [scan, hrange, h, hvalue]

/-! ## The bytes of a character -/

/-- **The bytes of a character are scanned as that character**, whatever follows. -/
theorem scan_encodeChar (c : Char) (rest : List UInt8) :
    scan none (String.utf8EncodeChar c ++ rest) = .char c :: scan none rest := by
  have hvalid : c.val.toNat.isValidChar := c.valid
  have hc : Char.ofNat c.val.toNat = c := Char.ofNat_toNat c
  simp only [String.utf8EncodeChar]
  generalize c.val.toNat = v at *
  simp only [Nat.isValidChar] at hvalid
  have hlast : (UInt8.ofNat (v % 64 + 128)).toNat = v % 64 + 128 :=
    toNat_ofNat_of_lt (by omega)
  have hnext : (UInt8.ofNat (v / 64 % 64 + 128)).toNat = v / 64 % 64 + 128 :=
    toNat_ofNat_of_lt (by omega)
  by_cases hone : v ≤ 127
  · have hlead : (UInt8.ofNat v).toNat = v := toNat_ofNat_of_lt (by omega)
    rw [if_pos hone, List.cons_append, List.nil_append,
      scan_single (lead_one (by omega)), hlead, hc]
  by_cases htwo : v ≤ 2047
  · have hlead : (UInt8.ofNat (v / 64 % 32 + 192)).toNat = v / 64 % 32 + 192 :=
      toNat_ofNat_of_lt (by omega)
    rw [if_neg hone, if_pos htwo, List.cons_append, List.cons_append, List.nil_append,
      scan_opening (lead_two (by omega) (by omega)),
      scan_completes (v := v) (by simp only [hlast]; omega) (by simp)
        (by simp only [hlead, hlast]; omega), hc]
  by_cases hthree : v ≤ 65535
  · have hlead : (UInt8.ofNat (v / 4096 % 16 + 224)).toNat = v / 4096 % 16 + 224 :=
      toNat_ofNat_of_lt (by omega)
    rw [if_neg hone, if_neg htwo, if_pos hthree, List.cons_append, List.cons_append,
      List.cons_append, List.nil_append, scan_opening (lead_three (by omega) (by omega)),
      scan_continues (by simp only [hlead, hnext]; repeat' split
                         all_goals omega) (by simp),
      scan_completes (v := v) (by simp only [hlast]; omega) (by simp)
        (by simp only [hlead, hnext, hlast]; omega), hc]
  · have hlead : (UInt8.ofNat (v / 262144 % 8 + 240)).toNat = v / 262144 % 8 + 240 :=
      toNat_ofNat_of_lt (by omega)
    have hsecond : (UInt8.ofNat (v / 4096 % 64 + 128)).toNat = v / 4096 % 64 + 128 :=
      toNat_ofNat_of_lt (by omega)
    rw [if_neg hone, if_neg htwo, if_neg hthree, List.cons_append, List.cons_append,
      List.cons_append, List.cons_append, List.nil_append,
      scan_opening (lead_four (by omega) (by omega)),
      scan_continues (by simp only [hlead, hsecond]; repeat' split
                         all_goals omega) (by simp),
      scan_continues (by simp only [hnext]; omega) (by simp),
      scan_completes (v := v) (by simp only [hlast]; omega) (by simp)
        (by simp only [hlead, hsecond, hnext, hlast]; omega), hc]

theorem pieces_flatMap_encodeChar (cs : List Char) :
    pieces (cs.flatMap String.utf8EncodeChar) = cs.map .char := by
  induction cs with
  | nil => rfl
  | cons c cs ih =>
      rw [List.flatMap_cons, pieces, scan_encodeChar, List.map_cons, ← ih, pieces]

/-! ## Bytes that are scanned as characters -/

theorem mapM_char?_eq_some_iff (ps : List Piece) :
    ps.mapM Piece.char? = some cs ↔ ps = cs.map .char := by
  induction ps generalizing cs with
  | nil =>
      cases cs <;> simp
  | cons q ps ih =>
      rw [List.mapM_cons]
      cases q with
      | illFormed =>
          cases cs <;> simp [Piece.char?]
      | char c =>
          cases cs with
          | nil =>
              simp only [Piece.char?]
              cases ps.mapM Piece.char? <;> simp
          | cons d cs =>
              have hps : ps.mapM Piece.char? = some cs ↔ ps = cs.map .char := ih
              simp only [Piece.char?]
              cases h : ps.mapM Piece.char? with
              | none => simp_all
              | some ds => simp_all

/-- An unfinished character that becomes one needs a byte in the expected range. -/
theorem of_scan_pending (h : scan (some p) bytes = cs.map .char) :
    ∃ b rest, bytes = b :: rest ∧ (p.low ≤ b.toNat ∧ b.toNat ≤ p.high) ∧
      (p.needed ≤ 1 → ∃ later, cs = Char.ofNat (p.value * 64 + (b.toNat - 0x80)) :: later ∧
        scan none rest = later.map .char) ∧
      (1 < p.needed → scan (some ⟨p.needed - 1, p.value * 64 + (b.toNat - 0x80), 0x80, 0xBF⟩)
        rest = cs.map .char) := by
  cases bytes with
  | nil => cases cs <;> simp [scan] at h
  | cons b rest =>
      by_cases hrange : p.low ≤ b.toNat ∧ b.toNat ≤ p.high
      · refine ⟨b, rest, rfl, hrange, ?_, ?_⟩
        · intro hneeded
          rw [scan_completes hrange hneeded rfl] at h
          cases cs with
          | nil => simp at h
          | cons c later =>
              obtain ⟨hc, hlater⟩ := List.cons.inj h
              exact ⟨later, by rw [Piece.char.inj hc], hlater⟩
        · intro hneeded
          rwa [scan_continues hrange hneeded] at h
      · cases cs <;> simp [scan, hrange] at h

/-! ## The character of some bytes -/

theorem val_ofNat (h : v.isValidChar) : (Char.ofNat v).val.toNat = v := by
  rw [Char.ofNat, dif_pos h]
  rfl

theorem encodeChar_ofNat_one (h : b.toNat < 0x80) :
    String.utf8EncodeChar (Char.ofNat b.toNat) = [b] := by
  have hv := val_ofNat (v := b.toNat) (by simp only [Nat.isValidChar]; omega)
  simp only [String.utf8EncodeChar, hv]
  rw [if_pos (by omega), ofNat_eq_of_toNat_eq rfl]

theorem encodeChar_ofNat_two {c : UInt8} (hb : 0xC2 ≤ b.toNat ∧ b.toNat ≤ 0xDF)
    (hc : 0x80 ≤ c.toNat ∧ c.toNat ≤ 0xBF)
    (hv : v = (b.toNat - 0xC0) * 64 + (c.toNat - 0x80)) :
    String.utf8EncodeChar (Char.ofNat v) = [b, c] := by
  have hval := val_ofNat (v := v) (by simp only [Nat.isValidChar]; omega)
  simp only [String.utf8EncodeChar, hval]
  rw [if_neg (by omega), if_pos (by omega), ofNat_eq_of_toNat_eq (b := b) (by omega),
    ofNat_eq_of_toNat_eq (b := c) (by omega)]

/-- The narrower ranges of the second byte keep the number from being short of three bytes and
from being a surrogate. -/
theorem encodeChar_ofNat_three {c d : UInt8} (hb : 0xE0 ≤ b.toNat ∧ b.toNat ≤ 0xEF)
    (hc : (if b.toNat = 0xE0 then 0xA0 else 0x80) ≤ c.toNat ∧
      c.toNat ≤ if b.toNat = 0xED then 0x9F else 0xBF)
    (hd : 0x80 ≤ d.toNat ∧ d.toNat ≤ 0xBF)
    (hv : v = ((b.toNat - 0xE0) * 64 + (c.toNat - 0x80)) * 64 + (d.toNat - 0x80)) :
    String.utf8EncodeChar (Char.ofNat v) = [b, c, d] := by
  have hsecond : 0x80 ≤ c.toNat ∧ c.toNat ≤ 0xBF ∧ (b.toNat = 0xE0 → 0xA0 ≤ c.toNat) ∧
      (b.toNat = 0xED → c.toNat ≤ 0x9F) := by
    split at hc <;> split at hc <;> omega
  have hval := val_ofNat (v := v) (by simp only [Nat.isValidChar]; omega)
  simp only [String.utf8EncodeChar, hval]
  rw [if_neg (by omega), if_neg (by omega), if_pos (by omega),
    ofNat_eq_of_toNat_eq (b := b) (by omega), ofNat_eq_of_toNat_eq (b := c) (by omega),
    ofNat_eq_of_toNat_eq (b := d) (by omega)]

/-- The narrower ranges of the second byte keep the number from being short of four bytes and
from being beyond the last character. -/
theorem encodeChar_ofNat_four {c d e : UInt8} (hb : 0xF0 ≤ b.toNat ∧ b.toNat ≤ 0xF4)
    (hc : (if b.toNat = 0xF0 then 0x90 else 0x80) ≤ c.toNat ∧
      c.toNat ≤ if b.toNat = 0xF4 then 0x8F else 0xBF)
    (hd : 0x80 ≤ d.toNat ∧ d.toNat ≤ 0xBF) (he : 0x80 ≤ e.toNat ∧ e.toNat ≤ 0xBF)
    (hv : v = (((b.toNat - 0xF0) * 64 + (c.toNat - 0x80)) * 64 + (d.toNat - 0x80)) * 64 +
      (e.toNat - 0x80)) :
    String.utf8EncodeChar (Char.ofNat v) = [b, c, d, e] := by
  have hsecond : 0x80 ≤ c.toNat ∧ c.toNat ≤ 0xBF ∧ (b.toNat = 0xF0 → 0x90 ≤ c.toNat) ∧
      (b.toNat = 0xF4 → c.toNat ≤ 0x8F) := by
    split at hc <;> split at hc <;> omega
  have hval := val_ofNat (v := v) (by simp only [Nat.isValidChar]; omega)
  simp only [String.utf8EncodeChar, hval]
  rw [if_neg (by omega), if_neg (by omega), if_neg (by omega),
    ofNat_eq_of_toNat_eq (b := b) (by omega), ofNat_eq_of_toNat_eq (b := c) (by omega),
    ofNat_eq_of_toNat_eq (b := d) (by omega), ofNat_eq_of_toNat_eq (b := e) (by omega)]

/-- **What is scanned as characters begins with the bytes of the first one.** -/
theorem of_scan (h : scan none (b :: bytes) = cs.map .char) :
    ∃ c later rest, cs = c :: later ∧ b :: bytes = String.utf8EncodeChar c ++ rest ∧
      scan none rest = later.map .char := by
  by_cases hone : b.toNat < 0x80
  · rw [scan_single (lead_one hone)] at h
    cases cs with
    | nil => simp at h
    | cons c later =>
        obtain ⟨hc, hlater⟩ := List.cons.inj h
        refine ⟨c, later, bytes, rfl, ?_, hlater⟩
        rw [← Piece.char.inj hc, encodeChar_ofNat_one hone, List.singleton_append]
  by_cases hnever : b.toNat < 0xC2 ∨ 0xF4 < b.toNat
  · cases cs <;> simp [scan, lead_never (by omega) hnever] at h
  by_cases htwo : b.toNat ≤ 0xDF
  · rw [scan_opening (lead_two (by omega) htwo)] at h
    obtain ⟨c, rest, rfl, hc, hdone, -⟩ := of_scan_pending h
    obtain ⟨later, rfl, hlater⟩ := hdone (by simp)
    refine ⟨_, later, rest, rfl, ?_, hlater⟩
    rw [encodeChar_ofNat_two ⟨by omega, htwo⟩ hc rfl]
    rfl
  by_cases hthree : b.toNat ≤ 0xEF
  · rw [scan_opening (lead_three (by omega) hthree)] at h
    obtain ⟨c, rest, rfl, hc, -, hmore⟩ := of_scan_pending h
    obtain ⟨d, rest, rfl, hd, hdone, -⟩ := of_scan_pending (hmore (by simp))
    obtain ⟨later, rfl, hlater⟩ := hdone (by simp)
    refine ⟨_, later, rest, rfl, ?_, hlater⟩
    rw [encodeChar_ofNat_three ⟨by omega, hthree⟩ hc hd rfl]
    rfl
  · rw [scan_opening (lead_four (by omega) (by omega))] at h
    obtain ⟨c, rest, rfl, hc, -, hmore⟩ := of_scan_pending h
    obtain ⟨d, rest, rfl, hd, -, hmore⟩ := of_scan_pending (hmore (by simp))
    obtain ⟨e, rest, rfl, he, hdone, -⟩ := of_scan_pending (hmore (by simp))
    obtain ⟨later, rfl, hlater⟩ := hdone (by simp)
    refine ⟨_, later, rest, rfl, ?_, hlater⟩
    rw [encodeChar_ofNat_four ⟨by omega, by omega⟩ hc hd he rfl]
    rfl

/-! ## Strict decoding -/

theorem eq_flatMap_of_scan (h : scan none bytes = cs.map .char) :
    bytes = cs.flatMap String.utf8EncodeChar := by
  induction cs generalizing bytes with
  | nil =>
      cases bytes with
      | nil => rfl
      | cons b bytes =>
          obtain ⟨c, later, rest, hcs, -⟩ := of_scan h
          cases hcs
  | cons c cs ih =>
      cases bytes with
      | nil => simp [scan] at h
      | cons b bytes =>
          obtain ⟨d, later, rest, hcs, hbytes, hrest⟩ := of_scan h
          obtain ⟨rfl, rfl⟩ := List.cons.inj hcs
          rw [hbytes, List.flatMap_cons, ih hrest]

/-- **Strict decoding gives a text for the bytes of that text, and for nothing else.** -/
theorem decode?_eq_some_iff {s : String} : decode? bytes = some s ↔ bytes = encode s := by
  rw [encode_eq_flatMap]
  constructor
  · intro h
    obtain ⟨cs, hcs, rfl⟩ := Option.map_eq_some_iff.1 h
    rw [String.toList_ofList]
    exact eq_flatMap_of_scan ((mapM_char?_eq_some_iff _).1 hcs)
  · rintro rfl
    have hcs := (mapM_char?_eq_some_iff _).2 (pieces_flatMap_encodeChar s.toList)
    rw [decode?, hcs, Option.map_some, String.ofList_toList]

theorem decode?_encode (s : String) : decode? (encode s) = some s :=
  decode?_eq_some_iff.2 rfl

end JobSupervisor.Text.Utf8
