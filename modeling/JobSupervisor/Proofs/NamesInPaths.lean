import JobSupervisor.Http.Message
import JobSupervisor.Net.Url
import JobSupervisor.Proofs.PercentCoding

/-!
# Names in paths

A name is written into a path with some of its bytes percent-coded.  If every byte that has a
meaning in a path is coded, the path has the name as its last segment, and the name can be read
back from it.

## Main definitions

* `Percent.Thorough` — classes of bytes with everything that has a meaning in a path.
* `Url.encode_coded` — the bytes of a coded text.
* `Route.ofPath?_eq_job_iff` — the paths that lead to a job.
* `decodeSegment?_coded` — a thoroughly coded name can be read back.
-/

namespace JobSupervisor

/-- What holds of the members of a list can be checked one by one. -/
theorem forall_mem_of_all {α : Type} {p : α → Prop} [DecidablePred p] {l : List α}
    (h : (l.all fun a => decide (p a)) = true) : ∀ a ∈ l, p a :=
  fun a ha => of_decide_eq_true (List.all_eq_true.1 h a ha)

/-! ## Bytes that are characters -/

namespace Text.Utf8

variable {b : UInt8} {bytes : List UInt8} {cs : List Char}

/-- The character of a byte below 128. -/
def ascii (b : UInt8) : Char := Char.ofNat b.toNat

theorem toNat_ascii (h : b.toNat < 0x80) : (ascii b).toNat = b.toNat :=
  val_ofNat (v := b.toNat) (by simp only [Nat.isValidChar]; omega)

theorem encodeChar_ascii (h : b.toNat < 0x80) : String.utf8EncodeChar (ascii b) = [b] :=
  encodeChar_ofNat_one h

/-- A byte below 128 is written for the character of that number alone. -/
theorem eq_ascii_of_mem_encodeChar {c : Char} (h : b ∈ String.utf8EncodeChar c)
    (hb : b.toNat < 0x80) : c = ascii b := by
  have hvalid : c.val.toNat.isValidChar := c.valid
  have hc : Char.ofNat c.val.toNat = c := Char.ofNat_toNat c
  simp only [Nat.isValidChar] at hvalid
  simp only [String.utf8EncodeChar] at h
  generalize c.val.toNat = v at *
  by_cases hone : v ≤ 127
  · rw [if_pos hone, List.mem_singleton] at h
    rw [ascii, h, toNat_ofNat_of_lt (by omega), hc]
  -- All bytes of the longer forms are 128 or more.
  · exfalso
    have hlong : ∀ n base, b = UInt8.ofNat (n + base) → n + base < 256 → 128 ≤ base → False := by
      rintro n base rfl hlt hbase
      rw [toNat_ofNat_of_lt hlt] at hb
      omega
    rw [if_neg hone] at h
    by_cases htwo : v ≤ 2047
    · rw [if_pos htwo] at h
      rcases List.mem_cons.1 h with h | h
      · exact hlong _ _ h (by omega) (by omega)
      · exact hlong _ _ (List.mem_singleton.1 h) (by omega) (by omega)
    by_cases hthree : v ≤ 65535
    · rw [if_neg htwo, if_pos hthree] at h
      rcases List.mem_cons.1 h with h | h
      · exact hlong _ _ h (by omega) (by omega)
      rcases List.mem_cons.1 h with h | h
      · exact hlong _ _ h (by omega) (by omega)
      · exact hlong _ _ (List.mem_singleton.1 h) (by omega) (by omega)
    · rw [if_neg htwo, if_neg hthree] at h
      rcases List.mem_cons.1 h with h | h
      · exact hlong _ _ h (by omega) (by omega)
      rcases List.mem_cons.1 h with h | h
      · exact hlong _ _ h (by omega) (by omega)
      rcases List.mem_cons.1 h with h | h
      · exact hlong _ _ h (by omega) (by omega)
      · exact hlong _ _ (List.mem_singleton.1 h) (by omega) (by omega)

theorem mem_of_mem_flatMap_encodeChar (h : b ∈ cs.flatMap String.utf8EncodeChar)
    (hb : b.toNat < 0x80) : ascii b ∈ cs := by
  obtain ⟨c, hc, hmem⟩ := List.mem_flatMap.1 h
  rwa [← eq_ascii_of_mem_encodeChar hmem hb]

theorem flatMap_encodeChar_map_ascii (h : ∀ b ∈ bytes, b.toNat < 0x80) :
    (bytes.map ascii).flatMap String.utf8EncodeChar = bytes := by
  induction bytes with
  | nil => rfl
  | cons b bytes ih =>
      rw [List.map_cons, List.flatMap_cons, encodeChar_ascii (h b List.mem_cons_self),
        ih fun c hc => h c (List.mem_cons_of_mem b hc)]
      rfl

theorem encode_ofList (cs : List Char) :
    encode (String.ofList cs) = cs.flatMap String.utf8EncodeChar := by
  rw [encode_eq_flatMap, String.toList_ofList]

/-- Bytes below 128 are the bytes of the text that they spell. -/
theorem encode_ofList_map_ascii (h : ∀ b ∈ bytes, b.toNat < 0x80) :
    encode (String.ofList (bytes.map ascii)) = bytes := by
  rw [encode_ofList, flatMap_encodeChar_map_ascii h]

end Text.Utf8

open Text.Utf8 (ascii)

/-! ## Encoded bytes -/

namespace Net.Percent

variable {b : UInt8} {bytes : List UInt8} {special : UInt8 → Bool}

/-- What stands for a number below sixteen is a digit or a letter. -/
theorem ascii_digit (h : b < 16) :
    (digit b).toNat < 0x80 ∧ (ascii (digit b)).isAlphanum = true := by
  have hall : ∀ n : Fin 16, (digit (UInt8.ofNat n)).toNat < 0x80 ∧
      (ascii (digit (UInt8.ofNat n))).isAlphanum = true := by decide
  simpa using hall ⟨b.toNat, UInt8.lt_iff_toNat_lt.1 h⟩

/-- An encoded byte is a percent sign, a capital digit, or a byte that is kept. -/
theorem mem_encode (h : b ∈ encode special bytes) :
    b = sign ∨ (∃ n, n < 16 ∧ b = digit n) ∨ b ∈ bytes ∧ special b = false := by
  obtain ⟨c, hc, hmem⟩ := List.mem_flatMap.1 h
  cases hs : special c with
  | false =>
      rw [hs, if_neg Bool.false_ne_true, List.mem_singleton] at hmem
      subst hmem
      exact .inr (.inr ⟨hc, hs⟩)
  | true =>
      rw [hs, if_pos rfl, triple] at hmem
      rcases List.mem_cons.1 hmem with rfl | hmem
      · exact .inl rfl
      rcases List.mem_cons.1 hmem with rfl | hmem
      · exact .inr (.inl ⟨c / 16, div_sixteen_lt c, rfl⟩)
      · obtain rfl := List.mem_singleton.1 hmem
        exact .inr (.inl ⟨c % 16, mod_sixteen_lt c, rfl⟩)

theorem encode_eq_nil_iff : encode special bytes = [] ↔ bytes = [] := by
  cases bytes with
  | nil => simp
  | cons b bytes =>
      cases hs : special b with
      | true => simp [encode_cons_of_special hs, triple]
      | false => simp [encode_cons_of_not_special hs]

/-- A class of bytes that has everything which means something in a path: of the bytes that are
not coded none is a percent sign or a slash, and all of them may stand in a path. -/
def Thorough (special : UInt8 → Bool) : Prop :=
  ∀ b, special b = false →
    b.toNat < 0x80 ∧ b ≠ sign ∧ ascii b ≠ '/' ∧ Http.isPathChar (ascii b) = true

theorem thorough_all : Thorough fun _ => true := by
  intro b hb
  cases hb

theorem Thorough.special_sign (h : Thorough special) : special sign = true := by
  cases hs : special sign with
  | true => rfl
  | false => exact absurd rfl (h sign hs).2.1

end Net.Percent

/-! ## Coded texts -/

namespace Net.Url

open Percent

variable {special : UInt8 → Bool} {cs : List Char}

theorem toList_coded (special : UInt8 → Bool) (cs : List Char) :
    (coded special cs).toList =
      (Percent.encode special (Text.Utf8.encode (String.ofList cs))).map ascii :=
  String.toList_ofList

theorem toNat_lt_of_mem_encode (h : ∀ b, special b = false → b.toNat < 0x80) {b : UInt8}
    {bytes : List UInt8} (hb : b ∈ Percent.encode special bytes) : b.toNat < 0x80 := by
  rcases mem_encode hb with rfl | ⟨n, hn, rfl⟩ | ⟨-, hs⟩
  · decide
  · exact (ascii_digit hn).1
  · exact h b hs

/-- The bytes of a coded text are the coded bytes of the text. -/
theorem encode_coded (h : ∀ b, special b = false → b.toNat < 0x80) (cs : List Char) :
    Text.Utf8.encode (coded special cs) =
      Percent.encode special (Text.Utf8.encode (String.ofList cs)) :=
  Text.Utf8.encode_ofList_map_ascii fun _ hb => toNat_lt_of_mem_encode h hb

/-- A character of a coded text belongs to the coding or is an uncoded character of the text. -/
theorem mem_coded (h : ∀ b, special b = false → b.toNat < 0x80) {c : Char}
    (hc : c ∈ (coded special cs).toList) :
    c = '%' ∨ c.isAlphanum = true ∨ c ∈ cs ∧ ∃ b, special b = false ∧ c = ascii b := by
  rw [toList_coded] at hc
  obtain ⟨b, hb, rfl⟩ := List.mem_map.1 hc
  rcases mem_encode hb with rfl | ⟨n, hn, rfl⟩ | ⟨hmem, hs⟩
  · exact .inl (by decide)
  · exact .inr (.inl (ascii_digit hn).2)
  · rw [Text.Utf8.encode_ofList] at hmem
    exact .inr (.inr ⟨Text.Utf8.mem_of_mem_flatMap_encodeChar hmem (h b hs), b, hs, rfl⟩)

/-- Coding leaves nothing out. -/
theorem coded_eq_empty_iff : coded special cs = "" ↔ cs = [] := by
  constructor
  · intro h
    have hbytes := congrArg String.toList h
    rw [toList_coded, String.toList_empty, List.map_eq_nil_iff, encode_eq_nil_iff] at hbytes
    have htext : String.ofList cs = "" :=
      Text.Utf8.encode_injective (hbytes.trans (Text.Utf8.encode_eq_flatMap "").symm)
    rw [← String.toList_inj, String.toList_ofList] at htext
    exact htext
  · rintro rfl
    rfl

end Net.Url

/-! ## Paths of requests -/

namespace Http

variable {path segment : String}

/-- The path of a target ends in front of the query. -/
theorem Request.path_eq {r : Request} {rest : List Char} (tail : List Char)
    (htarget : r.target.toList = path.toList ++ tail) (hpath : path.toList = '/' :: rest)
    (hplain : ∀ c ∈ path.toList, c ≠ '?' ∧ c ≠ '#') (htail : tail = [] ∨ tail.head? = some '?') :
    r.path = path := by
  have hfragment : withoutFragment r.target.toList = path.toList ++ withoutFragment tail := by
    rw [htarget, withoutFragment, List.takeWhile_append_of_pos]
    · rfl
    · intro c hc
      simpa using (hplain c hc).2
  have hauthority : afterAuthority (path.toList ++ withoutFragment tail) =
      path.toList ++ withoutFragment tail := by
    rw [hpath]
    rfl
  have hquery : (splitQuery (path.toList ++ withoutFragment tail)).1 = path.toList := by
    have htake : (withoutFragment tail).takeWhile (· ≠ '?') = [] := by
      rcases htail with rfl | htail
      · rfl
      · cases tail with
        | nil => rfl
        | cons c tail =>
            obtain rfl := Option.some.inj htail
            rfl
    rw [splitQuery, List.takeWhile_append_of_pos, htake, List.append_nil]
    intro c hc
    simpa using (hplain c hc).1
  rw [Request.path, hfragment, hauthority, hquery, hpath]
  simp only
  rw [← hpath, String.ofList_toList]

theorem toList_underRoot (segment : String) :
    ("/health/jobs/" ++ segment).toList = Route.jobRoot ++ segment.toList :=
  String.toList_append

theorem ne_of_mem_jobRoot : ∀ c ∈ Route.jobRoot, c ≠ '?' ∧ c ≠ '#' :=
  forall_mem_of_all (by decide)

/-- The paths that lead to a job: one segment behind the root. -/
theorem Route.ofPath?_eq_job_iff :
    Route.ofPath? path = some (.job segment) ↔
      path = "/health/jobs/" ++ segment ∧ segment ≠ "" ∧ '/' ∉ segment.toList := by
  constructor
  · intro h
    simp only [ofPath?] at h
    split at h
    · cases h
    split at h
    · cases h
    split at h
    · rename_i hcond
      simp only [Bool.and_eq_true, Bool.not_eq_true'] at hcond
      obtain ⟨⟨hroot, hne⟩, hslash⟩ := hcond
      obtain ⟨tail, htail⟩ := List.isPrefixOf_iff_prefix.1 hroot
      have hdrop : path.toList.drop jobRoot.length = tail := by rw [← htail, List.drop_left]
      rw [hdrop] at h hne hslash
      obtain rfl := Route.job.inj (Option.some.inj h)
      refine ⟨?_, ?_, ?_⟩
      · rw [← String.toList_inj, ← htail, toList_underRoot, String.toList_ofList]
      · intro hempty
        rw [← String.toList_inj, String.toList_ofList] at hempty
        simp [hempty] at hne
      · rw [String.toList_ofList]
        simpa using hslash
    · cases h
  · rintro ⟨rfl, hsome, hslash⟩
    have hne (p : String) (hp : p.toList.length ≤ 7) : "/health/jobs/" ++ segment ≠ p := by
      rintro rfl
      rw [toList_underRoot, List.length_append] at hp
      have hroot : jobRoot.length = 13 := by decide
      omega
    have hhealth := hne "/health" (by decide)
    have hjobs := hne "/jobs" (by decide)
    have hsegment : segment.toList ≠ [] := fun hnil => hsome (String.toList_inj.1 hnil)
    rw [ofPath?, if_neg hhealth, if_neg hjobs, toList_underRoot]
    simp [hsegment, hslash]

/-! ## Names as segments -/

open Net

/-- **A thoroughly coded name can be read back.** -/
theorem decodeSegment?_coded {special : UInt8 → Bool} (h : Percent.Thorough special)
    (name : String) : decodeSegment? (Url.coded special name.toList) = some name := by
  rw [decodeSegment?, Url.encode_coded fun b hb => (h b hb).1,
    Percent.decode_encode h.special_sign, String.ofList_toList, Text.Utf8.decode?_encode]

/-- A thoroughly coded name has no character that means something in a path. -/
theorem ne_of_mem_coded {special : UInt8 → Bool} (h : Percent.Thorough special) {cs : List Char}
    {c : Char} (hc : c ∈ (Url.coded special cs).toList) : c ≠ '/' ∧ c ≠ '?' ∧ c ≠ '#' := by
  rcases Url.mem_coded (fun b hb => (h b hb).1) hc with rfl | halpha | ⟨-, b, hs, rfl⟩
  · decide
  · refine ⟨?_, ?_, ?_⟩ <;> rintro rfl <;> cases halpha
  · obtain ⟨-, -, hslash, hpath⟩ := h b hs
    refine ⟨hslash, ?_, ?_⟩
    · intro heq
      rw [heq] at hpath
      cases hpath
    · intro heq
      rw [heq] at hpath
      cases hpath

/-- The path and the route of a request for a name that is thoroughly coded. -/
theorem route_coded {special : UInt8 → Bool} (h : Percent.Thorough special) {name : String}
    (hname : name ≠ "") {r : Request}
    (hr : r.target = "/health/jobs/" ++ Url.coded special name.toList) :
    Route.ofPath? r.path = some (.job (Url.coded special name.toList)) := by
  have hpath : r.path = "/health/jobs/" ++ Url.coded special name.toList := by
    refine Request.path_eq [] (by rw [hr, List.append_nil]) (by rw [String.toList_append]; rfl)
      ?_ (.inl rfl)
    intro c hc
    rw [String.toList_append] at hc
    rcases List.mem_append.1 hc with hc | hc
    · exact ne_of_mem_jobRoot c hc
    · exact (ne_of_mem_coded h hc).2
  refine Route.ofPath?_eq_job_iff.2 ⟨hpath, ?_, fun hc => (ne_of_mem_coded h hc).1 rfl⟩
  exact fun hempty => hname (String.toList_inj.1 (Url.coded_eq_empty_iff.1 hempty))

end Http

end JobSupervisor
