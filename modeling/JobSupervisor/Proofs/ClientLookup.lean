import JobSupervisor.Proofs.ClientAddress
import JobSupervisor.Proofs.HealthEndpoints
import JobSupervisor.Proofs.JsonTexts
import Mathlib.Data.List.Flatten
import Mathlib.Data.List.TakeWhile

/-!
# Looking a job up with the client

The client writes the name of a job behind its base address as it is.  The request asks for that
job exactly if the name stands for itself there: it has no character that ends a segment or is
dropped, it is no dots, and nothing in it looks percent-coded.  Then the client shows the health
of the job's own record, or that there is no such job.

## Main definitions

* `LooksCoded` — a percent sign stands in front of two hexadecimal digits.
* `Verbatim` — the names that stand for themselves in an address.
* `Client.asksFor_iff` — which names a request of the client asks for.
* `Client.run_job_iff` — when the client shows what it was asked for.
-/

namespace JobSupervisor

open Text.Utf8 (ascii)

/-! ## Texts that look percent-coded -/

/-- Whether a character is a hexadecimal digit. -/
def isHexDigit (c : Char) : Bool := c ∈ "0123456789abcdefABCDEF".toList

/-- A percent sign stands in front of two hexadecimal digits. -/
def LooksCoded (cs : List Char) : Prop :=
  ∃ before high low after, cs = before ++ '%' :: high :: low :: after ∧
    isHexDigit high = true ∧ isHexDigit low = true

namespace Text.Utf8

variable {b : UInt8} {rest : List UInt8} {cs : List Char} {c : Char}

theorem encodeChar_ne_nil (c : Char) : String.utf8EncodeChar c ≠ [] := by
  intro hnil
  have hlength : (String.utf8EncodeChar c).length = c.utf8Size := String.length_utf8EncodeChar c
  have hpos := c.utf8Size_pos
  rw [hnil] at hlength
  simp at hlength
  omega

/-- Bytes that begin with one below 128 are written for that character and something else. -/
theorem flatMap_encodeChar_eq_cons (h : cs.flatMap String.utf8EncodeChar = b :: rest)
    (hb : b.toNat < 0x80) :
    ∃ after, cs = ascii b :: after ∧ after.flatMap String.utf8EncodeChar = rest := by
  cases cs with
  | nil => cases h
  | cons c after =>
      rw [List.flatMap_cons] at h
      have hmem : b ∈ String.utf8EncodeChar c := by
        cases hc : String.utf8EncodeChar c with
        | nil => exact absurd hc (encodeChar_ne_nil c)
        | cons d bytes =>
            rw [hc, List.cons_append] at h
            rw [(List.cons.inj h).1]
            exact List.mem_cons_self
      obtain rfl := eq_ascii_of_mem_encodeChar hmem hb
      rw [encodeChar_ascii hb] at h
      exact ⟨after, rfl, (List.cons.inj h).2⟩

/-- Wherever a byte below 128 stands, the character stands there. -/
theorem cons_suffix_flatMap_encodeChar (h : b :: rest <:+ cs.flatMap String.utf8EncodeChar)
    (hb : b.toNat < 0x80) :
    ∃ before after, cs = before ++ ascii b :: after ∧
      after.flatMap String.utf8EncodeChar = rest := by
  induction cs with
  | nil => simp at h
  | cons c cs ih =>
      obtain ⟨front, hfront⟩ := h
      rw [List.flatMap_cons] at hfront
      have hlater (hsuffix : b :: rest <:+ cs.flatMap String.utf8EncodeChar) :
          ∃ before after, c :: cs = before ++ ascii b :: after ∧
            after.flatMap String.utf8EncodeChar = rest := by
        obtain ⟨before, after, rfl, hafter⟩ := ih hsuffix
        exact ⟨c :: before, after, rfl, hafter⟩
      rcases List.append_eq_append_iff.1 hfront with ⟨bytes, hc, hrest⟩ | ⟨bytes, -, hrest⟩
      · cases bytes with
        | nil => exact hlater ⟨[], by rw [hrest]; rfl⟩
        | cons d bytes =>
            obtain ⟨rfl, -⟩ := List.cons.inj hrest
            have hmem : b ∈ String.utf8EncodeChar c := by
              rw [hc]
              simp
            obtain rfl := eq_ascii_of_mem_encodeChar hmem hb
            rw [encodeChar_ascii hb] at hc hfront
            have hnil : front = [] := by
              have hlength := congrArg List.length hc
              simp at hlength
              exact List.eq_nil_of_length_eq_zero (by omega)
            rw [hnil] at hfront
            exact ⟨[], cs, rfl, (List.cons.inj hfront).2.symm⟩
      · exact hlater ⟨bytes, hrest.symm⟩

end Text.Utf8

namespace Net.Percent

theorem isHexDigit_ascii {b : UInt8} (h : (digit? b).isSome = true) :
    b.toNat < 0x80 ∧ isHexDigit (ascii b) = true := by
  have hall : ∀ n : Fin 256, (digit? (UInt8.ofNat n)).isSome = true →
      n.val < 0x80 ∧ isHexDigit (Char.ofNat n.val) = true := by decide +kernel
  have hb := hall ⟨b.toNat, b.toNat_lt⟩
  simp only [UInt8.ofNat_toNat] at hb
  exact hb h

theorem digit?_of_isHexDigit {c : Char} (h : isHexDigit c = true) :
    ∃ b, String.utf8EncodeChar c = [b] ∧ (digit? b).isSome = true := by
  have hall : ∀ c ∈ "0123456789abcdefABCDEF".toList,
      String.utf8EncodeChar c = [UInt8.ofNat c.toNat] ∧
        (digit? (UInt8.ofNat c.toNat)).isSome = true := forall_mem_of_all (by decide)
  exact ⟨_, hall c (of_decide_eq_true h)⟩

/-- **The bytes of a text stand for themselves exactly if nothing in it looks coded.** -/
theorem isLiteral_flatMap_iff (cs : List Char) :
    IsLiteral (cs.flatMap String.utf8EncodeChar) ↔ ¬ LooksCoded cs := by
  constructor
  · rintro hliteral ⟨before, high, low, after, rfl, hhigh, hlow⟩
    obtain ⟨h, hh, hhs⟩ := digit?_of_isHexDigit hhigh
    obtain ⟨l, hl, hls⟩ := digit?_of_isHexDigit hlow
    have hsuffix : sign :: h :: l :: after.flatMap String.utf8EncodeChar <:+
        (before ++ '%' :: high :: low :: after).flatMap String.utf8EncodeChar := by
      refine ⟨before.flatMap String.utf8EncodeChar, ?_⟩
      have hpercent : String.utf8EncodeChar '%' = [sign] := by decide
      simp [List.flatMap_append, hpercent, hh, hl]
    have hnone := hliteral _ hsuffix
    have hsome : (pair? (h :: l :: after.flatMap String.utf8EncodeChar)).isSome = true :=
      isSome_pair?_cons hhs hls
    rw [hnone] at hsome
    cases hsome
  · intro hplain rest hsuffix
    cases hpair : pair? rest with
    | none => rfl
    | some p =>
        obtain ⟨high, low, rfl, hhs, hls⟩ := pair?_eq_some hpair
        obtain ⟨hhigh, hhd⟩ := isHexDigit_ascii hhs
        obtain ⟨hlow, hld⟩ := isHexDigit_ascii hls
        obtain ⟨before, behindSign, rfl, hsign⟩ :=
          Text.Utf8.cons_suffix_flatMap_encodeChar hsuffix (by decide)
        obtain ⟨behindHigh, rfl, hbehind⟩ := Text.Utf8.flatMap_encodeChar_eq_cons hsign hhigh
        obtain ⟨after, rfl, -⟩ := Text.Utf8.flatMap_encodeChar_eq_cons hbehind hlow
        exact absurd ⟨before, ascii high, ascii low, after, rfl, hhd, hld⟩ hplain

theorem decode_encode_eq_self_iff (name : String) :
    decode (Text.Utf8.encode name) = Text.Utf8.encode name ↔ ¬ LooksCoded name.toList := by
  rw [decode_eq_self_iff, Text.Utf8.encode_eq_flatMap, isLiteral_flatMap_iff]

end Net.Percent

/-- A name that stands for itself at the end of an address. -/
structure Verbatim (name : String) : Prop where
  /-- No character begins another segment, ends the path or is dropped. -/
  plain : ∀ c ∈ name.toList, c ∉ ['/', '\\', '?', '#', '\t', '\n', '\r']
  /-- The last character is not dropped as a blank. -/
  visible : ∀ c, name.toList.getLast? = some c → 0x20 < c.toNat
  noDots : name ≠ "." ∧ name ≠ ".."
  literal : ¬ LooksCoded name.toList

namespace Net.Url

open Http (Route)

variable {cs part : List Char}

/-! ## The last segment -/

/-- What becomes of the path behind the root of the jobs. -/
def jobSegments (cs : List Char) : List (List Char) :=
  resolve [] ("health".toList :: "jobs".toList ::
    splitAt isSlash (((cleaned cs).takeWhile (· ≠ '#')).takeWhile (· ≠ '?')))

theorem path_withTail_jobRoot (u : Url) (cs : List Char) :
    (u.withTail (Route.jobRoot ++ cleaned cs)).path = pathOf (jobSegments cs) := by
  have hroot := Http.ne_of_mem_jobRoot
  have hlocated : ((Route.jobRoot ++ cleaned cs).takeWhile (· ≠ '#')).takeWhile (· ≠ '?') =
      Route.jobRoot ++ ((cleaned cs).takeWhile (· ≠ '#')).takeWhile (· ≠ '?') := by
    rw [List.takeWhile_append_of_pos fun d hd => by simpa using (hroot d hd).2,
      List.takeWhile_append_of_pos fun d hd => by simpa using (hroot d hd).1]
  have hsegments (rest : List Char) : splitAt isSlash ((Route.jobRoot ++ rest).drop 1) =
      "health".toList :: "jobs".toList :: splitAt isSlash rest := by
    show splitAt isSlash ("health".toList ++ '/' :: ("jobs".toList ++ '/' :: rest)) = _
    rw [splitAt_append_separator (forall_mem_of_all (by decide)) (by decide),
      splitAt_append_separator (forall_mem_of_all (by decide)) (by decide)]
  simp only [withTail, hlocated, hsegments]
  rfl

theorem ne_slash_of_mem_jobSegments (h : part ∈ jobSegments cs) : ∀ d ∈ part, d ≠ '/' := by
  rcases mem_resolve h with rfl | h | h
  · intro d hd
    cases hd
  · cases h
  · rcases List.mem_cons.1 h with rfl | h
    · exact forall_mem_of_all (by decide)
    rcases List.mem_cons.1 h with rfl | h
    · exact forall_mem_of_all (by decide)
    · rintro d hd rfl
      cases (mem_splitAt h).1 '/' hd

/-- The path of an address has neither a question mark nor a hash sign. -/
theorem ne_of_mem_pathOf {segments : List (List Char)} {c : Char}
    (h : c ∈ (pathOf segments).toList) : c ≠ '?' ∧ c ≠ '#' := by
  rw [toList_pathOf] at h
  obtain ⟨segment, -, hmem⟩ := List.mem_flatMap.1 h
  rcases List.mem_cons.1 hmem with rfl | hmem
  · decide
  rcases mem_coded (fun b hb => lt_of_isCodedInPath hb) hmem with rfl | halpha | ⟨-, b, hb, rfl⟩
  · decide
  · refine ⟨?_, ?_⟩ <;> rintro rfl <;> cases halpha
  · have hb' : b.toNat < 0x80 := lt_of_isCodedInPath hb
    have hne (n : UInt8) (hn : isCodedInPath n = true) (heq : ascii b = ascii n)
        (hlt : n.toNat < 0x80) : False := by
      have hnat := congrArg Char.toNat heq
      rw [Text.Utf8.toNat_ascii hb', Text.Utf8.toNat_ascii hlt, UInt8.toNat_inj] at hnat
      rw [hnat, hn] at hb
      cases hb
    exact ⟨fun heq => hne 0x3F (by decide) heq (by decide),
      fun heq => hne 0x23 (by decide) heq (by decide)⟩

/-- An address that is not too long can be asked for. -/
theorem requestFor?_eq_some_iff {u : Url} {r : Http.Request} :
    Client.requestFor? u = some r ↔ u.text.utf8ByteSize ≤ Client.addressLimit ∧
      r = ⟨"GET", u.target, [("accept", "*/*")]⟩ := by
  simp only [Client.requestFor?]
  split
  · rename_i hle
    simp only [hle, true_and, Option.some.injEq]
    exact eq_comm
  · rename_i hlong
    simp [hlong]

/-- A request for an address has the path of the address. -/
theorem path_requestFor {u : Url} {r : Http.Request} {segments : List (List Char)}
    (h : u.path = pathOf segments) (hne : segments ≠ []) (hr : Client.requestFor? u = some r) :
    r.path = u.path := by
  obtain ⟨first, later, rfl⟩ := List.exists_cons_of_ne_nil hne
  obtain ⟨-, rfl⟩ := requestFor?_eq_some_iff.1 hr
  have hstart : u.path.toList = '/' :: ((coded isCodedInPath first).toList ++
      (pathOf later).toList) := by
    rw [h, toList_pathOf, toList_pathOf]
    rfl
  have hplain : ∀ c ∈ u.path.toList, c ≠ '?' ∧ c ≠ '#' := by
    intro c hc
    rw [h] at hc
    exact ne_of_mem_pathOf hc
  cases hquery : u.query with
  | none =>
      refine Http.Request.path_eq [] ?_ hstart hplain (.inl rfl)
      simp [target, hquery]
  | some query =>
      refine Http.Request.path_eq ('?' :: query.toList) ?_ hstart hplain (.inr rfl)
      simp [target, hquery, String.toList_append]

/-! ## Names that stand for themselves -/

theorem plainDots_eq_self (h : ¬ LooksCoded cs) : plainDots cs = cs := by
  have hcoded (d : Char) (hd : isHexDigit d = true) (rest : List Char)
      (heq : cs = '%' :: '2' :: d :: rest) : False :=
    h ⟨[], '2', d, rest, heq, by decide, hd⟩
  induction cs with
  | nil => rfl
  | cons c cs ih =>
      have htail : ¬ LooksCoded cs := by
        rintro ⟨before, high, low, after, rfl, hhex⟩
        exact h ⟨c :: before, high, low, after, rfl, hhex⟩
      have hrest := ih htail fun d hd rest heq =>
        htail ⟨[], '2', d, rest, heq, by decide, hd⟩
      rw [plainDots.eq_def]
      split
      · rename_i rest heq
        exact (hcoded 'e' (by decide) rest heq).elim
      · rename_i rest heq
        exact (hcoded 'E' (by decide) rest heq).elim
      · rename_i heq
        obtain ⟨rfl, rfl⟩ := List.cons.inj heq
        rw [hrest]
      · rename_i heq
        cases heq

theorem splitAt_jobSegments {name : String} (h : Verbatim name) :
    cleaned name.toList = name.toList ∧
      ((cleaned name.toList).takeWhile (· ≠ '#')).takeWhile (· ≠ '?') = name.toList ∧
      splitAt isSlash name.toList = [name.toList] := by
  have hne (c : Char) (hc : c ∈ name.toList) (d : Char)
      (hd : d ∈ ['/', '\\', '?', '#', '\t', '\n', '\r']) : c ≠ d := by
    rintro rfl
    exact h.plain c hc hd
  have hcleaned : cleaned name.toList = name.toList := by
    refine cleaned_eq_self_iff.2 ⟨?_, ?_⟩
    · intro d hd
      simp [isLineBreak, hne d hd '\t' (by decide), hne d hd '\n' (by decide),
        hne d hd '\r' (by decide)]
    · intro d hd
      have hvisible := h.visible d hd
      simp only [isOuterBlank, decide_eq_false_iff_not]
      omega
  refine ⟨hcleaned, ?_, ?_⟩
  · have hfragment : name.toList.takeWhile (· ≠ '#') = name.toList :=
      List.takeWhile_eq_self_iff.2 fun d hd => by simpa using hne d hd '#' (by decide)
    have hquery : name.toList.takeWhile (· ≠ '?') = name.toList :=
      List.takeWhile_eq_self_iff.2 fun d hd => by simpa using hne d hd '?' (by decide)
    rw [hcleaned, hfragment, hquery]
  · refine splitAt_of_forall fun d hd => ?_
    simp [isSlash, hne d hd '/' (by decide), hne d hd '\\' (by decide)]

theorem jobSegments_of_verbatim {name : String} (h : Verbatim name) :
    jobSegments name.toList = ["health".toList, "jobs".toList, name.toList] := by
  obtain ⟨-, htaken, hsplit⟩ := splitAt_jobSegments h
  have hdots := plainDots_eq_self h.literal
  have hsingle : isSingleDot name.toList = false := by
    simp only [isSingleDot, hdots, decide_eq_false_iff_not]
    exact fun heq => h.noDots.1 (String.toList_inj.1 heq)
  have hdouble : isDoubleDot name.toList = false := by
    simp only [isDoubleDot, hdots, decide_eq_false_iff_not]
    exact fun heq => h.noDots.2 (String.toList_inj.1 heq)
  have hhealth : isSingleDot "health".toList = false ∧ isDoubleDot "health".toList = false := by
    decide
  have hjobs : isSingleDot "jobs".toList = false ∧ isDoubleDot "jobs".toList = false := by decide
  rw [jobSegments, htaken, hsplit]
  simp only [resolve, hhealth, hjobs, hsingle, hdouble]
  rfl

theorem not_looksCoded_of_forall (h : ∀ c ∈ cs, c ≠ '%') : ¬ LooksCoded cs := by
  rintro ⟨before, high, low, after, rfl, -⟩
  exact h '%' (by simp) rfl

theorem verbatim_of_isAlpha {name : String} (h : ∀ c ∈ name.toList, c.isAlpha = true) :
    Verbatim name := by
  have hne (d : Char) (hd : d.isAlpha = false) : d ∉ name.toList := by
    intro hmem
    rw [h d hmem] at hd
    cases hd
  constructor
  case plain =>
    intro c hc hmem
    have hall : ∀ c ∈ ['/', '\\', '?', '#', '\t', '\n', '\r'], c.isAlpha = false :=
      forall_mem_of_all (by decide)
    exact hne c (hall c hmem) hc
  case visible =>
    intro c hc
    have halpha := h c (List.mem_of_getLast? hc)
    refine Nat.lt_of_not_le fun hle => ?_
    have hsmall : ∀ n : Fin 0x21, (Char.ofNat n).isAlpha = false := by decide
    rw [← Char.ofNat_toNat c, hsmall ⟨c.toNat, by omega⟩] at halpha
    cases halpha
  case noDots =>
    exact ⟨by rintro rfl; exact hne '.' (by decide) (by decide),
      by rintro rfl; exact hne '.' (by decide) (by decide)⟩
  case literal =>
    exact not_looksCoded_of_forall fun c hc heq => hne '%' (by decide) (heq ▸ hc)

/-- A part of a name that stands for the whole name is all of it, for it has no more bytes than
the name, and decoding leaves no more. -/
theorem eq_toList_of_decode {name : String} (hsub : part.Sublist name.toList)
    (hdecode : Percent.decode (Text.Utf8.encode (String.ofList part)) = Text.Utf8.encode name) :
    part = name.toList := by
  have hbytes : (Text.Utf8.encode (String.ofList part)).Sublist (Text.Utf8.encode name) := by
    rw [Text.Utf8.encode_ofList, Text.Utf8.encode_eq_flatMap]
    exact hsub.flatMap _
  have hlength := Percent.length_decode_le (Text.Utf8.encode (String.ofList part))
  rw [hdecode] at hlength
  have hname := Text.Utf8.encode_injective (hbytes.eq_of_length_le hlength)
  rw [← hname, String.toList_ofList]

/-- **Only a name that stands for itself arrives as a segment** that stands for it: the segment
is all of the name, so that nothing of the name can have been taken for anything else. -/
theorem verbatim_of_mem_jobSegments {name : String} (hname : name ≠ "")
    (hmem : part ∈ jobSegments name.toList)
    (hdecode : Percent.decode (Text.Utf8.encode (String.ofList part)) = Text.Utf8.encode name) :
    Verbatim name := by
  have hfixed (word : String) (hword : Percent.decode (Text.Utf8.encode word) =
      Text.Utf8.encode word) (hpart : part = word.toList) : name = word := by
    rw [hpart, String.ofList_toList, hword] at hdecode
    exact (Text.Utf8.encode_injective hdecode).symm
  have hword (word : String) (hletters : ∀ c ∈ word.toList, c.isAlpha = true)
      (hpart : part = word.toList) : Verbatim name := by
    have hverbatim := verbatim_of_isAlpha hletters
    rwa [hfixed word ((Percent.decode_encode_eq_self_iff word).2 hverbatim.literal) hpart]
  rcases mem_resolve hmem with rfl | h | h
  · exact absurd (hfixed "" rfl rfl) hname
  · cases h
  rcases List.mem_cons.1 h with hpart | h
  · exact hword "health" (forall_mem_of_all (by decide)) hpart
  rcases List.mem_cons.1 h with hpart | h
  · exact hword "jobs" (forall_mem_of_all (by decide)) hpart
  -- The segment is a part of the name.
  obtain ⟨hslash, hsub⟩ := mem_splitAt h
  have hquery := List.takeWhile_sublist (· ≠ '?')
    (l := (cleaned name.toList).takeWhile (· ≠ '#'))
  have hfragment := List.takeWhile_sublist (· ≠ '#') (l := cleaned name.toList)
  have hcleaned := cleaned_sublist name.toList
  have hpart := eq_toList_of_decode (((hsub.trans hquery).trans hfragment).trans hcleaned) hdecode
  subst hpart
  have hall := hcleaned.eq_of_length_le ((hsub.trans hquery).trans hfragment).length_le
  have hhash := (hfragment.trans hcleaned).eq_of_length_le (hsub.trans hquery).length_le
  have hmark := ((hquery.trans hfragment).trans hcleaned).eq_of_length_le hsub.length_le
  obtain ⟨hbreaks, hlast⟩ := cleaned_eq_self_iff.1 hall
  constructor
  case plain =>
    intro c hc hmem
    have hnohash : c ≠ '#' := by
      rw [← hhash] at hc
      simpa using List.mem_takeWhile_imp hc
    have hnomark : c ≠ '?' := by
      rw [← hmark] at hc
      simpa using List.mem_takeWhile_imp hc
    have hnoslash := hslash c hc
    have hnobreak := hbreaks c hc
    simp only [isSlash, isLineBreak, Bool.or_eq_false_iff,
      decide_eq_false_iff_not] at hnoslash hnobreak
    simp_all
  case visible =>
    intro c hc
    have hvisible := hlast c hc
    simp only [isOuterBlank, decide_eq_false_iff_not] at hvisible
    omega
  case noDots =>
    exact ⟨by rintro rfl; revert hmem; decide, by rintro rfl; revert hmem; decide⟩
  case literal =>
    rw [String.ofList_toList] at hdecode
    exact (Percent.decode_encode_eq_self_iff name).1 hdecode

theorem pathOf_jobSegments {name : String} (h : Verbatim name) :
    pathOf (jobSegments name.toList) =
      "/health/jobs/" ++ coded isCodedInPath name.toList := by
  have hhealth : coded isCodedInPath "health".toList = "health" := by decide +kernel
  have hjobs : coded isCodedInPath "jobs".toList = "jobs" := by decide +kernel
  rw [jobSegments_of_verbatim h, ← String.toList_inj, toList_pathOf, Http.toList_underRoot]
  simp only [List.flatMap_cons, List.flatMap_nil, hhealth, hjobs, List.append_nil]
  rfl

/-- The address of a name that stands for itself. -/
theorem withTail_of_verbatim {name : String} (h : Verbatim name) (u : Url) :
    u.withTail (Route.jobRoot ++ cleaned name.toList) =
      ⟨u.scheme, u.host, u.port, "/health/jobs/" ++ coded isCodedInPath name.toList, none,
        none⟩ := by
  obtain ⟨hcleaned, htaken, -⟩ := splitAt_jobSegments h
  have hroot := Http.ne_of_mem_jobRoot
  have hname : name.toList.takeWhile (· ≠ '#') = name.toList := by
    rw [hcleaned] at htaken
    refine (List.takeWhile_sublist _).eq_of_length_le ?_
    have hle := (List.takeWhile_sublist (· ≠ '?') (l := name.toList.takeWhile (· ≠ '#'))).length_le
    rwa [htaken] at hle
  have hlocated : (Route.jobRoot ++ cleaned name.toList).takeWhile (· ≠ '#') =
      Route.jobRoot ++ name.toList := by
    rw [List.takeWhile_append_of_pos fun d hd => by simpa using (hroot d hd).2, hcleaned, hname]
  have hmarked : (Route.jobRoot ++ name.toList).takeWhile (· ≠ '?') =
      Route.jobRoot ++ name.toList := by
    rw [hcleaned, hname] at htaken
    rw [List.takeWhile_append_of_pos fun d hd => by simpa using (hroot d hd).1, htaken]
  have hquery : (u.withTail (Route.jobRoot ++ cleaned name.toList)).query = none := by
    simp only [withTail, hlocated, hmarked, List.drop_length]
    rfl
  have hfragment : (u.withTail (Route.jobRoot ++ cleaned name.toList)).fragment = none := by
    simp only [withTail, hlocated]
    rw [hcleaned, List.drop_length]
    rfl
  have hpath := (path_withTail_jobRoot u name.toList).trans (pathOf_jobSegments h)
  refine Url.ext ?_ ?_ ?_ hpath hquery hfragment
  · exact u.scheme_withTail _
  · exact u.host_withTail _
  · exact u.port_withTail _

/-- Decoding a segment does not undo what an address codes and undoes what looked coded before. -/
theorem decodeSegment?_coded_inPath (part : List Char) :
    Http.decodeSegment? (coded isCodedInPath part) =
      Text.Utf8.decode? (Percent.decode (Text.Utf8.encode (String.ofList part))) := by
  have hdigits : ∀ b, (Percent.digit? b).isSome = true → isCodedInPath b = false := by
    have hall : ∀ n : Fin 256, (Percent.digit? (UInt8.ofNat n)).isSome = true →
        isCodedInPath (UInt8.ofNat n) = false := by decide +kernel
    intro b hb
    have h := hall ⟨b.toNat, b.toNat_lt⟩
    simp only [UInt8.ofNat_toNat] at h
    exact h hb
  rw [Http.decodeSegment?, encode_coded fun b hb => lt_of_isCodedInPath hb,
    Percent.decode_encode_of_not_special (by decide) hdigits]

end Net.Url

namespace Client

open Net Http

variable {base name : String} {u : Url}

/-- The request for an address asks for the job of a name: it leads to a job, by a segment that
stands for the name. -/
def AsksFor (u : Url) (name : String) : Prop :=
  ∃ r segment, requestFor? u = some r ∧ Route.ofPath? r.path = some (.job segment) ∧
    decodeSegment? segment = some name

/-- The address of a job behind a base address, as it is written. -/
def jobAddress (u : Url) (name : String) : String :=
  u.origin ++ "/health/jobs/" ++ Url.coded Url.isCodedInPath name.toList

theorem url?_job (hbase : Url.IsBase base u) (name : String) :
    url? base (.job name) = some (u.withTail (Route.jobRoot ++ Url.cleaned name.toList)) := by
  have hpath : "/health/jobs/" ++ name = String.ofList (Route.jobRoot ++ name.toList) := by
    rw [← String.toList_inj, toList_underRoot, String.toList_ofList]
  rw [url?, Query.path, hpath]
  exact hbase.parse?_append (forall_mem_of_all (by decide)) (by decide)

/-- A request that asks for a job has the name of the job as a segment. -/
theorem verbatim_of_asksFor (hname : name ≠ "")
    (h : AsksFor (u.withTail (Route.jobRoot ++ Url.cleaned name.toList)) name) :
    Verbatim name := by
  obtain ⟨r, segment, hr, hroute, hsegment⟩ := h
  have hpath := Url.path_withTail_jobRoot u name.toList
  have hne : Url.jobSegments name.toList ≠ [] := Url.resolve_cons_ne_nil _ _ _
  rw [Url.path_requestFor hpath hne hr, hpath] at hroute
  obtain ⟨hroot, -, hslash⟩ := Route.ofPath?_eq_job_iff.1 hroute
  have hsplit := Url.splitAt_pathOf (fun part => Url.ne_slash_of_mem_jobSegments) hne
  have hsegments : Url.splitAt (· = '/') ("/health/jobs/" ++ segment).toList =
      [] :: "health".toList :: "jobs".toList :: [segment.toList] := by
    rw [toList_underRoot]
    show Url.splitAt _ ([] ++ '/' :: ("health".toList ++ '/' :: ("jobs".toList ++
      '/' :: segment.toList))) = _
    rw [Url.splitAt_append_separator (by simp) (by decide),
      Url.splitAt_append_separator (forall_mem_of_all (by decide)) (by decide),
      Url.splitAt_append_separator (forall_mem_of_all (by decide)) (by decide),
      Url.splitAt_of_forall]
    intro d hd
    exact decide_eq_false fun heq => hslash (heq ▸ hd)
  rw [hroot, hsegments] at hsplit
  have hmem : segment.toList ∈ (Url.jobSegments name.toList).map
      fun part => (Url.coded Url.isCodedInPath part).toList := by
    rw [← (List.cons.inj hsplit).2]
    simp
  obtain ⟨part, hpart, hcoded⟩ := List.mem_map.1 hmem
  rw [← String.toList_inj.1 hcoded, Url.decodeSegment?_coded_inPath,
    Text.Utf8.decode?_eq_some_iff] at hsegment
  exact Url.verbatim_of_mem_jobSegments hname hpart hsegment

theorem text_withTail (h : Verbatim name) (u : Url) :
    (u.withTail (Route.jobRoot ++ Url.cleaned name.toList)).text = jobAddress u name := by
  rw [Url.withTail_of_verbatim h, jobAddress, String.append_assoc]
  rfl

/-- **Which names a request of the client asks for**: those that stand for themselves, if the
address is not too long. -/
theorem asksFor_iff (hbase : Url.IsBase base u) (hname : name ≠ "") :
    (∃ v, url? base (.job name) = some v ∧ AsksFor v name) ↔
      Verbatim name ∧ (jobAddress u name).utf8ByteSize ≤ addressLimit := by
  rw [url?_job hbase]
  constructor
  · rintro ⟨v, hv, hasks⟩
    obtain rfl := Option.some.inj hv
    have hverbatim := verbatim_of_asksFor hname hasks
    obtain ⟨r, segment, hr, -⟩ := hasks
    obtain ⟨hle, -⟩ := Url.requestFor?_eq_some_iff.1 hr
    rw [text_withTail hverbatim] at hle
    exact ⟨hverbatim, hle⟩
  · rintro ⟨hverbatim, hle⟩
    have hrequest : requestFor? (u.withTail (Route.jobRoot ++ Url.cleaned name.toList)) =
        some ⟨"GET", "/health/jobs/" ++ Url.coded Url.isCodedInPath name.toList,
          [("accept", "*/*")]⟩ := by
      rw [Url.requestFor?_eq_some_iff, text_withTail hverbatim, Url.withTail_of_verbatim hverbatim]
      exact ⟨hle, rfl⟩
    refine ⟨_, rfl, _, Url.coded Url.isCodedInPath name.toList, hrequest, ?_, ?_⟩
    · have hpath := Url.path_withTail_jobRoot u name.toList
      rw [Url.path_requestFor hpath (Url.resolve_cons_ne_nil _ _ _) hrequest, hpath,
        Url.pathOf_jobSegments hverbatim, Route.ofPath?_eq_job_iff]
      refine ⟨rfl, ?_, ?_⟩
      · exact fun hempty => hname (String.toList_inj.1 (Url.coded_eq_empty_iff.1 hempty))
      · refine Url.slash_notMem_coded fun d hd => ?_
        rintro rfl
        exact hverbatim.plain '/' hd (by decide)
    · rw [Url.decodeSegment?_coded_inPath, String.ofList_toList,
        (Percent.decode_encode_eq_self_iff name).2 hverbatim.literal, Text.Utf8.decode?_encode]

/-! ## What the client shows -/

/-- What the client shows about a job if it shows what it was asked for: the health of the job's
own record, or that there is no such job. -/
def ownTranscript (g : Health.Registry) (name : String) : Transcript :=
  match g.lookup name with
  | some id =>
      let snapshot := (g.record id).snapshot
      let text := (jobJson name snapshot).indented
      match snapshot.status with
      | .healthy => ⟨0, [text], []⟩
      | .degraded => ⟨1, [text], ["Status: 503 Service Unavailable"]⟩
  | none => ⟨1, [(unknownJobJson name).indented], ["Status: 404 Not Found"]⟩

theorem parse?_jobJson (name : String) (snapshot : Health.Snapshot) :
    Json.parse? (jobJson name snapshot).compact = some (jobJson name snapshot) := by
  have hflat : jobJson name snapshot = Json.flat [("name", some name),
      ("status", some snapshot.status.endpointWord), ("reason", snapshot.reason)] := by
    rw [jobJson, Json.flat]
    cases snapshot.reason <;> rfl
  rw [hflat, Json.parse?_flat]

theorem parse?_unknownJobJson (name : String) :
    Json.parse? (unknownJobJson name).compact = some (unknownJobJson name) :=
  Json.parse?_flat [("error", some ("unknown job: " ++ name))]

/-- What the client makes of the answer about a job. -/
theorem present_jobResponse (s : Supervisor) (name : String) :
    present (s.jobResponse name).1.status (s.jobResponse name).1.body =
      ownTranscript s.registry name := by
  cases hl : s.registry.lookup name with
  | none =>
      rw [Supervisor.fst_jobResponse_of_none hl]
      simp only [Response.ofJson, Response.withBody, present, parse?_unknownJobJson, ownTranscript,
        hl]
      rfl
  | some id =>
      rw [Supervisor.fst_jobResponse_of_lookup hl]
      simp only [Response.ofJson, Response.withBody, present, parse?_jobJson, ownTranscript, hl]
      cases (s.registry.record id).snapshot.status <;> rfl

/-- Whoever asks for a job is shown the job that was asked for. -/
theorem run_of_asksFor {args : List String} {s : Supervisor} (hplain : u.scheme = "http")
    (horder : Order.parse? args = some (.ask base (.job name)))
    (hurl : url? base (.job name) = some u) (hasks : AsksFor u name) :
    (run (.serving u.host u.port) args s).1 = .finished (ownTranscript s.registry name) := by
  obtain ⟨r, segment, hr, hroute, hsegment⟩ := hasks
  have hmethod : r.method = "GET" := by
    obtain ⟨-, rfl⟩ := Url.requestFor?_eq_some_iff.1 hr
    rfl
  obtain ⟨s', readable, hregistry, hstatus, hbody⟩ :=
    Supervisor.respond_of_route (s := s) hmethod hroute
  obtain ⟨s'', hregistry', hanswer⟩ := Supervisor.fst_serve_job hsegment readable s'
  simp only [run, horder, carryOut, hurl, fetch, hr, hplain]
  simp only [decide_true, Bool.and_self, if_true]
  rw [hstatus, hbody, hanswer, present_jobResponse, hregistry', hregistry]

/-- **When the client shows what it was asked for.**  The request for a name asks for that name,
and the client shows the health of the job's own record or that there is no such job, exactly if
the name stands for itself in an address and the address is not too long. -/
theorem run_job_iff {args : List String} (hbase : Url.IsBase base u) (hname : name ≠ "")
    (horder : Order.parse? args = some (.ask base (.job name))) :
    ((∃ v, url? base (.job name) = some v ∧ AsksFor v name) ∧
        ∀ s : Supervisor, (run (.serving u.host u.port) args s).1 =
          .finished (ownTranscript s.registry name)) ↔
      Verbatim name ∧ (jobAddress u name).utf8ByteSize ≤ addressLimit := by
  rw [asksFor_iff hbase hname]
  constructor
  · exact fun h => h.1
  · intro h
    refine ⟨h, fun s => ?_⟩
    obtain ⟨v, hv, hasks⟩ := (asksFor_iff hbase hname).2 h
    have hsame : v.scheme = u.scheme ∧ v.host = u.host ∧ v.port = u.port := by
      rw [url?_job hbase] at hv
      obtain rfl := Option.some.inj hv
      exact ⟨u.scheme_withTail _, u.host_withTail _, u.port_withTail _⟩
    rw [← hsame.2.1, ← hsame.2.2]
    exact run_of_asksFor (hsame.1.trans hbase.plain) horder hv hasks

theorem isBase_localhost :
    Url.IsBase "http://localhost:8080" ⟨"http", "localhost", 8080, "/", none, none⟩ :=
  ⟨rfl, by decide +kernel, "http".toList, "localhost:8080".toList, by decide,
    forall_mem_of_all (by decide), forall_mem_of_all (by decide), by decide⟩

/-- A name with a blank in it, which the address codes and the endpoint decodes: whatever the
state of the supervisor, the client shows the health of that job. -/
theorem run_job_iff_nightly_sync :
    Url.IsBase "http://localhost:8080" ⟨"http", "localhost", 8080, "/", none, none⟩ ∧
      "nightly sync" ≠ "" ∧
      Order.parse? ["job", "nightly sync"] =
        some (.ask "http://localhost:8080" (.job "nightly sync")) ∧
      Verbatim "nightly sync" ∧
      (jobAddress ⟨"http", "localhost", 8080, "/", none, none⟩ "nightly sync").utf8ByteSize ≤
        addressLimit ∧
      (∃ v, url? "http://localhost:8080" (.job "nightly sync") = some v ∧
        AsksFor v "nightly sync") ∧
      ∀ s : Supervisor, (run (.serving "localhost" 8080) ["job", "nightly sync"] s).1 =
        .finished (ownTranscript s.registry "nightly sync") := by
  have horder : Order.parse? ["job", "nightly sync"] =
      some (.ask "http://localhost:8080" (.job "nightly sync")) := by decide +kernel
  have hverbatim : Verbatim "nightly sync" := by
    refine ⟨forall_mem_of_all (by decide), fun c hc => ?_, ⟨by decide, by decide⟩, ?_⟩
    · obtain rfl : 'c' = c := Option.some.inj hc
      decide
    · exact Url.not_looksCoded_of_forall (forall_mem_of_all (by decide))
  have hshort : (jobAddress ⟨"http", "localhost", 8080, "/", none, none⟩
      "nightly sync").utf8ByteSize ≤ addressLimit := by decide +kernel
  obtain ⟨hasks, hshown⟩ :=
    (run_job_iff isBase_localhost (by decide) horder).2 ⟨hverbatim, hshort⟩
  exact ⟨isBase_localhost, by decide, horder, hverbatim, hshort, hasks, hshown⟩

/-- A question mark ends the path: whoever asks for `a?b` is shown the health of `a`. -/
theorem run_job_question_mark :
    let g := Health.Registry.empty.after
      [.create "a", .create "a?b", .change 0 (.markUnhealthy (some "boom"))]
    let s := { Supervisor.initial with registry := g }
    g.Reachable ∧
      (run (.serving "localhost" 8080) ["job", "a?b"] s).1 = .finished (ownTranscript g "a") ∧
      (run (.serving "localhost" 8080) ["job", "a?b"] s).1 ≠
        .finished (ownTranscript g "a?b") := by
  refine ⟨⟨_, rfl⟩, ?_, ?_⟩
  · decide +kernel
  · decide +kernel

end Client

end JobSupervisor
