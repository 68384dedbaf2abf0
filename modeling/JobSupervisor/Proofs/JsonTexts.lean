import JobSupervisor.Json.Reader

/-!
# Reading back flat objects

The text of a JSON string is read back as the string: each of its characters is written in a way
that is read as that character and nothing else.  So an object in which every member is a text
or missing is read back from its text.

## Main definitions

* `Json.stringBody?_escapedChar` — one character of a string.
* `Json.flat` — an object in which every member is a text or null.
* `Json.parse?_flat` — a flat object is read back from its text.
-/

namespace JobSupervisor.Json

/-! ## Characters of strings -/

theorem fourDigits?_twoDigits {n : Nat} (h : n < 0x20) (rest : List Char) :
    fourDigits? ('0' :: '0' :: ((twoDigits n).toList ++ rest)) = some (n, rest) := by
  have hzero : hexDigit? '0' = some 0 := by decide
  have hdigits : ∀ n : Fin 0x20,
      hexDigit? (Nat.digitChar (n.val / 16 % 16)) = some (n.val / 16) ∧
        hexDigit? (Nat.digitChar (n.val % 16)) = some (n.val % 16) := by decide
  obtain ⟨hhigh, hlow⟩ := hdigits ⟨n, h⟩
  simp only at hhigh hlow
  simp only [twoDigits, String.toList_ofList, List.cons_append, List.nil_append, fourDigits?, hzero,
    hhigh, hlow, Option.bind_eq_bind, Option.bind_some, Option.pure_def, Option.some.injEq,
    Prod.mk.injEq, and_true]
  omega

/-- **A character of a string is read back.** -/
theorem stringBody?_escapedChar (c : Char) (fuel : Nat) (acc rest : List Char) :
    stringBody? (fuel + 1) acc ((escapedChar c).toList ++ rest) =
      stringBody? fuel (c :: acc) rest := by
  by_cases hplain : c ≠ '"' ∧ c ≠ '\\' ∧ 0x20 ≤ c.toNat
  · obtain ⟨hquote, hslash, hprintable⟩ := hplain
    have hne (d : Char) (hd : d.toNat < 0x20) : c ≠ d := by
      rintro rfl
      omega
    have htext : escapedChar c = String.singleton c := by
      simp [escapedChar, hquote, hslash, hne '\n' (by decide), hne '\r' (by decide),
        hne '\t' (by decide), show c.toNat ≠ 8 by omega, show c.toNat ≠ 12 by omega,
        show ¬ c.toNat < 0x20 by omega]
    rw [htext, String.toList_singleton, List.singleton_append, stringBody?.eq_def]
    simp only
    split
    · rename_i heq
      cases heq
    · rename_i heq
      exact absurd (List.cons.inj heq).1 hquote
    · rename_i heq
      exact absurd (List.cons.inj heq).1 hslash
    · rename_i heq
      exact absurd (List.cons.inj heq).1 hslash
    · rename_i heq
      obtain ⟨rfl, rfl⟩ := List.cons.inj heq
      rw [if_neg (by omega)]
  by_cases hescape : c ∈ ['"', '\\', '\n', '\r', '\t', Char.ofNat 8, Char.ofNat 12]
  · simp only [List.mem_cons, List.not_mem_nil, or_false] at hescape
    rcases hescape with rfl | rfl | rfl | rfl | rfl | rfl | rfl <;> rfl
  · -- What is left are the control characters without a short escape.
    simp only [List.mem_cons, List.not_mem_nil, or_false, not_or] at hescape
    obtain ⟨hquote, hslash, hline, hreturn, htab, hback, hfeed⟩ := hescape
    have hcontrol : c.toNat < 0x20 := by
      refine Nat.lt_of_not_le fun hge => ?_
      exact hplain ⟨hquote, hslash, hge⟩
    have hne (n : Nat) (hn : c ≠ Char.ofNat n) : c.toNat ≠ n := by
      rintro rfl
      exact hn (Char.ofNat_toNat c).symm
    have htext : escapedChar c = "\\u00" ++ twoDigits c.toNat := by
      simp [escapedChar, hquote, hslash, hline, hreturn, htab, hne 8 hback, hne 12 hfeed, hcontrol]
    rw [htext, String.toList_append]
    show stringBody? (fuel + 1) acc
      ('\\' :: 'u' :: '0' :: '0' :: ((twoDigits c.toNat).toList ++ rest)) = _
    rw [stringBody?, fourDigits?_twoDigits hcontrol]
    simp only [Option.bind_eq_bind, Option.bind_some]
    rw [if_neg (by omega), if_neg (by omega), Char.ofNat_toNat]

/-- The characters of a string up to its closing quote. -/
theorem stringBody?_escaped (cs : List Char) (fuel : Nat) (acc rest : List Char) :
    stringBody? (fuel + (cs.length + 1)) acc
        (cs.flatMap (fun c => (escapedChar c).toList) ++ '"' :: rest) =
      some (cs.reverse ++ acc, rest) := by
  induction cs generalizing acc with
  | nil => rfl
  | cons c cs ih =>
      have hlength : fuel + ((c :: cs).length + 1) = (fuel + (cs.length + 1)) + 1 := by
        simp only [List.length_cons]
        omega
      rw [List.flatMap_cons, List.append_assoc, hlength, stringBody?_escapedChar, ih]
      simp

theorem toList_escaped (s : String) :
    (escaped s).toList = '"' :: (s.toList.flatMap (fun c => (escapedChar c).toList) ++ ['"']) := by
  simp [escaped, String.toList_append, String.toList_join, List.flatMap_def]
  rfl

theorem one_le_length_escapedChar (c : Char) : 1 ≤ (escapedChar c).toList.length := by
  simp only [escapedChar]
  repeat' split
  all_goals simp [String.toList_append]

theorem length_le_length_flatMap (cs : List Char) :
    cs.length ≤ (cs.flatMap fun c => (escapedChar c).toList).length := by
  induction cs with
  | nil => exact Nat.le_refl _
  | cons c cs ih =>
      have hc := one_le_length_escapedChar c
      rw [List.flatMap_cons, List.length_append, List.length_cons]
      omega

/-- **A string is read back from its text.** -/
theorem string?_escaped (s : String) (rest : List Char) :
    string? (s.toList.flatMap (fun c => (escapedChar c).toList) ++ '"' :: rest) =
      some (s, rest) := by
  have hle := length_le_length_flatMap s.toList
  obtain ⟨fuel, hfuel⟩ : ∃ fuel,
      (s.toList.flatMap (fun c => (escapedChar c).toList) ++ '"' :: rest).length + 1 =
        fuel + (s.toList.length + 1) := by
    refine ⟨_, (Nat.sub_add_cancel ?_).symm⟩
    rw [List.length_append]
    omega
  rw [string?, hfuel, stringBody?_escaped]
  simp

/-! ## Flat objects -/

/-- A text, or null if there is none. -/
def ofText? : Option String → Json
  | some s => .string s
  | none => .null

/-- An object in which every member is a text or null. -/
def flat (fields : List (String × Option String)) : Json :=
  .object (fields.map fun e => (e.1, ofText? e.2))

theorem value?_ofText? (s : Option String) (depth : Nat) (rest : List Char) :
    value? depth ((ofText? s).compact.toList ++ rest) = some (ofText? s, rest) := by
  cases s with
  | none =>
      rw [value?.eq_def]
      rfl
  | some s =>
      have htext : (ofText? (some s)).compact.toList ++ rest =
          '"' :: (s.toList.flatMap (fun c => (escapedChar c).toList) ++ '"' :: rest) := by
        rw [ofText?, compact, toList_escaped]
        simp
      rw [htext, value?.eq_def]
      show (string? _).map _ = _
      rw [string?_escaped]
      rfl

section Items

variable {α : Type} {item : List Char → Option (α × List Char)} {closing : Char}
  {text : α → List Char}

theorem intercalate_cons_cons (a b : α) (as : List α) (rest : List Char) :
    List.intercalate [','] ((a :: b :: as).map text) ++ rest =
      text a ++ ',' :: (List.intercalate [','] ((b :: as).map text) ++ rest) := by
  simp [List.intercalate]

/-- Items between commas are read one after the other. -/
theorem separated?_intercalate (hclosing : isSpace closing = false) (hcomma : closing ≠ ',')
    {a : α} {as : List α} (hitem : ∀ b ∈ a :: as, ∀ rest, item (text b ++ rest) = some (b, rest))
    (fuel : Nat) (rest : List Char) :
    separated? item closing (fuel + (as.length + 1))
        (List.intercalate [','] ((a :: as).map text) ++ closing :: rest) =
      some (a :: as, rest) := by
  have hfirst := hitem a List.mem_cons_self
  induction as generalizing a with
  | nil =>
      have hskip : skipSpace (closing :: rest) = closing :: rest := by
        simp [skipSpace, hclosing]
      have htext : List.intercalate [','] ([a].map text) ++ closing :: rest =
          text a ++ closing :: rest := by
        simp [List.intercalate]
      rw [htext, List.length_nil, ← Nat.add_assoc, Nat.add_zero, separated?, hfirst]
      simp [hskip]
  | cons b as ih =>
      have hlater : ∀ c ∈ b :: as, ∀ rest, item (text c ++ rest) = some (c, rest) :=
        fun c hc => hitem c (List.mem_cons_of_mem a hc)
      have hfuel : fuel + ((b :: as).length + 1) = (fuel + (as.length + 1)) + 1 := by
        simp only [List.length_cons]
        omega
      have hskip (cs : List Char) : skipSpace (',' :: cs) = ',' :: cs := rfl
      rw [intercalate_cons_cons, hfuel, separated?, hfirst]
      simp only [Option.bind_eq_bind, Option.bind_some, hskip]
      rw [if_neg (Ne.symm hcomma), if_pos trivial, ih hlater (hlater b List.mem_cons_self)]
      rfl

theorem length_le_length_intercalate (htext : ∀ a, 1 ≤ (text a).length) (as : List α)
    (rest : List Char) :
    as.length ≤ (List.intercalate [','] (as.map text) ++ rest).length := by
  induction as with
  | nil => exact Nat.zero_le _
  | cons a as ih =>
      cases as with
      | nil =>
          have ha := htext a
          simp [List.intercalate]
          omega
      | cons b as =>
          rw [intercalate_cons_cons]
          simp only [List.length_append, List.length_cons] at ih ⊢
          omega

/-- Items between brackets are read, unless the first one looks like the closing bracket. -/
theorem bracketed?_intercalate (hclosing : isSpace closing = false) (hcomma : closing ≠ ',')
    {as : List α} (hitem : ∀ b ∈ as, ∀ rest, item (text b ++ rest) = some (b, rest))
    (hstart : ∀ a, ∃ c cs, text a = c :: cs ∧ isSpace c = false ∧ c ≠ closing)
    (rest : List Char) :
    bracketed? item closing (List.intercalate [','] (as.map text) ++ closing :: rest) =
      some (as, rest) := by
  cases as with
  | nil => simp [bracketed?, skipSpace, List.intercalate, hclosing]
  | cons a as =>
      obtain ⟨c, cs, hchars, hspace, hne⟩ := hstart a
      have hpositive : ∀ b, 1 ≤ (text b).length := by
        intro b
        obtain ⟨d, ds, hb, -⟩ := hstart b
        simp [hb]
      have hlength := length_le_length_intercalate hpositive (a :: as) (closing :: rest)
      have hitems := separated?_intercalate hclosing hcomma hitem
        ((List.intercalate [','] ((a :: as).map text) ++ closing :: rest).length - (as.length + 1))
        rest
      rw [← List.length_cons (a := a), Nat.sub_add_cancel hlength] at hitems
      obtain ⟨later, hlater⟩ : ∃ later,
          List.intercalate [','] ((a :: as).map text) ++ closing :: rest = c :: later := by
        cases as with
        | nil => exact ⟨cs ++ closing :: rest, by simp [List.intercalate, hchars]⟩
        | cons b as => exact ⟨_, by rw [intercalate_cons_cons, hchars, List.cons_append]⟩
      rw [hlater] at hitems ⊢
      have hskip : skipSpace (c :: later) = c :: later := by
        simp [skipSpace, hspace]
      simp only [bracketed?, hskip]
      rw [if_neg hne, hitems]

end Items

/-- The characters of a member. -/
def memberChars (e : String × Json) : List Char := (memberText e.1 e.2.compact).toList

theorem memberChars_append (e : String × Json) (rest : List Char) :
    memberChars e ++ rest = '"' :: (e.1.toList.flatMap (fun c => (escapedChar c).toList) ++
      '"' :: ':' :: (e.2.compact.toList ++ rest)) := by
  simp [memberChars, memberText, String.toList_append, toList_escaped]

theorem toList_compact_object (members : List (String × Json)) :
    (Json.object members).compact.toList =
      '\x7b' :: (List.intercalate [','] (members.map memberChars) ++ ['\x7d']) := by
  have hmembers : ∀ members : List (String × Json),
      (compactMembers members).map String.toList = members.map memberChars := by
    intro members
    induction members with
    | nil => rfl
    | cons e members ih => simp [compactMembers, memberChars, ih]
  simp [compact, String.toList_append, String.toList_intercalate, hmembers]

/-- What a value of an object at some depth reads at one of its members. -/
def member? (depth : Nat) (cs : List Char) : Option ((String × Json) × List Char) :=
  match skipSpace cs with
  | '"' :: rest => do
      let (name, rest) ← string? rest
      match skipSpace rest with
      | ':' :: rest => do
          let (v, rest) ← value? depth rest
          return ((name, v), rest)
      | _ => none
  | _ => none

theorem value?_brace (depth : Nat) (cs : List Char) :
    value? (depth + 1) ('\x7b' :: cs) =
      (bracketed? (member? depth) '\x7d' cs).map fun (ms, rest) => (.object ms, rest) := by
  rw [value?.eq_def]
  rfl

/-- A member is read back if its value is. -/
theorem member?_memberChars {depth : Nat} {e : String × Json}
    (h : ∀ rest, value? depth (e.2.compact.toList ++ rest) = some (e.2, rest))
    (rest : List Char) : member? depth (memberChars e ++ rest) = some (e, rest) := by
  have hquote (cs : List Char) : skipSpace ('"' :: cs) = '"' :: cs := rfl
  have hcolon (cs : List Char) : skipSpace (':' :: cs) = ':' :: cs := rfl
  simp only [member?, memberChars_append, hquote, string?_escaped, Option.bind_eq_bind,
    Option.bind_some, hcolon, h, Option.pure_def]

/-- **A flat object is read back from its text**, whatever follows it. -/
theorem value?_flat (fields : List (String × Option String)) (depth : Nat) (rest : List Char) :
    value? (depth + 1) ((flat fields).compact.toList ++ rest) = some (flat fields, rest) := by
  have hitem : ∀ e ∈ fields.map (fun e => (e.1, ofText? e.2)), ∀ rest,
      member? depth (memberChars e ++ rest) = some (e, rest) := by
    intro e he rest
    obtain ⟨field, -, rfl⟩ := List.mem_map.1 he
    exact member?_memberChars (value?_ofText? field.2 depth) rest
  have hstart : ∀ e : String × Json,
      ∃ c cs, memberChars e = c :: cs ∧ isSpace c = false ∧ c ≠ '\x7d' := by
    intro e
    have hchars := memberChars_append e []
    rw [List.append_nil] at hchars
    exact ⟨_, _, hchars, by decide, by decide⟩
  rw [flat, toList_compact_object, List.cons_append, value?_brace, List.append_assoc,
    List.singleton_append, bracketed?_intercalate (by decide) (by decide) hitem hstart]
  rfl

/-- **A flat object is the value of its text.** -/
theorem parse?_flat (fields : List (String × Option String)) :
    parse? (flat fields).compact = some (flat fields) := by
  have hvalue := value?_flat fields 126 []
  rw [List.append_nil] at hvalue
  rw [parse?, maxDepth, hvalue]
  rfl

end JobSupervisor.Json
