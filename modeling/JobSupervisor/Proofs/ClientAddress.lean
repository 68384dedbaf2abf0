import JobSupervisor.Client.Exchange
import JobSupervisor.Proofs.NamesInPaths

/-!
# Addresses behind a base address

A base address without a path has a scheme and an authority.  What is written behind it becomes
path, query and fragment of one address: blanks at its end and line breaks go, a slash or a
backslash begins a new segment, a question mark and a hash sign end the path, and segments of
dots are resolved.  The name of a job that is written as the last segment therefore arrives there
exactly if nothing of all this applies to it and nothing in it looks percent-coded.

## Main definitions

* `Url.IsBase` — a base address without a path.
* `Url.cleaned`, `Url.withTail` — what becomes of the characters behind a base address.
* `Url.parse?_append` — reading an address with something behind its base.
* `Url.splitAt`, `Url.resolve` — which segments there are.
-/

namespace JobSupervisor.Net.Url

variable {cs part : List Char} {c : Char} {isSeparator : Char → Bool}

/-! ## Segments -/

theorem splitAt_ne_nil (isSeparator : Char → Bool) (cs : List Char) :
    splitAt isSeparator cs ≠ [] := by
  cases cs with
  | nil => simp [splitAt]
  | cons c cs =>
      simp only [splitAt]
      cases splitAt isSeparator cs with
      | nil => simp
      | cons part parts =>
          simp only
          split <;> simp

theorem splitAt_cons_of_separator (h : isSeparator c = true) :
    splitAt isSeparator (c :: cs) = [] :: splitAt isSeparator cs := by
  simp only [splitAt]
  cases hparts : splitAt isSeparator cs with
  | nil => exact absurd hparts (splitAt_ne_nil isSeparator cs)
  | cons part parts => simp [h]

/-- A part ends at the first separator. -/
theorem splitAt_append_separator (hpart : ∀ d ∈ part, isSeparator d = false)
    (h : isSeparator c = true) :
    splitAt isSeparator (part ++ c :: cs) = part :: splitAt isSeparator cs := by
  induction part with
  | nil => exact splitAt_cons_of_separator h
  | cons d part ih =>
      rw [List.cons_append, splitAt, ih fun e he => hpart e (List.mem_cons_of_mem d he)]
      simp [hpart d List.mem_cons_self]

theorem splitAt_of_forall (h : ∀ d ∈ cs, isSeparator d = false) :
    splitAt isSeparator cs = [cs] := by
  induction cs with
  | nil => rfl
  | cons d cs ih =>
      rw [splitAt, ih fun e he => h e (List.mem_cons_of_mem d he)]
      simp [h d List.mem_cons_self]

/-- The parts have no separators and come from the whole. -/
theorem mem_splitAt (h : part ∈ splitAt isSeparator cs) :
    (∀ d ∈ part, isSeparator d = false) ∧ part.Sublist cs := by
  induction cs generalizing part with
  | nil =>
      obtain rfl := List.mem_singleton.1 h
      exact ⟨fun d hd => (List.not_mem_nil hd).elim, List.Sublist.refl _⟩
  | cons d cs ih =>
      simp only [splitAt] at h
      cases hparts : splitAt isSeparator cs with
      | nil => exact absurd hparts (splitAt_ne_nil isSeparator cs)
      | cons first later =>
          rw [hparts] at h ih
          simp only at h
          have hlater (hmem : part ∈ later) :
              (∀ d ∈ part, isSeparator d = false) ∧ part.Sublist (d :: cs) :=
            ⟨(ih (List.mem_cons_of_mem first hmem)).1,
              (ih (List.mem_cons_of_mem first hmem)).2.cons d⟩
          cases hd : isSeparator d with
          | true =>
              rw [hd, if_pos rfl] at h
              rcases List.mem_cons.1 h with rfl | h
              · exact ⟨fun e he => (List.not_mem_nil he).elim, List.nil_sublist _⟩
              rcases List.mem_cons.1 h with rfl | h
              · exact ⟨(ih List.mem_cons_self).1, (ih List.mem_cons_self).2.cons d⟩
              · exact hlater h
          | false =>
              rw [hd, if_neg Bool.false_ne_true] at h
              rcases List.mem_cons.1 h with rfl | h
              · refine ⟨?_, (ih List.mem_cons_self).2.cons_cons d⟩
                intro e he
                rcases List.mem_cons.1 he with rfl | he
                · exact hd
                · exact (ih List.mem_cons_self).1 e he
              · exact hlater h

/-- Resolving the dots keeps segments or leaves empty ones. -/
theorem mem_resolve {above segments : List (List Char)} (h : part ∈ resolve above segments) :
    part = [] ∨ part ∈ above ∨ part ∈ segments := by
  induction segments generalizing above with
  | nil => exact .inr (.inl (List.mem_reverse.1 h))
  | cons first later ih =>
      cases later with
      | nil =>
          simp only [resolve] at h
          split at h
          · rcases List.mem_cons.1 (List.mem_reverse.1 h) with rfl | h
            · exact .inl rfl
            · exact .inr (.inl (List.mem_of_mem_tail h))
          split at h
          · rcases List.mem_cons.1 (List.mem_reverse.1 h) with rfl | h
            · exact .inl rfl
            · exact .inr (.inl h)
          · rcases List.mem_cons.1 (List.mem_reverse.1 h) with rfl | h
            · exact .inr (.inr List.mem_cons_self)
            · exact .inr (.inl h)
      | cons second later =>
          simp only [resolve] at h
          split at h
          · rcases ih h with h | h | h
            · exact .inl h
            · exact .inr (.inl (List.mem_of_mem_tail h))
            · exact .inr (.inr (List.mem_cons_of_mem first h))
          split at h
          · rcases ih h with h | h | h
            · exact .inl h
            · exact .inr (.inl h)
            · exact .inr (.inr (List.mem_cons_of_mem first h))
          · rcases ih h with h | h | h
            · exact .inl h
            · rcases List.mem_cons.1 h with rfl | h
              · exact .inr (.inr List.mem_cons_self)
              · exact .inr (.inl h)
            · exact .inr (.inr (List.mem_cons_of_mem first h))

theorem resolve_cons_ne_nil (above : List (List Char)) (segment : List Char)
    (segments : List (List Char)) : resolve above (segment :: segments) ≠ [] := by
  induction segments generalizing above segment with
  | nil =>
      simp only [resolve]
      split
      · simp
      split <;> simp
  | cons second later ih =>
      simp only [resolve]
      split
      · exact ih _ _
      split
      · exact ih _ _
      · exact ih _ _

/-! ## Paths -/

theorem lt_of_isCodedInPath {b : UInt8} (h : isCodedInPath b = false) : b.toNat < 0x80 := by
  simp only [isCodedInPath, Bool.or_eq_false_iff, decide_eq_false_iff_not,
    UInt8.lt_iff_toNat_lt] at h
  have hle := h.1.2
  simp at hle
  omega

/-- A coded segment has slashes exactly if the segment has some. -/
theorem slash_notMem_coded (h : ∀ d ∈ part, d ≠ '/') : '/' ∉ (coded isCodedInPath part).toList := by
  intro hmem
  rcases mem_coded (fun b hb => lt_of_isCodedInPath hb) hmem with heq | halpha | ⟨hpart, -⟩
  · cases heq
  · cases halpha
  · exact h '/' hpart rfl

theorem toList_pathOf (segments : List (List Char)) :
    (pathOf segments).toList =
      segments.flatMap fun part => '/' :: (coded isCodedInPath part).toList := by
  simp [pathOf, String.toList_join, List.flatMap_def, String.toList_append, Function.comp_def]

/-- A path is cut at its slashes into its coded segments. -/
theorem splitAt_pathOf {segments : List (List Char)}
    (h : ∀ part ∈ segments, ∀ d ∈ part, d ≠ '/') (hne : segments ≠ []) :
    splitAt (· = '/') (pathOf segments).toList =
      [] :: segments.map fun part => (coded isCodedInPath part).toList := by
  rw [toList_pathOf]
  induction segments with
  | nil => exact absurd rfl hne
  | cons first later ih =>
      have hfirst : ∀ d ∈ (coded isCodedInPath first).toList, decide (d = '/') = false := by
        intro d hd
        refine decide_eq_false fun heq => ?_
        exact slash_notMem_coded (h first List.mem_cons_self) (heq ▸ hd)
      rw [List.flatMap_cons, List.cons_append, splitAt_cons_of_separator (by decide)]
      congr 1
      cases later with
      | nil =>
          rw [List.flatMap_nil, List.append_nil, splitAt_of_forall hfirst]
          rfl
      | cons second later =>
          have hrest := ih (fun part hpart => h part (List.mem_cons_of_mem first hpart))
            (List.cons_ne_nil second later)
          rw [List.flatMap_cons, List.cons_append, splitAt_cons_of_separator (by decide)] at hrest
          rw [List.flatMap_cons, List.cons_append, splitAt_append_separator hfirst (by decide),
            (List.cons.inj hrest).2]
          rfl

/-! ## What counts of an address -/

/-- What counts of the characters behind a base address. -/
def cleaned (cs : List Char) : List Char :=
  ((cs.reverse.dropWhile isOuterBlank).reverse).filter fun c => !isLineBreak c

theorem trimmed_sublist (cs : List Char) :
    ((cs.reverse.dropWhile isOuterBlank).reverse).Sublist cs := by
  have hsuffix := (List.dropWhile_sublist isOuterBlank (l := cs.reverse)).reverse
  rwa [List.reverse_reverse] at hsuffix

theorem cleaned_sublist (cs : List Char) : (cleaned cs).Sublist cs :=
  List.filter_sublist.trans (trimmed_sublist cs)

/-- Nothing is dropped at the end exactly if the last character stays. -/
theorem dropWhile_reverse_eq_self_iff {p : Char → Bool} :
    cs.reverse.dropWhile p = cs.reverse ↔ ∀ d, cs.getLast? = some d → p d = false := by
  rw [← List.head?_reverse]
  cases cs.reverse with
  | nil => simp
  | cons e rest =>
      constructor
      · intro h d hd
        obtain rfl := Option.some.inj hd
        refine Bool.eq_false_iff.2 fun he => ?_
        rw [List.dropWhile_cons_of_pos he] at h
        have hle := (List.dropWhile_sublist p (l := rest)).length_le
        rw [h, List.length_cons] at hle
        omega
      · intro h
        rw [List.dropWhile_cons_of_neg (by simp [h e rfl])]

/-- Nothing is dropped exactly if the last character is visible and there are no line breaks. -/
theorem cleaned_eq_self_iff :
    cleaned cs = cs ↔ (∀ d ∈ cs, isLineBreak d = false) ∧
      ∀ d, cs.getLast? = some d → isOuterBlank d = false := by
  rw [← dropWhile_reverse_eq_self_iff]
  constructor
  · intro h
    have hkept : (cs.reverse.dropWhile isOuterBlank).reverse = cs := by
      apply (trimmed_sublist cs).eq_of_length_le
      have hle := (List.filter_sublist (p := fun c => !isLineBreak c)
        (l := (cs.reverse.dropWhile isOuterBlank).reverse)).length_le
      have hlength := congrArg List.length h
      rw [cleaned] at hlength
      omega
    constructor
    · intro d hd
      rw [cleaned, hkept, List.filter_eq_self] at h
      simpa using h d hd
    · rw [← List.reverse_reverse (cs.reverse.dropWhile isOuterBlank), hkept]
  · rintro ⟨hbreaks, hdrop⟩
    rw [cleaned, hdrop, List.reverse_reverse, List.filter_eq_self]
    intro d hd
    simp [hbreaks d hd]

/-- A visible front stays whole, whatever follows it. -/
theorem significant_eq {s : String} {front tail : List Char} (hs : s.toList = front ++ tail)
    (hfront : ∀ d ∈ front, 0x20 < d.toNat) (hne : front ≠ []) :
    significant s = front ++ cleaned tail := by
  have hvisible : ∀ d ∈ front, isOuterBlank d = false := by
    intro d hd
    have := hfront d hd
    simp [isOuterBlank]
    omega
  have hbreaks : ∀ d ∈ front, isLineBreak d = false := by
    intro d hd
    have := hfront d hd
    simp only [isLineBreak, Bool.or_eq_false_iff, decide_eq_false_iff_not]
    refine ⟨⟨?_, ?_⟩, ?_⟩ <;> rintro rfl <;> revert this <;> decide
  have hstart : (front ++ tail).dropWhile isOuterBlank = front ++ tail := by
    cases front with
    | nil => exact absurd rfl hne
    | cons d front =>
        rw [List.cons_append, List.dropWhile_cons_of_neg (by simp [hvisible d])]
  have hback : front.reverse.dropWhile isOuterBlank = front.reverse :=
    dropWhile_reverse_eq_self_iff.2 fun d hd => hvisible d (List.mem_of_getLast? hd)
  have hend : ((front ++ tail).reverse.dropWhile isOuterBlank).reverse =
      front ++ (tail.reverse.dropWhile isOuterBlank).reverse := by
    rw [List.reverse_append, List.dropWhile_append]
    split
    · rename_i hempty
      rw [hback, List.isEmpty_iff.1 hempty]
      simp
    · simp
  rw [significant, hs]
  simp only [hstart, hend, List.filter_append]
  rw [cleaned, List.filter_eq_self.2 fun d hd => by simp [hbreaks d hd]]

/-! ## Reading behind a base -/

/-- An address with other characters behind its authority. -/
def withTail (u : Url) (tail : List Char) : Url :=
  let located := tail.takeWhile (· ≠ '#')
  let path := located.takeWhile (· ≠ '?')
  { u with
    path := pathOf (resolve [] (splitAt isSlash (path.drop 1)))
    query := query? (located.drop path.length)
    fragment := fragment? (tail.drop located.length) }

attribute [ext] Url

@[simp] theorem scheme_withTail (u : Url) (tail : List Char) :
    (u.withTail tail).scheme = u.scheme := rfl

@[simp] theorem host_withTail (u : Url) (tail : List Char) : (u.withTail tail).host = u.host := rfl

@[simp] theorem port_withTail (u : Url) (tail : List Char) : (u.withTail tail).port = u.port := rfl

/-- The address that a scheme and an authority stand for. -/
def origin? (scheme authority : List Char) : Option Url := do
  let name := (String.ofList scheme).toLower
  let defaultPort ← knownSchemes.lookup name
  let (host, afterHost) ← host? (withoutUser authority)
  let port ← port? defaultPort afterHost
  some ⟨name, host, port, "/", none, none⟩

/-- A base address without a path: a scheme and an authority. -/
structure IsBase (base : String) (u : Url) : Prop where
  plain : u.scheme = "http"
  parsed : parse? base = some u
  split : ∃ scheme authority : List Char, base.toList = scheme ++ "://".toList ++ authority ∧
    (∀ d ∈ scheme, 0x20 < d.toNat ∧ d ≠ ':') ∧
    (∀ d ∈ authority, 0x20 < d.toNat ∧ endsAuthority d = false) ∧ authority ≠ []

/-- What is read up to some character, and what is left. -/
theorem takeWhile_dropWhile_append {p : Char → Bool} {front rest : List Char}
    (hfront : ∀ d ∈ front, p d = true) (hrest : ∀ d, rest.head? = some d → p d = false) :
    (front ++ rest).takeWhile p = front ∧ (front ++ rest).dropWhile p = rest := by
  rw [List.takeWhile_append_of_pos hfront, List.dropWhile_append_of_pos hfront]
  cases rest with
  | nil => simp
  | cons d rest =>
      have hd : ¬ p d = true := Bool.eq_false_iff.1 (hrest d rfl)
      rw [List.takeWhile_cons_of_neg hd, List.dropWhile_cons_of_neg hd, List.append_nil]
      exact ⟨rfl, rfl⟩

theorem parse?_eq_origin? {s : String} {scheme authority tail : List Char}
    (hs : significant s = scheme ++ "://".toList ++ authority ++ tail)
    (hscheme : ∀ d ∈ scheme, d ≠ ':') (hauthority : ∀ d ∈ authority, endsAuthority d = false)
    (hne : authority ≠ []) (htail : tail = [] ∨ tail.head? = some '/') :
    parse? s = (origin? scheme authority).map fun u => u.withTail tail := by
  have hname : (scheme ++ "://".toList ++ authority ++ tail).takeWhile (· ≠ ':') = scheme := by
    rw [List.append_assoc, List.append_assoc, List.takeWhile_append_of_pos]
    · simp
    · intro d hd
      simpa using hscheme d hd
  have hrest : ((scheme ++ "://".toList ++ authority ++ tail).drop
      ((String.ofList scheme).toLower.length + 1)).dropWhile isSlash = authority ++ tail := by
    have hlength : (String.ofList scheme).toLower.length = scheme.length :=
      String.length_map.trans String.length_ofList
    rw [hlength, List.append_assoc, List.append_assoc, List.drop_length_add_append]
    cases authority with
    | nil => exact absurd rfl hne
    | cons d authority =>
        have hd : isSlash d = false := by
          have := hauthority d List.mem_cons_self
          simp only [endsAuthority, Bool.or_eq_false_iff] at this
          exact this.1.1
        show (('/' :: '/' :: d :: (authority ++ tail)).dropWhile isSlash) = _
        rw [List.dropWhile_cons_of_pos (by decide), List.dropWhile_cons_of_pos (by decide),
          List.dropWhile_cons_of_neg (by simp [hd])]
        rfl
  have hend : ∀ d, tail.head? = some d → (!endsAuthority d) = false := by
    intro d hd
    rcases htail with rfl | htail
    · cases hd
    · obtain rfl := Option.some.inj (htail.symm.trans hd)
      rfl
  obtain ⟨htake, hdrop⟩ : (authority ++ tail).takeWhile (fun c => !endsAuthority c) = authority ∧
      (authority ++ tail).dropWhile (fun c => !endsAuthority c) = tail :=
    takeWhile_dropWhile_append (fun d hd => by simp [hauthority d hd]) hend
  simp only [parse?, hs, hname, hrest, htake, hdrop, origin?, Option.bind_eq_bind]
  cases knownSchemes.lookup (String.ofList scheme).toLower with
  | none => rfl
  | some defaultPort =>
      simp only [Option.bind_some]
      cases host? (withoutUser authority) with
      | none => rfl
      | some found =>
          simp only [Option.bind_some]
          cases port? defaultPort found.2 with
          | none => rfl
          | some port => rfl

/-- **What is written behind a base address** becomes path, query and fragment. -/
theorem IsBase.parse?_append {base : String} {u : Url} (h : IsBase base u) {root tail : List Char}
    (hroot : ∀ d ∈ root, 0x20 < d.toNat) (hstart : root.head? = some '/') :
    parse? (base ++ String.ofList (root ++ tail)) = some (u.withTail (root ++ cleaned tail)) := by
  obtain ⟨scheme, authority, hbase, hscheme, hauthority, hne⟩ := h.split
  have hvisible : ∀ d ∈ scheme ++ "://".toList ++ authority, 0x20 < d.toNat := by
    intro d hd
    rcases List.mem_append.1 hd with hd | hd
    · rcases List.mem_append.1 hd with hd | hd
      · exact (hscheme d hd).1
      · exact (forall_mem_of_all (by decide) : ∀ d ∈ "://".toList, 0x20 < d.toNat) d hd
    · exact (hauthority d hd).1
  have hplain : significant base = scheme ++ "://".toList ++ authority ++ cleaned [] :=
    significant_eq (by rw [hbase, List.append_nil]) hvisible (by simp)
  have hlonger : significant (base ++ String.ofList (root ++ tail)) =
      scheme ++ "://".toList ++ authority ++ (root ++ cleaned tail) := by
    rw [← List.append_assoc]
    refine significant_eq ?_ ?_ (by simp)
    · rw [String.toList_append, String.toList_ofList, hbase]
      simp only [List.append_assoc]
    · intro d hd
      rcases List.mem_append.1 hd with hd | hd
      · exact hvisible d hd
      · exact hroot d hd
  have hslash : (root ++ cleaned tail).head? = some '/' := by
    rw [List.head?_append, hstart]
    rfl
  have horigin := h.parsed
  rw [parse?_eq_origin? hplain (fun d hd => (hscheme d hd).2) (fun d hd => (hauthority d hd).2)
    hne (.inl rfl)] at horigin
  rw [parse?_eq_origin? hlonger (fun d hd => (hscheme d hd).2) (fun d hd => (hauthority d hd).2)
    hne (.inr hslash)]
  obtain ⟨o, ho, rfl⟩ := Option.map_eq_some_iff.1 horigin
  rw [ho]
  rfl

end JobSupervisor.Net.Url
