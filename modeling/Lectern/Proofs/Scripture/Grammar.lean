import Lectern.Proofs.Text.Letters
import Lectern.Scripture.Reference

/-!
# The grammar of references

The grammar says what a reference looks like without saying where to look for its parts: a book,
a space, and a location without spaces, which is a chapter or a chapter and verses. Every text
has at most one such form, since no part holds the mark that ends it; reading finds it, and
whatever is written of a reference in good order is read as that reference.
-/

namespace Lectern
namespace Scripture

open Text

/-- A numeral of thirty-two bits, without a sign. -/
structure Digits (cs : List Char) (n : Nat) : Prop where
  nonempty : cs ≠ []
  digits : ∀ c ∈ cs, c.isDigit = true
  value : Nat.ofDigitChars 10 cs 0 = n
  fits : n < UInt32.size

inductive Numeral : List Char → Nat → Prop
  | bare {cs : List Char} {n : Nat} : Digits cs n → Numeral cs n
  | plus {cs : List Char} {n : Nat} : Digits cs n → Numeral ('+' :: cs) n

/-- A numeral, and blank characters around it. -/
inductive Spaced : List Char → Nat → Prop
  | mk {before cs after : List Char} {n : Nat} : (∀ c ∈ before, isBlank c = true) →
    Numeral cs n → (∀ c ∈ after, isBlank c = true) → Spaced (before ++ cs ++ after) n

/-- One verse, or the first and the last of several. -/
inductive Range : List Char → Nat → Nat → Prop
  | verse {cs : List Char} {n : Nat} : Spaced cs n → Range cs n n
  | verses {cs ds : List Char} {first last : Nat} : Spaced cs first → Spaced ds last →
    first ≤ last → Range (cs ++ '-' :: ds) first last

/-- No blank character stands between the chapter and the colon. -/
inductive Location : List Char → Nat → Option (Nat × Nat) → Prop
  | chapter {cs : List Char} {n : Nat} : Numeral cs n → Location cs n none
  | verses {cs ds : List Char} {n first last : Nat} : Numeral cs n → Range ds first last →
    Location (cs ++ ':' :: ds) n (some (first, last))

/-- The text refers to a book and a location in it. What is trimmed is taken apart at its last
space, and then both parts are trimmed. -/
inductive Refers : String → Reference → Prop
  | mk {s whole book location name place : String} {chapter : Nat} {verses : Option (Nat × Nat)}
    (trimmed : Trims s whole) (parts : whole = book ++ " " ++ location)
    (lastSpace : ' ' ∉ location.toList) (named : Trims book name) (nonblank : name ≠ "")
    (placed : Trims location place) (located : Location place.toList chapter verses) :
    Refers s ⟨name, chapter, verses⟩

namespace Reference

/-- The book has a name without blank characters around it, and the numbers are of thirty-two
bits and in order. -/
structure WellFormed (r : Reference) : Prop where
  tidy : Tidy r.book
  named : r.book ≠ ""
  chapter : r.chapter < UInt32.size
  verses : ∀ first last, r.verses = some (first, last) → first ≤ last ∧ last < UInt32.size

/-- The ways to write a reference in decimals. A single verse can be written as a range, too. -/
inductive WrittenAs : Reference → String → Prop
  | chapter (book : String) (chapter : Nat) :
    WrittenAs ⟨book, chapter, none⟩ (book ++ " " ++ chapter.repr)
  | verse (book : String) (chapter verse : Nat) :
    WrittenAs ⟨book, chapter, some (verse, verse)⟩
      (book ++ " " ++ (chapter.repr ++ ":" ++ verse.repr))
  | verses (book : String) (chapter first last : Nat) :
    WrittenAs ⟨book, chapter, some (first, last)⟩
      (book ++ " " ++ (chapter.repr ++ ":" ++ (first.repr ++ "-" ++ last.repr)))

end Reference

section Split

variable {c : Char} {cs before after : List Char}

theorem splitFirst_append (first : c ∉ before) :
    splitFirst c (before ++ c :: after) = some (before, after) := by
  have hne : ∀ d ∈ before, (d != c) = true := by
    intro d hd
    simp only [bne_iff_ne]
    rintro rfl
    exact first hd
  rw [splitFirst, List.dropWhile_append_of_pos hne, List.takeWhile_append_of_pos hne]
  simp

theorem splitFirst_of_notMem (h : c ∉ cs) : splitFirst c cs = none := by
  have hnil : cs.dropWhile (· != c) = [] := by
    rw [List.dropWhile_eq_nil_iff]
    intro d hd
    simp only [bne_iff_ne]
    rintro rfl
    exact h hd
  rw [splitFirst, hnil]

theorem splitFirst_eq_some_iff :
    splitFirst c cs = some (before, after) ↔ cs = before ++ c :: after ∧ c ∉ before := by
  constructor
  · intro h
    by_cases hc : c ∈ cs
    · obtain ⟨as, bs, rfl, hfirst⟩ := List.eq_append_cons_of_mem hc
      rw [splitFirst_append hfirst] at h
      cases h
      exact ⟨rfl, hfirst⟩
    · rw [splitFirst_of_notMem hc] at h
      cases h
  · rintro ⟨rfl, first⟩
    exact splitFirst_append first

theorem splitLast_eq_some_iff :
    splitLast c cs = some (before, after) ↔ cs = before ++ c :: after ∧ c ∉ after := by
  simp only [splitLast, Option.map_eq_some_iff, Prod.exists, splitFirst_eq_some_iff,
    Prod.mk.injEq]
  constructor
  · rintro ⟨as, bs, ⟨hcs, hfirst⟩, rfl, rfl⟩
    refine ⟨?_, by simpa using hfirst⟩
    rw [← List.reverse_inj, hcs]
    simp
  · rintro ⟨rfl, last⟩
    exact ⟨after.reverse, before.reverse, ⟨by simp, by simpa using last⟩, by simp, by simp⟩

end Split

section Marks

variable {cs ds : List Char} {c : Char} {n first last : Nat}

theorem toNat_of_isDigit (h : c.isDigit = true) : 48 ≤ c.toNat ∧ c.toNat ≤ 57 := by
  simp only [Char.isDigit, Bool.and_eq_true, decide_eq_true_eq, ge_iff_le,
    UInt32.le_iff_toNat_le] at h
  exact h

theorem isBlank_of_isDigit (h : c.isDigit = true) : isBlank c = false := by
  obtain ⟨least, greatest⟩ := toNat_of_isDigit h
  exact isBlank_of_printable (by omega) (by omega)

theorem Digits.isDigit_or_plus (h : Digits cs n) (hc : c ∈ '+' :: cs) :
    c.isDigit = true ∨ c = '+' := by
  rcases List.mem_cons.mp hc with rfl | hc
  · exact .inr rfl
  · exact .inl (h.digits c hc)

theorem Numeral.isDigit_or_plus (h : Numeral cs n) (hc : c ∈ cs) : c.isDigit = true ∨ c = '+' := by
  cases h with
  | bare h => exact h.isDigit_or_plus (List.mem_cons_of_mem '+' hc)
  | plus h => exact h.isDigit_or_plus hc

theorem Numeral.not_isBlank (h : Numeral cs n) (hc : c ∈ cs) : isBlank c = false := by
  rcases h.isDigit_or_plus hc with hd | rfl
  · exact isBlank_of_isDigit hd
  · rfl

theorem Numeral.lt_size (h : Numeral cs n) : n < UInt32.size := by
  cases h with
  | bare h => exact h.fits
  | plus h => exact h.fits

/-- No numeral holds a mark, that is neither a digit nor a plus sign. -/
theorem Numeral.notMem (h : Numeral cs n) (digit : c.isDigit = false) (plus : c ≠ '+') :
    c ∉ cs := by
  intro hc
  rcases h.isDigit_or_plus hc with hd | rfl
  · rw [digit] at hd
    cases hd
  · exact plus rfl

theorem Spaced.notMem (h : Spaced cs n) (blank : isBlank c = false) (digit : c.isDigit = false)
    (plus : c ≠ '+') : c ∉ cs := by
  obtain ⟨hbefore, hnumeral, hafter⟩ := h
  simp only [List.mem_append, not_or]
  refine ⟨⟨?_, hnumeral.notMem digit plus⟩, ?_⟩
  · intro hc
    rw [hbefore c hc] at blank
    cases blank
  · intro hc
    rw [hafter c hc] at blank
    cases blank

theorem Range.le (h : Range cs first last) : first ≤ last := by
  cases h with
  | verse _ => exact le_rfl
  | verses _ _ le => exact le

theorem Spaced.lt_size (h : Spaced cs n) : n < UInt32.size := by
  obtain ⟨-, hnumeral, -⟩ := h
  exact hnumeral.lt_size

theorem Range.lt_size (h : Range cs first last) : last < UInt32.size := by
  cases h with
  | verse h => exact h.lt_size
  | verses _ h _ => exact h.lt_size

end Marks

section Reading

variable {cs ds : List Char} {n first last : Nat} {verses : Option (Nat × Nat)}

theorem digits_iff :
    (if !cs.isEmpty && cs.all Char.isDigit && Nat.ofDigitChars 10 cs 0 < UInt32.size then
      some (Nat.ofDigitChars 10 cs 0) else none) = some n ↔ Digits cs n := by
  constructor
  · intro h
    split_ifs at h with hdigits
    cases h
    simp only [Bool.and_eq_true, Bool.not_eq_true', List.isEmpty_eq_false_iff, List.all_eq_true,
      decide_eq_true_eq] at hdigits
    exact ⟨hdigits.1.1, hdigits.1.2, rfl, hdigits.2⟩
  · rintro ⟨nonempty, digits, rfl, fits⟩
    rw [if_pos]
    simp only [Bool.and_eq_true, Bool.not_eq_true', List.isEmpty_eq_false_iff, List.all_eq_true,
      decide_eq_true_eq]
    exact ⟨⟨nonempty, digits⟩, fits⟩

theorem numeral?_eq_some_iff : numeral? cs = some n ↔ Numeral cs n := by
  constructor
  · intro h
    unfold numeral? at h
    split at h
    · exact .plus (digits_iff.mp h)
    · exact .bare (digits_iff.mp h)
  · intro h
    cases h with
    | plus h => exact digits_iff.mpr h
    | bare h =>
      unfold numeral?
      split
      · have hplus : ('+').isDigit = true := h.digits '+' List.mem_cons_self
        cases hplus
      · exact digits_iff.mpr h

theorem numeral?_trimChars_eq_some_iff : numeral? (trimChars cs) = some n ↔ Spaced cs n := by
  rw [numeral?_eq_some_iff]
  constructor
  · intro h
    obtain ⟨before, after, hcs, hbefore, hafter⟩ := exists_strip isBlank cs
    rw [hcs]
    exact .mk hbefore h hafter
  · rintro ⟨hbefore, h, hafter⟩
    rw [trimChars, strip_around _ _ hbefore hafter]
    · exact h
    · intro c hc
      exact h.not_isBlank (List.mem_of_head? hc)
    · intro c hc
      exact h.not_isBlank (List.mem_of_getLast? hc)

theorem range?_eq_some_iff : range? cs = some (first, last) ↔ Range cs first last := by
  constructor
  · intro h
    unfold range? at h
    split at h
    · rename_i before after hsplit
      obtain ⟨rfl, -⟩ := splitFirst_eq_some_iff.mp hsplit
      simp only [Option.bind_eq_bind, Option.bind_eq_some_iff,
        numeral?_trimChars_eq_some_iff] at h
      obtain ⟨n, hn, m, hm, h⟩ := h
      split_ifs at h with hlt
      cases h
      exact .verses hn hm (Nat.not_lt.mp hlt)
    · obtain ⟨n, hn, h⟩ := Option.bind_eq_some_iff.mp h
      cases h
      exact .verse (numeral?_trimChars_eq_some_iff.mp hn)
  · intro h
    cases h with
    | verse h =>
      rw [range?, splitFirst_of_notMem (h.notMem rfl rfl (by decide))]
      simp [numeral?_trimChars_eq_some_iff.mpr h]
    | verses h h' le =>
      rw [range?, splitFirst_append (h.notMem rfl rfl (by decide))]
      simp [numeral?_trimChars_eq_some_iff.mpr h, numeral?_trimChars_eq_some_iff.mpr h', le]

/-- Verses behind a chapter, whatever the chapter is. -/
theorem location?_append (chapter : ':' ∉ cs) (h : Range ds first last) :
    location? (cs ++ ':' :: ds) = (numeral? cs).map fun n => (n, some (first, last)) := by
  rw [location?, splitFirst_append chapter]
  simp only [range?_eq_some_iff.mpr h]
  cases numeral? cs with
  | none => rfl
  | some n => rfl

theorem location?_eq_some_iff : location? cs = some (n, verses) ↔ Location cs n verses := by
  constructor
  · intro h
    unfold location? at h
    split at h
    · obtain ⟨m, hm, h⟩ := Option.bind_eq_some_iff.mp h
      cases h
      exact .chapter (numeral?_eq_some_iff.mp hm)
    · rename_i before after hsplit
      obtain ⟨rfl, -⟩ := splitFirst_eq_some_iff.mp hsplit
      obtain ⟨m, hm, h⟩ := Option.bind_eq_some_iff.mp h
      obtain ⟨⟨first, last⟩, hrange, h⟩ := Option.bind_eq_some_iff.mp h
      cases h
      exact .verses (numeral?_eq_some_iff.mp hm) (range?_eq_some_iff.mp hrange)
  · intro h
    cases h with
    | chapter h =>
      rw [location?, splitFirst_of_notMem (h.notMem rfl (by decide))]
      simp [numeral?_eq_some_iff.mpr h]
    | verses h h' =>
      rw [location?_append (h.notMem rfl (by decide)) h', numeral?_eq_some_iff.mpr h]
      rfl

end Reading

section Decimal

variable {cs : List Char} {c : Char} {n first last : Nat} {verses : Option (Nat × Nat)}

theorem Location.lt_size (h : Location cs n verses) : n < UInt32.size := by
  cases h with
  | chapter h => exact h.lt_size
  | verses h _ => exact h.lt_size

theorem Location.verses_le (h : Location cs n verses) :
    verses = some (first, last) → first ≤ last ∧ last < UInt32.size := by
  rintro rfl
  cases h with
  | verses _ h => exact ⟨h.le, h.lt_size⟩

theorem digits_repr (fits : n < UInt32.size) : Digits n.repr.toList n := by
  rw [Nat.toList_repr]
  exact {
    nonempty := Nat.toDigits_ne_nil
    digits := fun c hc => Nat.isDigit_of_mem_toDigits (by decide) (by decide) hc
    value := Nat.ofDigitChars_toDigits (by decide) (by decide)
    fits := fits }

theorem numeral?_repr (fits : n < UInt32.size) : numeral? n.repr.toList = some n :=
  numeral?_eq_some_iff.mpr (.bare (digits_repr fits))

theorem spaced_repr (fits : n < UInt32.size) : Spaced n.repr.toList n := by
  have h : Spaced ([] ++ n.repr.toList ++ []) n :=
    .mk (by simp) (.bare (digits_repr fits)) (by simp)
  simpa using h

theorem isDigit_of_mem_repr (hc : c ∈ n.repr.toList) : c.isDigit = true := by
  rw [Nat.toList_repr] at hc
  exact Nat.isDigit_of_mem_toDigits (by decide) (by decide) hc

theorem range_verse (fits : n < UInt32.size) : Range n.repr.toList n n := .verse (spaced_repr fits)

theorem range_verses (le : first ≤ last) (fits : last < UInt32.size) :
    Range (first.repr ++ "-" ++ last.repr).toList first last := by
  have h := Range.verses (spaced_repr (lt_of_le_of_lt le fits)) (spaced_repr fits) le
  simpa using h

end Decimal

/-- There is something, and no blank character in it. -/
structure Solid (s : String) : Prop where
  nonempty : s ≠ ""
  solid : ∀ c ∈ s.toList, isBlank c = false

namespace Solid

variable {book location name : String}

theorem tidy (h : Solid location) : Tidy location where
  first c hc := h.solid c (List.mem_of_head? hc)
  last c hc := h.solid c (List.mem_of_getLast? hc)

theorem append {s t : String} (hs : Solid s) (ht : Solid t) : Solid (s ++ t) where
  nonempty := by simp [hs.nonempty]
  solid c hc := by
    rw [String.toList_append] at hc
    rcases List.mem_append.mp hc with hc | hc
    · exact hs.solid c hc
    · exact ht.solid c hc

theorem repr (n : Nat) : Solid n.repr where
  nonempty := by
    rw [Nat.repr_eq_ofList_toDigits]
    simp
  solid _ hc := isBlank_of_isDigit (isDigit_of_mem_repr hc)

theorem mark {s : String} (c : Char) (h : s.toList = [c]) (blank : isBlank c = false) :
    Solid s where
  nonempty := by
    rintro rfl
    cases h
  solid d hd := by
    rw [h] at hd
    rwa [List.mem_singleton.mp hd]

theorem colon : Solid ":" := mark ':' (by simp) rfl

theorem dash : Solid "-" := mark '-' (by simp) rfl

theorem trims_of_blank (h : Solid location) (blank : Blank book) :
    Trims (book ++ " " ++ location) location := by
  refine ⟨h.tidy, book.toList ++ [' '], [], by simp, ?_, by simp⟩
  intro c hc
  rcases List.mem_append.mp hc with hc | hc
  · exact blank c hc
  · rw [List.mem_singleton.mp hc]
    rfl

/-- Nothing is trimmed behind a location, and in front of a name what is trimmed of the book. -/
theorem exists_trims (h : Solid location) (named : Trims book name) (nonblank : name ≠ "") :
    ∃ left, Trims left name ∧ Trims (book ++ " " ++ location) (left ++ " " ++ location) := by
  obtain ⟨⟨first, last⟩, before, after, hbook, hbefore, hafter⟩ := named
  refine ⟨name ++ String.ofList after, ⟨⟨first, last⟩, [], after, by simp, by simp, hafter⟩, ?_⟩
  refine ⟨⟨?_, ?_⟩, before, [], by simp [hbook], hbefore, by simp⟩
  · intro c hc
    have hname : name.toList ≠ [] := by simpa using nonblank
    obtain ⟨d, ds, hd⟩ := List.exists_cons_of_ne_nil hname
    refine first c ?_
    simpa [hd] using hc
  · intro c hc
    have hlocation : location.toList ≠ [] := by simpa using h.nonempty
    rw [String.toList_append, List.getLast?_append, List.getLast?_eq_some_getLast hlocation] at hc
    refine h.tidy.last c ?_
    rwa [List.getLast?_eq_some_getLast hlocation]

end Solid

namespace Reference

variable {s t book location : String} {before after : List Char} {r : Reference}

/-- A text is read as its parts are. -/
theorem parse?_eq (s : String) : parse? s =
    (splitLast ' ' (trimChars s.toList)).bind fun parts =>
      (content? (String.ofList parts.1)).bind fun book =>
        (location? (trimChars parts.2)).map fun place => ⟨book, place.1, place.2⟩ := by
  unfold parse?
  cases splitLast ' ' (trimChars s.toList) with
  | none => rfl
  | some parts =>
    have hbook : content? (String.ofList parts.1) =
        if (trimChars parts.1).isEmpty then none
        else some (String.ofList (trimChars parts.1)) := by
      simp [content?, trim]
    simp only [Option.bind_eq_bind, Option.bind_some, hbook]
    cases hblank : (trimChars parts.1).isEmpty with
    | true => rfl
    | false =>
      cases hempty : (trimChars parts.2).isEmpty with
      | true =>
        rw [List.isEmpty_iff.mp hempty]
        rfl
      | false =>
        cases location? (trimChars parts.2) with
        | none => rfl
        | some place => rfl

theorem parse?_eq_some_iff : parse? s = some r ↔ Refers s r := by
  rw [parse?_eq]
  constructor
  · intro h
    obtain ⟨⟨before, after⟩, hsplit, h⟩ := Option.bind_eq_some_iff.mp h
    obtain ⟨name, hname, h⟩ := Option.bind_eq_some_iff.mp h
    obtain ⟨⟨chapter, verses⟩, hlocation, rfl⟩ := Option.map_eq_some_iff.mp h
    obtain ⟨hwhole, hlast⟩ := splitLast_eq_some_iff.mp hsplit
    obtain ⟨named, nonblank⟩ := content?_eq_some_iff.mp hname
    have parts : trim s = String.ofList before ++ " " ++ String.ofList after := by
      rw [← String.toList_inj, toList_trim, ← trimChars, hwhole]
      simp
    refine .mk (trims_trim s) parts (by simpa using hlast) named nonblank (trims_trim _) ?_
    rw [toList_trim, String.toList_ofList]
    exact location?_eq_some_iff.mp hlocation
  · rintro ⟨trimmed, rfl, lastSpace, named, nonblank, placed, located⟩
    rename_i book location name place chapter verses
    have hsplit : splitLast ' ' (trimChars s.toList) = some (book.toList, location.toList) := by
      rw [splitLast_eq_some_iff]
      refine ⟨?_, lastSpace⟩
      rw [trimChars, ← toList_trim, trims_iff.mp trimmed]
      simp
    have hname : content? book = some name := content?_eq_some_iff.mpr ⟨named, nonblank⟩
    have hplace : location? (trimChars location.toList) = some (chapter, verses) := by
      rw [location?_eq_some_iff, trimChars, ← toList_trim, trims_iff.mp placed]
      exact located
    simp [hsplit, hname, hplace]

/-- A book and a location are read as these two are. -/
theorem parse?_append (solid : Solid location) (book : String) :
    parse? (book ++ " " ++ location) = (content? book).bind fun name =>
      (location? location.toList).map fun place => ⟨name, place.1, place.2⟩ := by
  have hspace : ' ' ∉ location.toList := by
    intro hc
    cases solid.solid ' ' hc
  have htrimmed (s : String) : trimChars s.toList = (trim s).toList := (toList_trim s).symm
  have hlocation : trimChars location.toList = location.toList := by
    rw [htrimmed, tidy_iff.mp solid.tidy]
  rw [parse?_eq, htrimmed]
  cases hbook : content? book with
  | none =>
    have hsplit : splitLast ' ' location.toList = none := by
      rw [splitLast, splitFirst_of_notMem (by simpa using hspace), Option.map_none]
    rw [trims_iff.mp (solid.trims_of_blank (content?_eq_none_iff.mp hbook)), hsplit]
    rfl
  | some name =>
    obtain ⟨named, nonblank⟩ := content?_eq_some_iff.mp hbook
    obtain ⟨left, hleft, hwhole⟩ := solid.exists_trims named nonblank
    have hsplit : splitLast ' ' (left ++ " " ++ location).toList =
        some (left.toList, location.toList) := by
      rw [splitLast_eq_some_iff]
      exact ⟨by simp, hspace⟩
    have hname : content? left = some name := content?_eq_some_iff.mpr ⟨hleft, nonblank⟩
    rw [trims_iff.mp hwhole, hsplit]
    simp [hname, hlocation]

/-- Verses behind a chapter are read alike, however they are written. -/
theorem parse?_verses {range : String} {first last : Nat} (solid : Solid range)
    (h : Range range.toList first last) (book : String) (chapter : Nat) :
    parse? (book ++ " " ++ (chapter.repr ++ ":" ++ range)) = (content? book).bind fun name =>
      (numeral? chapter.repr.toList).map fun n => ⟨name, n, some (first, last)⟩ := by
  have hcolon : ':' ∉ chapter.repr.toList := fun hc => by cases isDigit_of_mem_repr hc
  have hplace := location?_append hcolon h
  rw [parse?_append (((Solid.repr chapter).append .colon).append solid)]
  have htext : (chapter.repr ++ ":" ++ range).toList =
      chapter.repr.toList ++ ':' :: range.toList := by simp
  simp only [htext, hplace, Option.map_map]
  rfl

/-- A reference in good order is read from whatever way it is written in. -/
theorem WrittenAs.parse? (h : r.WrittenAs t) (wellFormed : r.WellFormed) :
    Reference.parse? t = some r := by
  have hbook : content? r.book = some r.book :=
    content?_eq_some_iff.mpr ⟨wellFormed.tidy.trims, wellFormed.named⟩
  have hchapter := numeral?_repr wellFormed.chapter
  cases h with
  | chapter book chapter =>
    have hplace : location? chapter.repr.toList = some (chapter, none) :=
      location?_eq_some_iff.mpr (.chapter (numeral?_eq_some_iff.mp hchapter))
    rw [parse?_append (.repr chapter), hbook, hplace]
    rfl
  | verse book chapter verse =>
    obtain ⟨-, fits⟩ := wellFormed.verses verse verse rfl
    rw [parse?_verses (.repr verse) (range_verse fits), hbook, hchapter]
    rfl
  | verses book chapter first last =>
    obtain ⟨le, fits⟩ := wellFormed.verses first last rfl
    rw [parse?_verses (((Solid.repr first).append .dash).append (.repr last))
      (range_verses le fits), hbook, hchapter]
    rfl

theorem writtenAs_print (r : Reference) : r.WrittenAs r.print := by
  obtain ⟨book, chapter, verses⟩ := r
  cases verses with
  | none =>
    have htext : print ⟨book, chapter, none⟩ = book ++ " " ++ chapter.repr := by
      rw [← String.toList_inj]
      simp [print]
    rw [htext]
    exact .chapter book chapter
  | some verses =>
    obtain ⟨first, last⟩ := verses
    by_cases single : first = last
    · subst single
      have htext : print ⟨book, chapter, some (first, first)⟩ =
          book ++ " " ++ (chapter.repr ++ ":" ++ first.repr) := by
        rw [← String.toList_inj]
        simp [print]
      rw [htext]
      exact .verse book chapter first
    · have htext : print ⟨book, chapter, some (first, last)⟩ =
          book ++ " " ++ (chapter.repr ++ ":" ++ (first.repr ++ "-" ++ last.repr)) := by
        rw [← String.toList_inj]
        simp [print, single]
      rw [htext]
      exact .verses book chapter first last

theorem wellFormed_of_parse? (h : parse? s = some r) : r.WellFormed := by
  obtain ⟨trimmed, parts, lastSpace, named, nonblank, placed, located⟩ := parse?_eq_some_iff.mp h
  exact {
    tidy := named.tidy
    named := nonblank
    chapter := located.lt_size
    verses := fun first last => located.verses_le }

/-- Reading gives back what is written, finds what the grammar says and nothing else, and comes
to references that can be written and read again. -/
theorem parse?_inverts_writing :
    (∀ (r : Reference) (t : String), r.WellFormed → r.WrittenAs t → parse? t = some r) ∧
      (∀ r : Reference, r.WrittenAs r.print) ∧
      (∀ (s : String) (r : Reference), parse? s = some r ↔ Refers s r) ∧
      ∀ (s : String) (r : Reference), parse? s = some r →
        r.WellFormed ∧ parse? r.print = some r := by
  refine ⟨fun r t wellFormed h => h.parse? wellFormed, writtenAs_print,
    fun s r => parse?_eq_some_iff, ?_⟩
  intro s r h
  have wellFormed := wellFormed_of_parse? h
  exact ⟨wellFormed, (writtenAs_print r).parse? wellFormed⟩

/-- A book with a number, a space and a colon in its name. -/
theorem parse?_inverts_writing_letter :
    let r : Reference := ⟨"1 John: α", 4294967295, some (8, 10)⟩
    r.WellFormed ∧ r.WrittenAs "1 John: α 4294967295:8-10" ∧
      parse? "1 John: α 4294967295:8-10" = some r ∧
      Refers "1 John: α 4294967295:8-10" r := by
  intro r
  have wellFormed : r.WellFormed :=
    ⟨tidy_iff.mpr (by decide), by decide, by decide, by rintro _ _ ⟨⟩; decide⟩
  have written : r.WrittenAs "1 John: α 4294967295:8-10" := .verses "1 John: α" 4294967295 8 10
  obtain ⟨inverts, -, reads, -⟩ := parse?_inverts_writing
  have hread := inverts r _ wellFormed written
  exact ⟨wellFormed, written, hread, (reads _ r).mp hread⟩

end Reference

end Scripture
end Lectern
