import Lectern.Proofs.Scripture.Grammar
import Lectern.Proofs.StableOrder
import Lectern.Scripture.Dataset

/-!
# What a lookup finds

A lookup finds the verses of a dataset that the reference covers, as often as they are there, in
the order of their numbers and otherwise as they stand. So a range of verses is found as its
verses are, one after another; and as neither books nor the marks of a reference depend on the
case of letters, no lookup does.
-/

namespace Lectern
namespace Scripture

open Text

variable {dataset found : List Verse} {s t : String} {r : Reference} {v : Verse}

/-- The verse is in the book, up to the case of ASCII letters, in the chapter, and among the
verses if the reference names any. -/
structure Reference.Covers (r : Reference) (v : Verse) : Prop where
  book : v.book.toLower = r.book.toLower
  chapter : v.chapter = r.chapter
  verses : ∀ first last, r.verses = some (first, last) → first ≤ v.number ∧ v.number ≤ last

theorem sameBook_iff : sameBook s t = true ↔ s.toLower = t.toLower := by
  simp [sameBook, ← String.toList_inj, toList_toLower]

theorem Reference.contains_iff : r.contains v = true ↔ r.Covers v := by
  obtain ⟨book, chapter, verses⟩ := r
  constructor
  · intro h
    cases verses with
    | none =>
      simp only [contains, Bool.and_true, Bool.and_eq_true, sameBook_iff, beq_iff_eq] at h
      exact ⟨h.1, h.2, by simp⟩
    | some verses =>
      simp only [contains, Bool.and_eq_true, sameBook_iff, beq_iff_eq, decide_eq_true_eq] at h
      refine ⟨h.1.1, h.1.2, ?_⟩
      rintro first last ⟨⟩
      exact h.2
  · rintro ⟨hbook, hchapter, hverses⟩
    cases verses with
    | none => simpa [contains, sameBook_iff] using ⟨hbook, hchapter⟩
    | some verses =>
      have hrange := hverses verses.1 verses.2 rfl
      simpa [contains, sameBook_iff] using ⟨⟨hbook, hchapter⟩, hrange⟩

instance (r : Reference) (v : Verse) : Decidable (r.Covers v) :=
  decidable_of_iff _ Reference.contains_iff

theorem filter_contains (r : Reference) (dataset : List Verse) :
    dataset.filter r.contains = dataset.filter fun v => r.Covers v := by
  refine List.filter_congr ?_
  intro v _
  rw [Bool.eq_iff_iff, Reference.contains_iff, decide_eq_true_iff]

/-- What is found of a reference, if anything. -/
def versesOf (dataset : List Verse) (r : Reference) : List Verse :=
  sortVerses (dataset.filter fun v => r.Covers v)

theorem stableOrder_versesOf (dataset : List Verse) (r : Reference) :
    StableOrder Verse.number (dataset.filter fun v => r.Covers v) (versesOf dataset r) :=
  stableOrder_mergeSort Verse.number _

theorem versesOf_eq_nil_iff : versesOf dataset r = [] ↔ ∀ v ∈ dataset, ¬ r.Covers v := by
  have hperm := (stableOrder_versesOf dataset r).perm
  constructor
  · intro h v hv hcovers
    rw [h] at hperm
    have hmem : v ∈ dataset.filter fun v => r.Covers v := by simp [hv, hcovers]
    rw [hperm.symm.eq_nil] at hmem
    cases hmem
  · intro h
    have hnil : (dataset.filter fun v => r.Covers v) = [] := by
      rw [List.filter_eq_nil_iff]
      simpa using h
    rw [hnil] at hperm
    exact hperm.eq_nil

theorem lookup?_eq (dataset : List Verse) (s : String) : lookup? dataset s =
    (Reference.parse? s).bind fun r =>
      if versesOf dataset r = [] then none else some (versesOf dataset r) := by
  unfold lookup?
  cases Reference.parse? s with
  | none => rfl
  | some r =>
    have hfound : sortVerses (dataset.filter r.contains) = versesOf dataset r := by
      rw [filter_contains]
      rfl
    simp only [Option.bind_eq_bind, Option.bind_some, hfound]
    cases versesOf dataset r with
    | nil => rfl
    | cons v vs => rfl

theorem getD_lookup? (dataset : List Verse) (s : String) :
    (lookup? dataset s).getD [] = ((Reference.parse? s).map (versesOf dataset)).getD [] := by
  rw [lookup?_eq]
  cases Reference.parse? s with
  | none => rfl
  | some r =>
    simp only [Option.bind_some, Option.map_some, Option.getD_some]
    split_ifs with h
    · exact h.symm
    · rfl

theorem lookup?_eq_none_iff : lookup? dataset s = none ↔
    ∀ r, Reference.parse? s = some r → ∀ v ∈ dataset, ¬ r.Covers v := by
  rw [lookup?_eq]
  cases Reference.parse? s with
  | none => simp
  | some r => simp [← versesOf_eq_nil_iff]

theorem exists_of_lookup? (h : lookup? dataset s = some found) :
    ∃ r, Reference.parse? s = some r ∧ found ≠ [] ∧
      StableOrder Verse.number (dataset.filter fun v => r.Covers v) found := by
  rw [lookup?_eq] at h
  obtain ⟨r, hr, h⟩ := Option.bind_eq_some_iff.mp h
  split_ifs at h with hnil
  cases h
  exact ⟨r, hr, hnil, stableOrder_versesOf dataset r⟩

section Ranges

variable {book : String} {chapter first last number : Nat}

theorem covers_range_iff : (⟨book, chapter, some (first, last)⟩ : Reference).Covers v ↔
    (⟨book, chapter, none⟩ : Reference).Covers v ∧ first ≤ v.number ∧ v.number ≤ last := by
  constructor
  · rintro ⟨hbook, hchapter, hverses⟩
    exact ⟨⟨hbook, hchapter, by simp⟩, hverses first last rfl⟩
  · rintro ⟨⟨hbook, hchapter, -⟩, hrange⟩
    refine ⟨hbook, hchapter, ?_⟩
    rintro _ _ ⟨⟩
    exact hrange

/-- The verses of one number are found as they stand. -/
theorem versesOf_single (dataset : List Verse) (book : String) (chapter number : Nat) :
    versesOf dataset ⟨book, chapter, some (number, number)⟩ =
      dataset.filter fun v => (⟨book, chapter, some (number, number)⟩ : Reference).Covers v := by
  set r : Reference := ⟨book, chapter, some (number, number)⟩
  have hnumber : ∀ v ∈ dataset.filter fun v => r.Covers v,
      number ≤ v.number ∧ v.number < number + 1 := by
    intro v hv
    have hcovers := covers_range_iff.mp (of_decide_eq_true (List.mem_filter.mp hv).2)
    exact ⟨hcovers.2.1, Nat.lt_succ_of_le hcovers.2.2⟩
  rw [(stableOrder_versesOf dataset r).eq_flatMap hnumber, List.range'_one,
    List.flatMap_singleton, List.filter_eq_self]
  intro v hv
  obtain ⟨least, greatest⟩ := hnumber v hv
  exact decide_eq_true (by omega)

/-- A range of verses is found one number after another. -/
theorem versesOf_range (dataset : List Verse) (book : String) (chapter first last : Nat) :
    versesOf dataset ⟨book, chapter, some (first, last)⟩ =
      (List.range' first (last + 1 - first)).flatMap fun number =>
        versesOf dataset ⟨book, chapter, some (number, number)⟩ := by
  set r : Reference := ⟨book, chapter, some (first, last)⟩
  have hwithin : ∀ v ∈ dataset.filter fun v => r.Covers v,
      first ≤ v.number ∧ v.number < first + (last + 1 - first) := by
    intro v hv
    have hcovers := covers_range_iff.mp (of_decide_eq_true (List.mem_filter.mp hv).2)
    omega
  rw [(stableOrder_versesOf dataset r).eq_flatMap hwithin]
  refine List.flatMap_congr ?_
  intro number hnumber
  rw [versesOf_single, List.filter_filter]
  refine List.filter_congr ?_
  intro v _
  rw [← Bool.decide_and, decide_eq_decide, covers_range_iff, covers_range_iff]
  rw [List.mem_range'_1] at hnumber
  constructor
  · rintro ⟨rfl, hcovers, -⟩
    exact ⟨hcovers, le_rfl, le_rfl⟩
  · rintro ⟨hcovers, least, greatest⟩
    exact ⟨le_antisymm greatest least, hcovers, by omega⟩

/-- Looking a range up finds what looking its verses up finds, one after another. -/
theorem lookup?_verses (dataset : List Verse) (book : String) (chapter : Nat)
    (le : first ≤ last) (fits : last < UInt32.size) :
    (lookup? dataset
        (book ++ " " ++ (chapter.repr ++ ":" ++ (first.repr ++ "-" ++ last.repr)))).getD [] =
      (List.range' first (last + 1 - first)).flatMap fun number =>
        (lookup? dataset (book ++ " " ++ (chapter.repr ++ ":" ++ number.repr))).getD [] := by
  have hrange := Reference.parse?_verses (((Solid.repr first).append .dash).append (.repr last))
    (range_verses le fits) book chapter
  have hverse : ∀ number ∈ List.range' first (last + 1 - first),
      Reference.parse? (book ++ " " ++ (chapter.repr ++ ":" ++ number.repr)) =
        (content? book).bind fun name => (numeral? chapter.repr.toList).map fun n =>
          ⟨name, n, some (number, number)⟩ := by
    intro number hnumber
    rw [List.mem_range'_1] at hnumber
    exact Reference.parse?_verses (.repr number) (range_verse (by omega)) book chapter
  have hfound : ((List.range' first (last + 1 - first)).flatMap fun number =>
      (lookup? dataset (book ++ " " ++ (chapter.repr ++ ":" ++ number.repr))).getD []) =
      (List.range' first (last + 1 - first)).flatMap fun number =>
        (((content? book).bind fun name => (numeral? chapter.repr.toList).map fun n =>
          (⟨name, n, some (number, number)⟩ : Reference)).map (versesOf dataset)).getD [] := by
    refine List.flatMap_congr ?_
    intro number hnumber
    rw [getD_lookup?, hverse number hnumber]
  rw [getD_lookup?, hrange, hfound]
  cases content? book with
  | none => simp
  | some name =>
    cases numeral? chapter.repr.toList with
    | none => simp
    | some n => exact versesOf_range dataset name n first last

end Ranges

section Cases

variable {c : Char} {cs : List Char} {f : Char → Char}

theorem splitFirst_map (h : ∀ d, f d = c ↔ d = c) :
    splitFirst c (cs.map f) =
      (splitFirst c cs).map fun parts => (parts.1.map f, parts.2.map f) := by
  have hne : (fun d => d != c) ∘ f = fun d => d != c := by
    funext d
    simp [h, bne, beq_eq_decide]
  rw [splitFirst, List.dropWhile_map, List.takeWhile_map, hne, splitFirst]
  cases cs.dropWhile (· != c) with
  | nil => rfl
  | cons d ds => rfl

theorem splitLast_map (h : ∀ d, f d = c ↔ d = c) :
    splitLast c (cs.map f) =
      (splitLast c cs).map fun parts => (parts.1.map f, parts.2.map f) := by
  rw [splitLast, ← List.map_reverse, splitFirst_map h, splitLast, Option.map_map, Option.map_map]
  simp [Function.comp_def]

theorem Numeral.not_isAlpha {n : Nat} (h : Numeral cs n) (hc : c ∈ cs) : c.isAlpha = false := by
  rcases h.isDigit_or_plus hc with hdigit | rfl
  · obtain ⟨least, greatest⟩ := toNat_of_isDigit hdigit
    rw [Bool.eq_false_iff, ne_eq, isAlpha_iff]
    omega
  · rfl

theorem numeral?_toLower (cs : List Char) : numeral? (cs.map Char.toLower) = numeral? cs := by
  have hlower (h : ∀ c ∈ cs, c.isAlpha = false) : cs.map Char.toLower = cs := by
    conv_rhs => rw [← List.map_id cs]
    refine List.map_congr_left ?_
    intro c hc
    exact toLower_of_not_isAlpha (h c hc)
  refine Option.ext ?_
  intro n
  rw [numeral?_eq_some_iff, numeral?_eq_some_iff]
  constructor
  · intro h
    have hletters : ∀ c ∈ cs, c.isAlpha = false := by
      intro c hc
      rw [← isAlpha_toLower]
      exact h.not_isAlpha (List.mem_map_of_mem hc)
    rwa [hlower hletters] at h
  · intro h
    rwa [hlower fun c hc => h.not_isAlpha hc]

theorem range?_toLower (cs : List Char) : range? (cs.map Char.toLower) = range? cs := by
  rw [range?, splitFirst_map fun d => toLower_eq_iff rfl, range?]
  cases splitFirst '-' cs with
  | none => simp only [Option.map_none, trimChars_toLower, numeral?_toLower]
  | some parts => simp only [Option.map_some, trimChars_toLower, numeral?_toLower]

theorem location?_toLower (cs : List Char) : location? (cs.map Char.toLower) = location? cs := by
  rw [location?, splitFirst_map fun d => toLower_eq_iff rfl, location?]
  cases splitFirst ':' cs with
  | none => simp only [Option.map_none, numeral?_toLower]
  | some parts => simp only [Option.map_some, range?_toLower, numeral?_toLower]

/-- The reference with the name of its book in small letters. -/
def Reference.lower (r : Reference) : Reference := ⟨r.book.toLower, r.chapter, r.verses⟩

/-- The case of letters makes a difference to the name of the book only. -/
theorem Reference.parse?_toLower (s : String) :
    Reference.parse? s.toLower = (Reference.parse? s).map Reference.lower := by
  rw [parse?_eq, parse?_eq, toList_toLower, trimChars_toLower,
    splitLast_map fun d => toLower_eq_iff rfl]
  cases splitLast ' ' (trimChars s.toList) with
  | none => rfl
  | some parts =>
    have hbook : String.ofList (parts.1.map Char.toLower) = (String.ofList parts.1).toLower := by
      rw [← String.toList_inj, toList_toLower]
      simp
    simp only [Option.map_some, Option.bind_some, hbook, content?_toLower, trimChars_toLower,
      location?_toLower]
    cases content? (String.ofList parts.1) with
    | none => rfl
    | some book =>
      cases location? (trimChars parts.2) with
      | none => rfl
      | some place => rfl

theorem versesOf_congr {q : Reference} (h : q.lower = r.lower) :
    versesOf dataset q = versesOf dataset r := by
  simp only [Reference.lower, Reference.mk.injEq] at h
  obtain ⟨hbook, hchapter, hverses⟩ := h
  have hcovers : ∀ v, q.Covers v ↔ r.Covers v := by
    intro v
    constructor
    · rintro ⟨book, chapter, verses⟩
      exact ⟨book.trans hbook, chapter.trans hchapter, hverses ▸ verses⟩
    · rintro ⟨book, chapter, verses⟩
      exact ⟨book.trans hbook.symm, chapter.trans hchapter.symm, hverses ▸ verses⟩
  simp only [versesOf, hcovers]

/-- The case of letters makes no difference to what is found. -/
theorem lookup?_congr (dataset : List Verse) (h : s.toLower = t.toLower) :
    lookup? dataset s = lookup? dataset t := by
  have hparse : (Reference.parse? s).map Reference.lower =
      (Reference.parse? t).map Reference.lower := by
    rw [← Reference.parse?_toLower, h, Reference.parse?_toLower]
  rw [lookup?_eq, lookup?_eq]
  cases hs : Reference.parse? s with
  | none =>
    rw [hs, Option.map_none, eq_comm, Option.map_eq_none_iff] at hparse
    rw [hparse]
  | some q =>
    rw [hs, Option.map_some, eq_comm, Option.map_eq_some_iff] at hparse
    obtain ⟨r, hr, hlower⟩ := hparse
    rw [hr, Option.bind_some, Option.bind_some, versesOf_congr hlower]

end Cases

/-- A lookup finds what the reference covers and nothing else, a range as its verses are found,
and does not tell the case of letters. -/
theorem lookup?_exact (dataset : List Verse) :
    (∀ s : String, lookup? dataset s = none ↔
      ∀ r, Reference.parse? s = some r → ∀ v ∈ dataset, ¬ r.Covers v) ∧
    (∀ (s : String) (found : List Verse), lookup? dataset s = some found →
      ∃ r, Reference.parse? s = some r ∧ found ≠ [] ∧
        StableOrder Verse.number (dataset.filter fun v => r.Covers v) found) ∧
    (∀ (book : String) (chapter first last : Nat), first ≤ last → last < UInt32.size →
      (lookup? dataset
          (book ++ " " ++ (chapter.repr ++ ":" ++ (first.repr ++ "-" ++ last.repr)))).getD [] =
        (List.range' first (last + 1 - first)).flatMap fun number =>
          (lookup? dataset (book ++ " " ++ (chapter.repr ++ ":" ++ number.repr))).getD []) ∧
    ∀ s t : String, s.toLower = t.toLower → lookup? dataset s = lookup? dataset t := by
  refine ⟨fun s => lookup?_eq_none_iff, fun s found => exists_of_lookup?, ?_, ?_⟩
  · intro book chapter first last le fits
    exact lookup?_verses dataset book chapter le fits
  · intro s t h
    exact lookup?_congr dataset h

/-- A dataset out of order, with two verses of one number. -/
theorem lookup?_exact_doubled :
    let dataset : List Verse :=
      [⟨"John", 3, 17, "third"⟩, ⟨"JOHN", 3, 16, "first"⟩, ⟨"john", 3, 16, "second"⟩,
        ⟨"John", 4, 16, "elsewhere"⟩]
    let r : Reference := ⟨"John", 3, some (16, 17)⟩
    let found : List Verse :=
      [⟨"JOHN", 3, 16, "first"⟩, ⟨"john", 3, 16, "second"⟩, ⟨"John", 3, 17, "third"⟩]
    lookup? dataset "John 3:16-17" = some found ∧
      StableOrder Verse.number (dataset.filter fun v => r.Covers v) found ∧
      (found = (List.range' 16 2).flatMap fun number =>
        (lookup? dataset ("John" ++ " " ++ (Nat.repr 3 ++ ":" ++ number.repr))).getD []) ∧
      lookup? dataset "jOHN 3:16-17" = some found := by
  intro dataset r found
  have hparse : Reference.parse? "John 3:16-17" = some r := by decide
  have hcontained : dataset.filter r.contains =
      [⟨"John", 3, 17, "third"⟩, ⟨"JOHN", 3, 16, "first"⟩, ⟨"john", 3, 16, "second"⟩] := by
    decide
  have hfound : lookup? dataset "John 3:16-17" = some found := by
    simp [lookup?, hparse, hcontained, sortVerses, found, List.mergeSort,
      List.MergeSort.Internal.splitInTwo]
  have htext : "John" ++ " " ++ (Nat.repr 3 ++ ":" ++ (Nat.repr 16 ++ "-" ++ Nat.repr 17)) =
      "John 3:16-17" := by
    decide
  have hlower : "jOHN 3:16-17".toLower = "John 3:16-17".toLower := by
    rw [← String.toList_inj, toList_toLower, toList_toLower]
    decide
  obtain ⟨-, sorted, ranges, cases⟩ := lookup?_exact dataset
  obtain ⟨q, hq, -, hsorted⟩ := sorted _ _ hfound
  obtain rfl : r = q := Option.some.inj (hparse.symm.trans hq)
  have hrange := ranges "John" 3 16 17 (by decide) (by decide)
  rw [htext, hfound] at hrange
  exact ⟨hfound, hsorted, hrange, (cases _ _ hlower).trans hfound⟩

end Scripture
end Lectern
