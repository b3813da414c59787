import Lectern.Proofs.Item.Showing
import Lectern.Proofs.Wire.Spans

/-!
# How much an item shows

An item shows texts of its own, what the sources have for it, or a short text that says what
is missing. Trimming leaves no more of a text than there was.
-/

namespace Lectern

open Json Projection

namespace Text

theorem span_trim_le (s : String) : span (trim s) ≤ span s := by
  obtain ⟨-, before, after, hs, -⟩ := trims_trim s
  have hpart : (trim s).toList <:+: s.toList := ⟨before, after, hs.symm⟩
  exact charsSpan_le_of_sublist hpart.sublist

theorem span_content?_le (s : String) : spanIf span (content? s) ≤ span s := by
  unfold content?
  dsimp only
  split
  · exact Nat.zero_le _
  · exact span_trim_le s

theorem span_bind_content?_le (o : Option String) :
    spanIf span (o.bind content?) ≤ spanIf span o := by
  cases o with
  | none => exact Nat.le_refl _
  | some s =>
    rw [Option.bind_some, spanIf_some]
    exact span_content?_le s

end Text

/-- Whatever the sources have takes at most so many bytes: what an item of a plan shows, what a
block of a song shows, the verses of a reference, and the reason why a plan cannot be had. -/
structure Sources.Within (shown : Nat) (s : Sources) : Prop where
  items : ∀ id p, s.library.plan id = .ok (some p) →
    ∀ item ∈ p.items, (item.slide s).content.span ≤ shown
  blocks : ∀ id song, s.library.song id = .ok (some song) →
    ∀ block ∈ song.blocks, (Plan.Item.blockSlide song block).content.span ≤ shown
  verses : ∀ reference vs, s.bible.lookup reference = .ok (some vs) →
    span (Plan.Item.versesText vs) ≤ shown
  failures : ∀ id f, s.library.plan id = .error f → span f.message ≤ shown

namespace Plan
namespace Item

variable {sources : Sources} {shown : Nat}

theorem span_shownTitle_le (item : Item) : spanIf Json.span item.shownTitle ≤
    spanIf Json.span item.title := Text.span_bind_content?_le item.title

theorem span_plainText (title : Option String) (body : String) :
    (plainText title body).content.span = spanIf Json.span title + Json.span body := rfl

theorem span_or_le {o : Option String} {s : String} :
    spanIf Json.span (o.or (some s)) ≤ spanIf Json.span o + Json.span s := by
  cases o with
  | none => exact Nat.le_add_left _ _
  | some t => exact Nat.le_add_right _ _

theorem span_ownText_le (item : Item) : item.ownText.content.span ≤ item.span := by
  have htitle := item.span_shownTitle_le
  have hcontent : Json.span (Text.trim (item.content.getD "")) ≤
      spanIf Json.span item.content := by
    cases item.content with
    | none => decide
    | some s => exact Text.span_trim_le s
  rw [ownText, span_plainText, span]
  omega

theorem span_missingSong_le (item : Item) : item.missingSong.content.span ≤ item.span + 64 := by
  have htitle := item.span_shownTitle_le
  have hor := @span_or_le item.shownTitle "Missing song"
  have hwords : (["Missing song", "This song is no longer available in the library."].map
      Json.span).sum = 60 := by
    decide
  simp only [List.map_cons, List.map_nil, List.sum_cons, List.sum_nil] at hwords
  rw [missingSong, span_plainText, span]
  omega

theorem span_mediaSlide_le (item : Item) (type : MediaType) :
    (item.mediaSlide type).content.span ≤ item.span + 64 := by
  have htitle := item.span_shownTitle_le
  have hpath := Text.span_bind_content?_le item.mediaPath
  have hwords : Json.span "This item has no media file attached." ≤ 64 := by decide
  unfold mediaSlide
  split
  · rename_i path hmedia
    rw [hmedia, spanIf_some] at hpath
    simp only [Slide.content, Content.span, MediaSlide.span, span]
    omega
  · rw [span_plainText, span]
    omega

theorem span_songSlide_le (within : sources.Within shown) (item : Item) :
    (item.songSlide sources.library).content.span ≤ item.span + shown + 64 := by
  have hmissing := item.span_missingSong_le
  unfold songSlide
  split
  · rename_i song hsong
    obtain ⟨id, -, hlibrary⟩ := Option.map_eq_some_iff.mp hsong
    split
    · rename_i block hblock
      have hmem : block ∈ song.blocks := (Song.blockOrFirst_eq_some_iff.mp hblock).mem
      have := within.blocks id song hlibrary block hmem
      omega
    · omega
  · omega

theorem span_bibleSlide_le (within : sources.Within shown) (item : Item) :
    (item.bibleSlide sources.bible).content.span ≤ item.span + shown := by
  have hown := item.span_ownText_le
  unfold bibleSlide
  split
  · rename_i reference _ hreference
    split
    · rename_i v vs hlookup
      have hverses := within.verses reference _ hlookup
      have htitle := item.span_shownTitle_le
      have href := Text.span_bind_content?_le item.refId
      have hlabel : spanIf Json.span (item.shownTitle.or (some reference)) ≤
          spanIf Json.span item.title + spanIf Json.span item.refId := by
        cases hshown : item.shownTitle with
        | some t =>
          rw [hshown] at htitle
          exact Nat.le_trans htitle (Nat.le_add_right _ _)
        | none =>
          rw [hshown, Option.or_none] at hreference
          rw [hreference] at href
          exact Nat.le_trans href (Nat.le_add_left _ _)
      rw [span_plainText, span]
      omega
    · omega
  · omega

/-- What an item shows takes no more than its own texts and what the sources have. -/
theorem span_slide_le (within : sources.Within shown) (item : Item) :
    (item.slide sources).content.span ≤ item.span + shown + 64 := by
  unfold slide
  split
  · exact span_songSlide_le within item
  · exact Nat.le_trans (item.span_mediaSlide_le .image) (by omega)
  · exact Nat.le_trans (item.span_mediaSlide_le .pdf) (by omega)
  · exact Nat.le_trans (item.span_bibleSlide_le within) (by omega)
  · exact Nat.le_trans (item.span_bibleSlide_le within) (by omega)
  all_goals exact Nat.le_trans item.span_ownText_le (by omega)

end Item
end Plan
end Lectern
