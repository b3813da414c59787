import Lectern.Proofs.Desk.Projecting
import Lectern.Proofs.Item.Showing

/-!
# Nothing to be had

A source that fails, one that finds nothing and one that finds something empty lead to the same
slide, and so to the same projection: a song block says that there is no song, and a Bible item
shows its own words like an announcement. Nothing but a lock keeps an item from being projected.
-/

namespace Lectern

open Projection Text

theorem Projection.Slide.apply_edit (slide : Slide) (display : Display) :
    slide.edit.apply display = display.showing slide.content := by
  cases slide <;> rfl

namespace Plan
namespace Item

variable {item : Item} {sources sources' : Sources}

/-- The sources have nothing to show of what the item refers to. -/
structure Lacks (sources : Sources) (item : Item) : Prop where
  song : item.kind = .songBlock → ∀ id, Leaves item.refId (some id) → sources.library.Lacks id
  verses : item.kind.IsBible → ∀ reference, item.Refers reference → sources.bible.Lacks reference

theorem Lacks.slide_eq_missingSong (h : item.Lacks sources) (kind : item.kind = .songBlock) :
    item.slide sources = item.missingSong :=
  slide_of_lacks kind fun id hid => h.song kind id (leaves_refId_iff.mpr hid)

theorem Lacks.slide_eq_ownText (h : item.Lacks sources) (kind : item.kind.IsBible) :
    item.slide sources = item.ownText := by
  rw [slide_of_bible kind]
  exact bibleSlide_of_lacks (h.verses kind)

/-- It makes no difference why there is nothing to show. -/
theorem Lacks.slide_eq (h : item.Lacks sources) (h' : item.Lacks sources') :
    item.slide sources = item.slide sources' := by
  rcases item.kind.sorts with kind | ⟨type, kind⟩ | kind | kind
  · rw [h.slide_eq_missingSong kind, h'.slide_eq_missingSong kind]
  · rw [slide_of_media kind, slide_of_media kind]
  · rw [h.slide_eq_ownText kind, h'.slide_eq_ownText kind]
  · rw [slide_of_text kind, slide_of_text kind]

/-- The placeholder of a song has a title and a body. -/
theorem exists_missingSong (item : Item) :
    ∃ title body, item.missingSong = .text ⟨some title, body, none⟩ ∧ title ≠ "" ∧ body ≠ "" := by
  have hbody : "This song is no longer available in the library." ≠ "" := by decide
  unfold missingSong plainText
  cases htitle : item.shownTitle with
  | none => exact ⟨"Missing song", _, rfl, by decide, hbody⟩
  | some title =>
    have hleaves : Leaves item.title (some title) := htitle ▸ item.leaves_shownTitle
    exact ⟨title, _, rfl, hleaves.ne_empty, hbody⟩

end Item
end Plan

namespace Desk

open Plan

variable {ω : Type} [Windows ω] {d : Desk ω}

/-- Projections of an item for which there is nothing are the same, windows and all, whatever it
is that the sources have not. The slide is a placeholder or the item's own words. An item that no
lock keeps from the root of its target is shown there, whatever the sources do. -/
theorem Reachable.projects_without_sources (h : d.Reachable) (target : Surface) (item : Item) :
    (∀ sources sources' : Sources, item.Lacks sources → item.Lacks sources' →
        d.projectItem sources target item = d.projectItem sources' target item) ∧
      (∀ sources : Sources, item.Lacks sources → item.kind = .songBlock →
        item.slide sources = item.missingSong ∧
          ∃ title body, item.missingSong = .text ⟨some title, body, none⟩ ∧
            title ≠ "" ∧ body ≠ "") ∧
      (∀ sources : Sources, item.Lacks sources → item.kind.IsBible →
        item.slide sources = { item with kind := .announcementText }.slide sources) ∧
      ∀ sources : Sources,
        (d.live.locks.get target = true ∨ d.live.locks.get (d.links.root target) = true →
          d.projectItem sources target item = (.refused .locked, d)) ∧
        (d.live.locks.get target = false → d.live.locks.get (d.links.root target) = false →
          ∃ screen, (d.projectItem sources target item).1 =
              .applied (d.links.root target) screen ∧
            (d.projectItem sources target item).2.screens.get (d.links.root target) = screen ∧
            screen.display = (d.screens.get (d.links.root target)).display.showing
              (item.slide sources).content) := by
  refine ⟨fun sources sources' lacks lacks' => ?_, fun sources lacks kind => ?_,
    fun sources lacks kind => ?_, fun sources => ⟨?_, fun unlocked rootUnlocked => ?_⟩⟩
  · rw [projectItem, lacks.slide_eq lacks', projectItem]
  · exact ⟨lacks.slide_eq_missingSong kind, item.exists_missingSong⟩
  · have htext : ({ item with kind := .announcementText } : Item).kind.IsText := .announcement
    rw [lacks.slide_eq_ownText kind]
    exact (Item.slide_of_text htext).symm
  · exact project_of_locked (item.slide sources)
  · have forest := h.consistent.forest
    rw [projectItem, project_of_unlocked _ unlocked rootUnlocked]
    refine ⟨_, rfl, rfl, ?_⟩
    rw [get_write_self forest, Screen.write_display, Slide.apply_edit]

/-- The library is offline, and the Bible finds an empty list. -/
def offline : Sources where
  library := ⟨fun _ => .error (.of "library offline"), fun _ => .error (.of "library offline")⟩
  bible := ⟨fun _ => .ok (some [])⟩

/-- The library has no such song, and the Bible cannot be read. -/
def bare : Sources where
  library := .ofCatalogue (.ok .empty)
  bible := ⟨fun _ => .error (.of "no such file")⟩

def graceItem : Item := ⟨"1", 1, .songBlock, some " ", none, some "grace", none, none⟩

theorem lacks_song {sources : Sources} (h : ∀ id, sources.library.Lacks id) :
    graceItem.Lacks sources where
  song _ id _ := h id
  verses kind := by cases kind

/-- A song for C, which mirrors A, while the library is offline and while it has no songs. -/
theorem projects_without_sources_grace :
    let d := recordedOpening.run [.setLink .c (.mirror .a)]
    d.Reachable ∧ graceItem.Lacks offline ∧ graceItem.Lacks bare ∧
      d.projectItem offline .c graceItem = d.projectItem bare .c graceItem ∧
      d.live.locks.get .c = false ∧ d.live.locks.get (d.links.root .c) = false ∧
      ∃ screen, (d.projectItem offline .c graceItem).1 = .applied (d.links.root .c) screen := by
  intro d
  have hreachable : d.Reachable := Reachable.run (.initial _ _ _) _
  have hoffline : graceItem.Lacks offline := lacks_song fun id => .failure rfl
  have hbare : graceItem.Lacks bare := lacks_song fun id => .missing rfl
  have unlocked : d.live.locks.get .c = false := by rfl
  have rootUnlocked : d.live.locks.get (d.links.root .c) = false := by rfl
  obtain ⟨halike, -, -, hprojects⟩ := hreachable.projects_without_sources .c graceItem
  obtain ⟨screen, houtcome, -⟩ := (hprojects offline).2 unlocked rootUnlocked
  exact ⟨hreachable, hoffline, hbare, halike offline bare hoffline hbare, unlocked, rootUnlocked,
    screen, houtcome⟩

end Desk
end Lectern
