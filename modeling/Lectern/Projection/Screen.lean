import Lectern.Number.Binary64
import Lectern.Number.Int64
import Lectern.Projection.Content

/-!
# Screens

A screen is what one surface displays together with the time of its last write. Times
order the writes of a surface whatever the clock says: each write is stamped later than
the one before it, as long as there is a later time of sixty-four bits.
-/

namespace Lectern
namespace Projection

inductive Mode where
  | normal
  | black
  | white
deriving DecidableEq

/-- Black wins over white. -/
def Mode.ofBlank (black white : Bool) : Mode :=
  if black then .black else if white then .white else .normal

/-- Everything about a screen that can be seen. -/
structure Display where
  mode : Mode
  lowerThird : Bool
  transition : Bool
  textScale : Binary64
  background : String
  foreground : String
  content : Content
deriving DecidableEq

structure Screen where
  display : Display
  updatedAt : Int
deriving DecidableEq

namespace Display

def default : Display where
  mode := .normal
  lowerThird := false
  transition := true
  textScale := .one
  background := "#050505"
  foreground := "#ffffff"
  content := .empty

/-- Nothing to tell the two displays apart; text scales are compared as numbers. -/
def looksLike (d e : Display) : Bool :=
  d.mode == e.mode && d.lowerThird == e.lowerThird && d.transition == e.transition &&
    d.textScale.same e.textScale && d.background == e.background &&
    d.foreground == e.foreground && d.content == e.content

/-- New content is shown, not blanked. -/
def showing (d : Display) (content : Content) : Display := { d with content, mode := .normal }

end Display

namespace Screen

def default : Screen := ⟨Display.default, 0⟩

/-- The time of a write at `now` after one at `previous`. Behind the last time of sixty-four bits
stands the first. -/
def stamp (now previous : Int) : Int := max now (wrap64 (previous + 1))

def write (s : Screen) (now : Int) (change : Display → Display) : Screen :=
  ⟨change s.display, stamp now s.updatedAt⟩

/-- The screen takes over the display of `source` and is at least as new. -/
def copy (s source : Screen) (now : Int) : Screen :=
  s.write (max now source.updatedAt) fun _ => source.display

theorem lt_stamp (now : Int) {previous : Int} (fits : IsInt64 (previous + 1)) :
    previous < stamp now previous := by
  rw [stamp, wrap64_of_isInt64 fits]
  omega

theorem le_stamp (now previous : Int) : now ≤ stamp now previous := Int.le_max_left _ _

theorem isInt64_stamp {now : Int} (h : IsInt64 now) (previous : Int) :
    IsInt64 (stamp now previous) := h.max (isInt64_wrap64 _)

@[simp] theorem write_display (s : Screen) (now : Int) (change : Display → Display) :
    (s.write now change).display = change s.display := rfl

@[simp] theorem write_updatedAt (s : Screen) (now : Int) (change : Display → Display) :
    (s.write now change).updatedAt = stamp now s.updatedAt := rfl

/-- A write shows at least in the time. -/
theorem write_ne {s : Screen} (fits : IsInt64 (s.updatedAt + 1)) (now : Int)
    (change : Display → Display) : s.write now change ≠ s := by
  intro h
  have hlt : s.updatedAt < (s.write now change).updatedAt := lt_stamp now fits
  rw [h] at hlt
  exact Int.lt_irrefl _ hlt

@[simp] theorem copy_display (s source : Screen) (now : Int) :
    (s.copy source now).display = source.display := rfl

theorem le_copy_updatedAt (s source : Screen) (now : Int) :
    source.updatedAt ≤ (s.copy source now).updatedAt :=
  Int.le_trans (Int.le_max_right now source.updatedAt) (le_stamp _ _)

end Screen

abbrev Screens := PerSurface Screen

namespace Screens

/-- All surfaces begin alike, before any write. -/
def initial (screen : Screen) : Screens := .replicate { screen with updatedAt := 0 }

def write (screens : Screens) (s : Surface) (now : Int) (change : Display → Display) : Screens :=
  screens.set s ((screens.get s).write now change)

def copy (screens : Screens) (source s : Surface) (now : Int) : Screens :=
  screens.set s ((screens.get s).copy (screens.get source) now)

end Screens
end Projection
end Lectern
