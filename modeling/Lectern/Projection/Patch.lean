import Lectern.Projection.Screen

/-!
# Changes of a display

A patch overwrites the parts it mentions. An edit is one request to change a surface.
-/

namespace Lectern
namespace Projection

structure Patch where
  mode : Option Mode
  lowerThird : Option Bool
  transition : Option Bool
  textScale : Option Binary64
  background : Option String
  foreground : Option String
  content : Option Content
deriving DecidableEq

def Patch.apply (p : Patch) (d : Display) : Display where
  mode := p.mode.getD d.mode
  lowerThird := p.lowerThird.getD d.lowerThird
  transition := p.transition.getD d.transition
  textScale := p.textScale.getD d.textScale
  background := p.background.getD d.background
  foreground := p.foreground.getD d.foreground
  content := p.content.getD d.content

structure Appearance where
  textScale : Option Binary64
  background : Option String
  foreground : Option String
deriving DecidableEq

def Appearance.apply (p : Appearance) (d : Display) : Display :=
  { d with
    textScale := p.textScale.getD d.textScale
    background := p.background.getD d.background
    foreground := p.foreground.getD d.foreground }

inductive Edit where
  | patch (p : Patch)
  | text (slide : TextSlide)
  | media (slide : MediaSlide)
  | mode (m : Mode)
  | appearance (p : Appearance)
deriving DecidableEq

def Edit.apply : Edit → Display → Display
  | patch p, d => p.apply d
  | text slide, d => d.showing (.text slide)
  | media slide, d => d.showing (.media slide)
  | mode m, d => { d with mode := m }
  | appearance p, d => p.apply d

def Slide.edit : Slide → Edit
  | text slide => .text slide
  | media slide => .media slide

end Projection
end Lectern
