import Lectern.Surface

/-!
# What a surface can show

A surface shows nothing, a text, or a picture or document from a file. A text that comes
from a song says which song and which block of it.
-/

namespace Lectern
namespace Projection

inductive MediaType where
  | image
  | pdf
deriving DecidableEq

/-- Where the text of a song comes from. -/
structure SongSource where
  songId : String
  songTitle : String
  blockId : Option String
  blockTitle : Option String
deriving DecidableEq

structure TextSlide where
  title : Option String
  body : String
  song : Option SongSource
deriving DecidableEq

structure MediaSlide where
  title : Option String
  path : String
  type : MediaType
deriving DecidableEq

inductive Content where
  | empty
  | text (slide : TextSlide)
  | media (slide : MediaSlide)
deriving DecidableEq

/-- What is handed over to be projected. -/
inductive Slide where
  | text (slide : TextSlide)
  | media (slide : MediaSlide)
deriving DecidableEq

def Slide.content : Slide → Content
  | text slide => .text slide
  | media slide => .media slide

end Projection
end Lectern
