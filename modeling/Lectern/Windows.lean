import Lectern.Surface

/-!
# Display windows

Whatever keeps the windows can say whether the window of a surface is open and can be asked
to open it; the request may fail, and it may succeed without a window coming up. The
registry counts the connected displays of each surface: its window is open while it has
been requested or a display is connected.
-/

namespace Lectern

class Windows (ω : Type) where
  isOpen : ω → Surface → Bool
  /-- Whether the request succeeded, and the windows after it. -/
  openSurface : ω → Surface → Bool × ω

namespace Windows

structure Slot where
  requested : Bool
  connected : Nat
deriving DecidableEq

def Slot.isOpen (s : Slot) : Bool := s.requested || 0 < s.connected

structure Registry where
  slots : PerSurface Slot
deriving DecidableEq

namespace Registry

def empty : Registry := ⟨.replicate ⟨false, 0⟩⟩

def isOpen (r : Registry) (s : Surface) : Bool := (r.slots.get s).isOpen

def connected (r : Registry) (s : Surface) : Nat := (r.slots.get s).connected

/-- Changes a slot, and tells whether the window is open now if that has changed. -/
def update (r : Registry) (s : Surface) (change : Slot → Slot) : Option Bool × Registry :=
  let before := r.slots.get s
  let after := change before
  (if before.isOpen = after.isOpen then none else some after.isOpen, ⟨r.slots.set s after⟩)

def connect (r : Registry) (s : Surface) : Option Bool × Registry :=
  r.update s fun slot => { slot with connected := slot.connected + 1 }

def disconnect (r : Registry) (s : Surface) : Option Bool × Registry :=
  r.update s fun slot => { slot with connected := slot.connected - 1 }

def openSurface (r : Registry) (s : Surface) : Registry :=
  (r.update s fun slot => { slot with requested := true }).2

def closeSurface (r : Registry) (s : Surface) : Registry :=
  (r.update s fun slot => { slot with requested := false }).2

end Registry

instance : Windows Registry where
  isOpen := Registry.isOpen
  openSurface r s := (true, r.openSurface s)

end Windows
end Lectern
